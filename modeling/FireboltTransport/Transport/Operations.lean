/-
# Sending through a transport

`Transport::Send` and `Transport::SendResponse` record an identifier in
`_pendingQueue` and then submit a message to the channel.  Any number of
operations run on any threads; a label is one step of one of them, and the
critical section of `_adminLock` is one step.

The lock itself is part of the state, since `Send` returns without releasing it
when the identifier is already present.  Assertions have no effect, as in a
release build.
-/

import FireboltTransport.CommunicationChannel
import FireboltTransport.Semantics.Run
import FireboltTransport.Semantics.StdMap

namespace FireboltTransport.Transport

open Semantics

universe u v

/-- `CommunicationChannel::Entry`, without its event and its callback. -/
inductive Entry
  | synchronous (signalled : Bool) (response : List Message)
  | asynchronous (waitTime : UInt64)
  deriving DecidableEq

/-- `Entry::Entry()`. -/
def Entry.new : Entry := .synchronous false []

/-- A `CriticalSection` of the framework: a recursive mutex. -/
inductive CriticalSection (τ : Type u)
  | free
  /-- Held by `owner`, which has locked it `again` times since it took it. -/
  | held (owner : τ) (again : ℕ)
  deriving DecidableEq

namespace CriticalSection

variable {τ : Type u} [DecidableEq τ]

/-- `Lock` by `thread`, or `none` while another thread holds the mutex. -/
def lock (mutex : CriticalSection τ) (thread : τ) : Option (CriticalSection τ) :=
  match mutex with
  | .free => some (.held thread 0)
  | .held owner again => if owner = thread then some (.held owner (again + 1)) else none

def unlock : CriticalSection τ → CriticalSection τ
  | .held owner (again + 1) => .held owner again
  | _ => .free

/-- Unlocking undoes locking. -/
theorem unlock_of_lock {mutex held : CriticalSection τ} {thread : τ}
    (hlock : mutex.lock thread = some held) : held.unlock = mutex := by
  cases mutex with
  | free =>
      cases hlock
      rfl
  | held owner again =>
      simp only [lock] at hlock
      split_ifs at hlock
      cases hlock
      rfl

end CriticalSection

/-- An operation of a transport. -/
inductive Call
  /-- `Send` under an identifier drawn from the channel. -/
  | send (method parameters : Text)
  /-- `SendResponse` to the request `id` of the peer. -/
  | sendResponse (id : MessageID) (response : Text)
  deriving DecidableEq

/-- The message an operation submits; `parse` is `Message::FromString`. -/
def Call.message (parse : Text → Message) (id : MessageID) : Call → Message
  | .send method parameters =>
      { Message.empty with
        id := ⟨true, id⟩
        designator := ⟨true, method⟩
        -- `ToMessage` leaves the member out when the text is empty.
        parameters := ⟨!parameters.isEmpty, parameters⟩ }
  | .sendResponse _ response =>
      let msg := parse response
      { Message.empty with
        id := ⟨true, id⟩
        result := ⟨true, msg.result.value⟩
        error := if msg.error.isSet then msg.error else Message.empty.error }

/-- Where an operation is. -/
inductive Phase (τ : Type u)
  | idle
  | begun (thread : τ) (id : MessageID) (call : Call)
  /-- The channel was found valid and not suspended. -/
  | checked (thread : τ) (id : MessageID) (call : Call)
  /-- The identifier is in `_pendingQueue` and `_adminLock` is released. -/
  | recorded (id : MessageID) (call : Call)
  | returned (id : MessageID) (call : Call) (status : Error)
  deriving DecidableEq

/-- A transport that operations `κ` on threads `τ` use. -/
structure State (τ : Type u) (κ : Type v) where
  /-- `_channel`, when it is valid. -/
  channel : Option Channel
  suspended : Bool
  adminLock : CriticalSection τ
  pendingQueue : StdMap MessageID Entry
  /-- What the channel was asked to submit, with the operation that asked. -/
  submitted : List (κ × Message)
  phase : κ → Phase τ

inductive Action (τ : Type u) (κ : Type v)
  /-- `IsSuspended` of the channel changes. -/
  | suspend (suspended : Bool)
  /-- An operation begins; a `Send` has drawn its identifier just before. -/
  | start (op : κ) (thread : τ) (call : Call)
  | check (op : κ)
  | record (op : κ)
  | submit (op : κ)
  deriving DecidableEq

variable {τ : Type u} {κ : Type v} [DecidableEq κ]

def State.setPhase (state : State τ κ) (op : κ) (phase : Phase τ) : State τ κ :=
  { state with phase := Function.update state.phase op phase }

/-- A transport over a channel nobody has drawn from. -/
def initial : State τ κ where
  channel := some .new
  suspended := false
  adminLock := .free
  pendingQueue := ∅
  submitted := []
  phase _ := .idle

variable [DecidableEq τ]

/-- One step, or `none` when the label is not enabled. -/
def step (codes : CoreErrors) (parse : Text → Message) (state : State τ κ) :
    Action τ κ → Option (State τ κ)
  | .suspend suspended => some { state with suspended := suspended }
  | .start op thread call =>
      match state.phase op, call, state.channel with
      | .idle, .send _ _, some channel =>
          some ({ state with channel := some channel.sequence.2 }.setPhase op
            (.begun thread channel.sequence.1 call))
      | .idle, .sendResponse id _, _ => some (state.setPhase op (.begun thread id call))
      | _, _, _ => none
  | .check op =>
      match state.phase op with
      | .begun thread id call =>
          if state.channel = none then
            some (state.setPhase op
              (.returned id call (codes.fireboltErrorValue codes.errorUnavailable)))
          else if state.suspended then
            some (state.setPhase op
              (.returned id call (codes.fireboltErrorValue codes.errorAsyncFailed)))
          else some (state.setPhase op (.checked thread id call))
      | _ => none
  | .record op =>
      match state.phase op with
      | .checked thread id call =>
          (state.adminLock.lock thread).map fun held =>
            match state.pendingQueue.lookup id, call with
            | none, _ =>
                { state with
                  adminLock := held.unlock
                  pendingQueue := state.pendingQueue.insert id .new }.setPhase op
                  (.recorded id call)
            -- `Send` returns from here with the lock held.
            | some _, .send _ _ =>
                { state with adminLock := held }.setPhase op
                  (.returned id call (codes.fireboltErrorValue codes.errorAsyncFailed))
            | some _, .sendResponse _ _ =>
                { state with adminLock := held.unlock }.setPhase op
                  (.returned id call (codes.fireboltErrorValue codes.errorAsyncFailed))
      | _ => none
  | .submit op =>
      match state.phase op with
      | .recorded id call =>
          some ({ state with
            submitted := state.submitted ++ [(op, call.message parse id)] }.setPhase op
            (.returned id call (codes.fireboltErrorValue codes.errorNone)))
      | _ => none

/-- The steps of the transport, as a relation. -/
inductive Step (codes : CoreErrors) (parse : Text → Message) (state : State τ κ) :
    Action τ κ → State τ κ → Prop
  | suspend (suspended : Bool) :
      Step codes parse state (.suspend suspended) { state with suspended := suspended }
  | send (op : κ) (thread : τ) (method parameters : Text) (channel : Channel)
      (hphase : state.phase op = .idle) (hchannel : state.channel = some channel) :
      Step codes parse state (.start op thread (.send method parameters))
        ({ state with channel := some channel.sequence.2 }.setPhase op
          (.begun thread channel.sequence.1 (.send method parameters)))
  | sendResponse (op : κ) (thread : τ) (id : MessageID) (response : Text)
      (hphase : state.phase op = .idle) :
      Step codes parse state (.start op thread (.sendResponse id response))
        (state.setPhase op (.begun thread id (.sendResponse id response)))
  | unavailable (op : κ) (thread : τ) (id : MessageID) (call : Call)
      (hphase : state.phase op = .begun thread id call) (hchannel : state.channel = none) :
      Step codes parse state (.check op)
        (state.setPhase op
          (.returned id call (codes.fireboltErrorValue codes.errorUnavailable)))
  | refuse (op : κ) (thread : τ) (id : MessageID) (call : Call)
      (hphase : state.phase op = .begun thread id call) (hsuspended : state.suspended = true) :
      Step codes parse state (.check op)
        (state.setPhase op
          (.returned id call (codes.fireboltErrorValue codes.errorAsyncFailed)))
  | check (op : κ) (thread : τ) (id : MessageID) (call : Call)
      (hphase : state.phase op = .begun thread id call) :
      Step codes parse state (.check op) (state.setPhase op (.checked thread id call))
  | record (op : κ) (thread : τ) (id : MessageID) (call : Call) (held : CriticalSection τ)
      (hphase : state.phase op = .checked thread id call)
      (hlock : state.adminLock.lock thread = some held)
      (hunused : state.pendingQueue.lookup id = none) :
      Step codes parse state (.record op)
        ({ state with pendingQueue := state.pendingQueue.insert id .new }.setPhase op
          (.recorded id call))
  | clashSend (op : κ) (thread : τ) (id : MessageID) (method parameters : Text) (entry : Entry)
      (held : CriticalSection τ)
      (hphase : state.phase op = .checked thread id (.send method parameters))
      (hlock : state.adminLock.lock thread = some held)
      (hused : state.pendingQueue.lookup id = some entry) :
      Step codes parse state (.record op)
        ({ state with adminLock := held }.setPhase op
          (.returned id (.send method parameters)
            (codes.fireboltErrorValue codes.errorAsyncFailed)))
  | clashResponse (op : κ) (thread : τ) (id peer : MessageID) (response : Text) (entry : Entry)
      (held : CriticalSection τ)
      (hphase : state.phase op = .checked thread id (.sendResponse peer response))
      (hlock : state.adminLock.lock thread = some held)
      (hused : state.pendingQueue.lookup id = some entry) :
      Step codes parse state (.record op)
        (state.setPhase op (.returned id (.sendResponse peer response)
          (codes.fireboltErrorValue codes.errorAsyncFailed)))
  | submit (op : κ) (id : MessageID) (call : Call) (hphase : state.phase op = .recorded id call) :
      Step codes parse state (.submit op)
        ({ state with submitted := state.submitted ++ [(op, call.message parse id)] }.setPhase op
          (.returned id call (codes.fireboltErrorValue codes.errorNone)))

variable {codes : CoreErrors} {parse : Text → Message}

theorem step_cases {state next : State τ κ} {action : Action τ κ}
    (htaken : step codes parse state action = some next) : Step codes parse state action next := by
  cases action with
  | suspend suspended =>
      cases htaken
      exact .suspend suspended
  | start op thread call =>
      simp only [step] at htaken
      split at htaken
      · cases htaken
        exact .send op thread _ _ _ ‹_› ‹_›
      · cases htaken
        exact .sendResponse op thread _ _ ‹_›
      · cases htaken
  | check op =>
      simp only [step] at htaken
      split at htaken
      · split_ifs at htaken with hchannel hsuspended
        · cases htaken
          exact .unavailable op _ _ _ ‹_› hchannel
        · cases htaken
          exact .refuse op _ _ _ ‹_› hsuspended
        · cases htaken
          exact .check op _ _ _ ‹_›
      · cases htaken
  | record op =>
      simp only [step] at htaken
      split at htaken
      · obtain ⟨held, hlock, rfl⟩ := Option.map_eq_some_iff.mp htaken
        split
        · rw [CriticalSection.unlock_of_lock hlock]
          exact .record op _ _ _ held ‹_› hlock ‹_›
        · exact .clashSend op _ _ _ _ _ held ‹_› hlock ‹_›
        · rw [CriticalSection.unlock_of_lock hlock]
          exact .clashResponse op _ _ _ _ _ held ‹_› hlock ‹_›
      · cases htaken
  | submit op =>
      simp only [step] at htaken
      split at htaken
      · cases htaken
        exact .submit op _ _ ‹_›
      · cases htaken

end FireboltTransport.Transport
