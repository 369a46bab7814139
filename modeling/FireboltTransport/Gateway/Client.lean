/-
# The client half of the gateway

`Client::Request` draws an identifier, registers a `Caller` under it, sends the
message and waits; `Client::Response` completes the registered caller; the
watchdog collects overdue callers from the queue and marks them.  The state
keeps what these actors share, and a label is one of their steps.

Every critical section is one label.  The only one that spans two labels is the
end of a wait: `Request` keeps the caller's mutex from the moment it sees the
`ready` flag until it has erased the queue entry, so no other actor writes to
that caller in between.  The outcome is read after both mutexes are released.
-/

import FireboltTransport.CommunicationChannel
import FireboltTransport.Semantics.Run
import FireboltTransport.Semantics.StdMap
import Mathlib.Logic.Function.Basic

namespace FireboltTransport.Client

open Semantics

universe u

/-- `Client::Caller`, without its mutex and condition variable. -/
structure Caller where
  id : MessageID
  timestamp : Timestamp
  response : Text
  error : Error
  ready : Bool
  deriving DecidableEq

/-- What a `Request` that waited hands back: the recorded error, or the recorded
text that the response object is read from. -/
inductive Outcome
  | error (status : Error)
  | response (text : Text)
  deriving DecidableEq

namespace Caller

/-- `Caller::Caller`. -/
def new (id : MessageID) (now : Timestamp) : Caller where
  id := id
  timestamp := now
  response := []
  error := .none
  ready := false

/-- What `Client::Response` writes. -/
def complete (caller : Caller) (message : Message) : Caller :=
  if message.error.isSet then
    { caller with error := ⟨message.error.value.code⟩, ready := true }
  else
    { caller with response := message.result.value, ready := true }

/-- What the watchdog writes. -/
def timeOut (caller : Caller) : Caller :=
  { caller with ready := true, error := .timedout }

/-- What a `Request` reads from its caller. -/
def outcome (caller : Caller) : Outcome :=
  if caller.error = .none then .response caller.response else .error caller.error

@[simp]
theorem complete_id (caller : Caller) (message : Message) :
    (caller.complete message).id = caller.id := by
  unfold complete
  split_ifs <;> rfl

@[simp]
theorem complete_ready (caller : Caller) (message : Message) :
    (caller.complete message).ready = true := by
  unfold complete
  split_ifs <;> rfl

@[simp]
theorem timeOut_id (caller : Caller) : caller.timeOut.id = caller.id := rfl

@[simp]
theorem timeOut_ready (caller : Caller) : caller.timeOut.ready = true := rfl

@[simp]
theorem timeOut_error (caller : Caller) : caller.timeOut.error = .timedout := rfl

@[simp]
theorem timeOut_response (caller : Caller) : caller.timeOut.response = caller.response := rfl

end Caller

/-- Where a call of `Client::Request` is. -/
inductive Phase
  | idle
  /-- The identifier is drawn. -/
  | drawn (id : MessageID)
  /-- The `Caller` is constructed. -/
  | created
  /-- The `Caller` is in the queue, `Send` has not returned. -/
  | inserted
  /-- `Send` succeeded and the call waits for `ready`. -/
  | waiting
  /-- The wait ended; the caller's mutex is held. -/
  | woken
  /-- The queue entry is erased and both mutexes are released. -/
  | erased
  /-- The recorded error was compared with `Error::None`. -/
  | checked (succeeded : Bool)
  /-- Returned before drawing an identifier, since there is no transport. -/
  | notConnected
  /-- Returned the error of `Send`. -/
  | failed (status : Error)
  /-- Returned what was recorded in the `Caller`. -/
  | returned (outcome : Outcome)
  deriving DecidableEq

/-- Where the watchdog thread is in its loop. -/
inductive Watchdog (ι : Type u)
  | sleeping
  /-- The clock is read, `queue_mtx` is not taken yet. -/
  | sampled (now : Timestamp)
  /-- The queue was swept; these callers are still to be marked. -/
  | marking (outdated : List ι)
  deriving DecidableEq

/-- The callers the watchdog is about to mark. -/
def Watchdog.outdated {ι : Type u} : Watchdog ι → List ι
  | .marking outdated => outdated
  | _ => []

/-- What the calls `ι`, the response handlers and the watchdog share.  A call names
the `Caller` object it allocates, so `shared_ptr` copies are copies of the name. -/
structure State (ι : Type u) where
  transport : Option Channel
  queue : StdMap MessageID ι
  caller : ι → Caller
  phase : ι → Phase
  clock : Timestamp
  watchdog : Watchdog ι

/-- One step of one actor. -/
inductive Action (ι : Type u)
  /-- `SetTransport`. -/
  | setTransport (transport : Option Channel)
  /-- The steady clock moves on. -/
  | tick (now : Timestamp)
  /-- The null check and `GetNextMessageID`. -/
  | draw (call : ι)
  | create (call : ι)
  | insert (call : ι)
  /-- `Send` returns `result`. -/
  | send (call : ι) (result : Error)
  | wake (call : ι)
  | erase (call : ι)
  | check (call : ι)
  | read (call : ι)
  | response (message : Message)
  | sample
  | collect
  | mark
  | sleep
  deriving DecidableEq

namespace Action

variable {ι : Type u}

/-- The call whose thread takes the step. -/
def actor : Action ι → Option ι
  | .draw call | .create call | .insert call | .send call _ | .wake call | .erase call
  | .check call | .read call => some call
  | _ => none

/-- The steps that change the queue, all of them under `queue_mtx`. -/
def changesQueue : Action ι → Bool
  | .insert _ | .erase _ | .collect => true
  | _ => false

/-- The steps of the watchdog thread. -/
def isWatchdog : Action ι → Bool
  | .sample | .collect | .mark | .sleep => true
  | _ => false

end Action

variable {ι : Type u} [DecidableEq ι]

namespace State

def setPhase (state : State ι) (call : ι) (phase : Phase) : State ι :=
  { state with phase := Function.update state.phase call phase }

def setCaller (state : State ι) (call : ι) (caller : Caller) : State ι :=
  { state with caller := Function.update state.caller call caller }

/-- Completing a call changes no identifier. -/
theorem setCaller_complete_id (state : State ι) (receiver call : ι) (message : Message) :
    ((state.setCaller receiver ((state.caller receiver).complete message)).caller call).id =
      (state.caller call).id := by
  by_cases hcall : call = receiver
  · subst hcall
    simp [setCaller]
  · simp [setCaller, hcall]

/-- Timing a call out changes no identifier. -/
theorem setCaller_timeOut_id (state : State ι) (marked call : ι) :
    ((state.setCaller marked (state.caller marked).timeOut).caller call).id =
      (state.caller call).id := by
  by_cases hcall : call = marked
  · subst hcall
    simp [setCaller]
  · simp [setCaller, hcall]

/-- The sweep's test of one queue entry. -/
def expired (state : State ι) (now : Timestamp) (call : ι) : Bool :=
  Config.exceedsThreshold (now.ageCount (state.caller call).timestamp)

end State

/-- One step, or `none` when the label is not enabled. -/
def step (state : State ι) : Action ι → Option (State ι)
  | .setTransport transport => some { state with transport := transport }
  | .tick now =>
      if state.clock.ticks ≤ now.ticks then some { state with clock := now } else none
  | .draw call =>
      match state.phase call, state.transport with
      | .idle, none => some (state.setPhase call .notConnected)
      | .idle, some channel =>
          some ({ state with transport := some channel.sequence.2 }.setPhase call
            (.drawn channel.sequence.1))
      | _, _ => none
  | .create call =>
      match state.phase call with
      | .drawn id => some ((state.setCaller call (.new id state.clock)).setPhase call .created)
      | _ => none
  | .insert call =>
      if state.phase call = .created then
        some ({ state with queue := state.queue.insert (state.caller call).id call }.setPhase call
          .inserted)
      else none
  | .send call result =>
      if state.phase call = .inserted then
        some (state.setPhase call (if result = .none then .waiting else .failed result))
      else none
  | .wake call =>
      if state.phase call = .waiting ∧ (state.caller call).ready then
        some (state.setPhase call .woken)
      else none
  | .erase call =>
      if state.phase call = .woken then
        some ({ state with queue := state.queue.erase (state.caller call).id }.setPhase call
          .erased)
      else none
  | .check call =>
      if state.phase call = .erased then
        some (state.setPhase call (.checked (decide ((state.caller call).error = .none))))
      else none
  | .read call =>
      match state.phase call with
      | .checked true =>
          some (state.setPhase call (.returned (.response (state.caller call).response)))
      | .checked false =>
          some (state.setPhase call (.returned (.error (state.caller call).error)))
      | _ => none
  | .response message =>
      match state.queue.lookup message.id.value with
      -- `std::out_of_range` is caught: the reply has no receiver.
      | none => some state
      | some call =>
          -- A woken call holds its own mutex until it has erased its entry.
          if state.phase call = .woken then none
          else some (state.setCaller call ((state.caller call).complete message))
  | .sample =>
      match state.watchdog with
      | .sleeping => some { state with watchdog := .sampled state.clock }
      | _ => none
  | .collect =>
      match state.watchdog with
      | .sampled now =>
          some { state with
            queue := state.queue.filter fun _ call => !state.expired now call
            watchdog := .marking (state.queue.select fun _ call => state.expired now call) }
      | _ => none
  | .mark =>
      match state.watchdog with
      | .marking (call :: rest) =>
          if state.phase call = .woken then none
          else some { state.setCaller call (state.caller call).timeOut with
            watchdog := .marking rest }
      | _ => none
  | .sleep =>
      match state.watchdog with
      | .marking [] => some { state with watchdog := .sleeping }
      | _ => none

/-- A client at the start, with the transport it was given. -/
def initial (transport : Option Channel) (clock : Timestamp) : State ι where
  transport := transport
  queue := ∅
  caller _ := .new 0 clock
  phase _ := .idle
  clock := clock
  watchdog := .sleeping

/-! ## What one step can do

`Step` lists the effects of every label with its guard, once.  The invariants of
the client are derived from it and never unfold `step`.
-/

/-- The steps of the client, as a relation. -/
inductive Step (state : State ι) : Action ι → State ι → Prop
  | setTransport (transport : Option Channel) :
      Step state (.setTransport transport) { state with transport := transport }
  | tick (now : Timestamp) (hclock : state.clock.ticks ≤ now.ticks) :
      Step state (.tick now) { state with clock := now }
  | refuse (call : ι) (hphase : state.phase call = .idle) (htransport : state.transport = none) :
      Step state (.draw call) (state.setPhase call .notConnected)
  | draw (call : ι) (channel : Channel) (hphase : state.phase call = .idle)
      (htransport : state.transport = some channel) :
      Step state (.draw call)
        ({ state with transport := some channel.sequence.2 }.setPhase call
          (.drawn channel.sequence.1))
  | create (call : ι) (id : MessageID) (hphase : state.phase call = .drawn id) :
      Step state (.create call)
        ((state.setCaller call (.new id state.clock)).setPhase call .created)
  | insert (call : ι) (hphase : state.phase call = .created) :
      Step state (.insert call)
        ({ state with queue := state.queue.insert (state.caller call).id call }.setPhase call
          .inserted)
  | send (call : ι) (hphase : state.phase call = .inserted) :
      Step state (.send call .none) (state.setPhase call .waiting)
  | sendFailed (call : ι) (result : Error) (hphase : state.phase call = .inserted)
      (hresult : result ≠ .none) :
      Step state (.send call result) (state.setPhase call (.failed result))
  | wake (call : ι) (hphase : state.phase call = .waiting)
      (hready : (state.caller call).ready = true) :
      Step state (.wake call) (state.setPhase call .woken)
  | erase (call : ι) (hphase : state.phase call = .woken) :
      Step state (.erase call)
        ({ state with queue := state.queue.erase (state.caller call).id }.setPhase call .erased)
  | check (call : ι) (hphase : state.phase call = .erased) :
      Step state (.check call)
        (state.setPhase call (.checked (decide ((state.caller call).error = .none))))
  | readResponse (call : ι) (hphase : state.phase call = .checked true) :
      Step state (.read call)
        (state.setPhase call (.returned (.response (state.caller call).response)))
  | readError (call : ι) (hphase : state.phase call = .checked false) :
      Step state (.read call)
        (state.setPhase call (.returned (.error (state.caller call).error)))
  | ignore (message : Message) (hqueue : state.queue.lookup message.id.value = none) :
      Step state (.response message) state
  | response (message : Message) (call : ι)
      (hqueue : state.queue.lookup message.id.value = some call)
      (hphase : state.phase call ≠ .woken) :
      Step state (.response message)
        (state.setCaller call ((state.caller call).complete message))
  | sample (hwatchdog : state.watchdog = .sleeping) :
      Step state .sample { state with watchdog := .sampled state.clock }
  | collect (now : Timestamp) (hwatchdog : state.watchdog = .sampled now) :
      Step state .collect
        { state with
          queue := state.queue.filter fun _ call => !state.expired now call
          watchdog := .marking (state.queue.select fun _ call => state.expired now call) }
  | mark (call : ι) (rest : List ι) (hwatchdog : state.watchdog = .marking (call :: rest))
      (hphase : state.phase call ≠ .woken) :
      Step state .mark
        { state.setCaller call (state.caller call).timeOut with watchdog := .marking rest }
  | sleep (hwatchdog : state.watchdog = .marking []) :
      Step state .sleep { state with watchdog := .sleeping }

/-- Every enabled label is one of the listed steps. -/
theorem step_cases {state next : State ι} {action : Action ι}
    (htaken : step state action = some next) : Step state action next := by
  cases action with
  | setTransport transport =>
      obtain rfl := Option.some.inj htaken
      exact .setTransport transport
  | tick now =>
      simp only [step] at htaken
      split_ifs at htaken with hclock
      obtain rfl := Option.some.inj htaken
      exact .tick now hclock
  | draw call =>
      simp only [step] at htaken
      split at htaken
      · obtain rfl := Option.some.inj htaken
        exact .refuse call ‹_› ‹_›
      · obtain rfl := Option.some.inj htaken
        exact .draw call _ ‹_› ‹_›
      · cases htaken
  | create call =>
      simp only [step] at htaken
      split at htaken
      · obtain rfl := Option.some.inj htaken
        exact .create call _ ‹_›
      · cases htaken
  | insert call =>
      simp only [step] at htaken
      split_ifs at htaken with hphase
      obtain rfl := Option.some.inj htaken
      exact .insert call hphase
  | send call result =>
      simp only [step] at htaken
      split_ifs at htaken with hphase hresult
      · subst hresult
        obtain rfl := Option.some.inj htaken
        exact .send call hphase
      · obtain rfl := Option.some.inj htaken
        exact .sendFailed call result hphase hresult
  | wake call =>
      simp only [step] at htaken
      split_ifs at htaken with hguard
      obtain rfl := Option.some.inj htaken
      exact .wake call hguard.1 hguard.2
  | erase call =>
      simp only [step] at htaken
      split_ifs at htaken with hphase
      obtain rfl := Option.some.inj htaken
      exact .erase call hphase
  | check call =>
      simp only [step] at htaken
      split_ifs at htaken with hphase
      obtain rfl := Option.some.inj htaken
      exact .check call hphase
  | read call =>
      simp only [step] at htaken
      split at htaken
      · obtain rfl := Option.some.inj htaken
        exact .readResponse call ‹_›
      · obtain rfl := Option.some.inj htaken
        exact .readError call ‹_›
      · cases htaken
  | response message =>
      simp only [step] at htaken
      split at htaken
      · obtain rfl := Option.some.inj htaken
        exact .ignore message ‹_›
      · split_ifs at htaken with hphase
        obtain rfl := Option.some.inj htaken
        exact .response message _ ‹_› hphase
  | sample =>
      simp only [step] at htaken
      split at htaken
      · obtain rfl := Option.some.inj htaken
        exact .sample ‹_›
      · cases htaken
  | collect =>
      simp only [step] at htaken
      split at htaken
      · obtain rfl := Option.some.inj htaken
        exact .collect _ ‹_›
      · cases htaken
  | mark =>
      simp only [step] at htaken
      split at htaken
      · split_ifs at htaken with hphase
        obtain rfl := Option.some.inj htaken
        exact .mark _ _ ‹_› hphase
      · cases htaken
  | sleep =>
      simp only [step] at htaken
      split at htaken
      · obtain rfl := Option.some.inj htaken
        exact .sleep ‹_›
      · cases htaken

/-- The relation lists nothing that `step` does not do. -/
theorem step_of_cases {state next : State ι} {action : Action ι}
    (hstep : Step state action next) : step state action = some next := by
  cases hstep <;> simp_all [step]

end FireboltTransport.Client
