/-
# The operations of a transport and their critical sections

`Send`, `InvokeAsync`, `SendResponse`, `WaitForResponse`, `Abort`, `Revoke`,
`Timed` and `Closed` run on any threads.  Each of them takes `_adminLock` for a
section, works on `_pendingQueue` or the event maps there, gives the lock back and
goes on outside; `WaitForResponse` does so twice.  A label is one step of one
operation: a check, the lock, the body of a section, the unlock, or a step outside.

An entry of `_pendingQueue` is named by the operation that emplaced it, so a
reference kept after the section is a copy of the name, and it dangles once the
entry is erased.  A use of the end iterator, of a dangling reference or of the
front of an empty list is undefined: the operation never returns.
-/

import FireboltTransport.Transport.Link
import FireboltTransport.Transport.Operations

namespace FireboltTransport.Transport

/-- How often `thread` holds the mutex. -/
def CriticalSection.count {τ : Type*} [DecidableEq τ] (mutex : CriticalSection τ) (thread : τ) :
    ℕ :=
  match mutex with
  | .free => 0
  | .held owner again => if owner = thread then again + 1 else 0

/-- What the callback of an asynchronous entry is told. -/
inductive Completion
  | aborted
  | timedout
  deriving DecidableEq

/-- `Entry::Abort`, with the callback it makes. -/
def Entry.abort (id : MessageID) : Entry → Entry × List (MessageID × Completion)
  | .synchronous _ response => (.synchronous true response, [])
  | .asynchronous waitTime => (.asynchronous waitTime, [(id, .aborted)])

/-- `Entry::Expired`: whether the entry has expired, `nextTime` afterwards, and the callback. -/
def Entry.expired (id : MessageID) (currentTime nextTime : UInt64) :
    Entry → Bool × UInt64 × List (MessageID × Completion)
  | .synchronous _ _ => (false, nextTime, [])
  | .asynchronous waitTime =>
      if waitTime > currentTime then
        (false, if waitTime < nextTime then waitTime else nextTime, [])
      else (true, nextTime, [(id, .timedout)])

end FireboltTransport.Transport

namespace FireboltTransport.Sections

open Semantics Transport

universe u v

/-- An entry of `_pendingQueue` with the operation that emplaced it. -/
structure Node (κ : Type v) where
  owner : κ
  entry : Entry
  deriving DecidableEq

/-- An operation of the transport with its arguments. -/
inductive Operation
  | send (id : MessageID) (method parameters : Text)
  | invokeAsync (method parameters : Text)
  | sendResponse (id : MessageID) (response : Text)
  | waitForResponse (id : MessageID)
  | abort (id : MessageID)
  | revoke (eventName : Text)
  /-- `Timed`; the clock is read before the lock is taken. -/
  | timed (currentTime : UInt64)
  | closed
  deriving DecidableEq

/-- What an operation returns. -/
inductive Result
  | void
  | status (error : Error)
  /-- `WaitForResponse`, with the text the response object was filled from. -/
  | response (error : Error) (filled : Option Text)
  | scheduled (time : UInt64)
  deriving DecidableEq

/-- What becomes of the entry that was found. -/
inductive Use
  | wait
  | abort
  deriving DecidableEq

/-- The body of a critical section. -/
inductive Body
  /-- `answer` tells `SendResponse` from `Send`. -/
  | emplace (id : MessageID) (message : Message) (answer : Bool)
  | find (id : MessageID) (use : Use)
  | erase (id : MessageID) (result : UInt32) (filled : Option Text)
  | revoke (eventName : Text)
  | sweep (currentTime : UInt64)
  | abortAll
  deriving DecidableEq

/-- What an operation does after it has given the lock back. -/
inductive Rest (κ : Type v)
  | submit (message : Message)
  | refuse
  /-- Wait on the entry `owner` emplaced under `id`. -/
  | wait (id : MessageID) (owner : κ)
  /-- The wait has ended by a signal. -/
  | read (id : MessageID) (owner : κ)
  | abort (id : MessageID) (owner : κ)
  | notify
  | finish (result : Result)
  deriving DecidableEq

/-- Where an operation is. -/
inductive Stage (κ : Type v)
  /-- Before `IsValid()` and `IsSuspended()` of the channel. -/
  | check (id : MessageID) (message : Message) (answer : Bool)
  /-- At `_adminLock.Lock()`. -/
  | enter (body : Body)
  | inside (body : Body)
  /-- At `_adminLock.Unlock()`. -/
  | leave (rest : Rest κ)
  | outside (rest : Rest κ)
  deriving DecidableEq

/-- How often the operation itself holds the lock. -/
def Stage.nesting {κ : Type v} : Stage κ → ℕ
  | .inside _ | .leave _ => 1
  | .check _ _ _ | .enter _ | .outside _ => 0

/-- The course of an operation.  `entered` and `left` tell how often its thread held the lock
when the operation was called and when it returned. -/
inductive Phase (τ : Type u) (κ : Type v)
  | idle
  | running (thread : τ) (entered : ℕ) (stage : Stage κ)
  | returned (thread : τ) (entered left : ℕ) (result : Result)
  | undefined
  deriving DecidableEq

/-- A transport that operations `κ` on threads `τ` use. -/
structure State (τ : Type u) (κ : Type v) where
  channel : Option Channel
  suspended : Bool
  adminLock : CriticalSection τ
  pendingQueue : StdMap MessageID (Node κ)
  internalEventMap : StdMap Text MessageID
  externalEventMap : StdMap Text MessageID
  scheduledTime : UInt64
  link : Link
  /-- What the listener was told. -/
  notifications : List Notification
  /-- The callbacks asynchronous entries have made. -/
  completions : List (MessageID × Completion)
  submitted : List (κ × Message)
  /-- The operation a thread executes. -/
  busy : τ → Option κ
  phase : κ → Phase τ κ

/-- A transport over a channel nobody has drawn from. -/
def initial {τ : Type u} {κ : Type v} : State τ κ where
  channel := some .new
  suspended := false
  adminLock := .free
  pendingQueue := ∅
  internalEventMap := ∅
  externalEventMap := ∅
  scheduledTime := 0
  link := .new
  notifications := []
  completions := []
  submitted := []
  busy _ := none
  phase _ := .idle

/-- What comes after a step of an operation. -/
inductive Outcome (κ : Type v)
  | goOn (stage : Stage κ)
  | return (result : Result)
  | undefined
  deriving DecidableEq

inductive Action (τ : Type u) (κ : Type v)
  /-- `IsSuspended` of the channel changes. -/
  | suspend (suspended : Bool)
  | start (op : κ) (thread : τ) (operation : Operation)
  | next (op : κ)
  /-- The wait time of a `WaitForResponse` elapses. -/
  | expire (op : κ)
  deriving DecidableEq

variable {τ : Type u} {κ : Type v}

/-! ## The loops over `_pendingQueue` -/

/-- The loop of `Timed` over the identifiers still ahead of the iterator: what is left in the
map, `result`, and the callbacks made. -/
def timedLoop (currentTime : UInt64) :
    List MessageID → StdMap MessageID (Node κ) → UInt64 →
      StdMap MessageID (Node κ) × UInt64 × List (MessageID × Completion)
  | [], pending, result => (pending, result, [])
  | id :: ahead, pending, result =>
      match pending.lookup id with
      | none => timedLoop currentTime ahead pending result
      | some node =>
          let (expired, result, called) := node.entry.expired id currentTime result
          let (pending, result, later) :=
            timedLoop currentTime ahead (if expired then pending.erase id else pending) result
          (pending, result, called ++ later)

/-- The loop of `Closed`: the first entry is aborted and erased until none is left. -/
def closedLoop :
    List MessageID → StdMap MessageID (Node κ) →
      StdMap MessageID (Node κ) × List (MessageID × Completion)
  | [], pending => (pending, [])
  | id :: ahead, pending =>
      match pending.lookup id with
      | none => closedLoop ahead pending
      | some node =>
          let (pending, later) := closedLoop ahead (pending.erase id)
          (pending, (node.entry.abort id).2 ++ later)

/-! ## The steps -/

/-- The first stage of an operation and the channel after it; `InvokeAsync` draws its
identifier, and there is no channel to draw from when there is no result. -/
def Operation.first (parse : Text → Message) (channel : Option Channel) :
    Operation → Option (Stage κ × Option Channel)
  | .send id method parameters =>
      some (.check id ((Call.send method parameters).message parse id) false, channel)
  | .invokeAsync method parameters =>
      channel.map fun current =>
        let id := current.sequence.1
        (.check id ((Call.send method parameters).message parse id) false,
          some current.sequence.2)
  | .sendResponse id response =>
      some (.check id ((Call.sendResponse id response).message parse id) true, channel)
  | .waitForResponse id => some (.enter (.find id .wait), channel)
  | .abort id => some (.enter (.find id .abort), channel)
  | .revoke eventName => some (.enter (.revoke eventName), channel)
  | .timed currentTime => some (.enter (.sweep currentTime), channel)
  | .closed => some (.enter .abortAll, channel)

variable [DecidableEq κ]

/-- The body of a section, run by `op`. -/
def Body.run (codes : CoreErrors) (state : State τ κ) (op : κ) :
    Body → State τ κ × Outcome κ
  | .emplace id message answer =>
      match state.pendingQueue.lookup id with
      | none =>
          ({ state with pendingQueue := state.pendingQueue.insert id ⟨op, .new⟩ },
            .goOn (.leave (.submit message)))
      | some _ =>
          if answer then (state, .goOn (.leave .refuse))
          -- `Send` returns from here, without the unlock.
          else (state, .return (.status (codes.fireboltErrorValue codes.errorAsyncFailed)))
  | .find id use =>
      match state.pendingQueue.lookup id with
      | none => (state, .undefined)
      | some node =>
          (state, .goOn (.leave (match use with
            | .wait => .wait id node.owner
            | .abort => .abort id node.owner)))
  | .erase id result filled =>
      ({ state with pendingQueue := state.pendingQueue.erase id },
        .goOn (.leave (.finish (.response (codes.fireboltErrorValue result) filled))))
  | .revoke eventName =>
      ({ state with
          internalEventMap := state.internalEventMap.erase eventName
          externalEventMap := state.externalEventMap.erase eventName },
        .goOn (.leave (.finish .void)))
  | .sweep currentTime =>
      let (pending, result, called) :=
        timedLoop currentTime state.pendingQueue.keys state.pendingQueue (-1)
      let scheduledTime := if result ≠ -1 then result else 0
      ({ state with
          pendingQueue := pending
          scheduledTime := scheduledTime
          completions := state.completions ++ called },
        .goOn (.leave (.finish (.scheduled scheduledTime))))
  | .abortAll =>
      let (pending, called) := closedLoop state.pendingQueue.keys state.pendingQueue
      ({ state with
          pendingQueue := pending
          completions := state.completions ++ called },
        .goOn (.leave .notify))

/-- The entry a reference names, unless it has been erased. -/
def State.entry (state : State τ κ) (id : MessageID) (owner : κ) : Option Entry :=
  match state.pendingQueue.lookup id with
  | some node => if node.owner = owner then some node.entry else none
  | none => none

/-- A step outside the sections, or `none` while the operation has to wait. -/
def Rest.run (codes : CoreErrors) (state : State τ κ) (op : κ) :
    Rest κ → Option (State τ κ × Outcome κ)
  | .submit message =>
      some ({ state with submitted := state.submitted ++ [(op, message)] },
        .return (.status (codes.fireboltErrorValue codes.errorNone)))
  | .refuse =>
      some (state, .return (.status (codes.fireboltErrorValue codes.errorAsyncFailed)))
  | .wait id owner =>
      match state.entry id owner with
      | some (.synchronous signalled _) =>
          if signalled then some (state, .goOn (.outside (.read id owner))) else none
      | _ => some (state, .undefined)
  | .read id owner =>
      match state.entry id owner with
      | some (.synchronous _ (response :: _)) =>
          let (result, filled) :=
            if response.error.isSet then (response.error.value.code.toUInt32, none)
            else if response.result.isSet ∧ response.result.value ≠ [] then
              (codes.errorNone, some response.result.value)
            else (codes.errorNone, none)
          some (state, .goOn (.enter (.erase id result filled)))
      | _ => some (state, .undefined)
  | .abort id owner =>
      match state.entry id owner with
      | some entry =>
          some ({ state with
              pendingQueue := state.pendingQueue.insert id ⟨owner, (entry.abort id).1⟩
              completions := state.completions ++ (entry.abort id).2 },
            .return .void)
      | none => some (state, .undefined)
  | .notify =>
      some ({ state with
          link := state.link.closed.1
          notifications := state.notifications ++ state.link.closed.2 },
        .return .void)
  | .finish result => some (state, .return result)

def State.setPhase (state : State τ κ) (op : κ) (phase : Phase τ κ) : State τ κ :=
  { state with phase := Function.update state.phase op phase }

@[simp]
theorem State.setPhase_phase (state : State τ κ) (op : κ) (phase : Phase τ κ) :
    (state.setPhase op phase).phase op = phase := by
  simp [setPhase]

theorem State.setPhase_phase_of_ne (state : State τ κ) {op other : κ} (hop : other ≠ op)
    (phase : Phase τ κ) : (state.setPhase op phase).phase other = state.phase other :=
  Function.update_of_ne hop _ _

@[simp]
theorem State.setPhase_pendingQueue (state : State τ κ) (op : κ) (phase : Phase τ κ) :
    (state.setPhase op phase).pendingQueue = state.pendingQueue := rfl

variable [DecidableEq τ]

/-- One step of `op` on its thread, or `none` while it is blocked. -/
def Stage.run (codes : CoreErrors) (state : State τ κ) (op : κ) (thread : τ) :
    Stage κ → Option (State τ κ × Outcome κ)
  | .check id message answer =>
      if state.channel = none then
        some (state, .return (.status (codes.fireboltErrorValue codes.errorUnavailable)))
      else if state.suspended then
        some (state, .return (.status (codes.fireboltErrorValue codes.errorAsyncFailed)))
      else some (state, .goOn (.enter (.emplace id message answer)))
  | .enter body =>
      (state.adminLock.lock thread).map fun held =>
        ({ state with adminLock := held }, .goOn (.inside body))
  | .inside body => some (body.run codes state op)
  | .leave rest =>
      some ({ state with adminLock := state.adminLock.unlock }, .goOn (.outside rest))
  | .outside rest => rest.run codes state op

/-- Record where a step has brought an operation. -/
def State.proceed (state : State τ κ) (op : κ) (thread : τ) (entered : ℕ) :
    Outcome κ → State τ κ
  | .goOn stage => state.setPhase op (.running thread entered stage)
  | .return result =>
      { state with busy := Function.update state.busy thread none }.setPhase op
        (.returned thread entered (state.adminLock.count thread) result)
  | .undefined => state.setPhase op .undefined

theorem State.proceed_phase_of_ne (state : State τ κ) {op other : κ} (hop : other ≠ op)
    (thread : τ) (entered : ℕ) (outcome : Outcome κ) :
    (state.proceed op thread entered outcome).phase other = state.phase other := by
  cases outcome <;> exact Function.update_of_ne hop _ _

/-- One step, or `none` when the label is not enabled. -/
def step (codes : CoreErrors) (parse : Text → Message) (state : State τ κ) :
    Action τ κ → Option (State τ κ)
  | .suspend suspended => some { state with suspended := suspended }
  | .start op thread operation =>
      match state.phase op, state.busy thread with
      | .idle, none =>
          let begun := { state with busy := Function.update state.busy thread (some op) }
          match operation.first parse state.channel with
          | some (stage, channel) =>
              some ({ begun with channel := channel }.setPhase op
                (.running thread (state.adminLock.count thread) stage))
          | none => some (begun.setPhase op .undefined)
      | _, _ => none
  | .next op =>
      match state.phase op with
      | .running thread entered stage =>
          (stage.run codes state op thread).map fun (next, outcome) =>
            next.proceed op thread entered outcome
      | _ => none
  | .expire op =>
      match state.phase op with
      | .running thread entered (.outside (.wait id owner)) =>
          match state.entry id owner with
          | some (.synchronous _ _) =>
              some (state.setPhase op
                (.running thread entered (.enter (.erase id codes.errorTimedout none))))
          | _ => none
      | _ => none

/-- The steps of the transport, as a relation. -/
inductive Step (codes : CoreErrors) (parse : Text → Message) (state : State τ κ) :
    Action τ κ → State τ κ → Prop
  | suspend (suspended : Bool) :
      Step codes parse state (.suspend suspended) { state with suspended := suspended }
  | start (op : κ) (thread : τ) (operation : Operation) (stage : Stage κ)
      (channel : Option Channel) (hphase : state.phase op = .idle)
      (hbusy : state.busy thread = none)
      (hfirst : operation.first parse state.channel = some (stage, channel)) :
      Step codes parse state (.start op thread operation)
        ({ state with
            busy := Function.update state.busy thread (some op)
            channel := channel }.setPhase op
          (.running thread (state.adminLock.count thread) stage))
  | startUndefined (op : κ) (thread : τ) (operation : Operation)
      (hphase : state.phase op = .idle) (hbusy : state.busy thread = none)
      (hfirst : (operation.first parse state.channel : Option (Stage κ × Option Channel)) = none) :
      Step codes parse state (.start op thread operation)
        ({ state with busy := Function.update state.busy thread (some op) }.setPhase op .undefined)
  | next (op : κ) (thread : τ) (entered : ℕ) (stage : Stage κ) (after : State τ κ)
      (outcome : Outcome κ) (hphase : state.phase op = .running thread entered stage)
      (hrun : stage.run codes state op thread = some (after, outcome)) :
      Step codes parse state (.next op) (after.proceed op thread entered outcome)
  | expire (op : κ) (thread : τ) (entered : ℕ) (id : MessageID) (owner : κ)
      (signalled : Bool) (response : List Message)
      (hphase : state.phase op = .running thread entered (.outside (.wait id owner)))
      (hentry : state.entry id owner = some (.synchronous signalled response)) :
      Step codes parse state (.expire op)
        (state.setPhase op
          (.running thread entered (.enter (.erase id codes.errorTimedout none))))

theorem step_cases {codes : CoreErrors} {parse : Text → Message} {state next : State τ κ}
    {action : Action τ κ} (htaken : step codes parse state action = some next) :
    Step codes parse state action next := by
  cases action with
  | suspend suspended =>
      obtain rfl := Option.some.inj htaken
      exact .suspend suspended
  | start op thread operation =>
      simp only [step] at htaken
      split at htaken
      · split at htaken
        · obtain rfl := Option.some.inj htaken
          exact .start op thread operation _ _ ‹_› ‹_› ‹_›
        · obtain rfl := Option.some.inj htaken
          exact .startUndefined op thread operation ‹_› ‹_› ‹_›
      · cases htaken
  | next op =>
      simp only [step] at htaken
      split at htaken
      · obtain ⟨⟨after, outcome⟩, hrun, rfl⟩ := Option.map_eq_some_iff.mp htaken
        exact .next op _ _ _ after outcome ‹_› hrun
      · cases htaken
  | expire op =>
      simp only [step] at htaken
      split at htaken
      · split at htaken
        · obtain rfl := Option.some.inj htaken
          exact .expire op _ _ _ _ _ _ ‹_› ‹_›
        · cases htaken
      · cases htaken

/-- An operation under way makes the step its stage prescribes. -/
theorem next_of_running {codes : CoreErrors} {parse : Text → Message} {state next : State τ κ}
    {op : κ} {thread : τ} {entered : ℕ} {stage : Stage κ}
    (hphase : state.phase op = .running thread entered stage)
    (htaken : step codes parse state (.next op) = some next) :
    ∃ after outcome, stage.run codes state op thread = some (after, outcome) ∧
      next = after.proceed op thread entered outcome := by
  simp only [step, hphase] at htaken
  obtain ⟨⟨after, outcome⟩, hrun, rfl⟩ := Option.map_eq_some_iff.mp htaken
  exact ⟨after, outcome, hrun, rfl⟩

/-! ## What the loops do -/

omit [DecidableEq κ] in
/-- The loop of `Closed` erases what lies ahead of it and nothing else. -/
theorem lookup_closedLoop (ahead : List MessageID) (pending : StdMap MessageID (Node κ))
    (id : MessageID) :
    (closedLoop ahead pending).1.lookup id = if id ∈ ahead then none else pending.lookup id := by
  induction ahead generalizing pending with
  | nil => simp [closedLoop]
  | cons first ahead ih =>
      unfold closedLoop
      cases hlookup : pending.lookup first with
      | none =>
          show (closedLoop ahead pending).1.lookup id = _
          rw [ih]
          by_cases hfirst : id = first
          · rw [hfirst, hlookup]
            simp
          · simp [hfirst]
      | some node =>
          show (closedLoop ahead (pending.erase first)).1.lookup id = _
          rw [ih, StdMap.lookup_erase_of_eq_or_ne]
          by_cases hfirst : id = first <;> simp [hfirst]

omit [DecidableEq κ] in
/-- `Closed` leaves nothing pending. -/
theorem closedLoop_keys (pending : StdMap MessageID (Node κ)) :
    (closedLoop pending.keys pending).1 = ∅ := by
  apply StdMap.eq_empty_of_lookup
  intro id
  rw [lookup_closedLoop]
  split_ifs with hmem
  · rfl
  · exact AList.lookup_eq_none.mpr hmem

end FireboltTransport.Sections
