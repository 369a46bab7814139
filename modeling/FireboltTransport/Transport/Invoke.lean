/-
# The reply to a synchronous `Invoke`

`Transport::Invoke` draws an identifier, sends the request and waits on the entry the
`Send` left in `_pendingQueue`.  A message that comes in goes from the channel to
`Transport::Submit`, from there into a job of the worker pool, and from the job to the
receiver of the transport.  Nobody on this way looks into `_pendingQueue`, so the
entry is never signalled, and each wait lasts until its time has elapsed.
-/

import FireboltTransport.Transport.AdminLock
import FireboltTransport.Transport.Observers

namespace FireboltTransport.Synchronous

open Semantics Transport Sections

universe u v

/-- The two operations an `Invoke` is made of. -/
inductive Part
  | send
  | wait
  deriving DecidableEq

/-- The course of an `Invoke`. -/
inductive Call (τ : Type u)
  | idle
  | sending (thread : τ) (id : MessageID)
  | waiting (thread : τ) (id : MessageID)
  /-- The wait time has elapsed. -/
  | elapsed (thread : τ) (id : MessageID)
  /-- What it has returned, with the text the response object was filled from. -/
  | returned (result : Error) (filled : Option Text)
  deriving DecidableEq

/-- A transport, the only observer of its channel, on which `Invoke`s `ι` run. -/
structure State (τ : Type u) (ι : Type v) where
  transport : Sections.State τ (ι × Part)
  call : ι → Call τ
  /-- The threads that execute an `Invoke`. -/
  occupied : τ → Bool
  /-- The jobs of the worker pool. -/
  jobs : List (Unit × Message)
  /-- Whether `_transportReceiver` is set. -/
  receiver : Bool
  /-- What the receiver was given. -/
  received : List Message
  /-- The replies with the identifier of an `Invoke` that were processed after its `Send` and
  before its wait time had elapsed. -/
  replies : ι → List Message

inductive Action (τ : Type u) (ι : Type v)
  | suspend (suspended : Bool)
  | invoke (op : ι) (thread : τ) (method parameters : Text)
  | next (op : ι)
  /-- The wait time of an `Invoke` elapses. -/
  | expire (op : ι)
  /-- `CommunicationChannel::Inbound`. -/
  | inbound (message : Message)
  /-- A worker runs the job at this place. -/
  | dispatch (index : ℕ)
  deriving DecidableEq

/-- A transport nobody has used. -/
def initial {τ : Type u} {ι : Type v} (receiver : Bool) : State τ ι where
  transport := Sections.initial
  call _ := .idle
  occupied _ := false
  jobs := []
  receiver := receiver
  received := []
  replies _ := []

variable {τ : Type u} {ι : Type v}

/-- The identifier of an `Invoke` whose request was sent and whose wait has not ended. -/
def State.awaited (state : State τ ι) (op : ι) : Option MessageID :=
  match state.call op with
  | .sending _ id =>
      match state.transport.phase (op, .send) with
      | .returned _ _ _ (.status status) => if status = .none then some id else none
      | _ => none
  | .waiting _ id => some id
  | .idle | .elapsed _ _ | .returned _ _ => none

/-- The message is a reply with this identifier. -/
def IsReply (message : Message) (id : MessageID) : Prop :=
  message.id.isSet = true ∧ message.id.value = id ∧
    (message.result.isSet = true ∨ message.error.isSet = true)

instance (message : Message) (id : MessageID) : Decidable (IsReply message id) :=
  inferInstanceAs (Decidable (_ ∧ _ ∧ _))

/-- `Transport::Inbound` in a job. -/
def State.process (state : State τ ι) (message : Message) : State τ ι :=
  { state with
    received := if state.receiver then state.received ++ [message] else state.received
    replies := fun op =>
      match state.awaited op with
      | some id => if IsReply message id then state.replies op ++ [message] else state.replies op
      | none => state.replies op }

variable [DecidableEq τ] [DecidableEq ι]

def State.setCall (state : State τ ι) (op : ι) (call : Call τ) : State τ ι :=
  { state with call := Function.update state.call op call }

omit [DecidableEq τ] in
@[simp]
theorem State.setCall_call (state : State τ ι) (op : ι) (call : Call τ) :
    (state.setCall op call).call op = call := by
  simp [setCall]

omit [DecidableEq τ] in
theorem State.setCall_call_of_ne (state : State τ ι) {op other : ι} (hop : other ≠ op)
    (call : Call τ) : (state.setCall op call).call other = state.call other :=
  Function.update_of_ne hop _ _

/-- `Invoke` returns to its caller. -/
def State.return (state : State τ ι) (op : ι) (thread : τ) (result : Error)
    (filled : Option Text) : State τ ι :=
  { state with occupied := Function.update state.occupied thread false }.setCall op
    (.returned result filled)

/-- Let the transport make a step. -/
def State.transportStep (codes : CoreErrors) (parse : Text → Message) (state : State τ ι)
    (action : Sections.Action τ (ι × Part)) : Option (State τ ι) :=
  (Sections.step codes parse state.transport action).map fun transport =>
    { state with transport := transport }

/-- One step, or `none` when the label is not enabled. -/
def step (codes : CoreErrors) (parse : Text → Message) (state : State τ ι) :
    Action τ ι → Option (State τ ι)
  | .suspend suspended => state.transportStep codes parse (.suspend suspended)
  | .invoke op thread method parameters =>
      match state.call op, state.occupied thread, state.transport.channel with
      | .idle, false, some channel =>
          (state.transportStep codes parse
            (.start (op, .send) thread (.invokeAsync method parameters))).map fun next =>
              { next with occupied := Function.update next.occupied thread true }.setCall op
                (.sending thread channel.sequence.1)
      | _, _, _ => none
  | .next op =>
      match state.call op with
      | .sending thread id =>
          match state.transport.phase (op, .send) with
          | .returned _ _ _ (.status status) =>
              if status = .none then
                (state.transportStep codes parse
                  (.start (op, .wait) thread (.waitForResponse id))).map fun next =>
                    next.setCall op (.waiting thread id)
              else some (state.return op thread status none)
          | _ => state.transportStep codes parse (.next (op, .send))
      | .waiting thread _ | .elapsed thread _ =>
          match state.transport.phase (op, .wait) with
          | .returned _ _ _ (.response result filled) =>
              some (state.return op thread result filled)
          | _ => state.transportStep codes parse (.next (op, .wait))
      | .idle | .returned _ _ => none
  | .expire op =>
      match state.call op with
      | .waiting thread id =>
          (state.transportStep codes parse (.expire (op, .wait))).map fun next =>
            next.setCall op (.elapsed thread id)
      | _ => none
  | .inbound message => some { state with
      jobs := (Observers.inboundLoop codes message [()] codes.errorUnavailable state.jobs).2 }
  | .dispatch index =>
      match state.jobs[index]? with
      | some (_, message) => some ({ state with jobs := state.jobs.eraseIdx index }.process message)
      | none => none

/-! ## What an `Invoke` should return -/

/-- What an `Invoke` should return to this reply, and fill the response object from. -/
def answer (codes : CoreErrors) (reply : Message) : Error × Option Text :=
  if reply.error.isSet then (codes.fireboltErrorValue reply.error.value.code.toUInt32, none)
  else if reply.result.isSet ∧ reply.result.value ≠ [] then (.none, some reply.result.value)
  else (.none, none)

/-- The reply carries an error whose value is `Error::Timedout`. -/
def SaysTimedout (codes : CoreErrors) (reply : Message) : Prop :=
  reply.error.isSet = true ∧
    codes.fireboltErrorValue reply.error.value.code.toUInt32 = .timedout

instance (codes : CoreErrors) (reply : Message) : Decidable (SaysTimedout codes reply) :=
  inferInstanceAs (Decidable (_ ∧ _))

structure Answered (codes : CoreErrors) (state : State τ ι) : Prop where
  /-- An `Invoke` returns what a reply that was processed in time says. -/
  reply : ∀ op result filled, state.call op = .returned result filled →
    ∀ reply ∈ state.replies op, (result, filled) = answer codes reply
  /-- It returns `Timedout` only without a reply, or when the reply says so. -/
  timedout : ∀ op filled, state.call op = .returned .timedout filled →
    ∀ reply ∈ state.replies op, SaysTimedout codes reply

theorem answer_eq_timedout_iff {codes : CoreErrors} {reply : Message} :
    (.timedout, none) = answer codes reply ↔ SaysTimedout codes reply := by
  unfold answer SaysTimedout
  cases reply.error.isSet with
  | true => simp [eq_comm]
  | false =>
      simp only [Bool.false_eq_true, if_false, false_and, iff_false]
      split_ifs <;> simp [Error.timedout_ne_none]

/-! ## What the transport does on its own -/

/-- The stages of the two operations while no entry is signalled. -/
inductive InCourse (codes : CoreErrors) : Part → Stage (ι × Part) → Prop
  | check (id : MessageID) (message : Message) : InCourse codes .send (.check id message false)
  | enterEmplace (id : MessageID) (message : Message) :
      InCourse codes .send (.enter (.emplace id message false))
  | emplace (id : MessageID) (message : Message) :
      InCourse codes .send (.inside (.emplace id message false))
  | leaveSubmit (message : Message) : InCourse codes .send (.leave (.submit message))
  | submit (message : Message) : InCourse codes .send (.outside (.submit message))
  | enterFind (id : MessageID) : InCourse codes .wait (.enter (.find id .wait))
  | find (id : MessageID) : InCourse codes .wait (.inside (.find id .wait))
  | leaveWait (id : MessageID) (owner : ι × Part) : InCourse codes .wait (.leave (.wait id owner))
  | wait (id : MessageID) (owner : ι × Part) : InCourse codes .wait (.outside (.wait id owner))
  | enterErase (id : MessageID) :
      InCourse codes .wait (.enter (.erase id codes.errorTimedout none))
  | erase (id : MessageID) : InCourse codes .wait (.inside (.erase id codes.errorTimedout none))
  | leaveFinish : InCourse codes .wait (.leave (.finish (.response .timedout none)))
  | finish : InCourse codes .wait (.outside (.finish (.response .timedout none)))

/-- Where a step of one of the two operations may lead. -/
def StaysInCourse (codes : CoreErrors) (part : Part) : Outcome (ι × Part) → Prop
  | .goOn stage => InCourse codes part stage
  | .return result => part = .wait → result = .response .timedout none
  | .undefined => True

/-- No entry is signalled, and every wait that has ended was given up. -/
structure Quiet (codes : CoreErrors) (transport : Sections.State τ (ι × Part)) : Prop where
  unsignalled : ∀ id node, transport.pendingQueue.lookup id = some node → node.entry = .new
  running : ∀ key thread entered stage, transport.phase key = .running thread entered stage →
    InCourse codes key.2 stage
  returned : ∀ op thread entered left result,
    transport.phase (op, .wait) = .returned thread entered left result →
      result = .response .timedout none

/-- Only the operations of `Invoke`s are begun. -/
def Permitted : Sections.Action τ (ι × Part) → Prop
  | .start (_, .send) _ (.invokeAsync _ _) | .start (_, .wait) _ (.waitForResponse _) => True
  | .start _ _ _ => False
  | .suspend _ | .next _ | .expire _ => True

section Quiet

variable {codes : CoreErrors} {parse : Text → Message}
  {transport after next : Sections.State τ (ι × Part)} {key : ι × Part}
  {action : Sections.Action τ (ι × Part)} {outcome : Outcome (ι × Part)}

/-- A step of an operation signals nothing. -/
theorem Quiet.run (hquiet : Quiet codes transport) {part : Part} {stage : Stage (ι × Part)}
    {thread : τ} (hcourse : InCourse codes part stage)
    (hrun : stage.run codes transport key thread = some (after, outcome)) :
    (∀ id node, after.pendingQueue.lookup id = some node → node.entry = .new) ∧
      StaysInCourse codes part outcome := by
  cases hcourse with
  | check id message =>
      simp only [Stage.run] at hrun
      split_ifs at hrun <;> cases hrun
      · exact ⟨hquiet.unsignalled, by simp [StaysInCourse]⟩
      · exact ⟨hquiet.unsignalled, by simp [StaysInCourse]⟩
      · exact ⟨hquiet.unsignalled, .enterEmplace id message⟩
  | enterEmplace id message =>
      obtain ⟨held, _, hpair⟩ := Option.map_eq_some_iff.mp hrun
      cases hpair
      exact ⟨hquiet.unsignalled, .emplace id message⟩
  | emplace id message =>
      simp only [Stage.run, Body.run] at hrun
      cases hlookup : transport.pendingQueue.lookup id with
      | none =>
          simp only [hlookup] at hrun
          cases hrun
          exact ⟨StdMap.forall_lookup_insert rfl hquiet.unsignalled, .leaveSubmit message⟩
      | some node =>
          simp only [hlookup] at hrun
          cases hrun
          exact ⟨hquiet.unsignalled, by simp [StaysInCourse]⟩
  | leaveSubmit message =>
      cases hrun
      exact ⟨hquiet.unsignalled, .submit message⟩
  | submit message =>
      cases hrun
      exact ⟨hquiet.unsignalled, by simp [StaysInCourse]⟩
  | enterFind id =>
      obtain ⟨held, _, hpair⟩ := Option.map_eq_some_iff.mp hrun
      cases hpair
      exact ⟨hquiet.unsignalled, .find id⟩
  | find id =>
      simp only [Stage.run, Body.run] at hrun
      split at hrun <;> cases hrun
      · exact ⟨hquiet.unsignalled, trivial⟩
      · exact ⟨hquiet.unsignalled, .leaveWait id _⟩
  | leaveWait id owner =>
      cases hrun
      exact ⟨hquiet.unsignalled, .wait id owner⟩
  | wait id owner =>
      simp only [Stage.run, Rest.run] at hrun
      split at hrun
      · next signalled response hentry =>
          -- The event of the entry is not set: the operation has to go on waiting.
          obtain rfl : signalled = false := by
            unfold Sections.State.entry at hentry
            split at hentry
            · split_ifs at hentry
              rw [hquiet.unsignalled id _ ‹_›] at hentry
              cases hentry
              rfl
            · cases hentry
          cases hrun
      · cases hrun
        exact ⟨hquiet.unsignalled, trivial⟩
  | enterErase id =>
      obtain ⟨held, _, hpair⟩ := Option.map_eq_some_iff.mp hrun
      cases hpair
      exact ⟨hquiet.unsignalled, .erase id⟩
  | erase id =>
      cases hrun
      refine ⟨?_, ?_⟩
      · exact StdMap.forall_lookup_erase id hquiet.unsignalled
      · rw [StaysInCourse, codes.fireboltErrorValue_errorTimedout]
        exact .leaveFinish
  | leaveFinish =>
      cases hrun
      exact ⟨hquiet.unsignalled, .finish⟩
  | finish =>
      cases hrun
      exact ⟨hquiet.unsignalled, fun _ => rfl⟩

omit [DecidableEq τ] in
/-- The operation that moves comes to `phase`, and the others stay where they are. -/
theorem Quiet.setPhase (hquiet : Quiet codes transport) {phase : Phase τ (ι × Part)}
    (hphase : after.phase = transport.phase)
    (hunsignalled : ∀ id node, after.pendingQueue.lookup id = some node → node.entry = .new)
    (hrunning : ∀ thread entered stage, phase = .running thread entered stage →
      InCourse codes key.2 stage)
    (hreturned : ∀ thread entered left result, phase = .returned thread entered left result →
      key.2 = .wait → result = .response .timedout none) :
    Quiet codes (after.setPhase key phase) where
  unsignalled := hunsignalled
  running := by
    intro other thread entered stage hother
    by_cases hkey : other = key
    · subst hkey
      rw [State.setPhase_phase] at hother
      exact hrunning thread entered stage hother
    · rw [State.setPhase_phase_of_ne _ hkey, hphase] at hother
      exact hquiet.running other thread entered stage hother
  returned := by
    intro op thread entered left result hother
    by_cases hkey : (op, Part.wait) = key
    · subst hkey
      rw [State.setPhase_phase] at hother
      exact hreturned thread entered left result hother rfl
    · rw [State.setPhase_phase_of_ne _ hkey, hphase] at hother
      exact hquiet.returned op thread entered left result hother

theorem Quiet.step (hquiet : Quiet codes transport) (hpermitted : Permitted action)
    (hstep : Step codes parse transport action next) : Quiet codes next := by
  cases hstep with
  | suspend suspended => exact ⟨hquiet.unsignalled, hquiet.running, hquiet.returned⟩
  | start key thread operation stage channel hphase hbusy hfirst =>
      refine hquiet.setPhase rfl hquiet.unsignalled ?_ (by simp)
      rintro _ _ _ ⟨⟩
      obtain ⟨op, part⟩ := key
      cases part with
      | send =>
          cases operation with
          | invokeAsync method parameters =>
              obtain ⟨current, _, hpair⟩ := Option.map_eq_some_iff.mp hfirst
              cases hpair
              exact .check _ _
          | _ => exact hpermitted.elim
      | wait =>
          cases operation with
          | waitForResponse id =>
              cases hfirst
              exact .enterFind id
          | _ => exact hpermitted.elim
  | startUndefined key thread operation hphase hbusy hfirst =>
      exact hquiet.setPhase rfl hquiet.unsignalled (by simp) (by simp)
  | next key thread entered stage after outcome hphase hrun =>
      obtain ⟨hunsignalled, hcourse⟩ :=
        hquiet.run (hquiet.running key thread entered stage hphase) hrun
      have hsame := (run_frame hrun).1
      cases outcome with
      | goOn later =>
          refine hquiet.setPhase hsame hunsignalled ?_ (by simp)
          rintro _ _ _ ⟨⟩
          exact hcourse
      | «return» result =>
          apply hquiet.setPhase
          · exact hsame
          · exact hunsignalled
          · simp
          · rintro _ _ _ _ ⟨⟩
            exact hcourse
      | undefined => exact hquiet.setPhase hsame hunsignalled (by simp) (by simp)
  | expire key thread entered id owner signalled response hphase hentry =>
      refine hquiet.setPhase rfl hquiet.unsignalled ?_ (by simp)
      rintro _ _ _ ⟨⟩
      have hcourse := hquiet.running key _ _ _ hphase
      generalize key.2 = part at hcourse
      cases hcourse
      exact .enterErase id

/-- What an operation has returned stays. -/
theorem phase_of_returned {thread : τ} {entered left : ℕ} {result : Sections.Result}
    (hphase : transport.phase key = .returned thread entered left result)
    (hstep : Step codes parse transport action next) :
    next.phase key = .returned thread entered left result := by
  have hne : ∀ other phase, transport.phase other = phase →
      phase ≠ .returned thread entered left result → key ≠ other := by
    rintro other phase rfl hother rfl
    exact hother hphase
  cases hstep with
  | suspend suspended => exact hphase
  | start other _ _ _ _ hidle _ _ | startUndefined other _ _ hidle _ _ =>
      rw [State.setPhase_phase_of_ne _ (hne other _ hidle (by simp))]
      exact hphase
  | next other _ _ _ _ _ hrunning hrun =>
      rw [State.proceed_phase_of_ne _ (hne other _ hrunning (by simp)), (run_frame hrun).1]
      exact hphase
  | expire other _ _ _ _ _ _ hrunning _ =>
      rw [State.setPhase_phase_of_ne _ (hne other _ hrunning (by simp))]
      exact hphase

end Quiet

/-! ## What comes of the replies -/

/-- The request of the `Invoke` was sent. -/
def State.Sent (state : State τ ι) (op : ι) : Prop :=
  ∃ thread entered left,
    state.transport.phase (op, .send) = .returned thread entered left (.status .none)

/-- The wait of the `Invoke` has ended. -/
def State.waitOver (state : State τ ι) (op : ι) : Bool :=
  match state.call op, state.transport.phase (op, .wait) with
  | .waiting _ _, .returned _ _ _ _ | .elapsed _ _, .returned _ _ _ _ => true
  | _, _ => false

/-- No `Invoke` whose wait has ended returns although a reply was processed in time, unless the
reply says that it has timed out. -/
def ReturnsUnanswered (codes : CoreErrors) (state : State τ ι) : Action τ ι → Prop
  | .next op => state.waitOver op = true → ∀ reply ∈ state.replies op, SaysTimedout codes reply
  | .suspend _ | .invoke _ _ _ _ | .expire _ | .inbound _ | .dispatch _ => True

instance (codes : CoreErrors) (state : State τ ι) :
    ∀ action, Decidable (ReturnsUnanswered codes state action)
  | .next op => inferInstanceAs (Decidable
      (state.waitOver op = true → ∀ reply ∈ state.replies op, SaysTimedout codes reply))
  | .suspend _ | .invoke _ _ _ _ | .expire _ | .inbound _ | .dispatch _ => isTrue trivial

/-- What holds up to the first return that is not what a reply says. -/
structure Silent (codes : CoreErrors) (state : State τ ι) : Prop where
  quiet : Quiet codes state.transport
  sent : ∀ op thread id, state.call op = .waiting thread id → state.Sent op
  replied : ∀ op, state.replies op ≠ [] → state.Sent op
  answered : Answered codes state

omit [DecidableEq τ] [DecidableEq ι] in
theorem silent_initial (codes : CoreErrors) (receiver : Bool) :
    Silent codes (initial receiver : State τ ι) where
  quiet := ⟨by simp [initial, Sections.initial], by simp [initial, Sections.initial],
    by simp [initial, Sections.initial]⟩
  sent := by simp [initial]
  replied := by simp [initial]
  answered := ⟨by simp [initial], by simp [initial]⟩

section Step

variable {codes : CoreErrors} {parse : Text → Message} {state next : State τ ι}
  {action : Action τ ι}

/-- The transport makes a step of an `Invoke`. -/
theorem Silent.transportStep (hsilent : Silent codes state)
    {action : Sections.Action τ (ι × Part)}
    (htaken : state.transportStep codes parse action = some next)
    (hpermitted : Permitted action) : Silent codes next := by
  obtain ⟨transport, hstep, rfl⟩ := Option.map_eq_some_iff.mp htaken
  have hstep := step_cases hstep
  have hstays : ∀ op, state.Sent op →
      ({ state with transport := transport } : State τ ι).Sent op := by
    rintro op ⟨thread, entered, left, hphase⟩
    exact ⟨thread, entered, left, phase_of_returned hphase hstep⟩
  refine ⟨hsilent.quiet.step hpermitted hstep, ?_, ?_, ⟨?_, ?_⟩⟩
  · exact fun op thread id hcall => hstays op (hsilent.sent op thread id hcall)
  · exact fun op hreplies => hstays op (hsilent.replied op hreplies)
  · exact hsilent.answered.reply
  · exact hsilent.answered.timedout

omit [DecidableEq τ] in
/-- An `Invoke` moves on. -/
theorem Silent.setCall (hsilent : Silent codes state) {op : ι} {call : Call τ}
    (hsent : ∀ thread id, call = .waiting thread id → state.Sent op)
    (hreply : ∀ result filled, call = .returned result filled →
      ∀ reply ∈ state.replies op, (result, filled) = answer codes reply)
    (htimedout : ∀ filled, call = .returned .timedout filled →
      ∀ reply ∈ state.replies op, SaysTimedout codes reply) :
    Silent codes (state.setCall op call) where
  quiet := hsilent.quiet
  sent := by
    intro other thread id hother
    by_cases hop : other = op
    · subst hop
      rw [State.setCall_call] at hother
      exact hsent thread id hother
    · rw [State.setCall_call_of_ne _ hop] at hother
      exact hsilent.sent other thread id hother
  replied := hsilent.replied
  answered := by
    constructor
    · intro other result filled hother
      by_cases hop : other = op
      · subst hop
        rw [State.setCall_call] at hother
        exact hreply result filled hother
      · rw [State.setCall_call_of_ne _ hop] at hother
        exact hsilent.answered.reply other result filled hother
    · intro other filled hother
      by_cases hop : other = op
      · subst hop
        rw [State.setCall_call] at hother
        exact htimedout filled hother
      · rw [State.setCall_call_of_ne _ hop] at hother
        exact hsilent.answered.timedout other filled hother

omit [DecidableEq τ] [DecidableEq ι] in
/-- Who occupies the threads does not matter. -/
theorem Silent.occupy (hsilent : Silent codes state) (occupied : τ → Bool) :
    Silent codes { state with occupied := occupied } :=
  ⟨hsilent.quiet, hsilent.sent, hsilent.replied,
    ⟨hsilent.answered.reply, hsilent.answered.timedout⟩⟩

omit [DecidableEq τ] [DecidableEq ι] in
/-- A reply is recorded only while its `Invoke` has not returned. -/
theorem awaited_spec (hsilent : Silent codes state) {op : ι} {id : MessageID}
    (hawaited : state.awaited op = some id) :
    state.Sent op ∧ ∀ result filled, state.call op ≠ .returned result filled := by
  unfold State.awaited at hawaited
  split at hawaited
  · next thread own hcall =>
      split at hawaited
      · next thread entered left status hphase =>
          split_ifs at hawaited with hstatus
          subst hstatus
          exact ⟨⟨thread, entered, left, hphase⟩, by simp [hcall]⟩
      · cases hawaited
  · next thread own hcall => exact ⟨hsilent.sent op thread own hcall, by simp [hcall]⟩
  · cases hawaited
  · cases hawaited
  · cases hawaited

omit [DecidableEq τ] [DecidableEq ι] in
/-- A job that is run changes what nobody has returned yet. -/
theorem Silent.process (hsilent : Silent codes state) (message : Message) :
    Silent codes (state.process message) := by
  have hreturned : ∀ op result filled, state.call op = .returned result filled →
      (state.process message).replies op = state.replies op := by
    intro op result filled hcall
    simp only [State.process]
    split
    · next id hawaited => exact absurd hcall ((awaited_spec hsilent hawaited).2 result filled)
    · rfl
  refine ⟨hsilent.quiet, hsilent.sent, ?_, ⟨?_, ?_⟩⟩
  · intro op hreplies
    by_cases hold : state.replies op = []
    · simp only [State.process] at hreplies
      split at hreplies
      · next id hawaited => exact (awaited_spec hsilent hawaited).1
      · exact absurd hold hreplies
    · exact hsilent.replied op hold
  · intro op result filled hcall
    rw [hreturned op result filled hcall]
    exact hsilent.answered.reply op result filled hcall
  · intro op filled hcall
    rw [hreturned op .timedout filled hcall]
    exact hsilent.answered.timedout op filled hcall

/-- The steps of an `Invoke` other than its first and the elapse of its wait time. -/
inductive Next (codes : CoreErrors) (parse : Text → Message) (state : State τ ι) (op : ι) :
    State τ ι → Prop
  | run (part : Part) (next : State τ ι) (hover : state.waitOver op = false)
      (hrun : state.transportStep codes parse (.next (op, part)) = some next) :
      Next codes parse state op next
  | failed (thread holder : τ) (entered left : ℕ) (status : Error)
      (hover : state.waitOver op = false)
      (hphase : state.transport.phase (op, .send) =
        .returned holder entered left (.status status))
      (hstatus : status ≠ .none) : Next codes parse state op (state.return op thread status none)
  | sent (thread : τ) (id : MessageID) (middle : State τ ι) (hover : state.waitOver op = false)
      (hsent : state.Sent op)
      (hrun : state.transportStep codes parse
        (.start (op, .wait) thread (.waitForResponse id)) = some middle)
      (hsame : middle.Sent op) : Next codes parse state op (middle.setCall op (.waiting thread id))
  | ended (thread holder : τ) (entered left : ℕ) (result : Error) (filled : Option Text)
      (hover : state.waitOver op = true)
      (hphase : state.transport.phase (op, .wait) =
        .returned holder entered left (.response result filled)) :
      Next codes parse state op (state.return op thread result filled)

/-- The two operations of an `Invoke` go on while they have not returned. -/
theorem running_of_next {key : ι × Part}
    (htaken : state.transportStep codes parse (.next key) = some next) :
    ∃ thread entered stage, state.transport.phase key = .running thread entered stage := by
  obtain ⟨transport, hstep, _⟩ := Option.map_eq_some_iff.mp htaken
  cases step_cases hstep with
  | next _ thread entered stage _ _ hphase _ => exact ⟨thread, entered, stage, hphase⟩

theorem next_cases {op : ι} (htaken : step codes parse state (.next op) = some next) :
    Next codes parse state op next := by
  have hwaited : ∀ thread id, (state.call op = .waiting thread id ∨
      state.call op = .elapsed thread id) →
      (match state.transport.phase (op, .wait) with
        | .returned _ _ _ (.response result filled) =>
            some (state.return op thread result filled)
        | _ => state.transportStep codes parse (.next (op, .wait))) = some next →
      Next codes parse state op next := by
    intro thread id hcall hmatch
    split at hmatch
    · next holder entered left result filled hphase =>
        cases hmatch
        refine .ended thread holder entered left result filled ?_ hphase
        obtain hcall | hcall := hcall <;> simp [State.waitOver, hcall, hphase]
    · refine .run .wait next ?_ hmatch
      obtain ⟨holder, entered, stage, hphase⟩ := running_of_next hmatch
      obtain hcall | hcall := hcall <;> simp [State.waitOver, hcall, hphase]
  simp only [step] at htaken
  split at htaken
  · next thread id hcall =>
      have hover : state.waitOver op = false := by simp [State.waitOver, hcall]
      split at htaken
      · next holder entered left status hphase =>
          split_ifs at htaken with hstatus
          · subst hstatus
            obtain ⟨middle, hrun, rfl⟩ := Option.map_eq_some_iff.mp htaken
            refine .sent thread id middle hover ⟨holder, entered, left, hphase⟩ hrun ?_
            obtain ⟨transport, hstep, rfl⟩ := Option.map_eq_some_iff.mp hrun
            exact ⟨holder, entered, left, phase_of_returned hphase (step_cases hstep)⟩
          · cases htaken
            exact .failed thread holder entered left status hover hphase hstatus
      · exact .run .send next hover htaken
  · next thread id hcall => exact hwaited thread id (.inl hcall) htaken
  · next thread id hcall => exact hwaited thread id (.inr hcall) htaken
  · cases htaken
  · cases htaken

omit [DecidableEq τ] [DecidableEq ι] in
/-- A wait that has ended was given up. -/
theorem Silent.result_of_over (hsilent : Silent codes state) {op : ι} {holder : τ}
    {entered left : ℕ} {result : Error} {filled : Option Text}
    (hphase : state.transport.phase (op, .wait) =
      .returned holder entered left (.response result filled)) :
    result = .timedout ∧ filled = none := by
  have hresult := hsilent.quiet.returned op holder entered left _ hphase
  exact Sections.Result.response.inj hresult

/-- A step that meets the condition leaves every reply answered. -/
theorem silent_step (hsilent : Silent codes state)
    (hreturns : ReturnsUnanswered codes state action)
    (htaken : step codes parse state action = some next) : Silent codes next := by
  cases action with
  | suspend suspended => exact hsilent.transportStep htaken trivial
  | invoke op thread method parameters =>
      simp only [step] at htaken
      split at htaken
      · obtain ⟨middle, hrun, rfl⟩ := Option.map_eq_some_iff.mp htaken
        exact ((hsilent.transportStep hrun trivial).occupy _).setCall (by simp) (by simp) (by simp)
      · cases htaken
  | next op =>
      cases next_cases htaken with
      | run part next hover hrun => exact hsilent.transportStep hrun trivial
      | failed thread holder entered left status hover hphase hstatus =>
          have hnone : state.replies op = [] := by
            by_contra hreplies
            obtain ⟨_, _, _, hsent⟩ := hsilent.replied op hreplies
            rw [hphase] at hsent
            cases hsent
            exact hstatus rfl
          apply (hsilent.occupy _).setCall
          · simp
          · simp [hnone]
          · simp [hnone]
      | sent thread id middle hover hsent hrun hsame =>
          have hmiddle := hsilent.transportStep hrun trivial
          exact hmiddle.setCall (fun _ _ _ => hsame) (by simp) (by simp)
      | ended thread holder entered left result filled hover hphase =>
          obtain ⟨rfl, rfl⟩ := hsilent.result_of_over hphase
          apply (hsilent.occupy _).setCall
          · simp
          · rintro _ _ ⟨⟩ reply hreply
            exact answer_eq_timedout_iff.mpr (hreturns hover reply hreply)
          · intro _ _ reply hreply
            exact hreturns hover reply hreply
  | expire op =>
      simp only [step] at htaken
      split at htaken
      · obtain ⟨middle, hrun, rfl⟩ := Option.map_eq_some_iff.mp htaken
        exact (hsilent.transportStep hrun trivial).setCall (by simp) (by simp) (by simp)
      · cases htaken
  | inbound message =>
      cases htaken
      exact ⟨hsilent.quiet, hsilent.sent, hsilent.replied,
        ⟨hsilent.answered.reply, hsilent.answered.timedout⟩⟩
  | dispatch index =>
      simp only [step] at htaken
      split at htaken
      · cases htaken
        apply Silent.process
        exact ⟨hsilent.quiet, hsilent.sent, hsilent.replied,
          ⟨hsilent.answered.reply, hsilent.answered.timedout⟩⟩
      · cases htaken

/-- A step that does not meet it returns something else than the reply says. -/
theorem returnsUnanswered_of_answered (hsilent : Silent codes state)
    (htaken : step codes parse state action = some next) (hnext : Answered codes next) :
    ReturnsUnanswered codes state action := by
  cases action with
  | next op =>
      intro hover reply hreply
      cases next_cases htaken with
      | ended thread holder entered left result filled _ hphase =>
          obtain ⟨rfl, rfl⟩ := hsilent.result_of_over hphase
          apply answer_eq_timedout_iff.mp
          exact hnext.reply op .timedout none (by simp [State.return, State.setCall]) reply hreply
      | run part next hnot hrun => simp [hover] at hnot
      | failed thread holder entered left status hnot hphase hstatus => simp [hover] at hnot
      | sent thread id middle hnot hsent hrun hsame => simp [hover] at hnot
  | _ => trivial

end Step

/-- **When a synchronous `Invoke` returns its reply.**  In every run of `Invoke`s on any threads,
with messages that come in and jobs that are run in any order, every `Invoke` that has returned
returned what each reply says that was processed between its `Send` and the elapse of its wait
time, and `Timedout` only without such a reply, if and only if no `Invoke` whose wait has ended
returns after such a reply, except after error replies that say `Timedout`. -/
theorem answered_throughout_iff {codes : CoreErrors} {parse : Text → Message} {receiver : Bool}
    {schedule : List (Action τ ι)} {final : State τ ι}
    (hrun : exec (step codes parse) (initial receiver) schedule = some final) :
    Throughout (step codes parse) (initial receiver) schedule (Answered codes) ↔
      Meets (step codes parse) (ReturnsUnanswered codes) (initial receiver) schedule :=
  throughout_iff_meets (silent_initial codes receiver) (fun _ hsilent => hsilent.answered)
    (fun _ _ _ hsilent hreturns htaken => silent_step hsilent hreturns htaken)
    (fun _ _ _ hsilent htaken hnext => returnsUnanswered_of_answered hsilent htaken hnext) hrun

/-- An `Invoke` up to its wait. -/
def invokeUntilWait (op : ι) (thread : τ) : List (Action τ ι) :=
  .invoke op thread [] [] :: List.replicate 9 (.next op)

/-- The wait time elapses, and the `Invoke` returns. -/
def giveUp (op : ι) : List (Action τ ι) := .expire op :: List.replicate 5 (.next op)

/-- An `Invoke` nobody replies to, and a message for another identifier. -/
theorem answered_throughout_unanswered :
    Throughout (step exampleCodes fun _ => .empty) (initial true : State Bool ℕ)
      (invokeUntilWait 0 false ++ [.inbound (.reply 9 ['x']), .dispatch 0] ++ giveUp 0)
      (Answered exampleCodes) := by
  obtain ⟨final, hrun, _⟩ : ∃ final : State Bool ℕ,
      exec (step exampleCodes fun _ => .empty) (initial true)
          (invokeUntilWait 0 false ++ [.inbound (.reply 9 ['x']), .dispatch 0] ++ giveUp 0) =
          some final ∧
        decide (final.call 0 = .returned .timedout none) = true :=
    exists_exec_of_any (by decide)
  exact (answered_throughout_iff hrun).mpr (by decide)

/-- An `Invoke` whose reply is processed while it waits returns `Timedout`. -/
theorem not_answered_replied :
    ¬ Throughout (step exampleCodes fun _ => .empty) (initial true : State Bool ℕ)
      (invokeUntilWait 0 false ++ [.inbound (.reply 1 ['x']), .dispatch 0] ++ giveUp 0)
      (Answered exampleCodes) := by
  intro hanswered
  obtain ⟨final, hrun, hfinal⟩ : ∃ final : State Bool ℕ,
      exec (step exampleCodes fun _ => .empty) (initial true)
          (invokeUntilWait 0 false ++ [.inbound (.reply 1 ['x']), .dispatch 0] ++ giveUp 0) =
          some final ∧
        decide (final.call 0 = .returned .timedout none ∧
          final.replies 0 = [.reply 1 ['x']]) = true :=
    exists_exec_of_any (by decide)
  obtain ⟨hcall, hreplies⟩ := of_decide_eq_true hfinal
  have hreply := (hanswered.last hrun).reply 0 .timedout none hcall (.reply 1 ['x'])
    (by simp [hreplies])
  exact absurd hreply (by decide)

end FireboltTransport.Synchronous
