/-
# Asynchronous calls on the worker pool

`Async::Invoke` records the call and submits a job, which makes the request and
then looks for the entry of its pair: only when the request has succeeded and the
entry is there does it invoke the callback and remove the entry.  `RemoveEntry`,
also called by `Abort`, revokes the job of the entry, which takes effect only
while that job is queued.

A label is one step of one call; the critical sections of `_adminLock` are one
step each.
-/

import FireboltTransport.Async.MethodMap
import FireboltTransport.Semantics.Run

namespace FireboltTransport.Async

open Semantics

universe u v

/-- What `Gateway::Request` returns, and the response it leaves. -/
structure Outcome (ψ : Type v) where
  status : Error
  response : ψ
  deriving DecidableEq

/-- Where a call is. -/
inductive Phase (ψ : Type v)
  | idle
  /-- `Invoke` has released `_adminLock` and not yet submitted the job. -/
  | recorded (call : Call)
  | queued (call : Call)
  /-- The job makes its request. -/
  | running (call : Call)
  | answered (call : Call) (outcome : Outcome ψ)
  /-- `IsActive` has found the entry. -/
  | active (call : Call) (outcome : Outcome ψ)
  /-- The callback has returned. -/
  | called (call : Call) (outcome : Outcome ψ)
  | ended (call : Call) (outcome : Outcome ψ)
  /-- The job was taken from the queue. -/
  | revoked (call : Call)
  deriving DecidableEq

/-- The arguments of a callback. -/
structure Report (ψ : Type v) where
  usercb : UInt64
  response : ψ
  status : Error
  deriving DecidableEq

structure State (ι : Type u) (ψ : Type v) where
  methodMap : MethodMap ι
  phase : ι → Phase ψ
  /-- The callbacks that were invoked, each with the call it belongs to. -/
  reported : List (ι × Report ψ)

inductive Action (ι : Type u) (ψ : Type v)
  /-- The critical section of `Invoke`. -/
  | invoke (op : ι) (call : Call)
  /-- `Invoke` submits the job and returns. -/
  | submit (op : ι)
  /-- A worker starts the job. -/
  | start (op : ι)
  /-- `Gateway::Request` returns. -/
  | answer (op : ι) (outcome : Outcome ψ)
  /-- The status is compared, and `IsActive` called if it is `None`. -/
  | check (op : ι)
  | callback (op : ι)
  /-- `RemoveEntry`, called by the job. -/
  | remove (op : ι)
  /-- `Abort`. -/
  | abort (call : Call)
  deriving DecidableEq

variable {ι : Type u} {ψ : Type v} [DecidableEq ι]

/-- What the callback is invoked with. -/
def Outcome.report (outcome : Outcome ψ) (call : Call) : Report ψ :=
  ⟨call.usercb, outcome.response, outcome.status⟩

/-- `IWorkerPool::Revoke`: a queued job is taken from the queue. -/
def revoke (phase : ι → Phase ψ) : Option ι → ι → Phase ψ
  | none => phase
  | some job =>
      match phase job with
      | .queued call => Function.update phase job (.revoked call)
      | _ => phase

def State.setPhase (state : State ι ψ) (op : ι) (phase : Phase ψ) : State ι ψ :=
  { state with phase := Function.update state.phase op phase }

/-- `RemoveEntry` on the state. -/
def State.removeEntry (state : State ι ψ) (call : Call) : State ι ψ :=
  { state with
    methodMap := (Async.removeEntry state.methodMap call).2
    phase := revoke state.phase (Async.removeEntry state.methodMap call).1 }

/-- One step, or `none` when the label is not enabled. -/
def step (state : State ι ψ) : Action ι ψ → Option (State ι ψ)
  | .invoke op call =>
      match state.phase op with
      | .idle => some ({ state with
          methodMap := record state.methodMap call ⟨some op⟩ }.setPhase op (.recorded call))
      | _ => none
  | .submit op =>
      match state.phase op with
      | .recorded call => some (state.setPhase op (.queued call))
      | _ => none
  | .start op =>
      match state.phase op with
      | .queued call => some (state.setPhase op (.running call))
      | _ => none
  | .answer op outcome =>
      match state.phase op with
      | .running call => some (state.setPhase op (.answered call outcome))
      | _ => none
  | .check op =>
      match state.phase op with
      | .answered call outcome =>
          if outcome.status = .none ∧ isActive state.methodMap call = true then
            some (state.setPhase op (.active call outcome))
          else some (state.setPhase op (.ended call outcome))
      | _ => none
  | .callback op =>
      match state.phase op with
      | .active call outcome => some ({ state with
          reported := state.reported ++ [(op, outcome.report call)] }.setPhase op
            (.called call outcome))
      | _ => none
  | .remove op =>
      match state.phase op with
      | .called call outcome => some ((state.removeEntry call).setPhase op (.ended call outcome))
      | _ => none
  | .abort call => some (state.removeEntry call)

/-- No call was made. -/
def initial : State ι ψ where
  methodMap := ∅
  phase _ := .idle
  reported := []

/-- The steps, as a relation. -/
inductive Step (state : State ι ψ) : Action ι ψ → State ι ψ → Prop
  | invoke (op : ι) (call : Call) (hphase : state.phase op = .idle) :
      Step state (.invoke op call) ({ state with
        methodMap := record state.methodMap call ⟨some op⟩ }.setPhase op (.recorded call))
  | submit (op : ι) (call : Call) (hphase : state.phase op = .recorded call) :
      Step state (.submit op) (state.setPhase op (.queued call))
  | start (op : ι) (call : Call) (hphase : state.phase op = .queued call) :
      Step state (.start op) (state.setPhase op (.running call))
  | answer (op : ι) (call : Call) (outcome : Outcome ψ) (hphase : state.phase op = .running call) :
      Step state (.answer op outcome) (state.setPhase op (.answered call outcome))
  | pass (op : ι) (call : Call) (outcome : Outcome ψ)
      (hphase : state.phase op = .answered call outcome) (hstatus : outcome.status = .none)
      (hactive : entry state.methodMap call ≠ none) :
      Step state (.check op) (state.setPhase op (.active call outcome))
  | skip (op : ι) (call : Call) (outcome : Outcome ψ)
      (hphase : state.phase op = .answered call outcome)
      (hfailed : outcome.status = .none → entry state.methodMap call = none) :
      Step state (.check op) (state.setPhase op (.ended call outcome))
  | callback (op : ι) (call : Call) (outcome : Outcome ψ)
      (hphase : state.phase op = .active call outcome) :
      Step state (.callback op) ({ state with
        reported := state.reported ++ [(op, outcome.report call)] }.setPhase op
          (.called call outcome))
  | remove (op : ι) (call : Call) (outcome : Outcome ψ)
      (hphase : state.phase op = .called call outcome) :
      Step state (.remove op) ((state.removeEntry call).setPhase op (.ended call outcome))
  | abort (call : Call) : Step state (.abort call) (state.removeEntry call)

theorem step_cases {state next : State ι ψ} {action : Action ι ψ}
    (htaken : step state action = some next) : Step state action next := by
  cases action with
  | abort call =>
      obtain rfl := Option.some.inj htaken
      exact .abort call
  | invoke op call =>
      simp only [step] at htaken
      split at htaken
      · obtain rfl := Option.some.inj htaken
        exact .invoke op call ‹_›
      · cases htaken
  | submit op =>
      simp only [step] at htaken
      split at htaken
      · obtain rfl := Option.some.inj htaken
        exact .submit op _ ‹_›
      · cases htaken
  | start op =>
      simp only [step] at htaken
      split at htaken
      · obtain rfl := Option.some.inj htaken
        exact .start op _ ‹_›
      · cases htaken
  | answer op outcome =>
      simp only [step] at htaken
      split at htaken
      · obtain rfl := Option.some.inj htaken
        exact .answer op _ outcome ‹_›
      · cases htaken
  | check op =>
      simp only [step, isActive_eq, Option.isSome_iff_ne_none] at htaken
      split at htaken
      · split_ifs at htaken with hpass
        · obtain rfl := Option.some.inj htaken
          exact .pass op _ _ ‹_› hpass.1 hpass.2
        · obtain rfl := Option.some.inj htaken
          refine .skip op _ _ ‹_› fun hstatus => ?_
          by_contra hentry
          exact hpass ⟨hstatus, hentry⟩
      · cases htaken
  | callback op =>
      simp only [step] at htaken
      split at htaken
      · obtain rfl := Option.some.inj htaken
        exact .callback op _ _ ‹_›
      · cases htaken
  | remove op =>
      simp only [step] at htaken
      split at htaken
      · obtain rfl := Option.some.inj htaken
        exact .remove op _ _ ‹_›
      · cases htaken

/-! ## What a step changes -/

/-- The call of a job that has not ended and was not revoked. -/
def Phase.inProgress : Phase ψ → Option Call
  | .recorded call | .queued call | .running call | .answered call _ | .active call _
  | .called call _ => some call
  | .idle | .ended _ _ | .revoked _ => none

/-- The call of a job, also when it has ended or was revoked. -/
def Phase.call : Phase ψ → Option Call
  | .recorded call | .queued call | .running call | .answered call _ | .active call _
  | .called call _ | .ended call _ | .revoked call => some call
  | .idle => none

/-- The job of an entry is that of a call under the pair of the entry. -/
def OwnsEntries (state : State ι ψ) : Prop :=
  ∀ call op, entry state.methodMap call = some ⟨some op⟩ → (state.phase op).call = some call

/-- What was reported of a call. -/
def State.reportsOf (state : State ι ψ) (op : ι) : List (Report ψ) :=
  (state.reported.filter fun entry => entry.1 = op).map fun entry => entry.2

/-- The step removes the entry of the pair. -/
def Removes (state : State ι ψ) (action : Action ι ψ) (call : Call) : Prop :=
  action = .abort call ∨
    ∃ op outcome, action = .remove op ∧ state.phase op = .called call outcome

/-- The phase a call gets in a step that changes it. -/
inductive Moved (state : State ι ψ) (op : ι) : Action ι ψ → Phase ψ → Prop
  | invoke (call : Call) (hphase : state.phase op = .idle) :
      Moved state op (.invoke op call) (.recorded call)
  | submit (call : Call) (hphase : state.phase op = .recorded call) :
      Moved state op (.submit op) (.queued call)
  | start (call : Call) (hphase : state.phase op = .queued call) :
      Moved state op (.start op) (.running call)
  | answer (call : Call) (outcome : Outcome ψ) (hphase : state.phase op = .running call) :
      Moved state op (.answer op outcome) (.answered call outcome)
  | pass (call : Call) (outcome : Outcome ψ) (hphase : state.phase op = .answered call outcome)
      (hstatus : outcome.status = .none) (hactive : entry state.methodMap call ≠ none) :
      Moved state op (.check op) (.active call outcome)
  | skip (call : Call) (outcome : Outcome ψ) (hphase : state.phase op = .answered call outcome)
      (hfailed : outcome.status = .none → entry state.methodMap call = none) :
      Moved state op (.check op) (.ended call outcome)
  | callback (call : Call) (outcome : Outcome ψ) (hphase : state.phase op = .active call outcome) :
      Moved state op (.callback op) (.called call outcome)
  | remove (call : Call) (outcome : Outcome ψ) (hphase : state.phase op = .called call outcome) :
      Moved state op (.remove op) (.ended call outcome)
  | revoke (action : Action ι ψ) (call removed : Call) (hphase : state.phase op = .queued call)
      (hremoves : Removes state action removed)
      (hentry : entry state.methodMap removed = some ⟨some op⟩) :
      Moved state op action (.revoked call)

section Changes

variable {state next : State ι ψ} {action : Action ι ψ}

/-- Revoking changes the phase of a queued job only. -/
theorem revoke_eq_or (phase : ι → Phase ψ) (job : Option ι) (op : ι) :
    revoke phase job op = phase op ∨
      ∃ call, job = some op ∧ phase op = .queued call ∧ revoke phase job op = .revoked call := by
  cases job with
  | none => exact .inl rfl
  | some revoked =>
      cases hrevoked : phase revoked with
      | queued call =>
          by_cases hop : op = revoked
          · subst hop
            exact .inr ⟨call, rfl, hrevoked, by simp [revoke, hrevoked]⟩
          · exact .inl (by simp [revoke, hrevoked, hop])
      | _ => exact .inl (by simp [revoke, hrevoked])

/-- What `RemoveEntry` does to the phase of a call. -/
theorem removeEntry_phase (state : State ι ψ) (call : Call) (op : ι) :
    (state.removeEntry call).phase op = state.phase op ∨
      ∃ queued, state.phase op = .queued queued ∧ entry state.methodMap call = some ⟨some op⟩ ∧
        (state.removeEntry call).phase op = .revoked queued := by
  rcases revoke_eq_or state.phase (removeEntry state.methodMap call).1 op with
    hsame | ⟨queued, hjob, hqueued, hrevoked⟩
  · exact .inl hsame
  · rw [removeEntry_fst] at hjob
    obtain ⟨⟨job⟩, hentry, rfl⟩ := Option.bind_eq_some_iff.mp hjob
    exact .inr ⟨queued, hqueued, hentry, hrevoked⟩

theorem phase_step (hstep : Step state action next) (op : ι) :
    next.phase op = state.phase op ∨ Moved state op action (next.phase op) := by
  cases hstep with
  | abort call =>
      rcases removeEntry_phase state call op with hsame | ⟨queued, hqueued, hentry, hrevoked⟩
      · exact .inl hsame
      · rw [hrevoked]
        exact .inr (.revoke _ queued call hqueued (.inl rfl) hentry)
  | remove other call outcome hphase =>
      by_cases hother : op = other
      · subst hother
        simp only [State.setPhase, Function.update_self]
        exact .inr (.remove call outcome hphase)
      · simp only [State.setPhase, Function.update_of_ne hother]
        rcases removeEntry_phase state call op with hsame | ⟨queued, hqueued, hentry, hrevoked⟩
        · exact .inl hsame
        · rw [hrevoked]
          exact .inr (.revoke _ queued call hqueued (.inr ⟨other, outcome, rfl, hphase⟩) hentry)
  | invoke other call hphase | submit other call hphase | start other call hphase
  | answer other call outcome hphase | pass other call outcome hphase hstatus hactive
  | skip other call outcome hphase hfailed | callback other call outcome hphase =>
      by_cases hother : op = other
      · subst hother
        simp only [State.setPhase, Function.update_self]
        exact .inr (by constructor <;> assumption)
      · exact .inl (Function.update_of_ne hother _ _)

/-- The entry of a pair changes when a call under the pair is recorded or it is removed. -/
theorem entry_step (hstep : Step state action next) (call : Call) :
    entry next.methodMap call = entry state.methodMap call ∨
      (∃ op, action = .invoke op call ∧ entry state.methodMap call = none ∧
        entry next.methodMap call = some ⟨some op⟩) ∨
      (Removes state action call ∧ entry next.methodMap call = none) := by
  cases hstep with
  | invoke op recorded hphase =>
      simp only [State.setPhase, entry_record]
      split_ifs with hcall
      · obtain ⟨rfl, hnone⟩ := hcall
        exact .inr (.inl ⟨op, rfl, hnone, rfl⟩)
      · exact .inl rfl
  | remove op removed outcome hphase =>
      simp only [State.setPhase, State.removeEntry, entry_removeEntry]
      split_ifs with hcall
      · subst hcall
        exact .inr (.inr ⟨.inr ⟨op, outcome, rfl, hphase⟩, rfl⟩)
      · exact .inl rfl
  | abort removed =>
      simp only [State.removeEntry, entry_removeEntry]
      split_ifs with hcall
      · subst hcall
        exact .inr (.inr ⟨.inl rfl, rfl⟩)
      · exact .inl rfl
  | submit | start | answer | pass | skip | callback => exact .inl rfl

/-- After a step that removes the entry of a pair there is none. -/
theorem entry_of_removes (hstep : Step state action next) {call : Call}
    (hremoves : Removes state action call) : entry next.methodMap call = none := by
  rcases hremoves with rfl | ⟨op, outcome, rfl, hcalled⟩
  · cases hstep with
    | abort => simp [State.removeEntry, entry_removeEntry]
  · cases hstep with
    | remove _ removed _ hphase =>
        obtain ⟨rfl, -⟩ := Phase.called.inj (hcalled.symm.trans hphase)
        simp [State.setPhase, State.removeEntry, entry_removeEntry]

/-- Only the callback of a call reports it. -/
theorem reportsOf_step (hstep : Step state action next) (op : ι) :
    (action ≠ .callback op ∧ next.reportsOf op = state.reportsOf op) ∨ ∃ call outcome,
      action = .callback op ∧ state.phase op = .active call outcome ∧
        next.phase op = .called call outcome ∧
        next.reportsOf op = state.reportsOf op ++ [outcome.report call] := by
  cases hstep with
  | callback other call outcome hphase =>
      by_cases hother : other = op
      · subst hother
        exact .inr ⟨call, outcome, rfl, hphase, by simp [State.setPhase],
          by simp [State.reportsOf, State.setPhase]⟩
      · exact .inl ⟨by simp [hother], by simp [State.reportsOf, State.setPhase, hother]⟩
  | invoke | submit | start | answer | pass | skip | remove | abort => exact .inl ⟨nofun, rfl⟩

/-- A call keeps its pair. -/
theorem call_step (hstep : Step state action next) {op : ι} {call : Call}
    (hcall : (state.phase op).call = some call) : (next.phase op).call = some call := by
  rcases phase_step hstep op with hsame | hmoved
  · rw [hsame, hcall]
  · generalize next.phase op = phase at hmoved
    cases hmoved with
    | invoke _ hphase | submit _ hphase | start _ hphase | answer _ _ hphase | pass _ _ hphase
    | skip _ _ hphase | callback _ _ hphase | remove _ _ hphase | revoke _ _ _ hphase =>
        rw [hphase] at hcall
        cases hcall <;> rfl

theorem OwnsEntries.step (howns : OwnsEntries state) (hstep : Step state action next) :
    OwnsEntries next := by
  intro call op hentry
  rcases entry_step hstep call with hsame | ⟨other, rfl, -, hnew⟩ | ⟨-, hnone⟩
  · rw [hsame] at hentry
    exact call_step hstep (howns call op hentry)
  · rw [hnew] at hentry
    obtain rfl : other = op := by simpa using hentry
    cases hstep with
    | invoke _ _ hphase => simp [State.setPhase, Phase.call]
  · rw [hnone] at hentry
    cases hentry

theorem ownsEntries_of_exec {schedule : List (Action ι ψ)} {final : State ι ψ}
    (hrun : exec Async.step initial schedule = some final) : OwnsEntries final := by
  refine exec_invariant (motive := OwnsEntries) ?_ ?_ hrun
  · intro state action next howns htaken
    exact howns.step (step_cases htaken)
  · intro call op hentry
    cases hentry

theorem noneEmpty_step (hstep : Step state action next) (hnone : NoneEmpty state.methodMap) :
    NoneEmpty next.methodMap := by
  cases hstep with
  | invoke op call hphase => exact hnone.record _ _
  | remove op call outcome hphase => exact hnone.removeEntry _
  | abort call => exact hnone.removeEntry _
  | submit | start | answer | pass | skip | callback => exact hnone

end Changes

end FireboltTransport.Async
