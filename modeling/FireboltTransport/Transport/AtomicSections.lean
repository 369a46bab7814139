/-
# The sections of sends and answers are atomic

Two machines describe how a message comes into `_pendingQueue` and to the channel.
In the one the check, the lock, the body of the section, the unlock and the
submission are steps; in the other the section is one step.  Here the first is
shown to refine the second for the operations both have, the sends under an
identifier of the counter and the answers to the peer, on any threads.

The step of the section stands where its body runs.  Between the lock and the body
and between the body and the unlock the two machines differ in the lock alone: the
coarse one has given back what the operation under way holds for its section.  A
clash shows that this is not the same as an unlocked mutex, since the hold it leaves
behind is kept by both.
-/

import FireboltTransport.Semantics.Linearizable
import FireboltTransport.Transport.LockedOut

namespace FireboltTransport.Transport

universe u v

/-- `SendResponse`, as against `Send`. -/
def Call.isAnswer : Call → Bool
  | .send _ _ => false
  | .sendResponse _ _ => true

theorem State.phase_setPhase {τ : Type u} {κ : Type v} [DecidableEq κ] (state : State τ κ) (op : κ)
    (phase : Phase τ) : (state.setPhase op phase).phase op = phase :=
  Function.update_self _ _ _

theorem State.phase_setPhase_of_ne {τ : Type u} {κ : Type v} [DecidableEq κ]
    (state : State τ κ) {op other : κ} (hop : other ≠ op) (phase : Phase τ) :
    (state.setPhase op phase).phase other = state.phase other :=
  Function.update_of_ne hop _ _

namespace CriticalSection

variable {τ : Type u} [DecidableEq τ] {mutex : CriticalSection τ} {thread : τ}

/-- A mutex no other thread holds can be locked. -/
theorem exists_lock (hothers : ∀ other, other ≠ thread → mutex.count other = 0) :
    ∃ held, mutex.lock thread = some held := by
  cases mutex with
  | free => exact ⟨_, rfl⟩
  | held owner again =>
      have howner : owner = thread := by
        by_contra hne
        have hzero := hothers owner hne
        simp [count] at hzero
      exact ⟨.held owner (again + 1), by simp [lock, howner]⟩

end CriticalSection

end FireboltTransport.Transport

namespace FireboltTransport.Sections

open Semantics Transport

universe u v

variable {τ : Type u} {κ : Type v}

/-- The operation is one the coarse machine has. -/
def Operation.Records : Operation → Prop
  | .invokeAsync _ _ | .sendResponse _ _ => True
  | .send _ _ _ | .waitForResponse _ | .abort _ | .revoke _ | .timed _ | .closed => False

instance : DecidablePred Operation.Records
  | .invokeAsync _ _ | .sendResponse _ _ => isTrue trivial
  | .send _ _ _ | .waitForResponse _ | .abort _ | .revoke _ | .timed _ | .closed =>
      isFalse id

/-- The label begins no operation but those. -/
def Action.Records : Action τ κ → Prop
  | .start _ _ operation => operation.Records
  | .suspend _ | .next _ | .expire _ => True

instance : DecidablePred (Action.Records : Action τ κ → Prop)
  | .start _ _ operation => inferInstanceAs (Decidable operation.Records)
  | .suspend _ | .next _ | .expire _ => isTrue trivial

/-- The step of the coarse machine an operation takes from a stage, if any. -/
def Stage.atomic (op : κ) : Stage κ → List (Transport.Action τ κ)
  | .check _ _ _ => [.check op]
  | .inside _ => [.record op]
  | .outside (.submit _) => [.submit op]
  | _ => []

/-- The step of the coarse machine a label takes, if any. -/
def atomic (state : State τ κ) : Action τ κ → List (Transport.Action τ κ)
  | .suspend suspended => [.suspend suspended]
  | .start op thread operation =>
      match operation, state.channel with
      | .invokeAsync method parameters, some _ => [.start op thread (.send method parameters)]
      | .sendResponse id response, _ => [.start op thread (.sendResponse id response)]
      | _, _ => []
  | .next op =>
      match state.phase op with
      | .running _ _ stage => stage.atomic op
      | _ => []
  | .expire _ => []

/-- Where an operation is in both machines. -/
inductive Follows (codes : CoreErrors) (parse : Text → Message) :
    Phase τ κ → Transport.Phase τ → Prop
  | idle : Follows codes parse .idle .idle
  /-- `InvokeAsync` without a channel; the coarse machine has no step for it. -/
  | undefined : Follows codes parse .undefined .idle
  | check (thread : τ) (entered : ℕ) (id : MessageID) (call : Call) :
      Follows codes parse
        (.running thread entered (.check id (call.message parse id) call.isAnswer))
        (.begun thread id call)
  | enter (thread : τ) (entered : ℕ) (id : MessageID) (call : Call) :
      Follows codes parse
        (.running thread entered (.enter (.emplace id (call.message parse id) call.isAnswer)))
        (.checked thread id call)
  | inside (thread : τ) (entered : ℕ) (id : MessageID) (call : Call) :
      Follows codes parse
        (.running thread entered (.inside (.emplace id (call.message parse id) call.isAnswer)))
        (.checked thread id call)
  | leave (thread : τ) (entered : ℕ) (id : MessageID) (call : Call) :
      Follows codes parse
        (.running thread entered (.leave (.submit (call.message parse id))))
        (.recorded id call)
  | submit (thread : τ) (entered : ℕ) (id : MessageID) (call : Call) :
      Follows codes parse
        (.running thread entered (.outside (.submit (call.message parse id))))
        (.recorded id call)
  | leaveRefused (thread : τ) (entered : ℕ) (id : MessageID) (call : Call) :
      Follows codes parse (.running thread entered (.leave .refuse))
        (.returned id call (codes.fireboltErrorValue codes.errorAsyncFailed))
  | refused (thread : τ) (entered : ℕ) (id : MessageID) (call : Call) :
      Follows codes parse (.running thread entered (.outside .refuse))
        (.returned id call (codes.fireboltErrorValue codes.errorAsyncFailed))
  | returned (thread : τ) (entered left : ℕ) (id : MessageID) (call : Call) (status : Error) :
      Follows codes parse (.returned thread entered left (.status status))
        (.returned id call status)

/-- The data of both machines, the lock apart. -/
structure SameData [DecidableEq κ] (fine : State τ κ) (coarse : Transport.State τ κ) : Prop where
  channel : coarse.channel = fine.channel
  suspended : coarse.suspended = fine.suspended
  pendingQueue : ∀ id,
    coarse.pendingQueue.lookup id = (fine.pendingQueue.lookup id).map Node.entry
  submitted : coarse.submitted = fine.submitted

/-- The coarse machine holds the lock as often as the operation under way found it held. -/
structure SameHolds [DecidableEq τ] (fine : State τ κ) (coarse : Transport.State τ κ) :
    Prop where
  entered : ∀ op thread entered stage, fine.phase op = .running thread entered stage →
    coarse.adminLock.count thread = entered
  resting : ∀ thread, (∀ op entered stage, fine.phase op ≠ .running thread entered stage) →
    coarse.adminLock.count thread = fine.adminLock.count thread

/-- The two machines are in the same place. -/
structure Matches [DecidableEq τ] [DecidableEq κ] (codes : CoreErrors) (parse : Text → Message)
    (fine : State τ κ) (coarse : Transport.State τ κ) : Prop where
  data : SameData fine coarse
  holds : SameHolds fine coarse
  phase : ∀ op, Follows codes parse (fine.phase op) (coarse.phase op)

variable [DecidableEq τ] [DecidableEq κ] {codes : CoreErrors} {parse : Text → Message}
  {fine after : State τ κ} {coarse later : Transport.State τ κ} {op : κ} {thread : τ}
  {entered : ℕ} {stage : Stage κ} {outcome : Outcome κ}

theorem matches_initial : Matches codes parse (initial : State τ κ) Transport.initial where
  data := ⟨rfl, rfl, fun _ => rfl, rfl⟩
  holds := ⟨by simp [initial], fun _ _ => rfl⟩
  phase _ := .idle

/-! ## The lock -/

omit [DecidableEq κ] in
/-- The coarse machine has given back what the sections under way hold. -/
theorem SameHolds.count_le (hholds : SameHolds fine coarse) (haccounted : Accounted fine)
    (which : τ) : coarse.adminLock.count which ≤ fine.adminLock.count which := by
  by_cases hrunning : ∃ op entered stage, fine.phase op = .running which entered stage
  · obtain ⟨op, entered, stage, hphase⟩ := hrunning
    rw [hholds.entered op which entered stage hphase,
      haccounted.holds op which entered stage hphase]
    exact Nat.le_add_right _ _
  · push Not at hrunning
    exact (hholds.resting which hrunning).le

omit [DecidableEq κ] in
/-- Where an operation is inside its section, the coarse machine can enter it. -/
theorem SameHolds.exists_lock (hholds : SameHolds fine coarse) (haccounted : Accounted fine)
    (hphase : fine.phase op = .running thread entered stage) (hinside : stage.nesting = 1) :
    ∃ held, coarse.adminLock.lock thread = some held := by
  apply CriticalSection.exists_lock
  intro other hother
  have hcount := haccounted.holds op thread entered stage hphase
  rw [hinside] at hcount
  have hheld : 0 < fine.adminLock.count thread := by
    rw [hcount]
    exact Nat.succ_pos entered
  apply Nat.eq_zero_of_le_zero
  rw [← CriticalSection.count_eq_zero_of_ne hheld hother]
  exact hholds.count_le haccounted other

/-- The holds stay the same when those of the thread that moves do. -/
theorem SameHolds.proceed (hholds : SameHolds fine coarse) (haccounted : Accounted fine)
    (hphase : fine.phase op = .running thread entered stage)
    (hrun : stage.run codes fine op thread = some (after, outcome))
    (hothers : ∀ other, other ≠ thread →
      later.adminLock.count other = coarse.adminLock.count other)
    (hgoes : ∀ following, outcome = .goOn following → later.adminLock.count thread = entered)
    (hreturns : (∀ following, outcome ≠ .goOn following) →
      later.adminLock.count thread = after.adminLock.count thread) :
    SameHolds (after.proceed op thread entered outcome) later := by
  have hsame := (run_frame hrun).1
  constructor
  · intro other which times following hother
    rcases proceed_running hother with ⟨rfl, rfl, rfl, rfl⟩ | ⟨hop, hkept⟩
    · exact hgoes following rfl
    · rw [hsame] at hkept
      rw [hothers which (haccounted.ne_of_running hphase hkept hop)]
      exact hholds.entered other which times following hkept
  · intro which hrests
    rw [proceed_adminLock]
    by_cases hwhich : which = thread
    · subst hwhich
      apply hreturns
      rintro following rfl
      exact hrests op entered following (State.setPhase_phase _ _ _)
    · rw [hothers which hwhich]
      rw [(run_count (haccounted.holds op thread entered stage hphase) hrun).1 which hwhich]
      apply hholds.resting which
      intro other times following hother
      have hop : other ≠ op := by
        rintro rfl
        rw [hphase] at hother
        cases hother
        exact hwhich rfl
      apply hrests other times following
      rw [State.proceed_phase_of_ne _ hop, hsame, hother]

/-- A step without a clash leaves the lock of the coarse machine alone. -/
theorem SameHolds.kept (hholds : SameHolds fine coarse) (haccounted : Accounted fine)
    (hphase : fine.phase op = .running thread entered stage)
    (hrun : stage.run codes fine op thread = some (after, outcome))
    (hlock : later.adminLock = coarse.adminLock) (hclash : ¬ stage.Clashes fine)
    (hdefined : outcome ≠ .undefined) :
    SameHolds (after.proceed op thread entered outcome) later := by
  apply hholds.proceed haccounted hphase hrun
  · intro other _
    rw [hlock]
  · intro following _
    rw [hlock]
    exact hholds.entered op thread entered stage hphase
  · intro hreturns
    rw [hlock, hholds.entered op thread entered stage hphase]
    cases outcome with
    | goOn following => exact absurd rfl (hreturns following)
    | undefined => exact absurd rfl hdefined
    | «return» result =>
        have hcount := haccounted.holds op thread entered stage hphase
        exact (((run_count hcount hrun).2.2 result rfl).mpr hclash).symm

omit [DecidableEq τ] [DecidableEq κ] in
/-- Outside its section an operation does not clash. -/
theorem not_clashes_of_nesting {fine : State τ κ} (hinside : ∀ body, stage ≠ .inside body) :
    ¬ stage.Clashes fine := by
  intro hclash
  obtain ⟨body, hstage⟩ := inside_of_clashes hclash
  exact hinside body hstage

/-! ## The steps -/

/-- Where an operation goes on is not part of the data. -/
theorem SameData.proceed (hdata : SameData after later) (op : κ) (thread : τ) (entered : ℕ)
    (outcome : Outcome κ) : SameData (after.proceed op thread entered outcome) later := by
  cases outcome <;> exact ⟨hdata.channel, hdata.suspended, hdata.pendingQueue, hdata.submitted⟩

/-- The machines stay together when they agree on the operation that moves. -/
theorem Matches.proceed (hmatches : Matches codes parse fine coarse)
    (hrun : stage.run codes fine op thread = some (after, outcome))
    (hdata : SameData after later)
    (hholds : SameHolds (after.proceed op thread entered outcome) later)
    (hothers : ∀ other, other ≠ op → later.phase other = coarse.phase other)
    (hfollows : Follows codes parse ((after.proceed op thread entered outcome).phase op)
      (later.phase op)) :
    Matches codes parse (after.proceed op thread entered outcome) later where
  data := hdata.proceed op thread entered outcome
  holds := hholds
  phase := by
    intro other
    by_cases hop : other = op
    · subst hop
      exact hfollows
    · rw [State.proceed_phase_of_ne _ hop, (run_frame hrun).1, hothers other hop]
      exact hmatches.phase other

/-- The step of an operation that changes no data of the coarse machine. -/
theorem Matches.setPhase (hmatches : Matches codes parse fine coarse)
    (haccounted : Accounted fine) (hphase : fine.phase op = .running thread entered stage)
    (hrun : stage.run codes fine op thread = some (after, outcome))
    (hdata : SameData after coarse) (hclash : ¬ stage.Clashes fine)
    (hdefined : outcome ≠ .undefined) {phase : Transport.Phase τ}
    (hfollows : Follows codes parse ((after.proceed op thread entered outcome).phase op) phase) :
    Matches codes parse (after.proceed op thread entered outcome) (coarse.setPhase op phase) := by
  apply hmatches.proceed hrun
  · exact ⟨hdata.channel, hdata.suspended, hdata.pendingQueue, hdata.submitted⟩
  · exact hmatches.holds.kept haccounted hphase hrun rfl hclash hdefined
  · exact fun other hop => Transport.State.phase_setPhase_of_ne _ hop _
  · rw [Transport.State.phase_setPhase]
    exact hfollows

/-- The step of an operation for which the coarse machine has none. -/
theorem Matches.stutter (hmatches : Matches codes parse fine coarse)
    (haccounted : Accounted fine) (hphase : fine.phase op = .running thread entered stage)
    (hrun : stage.run codes fine op thread = some (after, outcome))
    (hdata : SameData after coarse) (hclash : ¬ stage.Clashes fine)
    (hdefined : outcome ≠ .undefined)
    (hfollows : Follows codes parse ((after.proceed op thread entered outcome).phase op)
      (coarse.phase op)) :
    Matches codes parse (after.proceed op thread entered outcome) coarse := by
  apply hmatches.proceed hrun hdata _ (fun _ _ => rfl) hfollows
  exact hmatches.holds.kept haccounted hphase hrun rfl hclash hdefined

/-- The check of the channel. -/
theorem Matches.check (hmatches : Matches codes parse fine coarse) (haccounted : Accounted fine)
    {id : MessageID} {call : Call}
    (hphase : fine.phase op =
      .running thread entered (.check id (call.message parse id) call.isAnswer))
    (hcoarse : coarse.phase op = .begun thread id call)
    (hrun : (Stage.check id (call.message parse id) call.isAnswer).run codes fine op thread =
      some (after, outcome)) :
    ∃ later, Transport.step codes parse coarse (.check op) = some later ∧
      Matches codes parse (after.proceed op thread entered outcome) later := by
  have hclash : ¬ (Stage.check id (call.message parse id) call.isAnswer : Stage κ).Clashes fine :=
    not_clashes_of_nesting (by simp)
  have hchecked := hrun
  simp only [Stage.run] at hchecked
  split_ifs at hchecked with hchannel hsuspended
  · cases hchecked
    refine ⟨coarse.setPhase op
      (.returned id call (codes.fireboltErrorValue codes.errorUnavailable)), ?_, ?_⟩
    · simp [Transport.step, hcoarse, hmatches.data.channel, hchannel]
    · apply hmatches.setPhase haccounted hphase hrun hmatches.data hclash (by simp)
      rw [State.proceed, State.setPhase_phase]
      exact .returned _ _ _ _ _ _
  · cases hchecked
    refine ⟨coarse.setPhase op
      (.returned id call (codes.fireboltErrorValue codes.errorAsyncFailed)), ?_, ?_⟩
    · simp [Transport.step, hcoarse, hmatches.data.channel, hchannel, hmatches.data.suspended,
        hsuspended]
    · apply hmatches.setPhase haccounted hphase hrun hmatches.data hclash (by simp)
      rw [State.proceed, State.setPhase_phase]
      exact .returned _ _ _ _ _ _
  · cases hchecked
    refine ⟨coarse.setPhase op (.checked thread id call), ?_, ?_⟩
    · simp [Transport.step, hcoarse, hmatches.data.channel, hchannel, hmatches.data.suspended,
        hsuspended]
    · apply hmatches.setPhase haccounted hphase hrun hmatches.data hclash (by simp)
      rw [State.proceed, State.setPhase_phase]
      exact .enter _ _ _ _

/-- The body of the section, which the coarse machine runs with the lock and the unlock. -/
theorem Matches.record (hmatches : Matches codes parse fine coarse) (haccounted : Accounted fine)
    {id : MessageID} {call : Call}
    (hphase : fine.phase op =
      .running thread entered (.inside (.emplace id (call.message parse id) call.isAnswer)))
    (hcoarse : coarse.phase op = .checked thread id call)
    (hrun : (Stage.inside (.emplace id (call.message parse id) call.isAnswer)).run codes fine op
      thread = some (after, outcome)) :
    ∃ later, Transport.step codes parse coarse (.record op) = some later ∧
      Matches codes parse (after.proceed op thread entered outcome) later := by
  obtain ⟨held, hlock⟩ := hmatches.holds.exists_lock haccounted hphase rfl
  have hunlock := CriticalSection.unlock_of_lock hlock
  have hrecorded := Option.some.inj hrun
  have hpending := hmatches.data.pendingQueue id
  cases hlookup : fine.pendingQueue.lookup id with
  | none =>
      have hclash : ¬ (Stage.inside
          (.emplace id (call.message parse id) call.isAnswer) : Stage κ).Clashes fine := by
        rintro ⟨other, _, node, hstage, hfound⟩
        obtain ⟨rfl, _, _⟩ : id = other ∧ _ ∧ _ := by simpa using hstage
        rw [hlookup] at hfound
        cases hfound
      rw [hlookup] at hpending
      simp only [Body.run, hlookup] at hrecorded
      cases hrecorded
      refine ⟨{ coarse with pendingQueue := coarse.pendingQueue.insert id .new }.setPhase op
        (.recorded id call), ?_, ?_⟩
      · simp [Transport.step, hcoarse, hlock, hpending, hunlock]
      · apply hmatches.proceed hrun
        · refine ⟨hmatches.data.channel, hmatches.data.suspended, ?_, hmatches.data.submitted⟩
          intro other
          show (coarse.pendingQueue.insert id .new).lookup other =
            ((fine.pendingQueue.insert id ⟨op, .new⟩).lookup other).map Node.entry
          rw [StdMap.lookup_insert_of_eq_or_ne, StdMap.lookup_insert_of_eq_or_ne]
          split_ifs
          · rfl
          · exact hmatches.data.pendingQueue other
        · exact hmatches.holds.kept haccounted hphase hrun rfl hclash (by simp)
        · exact fun other hop => Transport.State.phase_setPhase_of_ne _ hop _
        · rw [State.proceed, State.setPhase_phase, Transport.State.phase_setPhase]
          exact .leave _ _ _ _
  | some node =>
      rw [hlookup] at hpending
      cases call with
      | sendResponse peer response =>
          have hclash : ¬ (Stage.inside (.emplace id
              ((Call.sendResponse peer response).message parse id) true) : Stage κ).Clashes
              fine := by
            rintro ⟨_, _, _, hstage, _⟩
            cases hstage
          simp only [Body.run, hlookup] at hrecorded
          cases hrecorded
          refine ⟨coarse.setPhase op (.returned id (.sendResponse peer response)
            (codes.fireboltErrorValue codes.errorAsyncFailed)), ?_, ?_⟩
          · simp [Transport.step, hcoarse, hlock, hpending, hunlock]
          · apply hmatches.setPhase haccounted hphase hrun hmatches.data hclash (by simp)
            rw [State.proceed, State.setPhase_phase]
            exact .leaveRefused _ _ _ _
      | send method parameters =>
          simp only [Body.run, hlookup] at hrecorded
          cases hrecorded
          refine ⟨{ coarse with adminLock := held }.setPhase op (.returned id
            (.send method parameters) (codes.fireboltErrorValue codes.errorAsyncFailed)), ?_, ?_⟩
          · simp [Transport.step, hcoarse, hlock, hpending]
          · apply hmatches.proceed hrun
            · exact ⟨hmatches.data.channel, hmatches.data.suspended, hmatches.data.pendingQueue,
                hmatches.data.submitted⟩
            · -- the hold of the section stays with the thread in both machines
              apply hmatches.holds.proceed haccounted hphase hrun
              · intro other hother
                show held.count other = _
                rw [CriticalSection.count_lock hlock, if_neg hother, Nat.add_zero]
              · simp
              · intro _
                show held.count thread = fine.adminLock.count thread
                rw [CriticalSection.count_lock hlock, if_pos rfl,
                  hmatches.holds.entered op thread entered _ hphase,
                  haccounted.holds op thread entered _ hphase]
                rfl
            · exact fun other hop => Transport.State.phase_setPhase_of_ne _ hop _
            · rw [State.proceed, State.setPhase_phase, Transport.State.phase_setPhase]
              exact .returned _ _ _ _ _ _

/-- The submission of a message. -/
theorem Matches.submit (hmatches : Matches codes parse fine coarse) (haccounted : Accounted fine)
    {id : MessageID} {call : Call}
    (hphase : fine.phase op =
      .running thread entered (.outside (.submit (call.message parse id))))
    (hcoarse : coarse.phase op = .recorded id call)
    (hrun : (Stage.outside (.submit (call.message parse id))).run codes fine op thread =
      some (after, outcome)) :
    ∃ later, Transport.step codes parse coarse (.submit op) = some later ∧
      Matches codes parse (after.proceed op thread entered outcome) later := by
  have hsubmitted := Option.some.inj hrun
  cases hsubmitted
  refine ⟨{ coarse with submitted := coarse.submitted ++ [(op, call.message parse id)] }.setPhase
    op (.returned id call (codes.fireboltErrorValue codes.errorNone)), ?_, ?_⟩
  · simp [Transport.step, hcoarse]
  · apply hmatches.proceed hrun
    · refine ⟨hmatches.data.channel, hmatches.data.suspended, hmatches.data.pendingQueue, ?_⟩
      show coarse.submitted ++ [(op, call.message parse id)] = _
      rw [hmatches.data.submitted]
    · exact hmatches.holds.kept haccounted hphase hrun rfl (not_clashes_of_nesting (by simp))
        (by simp)
    · exact fun other hop => Transport.State.phase_setPhase_of_ne _ hop _
    · rw [State.proceed, State.setPhase_phase, Transport.State.phase_setPhase]
      exact .returned _ _ _ _ _ _

/-- Each step of an operation is the coarse one its stage names, or none. -/
theorem Matches.next (hmatches : Matches codes parse fine coarse) (haccounted : Accounted fine)
    (hphase : fine.phase op = .running thread entered stage)
    (hrun : stage.run codes fine op thread = some (after, outcome)) :
    ∃ later, exec (Transport.step codes parse) coarse (stage.atomic op) = some later ∧
      Matches codes parse (after.proceed op thread entered outcome) later := by
  have hfollows := hmatches.phase op
  rw [hphase] at hfollows
  generalize hcoarse : coarse.phase op = phase at hfollows
  cases hfollows with
  | check thread entered id call =>
      obtain ⟨later, htaken, hnext⟩ := hmatches.check haccounted hphase hcoarse hrun
      exact ⟨later, exec_single htaken, hnext⟩
  | enter thread entered id call =>
      obtain ⟨held, hlock, hpair⟩ := Option.map_eq_some_iff.mp hrun
      cases hpair
      refine ⟨coarse, rfl, hmatches.stutter haccounted hphase hrun ?_
        (not_clashes_of_nesting (by simp)) (by simp) ?_⟩
      · exact ⟨hmatches.data.channel, hmatches.data.suspended, hmatches.data.pendingQueue,
          hmatches.data.submitted⟩
      · rw [State.proceed, State.setPhase_phase, hcoarse]
        exact .inside _ _ _ _
  | inside thread entered id call =>
      obtain ⟨later, htaken, hnext⟩ := hmatches.record haccounted hphase hcoarse hrun
      exact ⟨later, exec_single htaken, hnext⟩
  | leave thread entered id call =>
      cases Option.some.inj hrun
      refine ⟨coarse, rfl, hmatches.stutter haccounted hphase hrun ?_
        (not_clashes_of_nesting (by simp)) (by simp) ?_⟩
      · exact ⟨hmatches.data.channel, hmatches.data.suspended, hmatches.data.pendingQueue,
          hmatches.data.submitted⟩
      · rw [State.proceed, State.setPhase_phase, hcoarse]
        exact .submit _ _ _ _
  | submit thread entered id call =>
      obtain ⟨later, htaken, hnext⟩ := hmatches.submit haccounted hphase hcoarse hrun
      exact ⟨later, exec_single htaken, hnext⟩
  | leaveRefused thread entered id call =>
      cases Option.some.inj hrun
      refine ⟨coarse, rfl, hmatches.stutter haccounted hphase hrun ?_
        (not_clashes_of_nesting (by simp)) (by simp) ?_⟩
      · exact ⟨hmatches.data.channel, hmatches.data.suspended, hmatches.data.pendingQueue,
          hmatches.data.submitted⟩
      · rw [State.proceed, State.setPhase_phase, hcoarse]
        exact .refused _ _ _ _
  | refused thread entered id call =>
      cases Option.some.inj hrun
      refine ⟨coarse, rfl, hmatches.stutter haccounted hphase hrun hmatches.data
        (not_clashes_of_nesting (by simp)) (by simp) ?_⟩
      rw [State.proceed, State.setPhase_phase, hcoarse]
      exact .returned _ _ _ _ _ _

/-- An operation that begins finds the lock as the coarse machine has it. -/
theorem Matches.begin (hmatches : Matches codes parse fine coarse) (haccounted : Accounted fine)
    (hidle : fine.phase op = .idle) (hbusy : fine.busy thread = none) {channel : Option Channel}
    {phase : Phase τ κ} {coarsePhase : Transport.Phase τ}
    (hfollows : Follows codes parse phase coarsePhase)
    (hmoved : ∀ which times following, phase = .running which times following →
      which = thread ∧ times = fine.adminLock.count thread) :
    Matches codes parse
      ({ fine with busy := Function.update fine.busy thread (some op), channel := channel }.setPhase
        op phase)
      ({ coarse with channel := channel }.setPhase op coarsePhase) where
  data := ⟨rfl, hmatches.data.suspended, hmatches.data.pendingQueue, hmatches.data.submitted⟩
  holds := by
    have hnobody : ∀ other times following,
        fine.phase other ≠ .running thread times following := by
      intro other times following hother
      have hwhich := haccounted.busy other thread times following hother
      rw [hbusy] at hwhich
      cases hwhich
    constructor
    · intro other which times following hother
      rcases setPhase_running hother with ⟨rfl, hbegun⟩ | ⟨_, hkept⟩
      · obtain ⟨rfl, rfl⟩ := hmoved which times following hbegun
        exact hmatches.holds.resting which hnobody
      · exact hmatches.holds.entered other which times following hkept
    · intro which hrests
      apply hmatches.holds.resting which
      intro other times following hother
      have hop : other ≠ op := by
        rintro rfl
        rw [hidle] at hother
        cases hother
      apply hrests other times following
      rw [State.setPhase_phase_of_ne _ hop]
      exact hother
  phase := by
    intro other
    by_cases hop : other = op
    · subst hop
      rw [State.setPhase_phase, Transport.State.phase_setPhase]
      exact hfollows
    · rw [State.setPhase_phase_of_ne _ hop, Transport.State.phase_setPhase_of_ne _ hop]
      exact hmatches.phase other

/-- A label that begins an operation both machines have. -/
theorem Matches.start (hmatches : Matches codes parse fine coarse) (haccounted : Accounted fine)
    {operation : Operation} (hrecords : operation.Records) (hidle : fine.phase op = .idle)
    (hbusy : fine.busy thread = none)
    (hnext : step codes parse fine (.start op thread operation) = some after) :
    ∃ later, exec (Transport.step codes parse) coarse
        (atomic fine (.start op thread operation)) = some later ∧
      Matches codes parse after later := by
  have hcoarse : coarse.phase op = .idle := by
    have hfollows := hmatches.phase op
    rw [hidle] at hfollows
    generalize coarse.phase op = phase at hfollows
    cases hfollows
    rfl
  have hchannel := hmatches.data.channel
  have hbegun : ∀ stage : Stage κ, ∀ which times following,
      Phase.running thread (fine.adminLock.count thread) stage =
        .running which times following → which = thread ∧ times = fine.adminLock.count thread := by
    rintro stage which times following ⟨⟩
    exact ⟨rfl, rfl⟩
  cases operation with
  | invokeAsync method parameters =>
      cases hcurrent : fine.channel with
      | none =>
          simp only [step, hidle, hbusy, Operation.first, hcurrent, Option.map_none,
            Option.some.injEq] at hnext
          subst hnext
          have hsame : { coarse with channel := none }.setPhase op .idle = coarse := by
            rw [← hcurrent, ← hchannel, ← hcoarse]
            simp [Transport.State.setPhase]
          refine ⟨coarse, by simp [atomic, hcurrent], ?_⟩
          rw [← hsame]
          exact hmatches.begin haccounted hidle hbusy .undefined (by simp)
      | some current =>
          simp only [step, hidle, hbusy, Operation.first, hcurrent, Option.map_some,
            Option.some.injEq] at hnext
          subst hnext
          rw [hcurrent] at hchannel
          refine ⟨{ coarse with channel := some current.sequence.2 }.setPhase op
            (.begun thread current.sequence.1 (.send method parameters)), ?_, ?_⟩
          · simp [atomic, hcurrent, Transport.step, hcoarse, hchannel]
          · exact hmatches.begin haccounted hidle hbusy (.check _ _ _ _) (hbegun _)
  | sendResponse id response =>
      simp only [step, hidle, hbusy, Operation.first, Option.some.injEq] at hnext
      subst hnext
      refine ⟨{ coarse with channel := fine.channel }.setPhase op
        (.begun thread id (.sendResponse id response)), ?_, ?_⟩
      · rw [← hchannel]
        simp [atomic, Transport.step, hcoarse]
      · exact hmatches.begin haccounted hidle hbusy (.check _ _ _ _) (hbegun _)
  | _ => cases hrecords

/-- Each label of the machine with its locks is the coarse one `atomic` names, or none. -/
theorem Matches.step (hmatches : Matches codes parse fine coarse) (haccounted : Accounted fine)
    {action : Action τ κ} (hrecords : action.Records)
    (hnext : step codes parse fine action = some after) :
    ∃ later, exec (Transport.step codes parse) coarse (atomic fine action) = some later ∧
      Matches codes parse after later := by
  cases step_cases hnext with
  | suspend suspended =>
      refine ⟨{ coarse with suspended := suspended }, rfl, ?_, ?_, hmatches.phase⟩
      · exact ⟨hmatches.data.channel, rfl, hmatches.data.pendingQueue, hmatches.data.submitted⟩
      · exact ⟨hmatches.holds.entered, hmatches.holds.resting⟩
  | start op thread operation stage channel hphase hbusy hfirst =>
      exact hmatches.start haccounted hrecords hphase hbusy hnext
  | startUndefined op thread operation hphase hbusy hfirst =>
      exact hmatches.start haccounted hrecords hphase hbusy hnext
  | next op thread entered stage after outcome hphase hrun =>
      have hatomic : atomic fine (.next op) = stage.atomic op := by simp [atomic, hphase]
      rw [hatomic]
      exact hmatches.next haccounted hphase hrun
  | expire op thread entered id owner signalled response hphase hentry =>
      -- nobody waits in such a run
      have hfollows := hmatches.phase op
      rw [hphase] at hfollows
      generalize coarse.phase op = phase at hfollows
      cases hfollows

/-- **The section is one step.**  However the checks, locks, bodies, unlocks and submissions of
sends under drawn identifiers and of answers interleave on any threads, the coarse steps at their
checks, section bodies and submissions are, in that order, a run of the coarse machine.  It ends
with the same messages submitted, the same `_pendingQueue`, the same results, and the lock held as
often as the operations under way found it held. -/
theorem exec_trace_atomic {schedule : List (Action τ κ)} {final : State τ κ}
    (hrecords : ∀ action ∈ schedule, action.Records)
    (hrun : exec (step codes parse) initial schedule = some final) :
    ∃ later, exec (Transport.step codes parse) Transport.initial
        (trace (step codes parse) atomic initial schedule) = some later ∧
      Matches codes parse final later := by
  obtain ⟨later, hlater, _, hmatches⟩ : ∃ later,
      exec (Transport.step codes parse) Transport.initial
        (trace (step codes parse) atomic initial schedule) = some later ∧
      Accounted final ∧ Matches codes parse final later := by
    refine exec_trace_of_match
      (fun state coarse => Accounted state ∧ Matches codes parse state coarse)
      ⟨accounted_of_idle fun _ => rfl, matches_initial⟩ ?_ hrun
    rintro state action next coarse hmember htaken ⟨haccounted, hmatches⟩
    obtain ⟨later, hlabels, hnext⟩ :=
      hmatches.step haccounted (hrecords action hmember) htaken
    exact ⟨later, hlabels, haccounted.step (step_cases htaken), hnext⟩
  exact ⟨later, hlater, hmatches⟩

/-- A call is recorded while an answer under its identifier waits for the lock. -/
def answerBehindCall (own answer : κ) (first second : τ) : List (Action τ κ) :=
  [.start own first (.invokeAsync [] []), .start answer second (.sendResponse 1 []),
    .next own, .next answer, .next own, .next own, .next own,
    .next answer, .next own, .next answer, .next answer, .next answer]

theorem exec_trace_atomic_answerBehindCall :
    ∃ (final : State Bool ℕ) (later : Transport.State Bool ℕ),
      exec (step exampleCodes fun _ => .empty) initial (answerBehindCall 0 1 false true) =
        some final ∧
      exec (Transport.step exampleCodes fun _ => .empty) Transport.initial
          [.start 0 false (.send [] []), .start 1 true (.sendResponse 1 []), .check 0, .check 1,
            .record 0, .submit 0, .record 1] = some later ∧
        later.submitted = final.submitted := by
  obtain ⟨final, hrun, _⟩ : ∃ final : State Bool ℕ,
      exec (step exampleCodes fun _ => .empty) initial (answerBehindCall 0 1 false true) =
        some final ∧
      decide (final.phase 1 = .returned true 0 0
        (.status (exampleCodes.fireboltErrorValue exampleCodes.errorAsyncFailed))) = true :=
    exists_exec_of_any (by decide)
  have htrace : trace (step exampleCodes fun _ => .empty) atomic (initial : State Bool ℕ)
      (answerBehindCall 0 1 false true) =
      [.start 0 false (.send [] []), .start 1 true (.sendResponse 1 []), .check 0, .check 1,
        .record 0, .submit 0, .record 1] := by
    decide
  obtain ⟨later, hlater, hmatches⟩ := exec_trace_atomic (by decide) hrun
  rw [htrace] at hlater
  exact ⟨final, later, hrun, hlater, hmatches.data.submitted⟩

end FireboltTransport.Sections
