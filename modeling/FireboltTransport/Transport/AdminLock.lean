/-
# Every operation gives its lock back

`_adminLock` is locked and unlocked by hand, on each branch of each operation.  An
operation holds it once between the two and not at all outside, and a thread
executes one operation at a time, so the holds of a thread are those it had when
the operation was called and the operation's own.  The one branch without an
unlock is taken by a `Send` that finds its identifier in `_pendingQueue`.
-/

import FireboltTransport.Transport.PendingIds
import FireboltTransport.Transport.Sections

namespace FireboltTransport.Transport.CriticalSection

universe u

variable {τ : Type u} [DecidableEq τ] {mutex held : CriticalSection τ} {thread : τ}

/-- Locking adds one hold of the thread and changes no other. -/
theorem count_lock (hlock : mutex.lock thread = some held) (other : τ) :
    held.count other = mutex.count other + if other = thread then 1 else 0 := by
  cases mutex with
  | free =>
      cases hlock
      simp [count, eq_comm]
  | held owner again =>
      simp only [lock] at hlock
      split_ifs at hlock with howner
      cases hlock
      subst howner
      by_cases hother : other = owner
      · simp [count, hother]
      · simp [count, hother, Ne.symm hother]

/-- Unlocking takes one hold of the owner back. -/
theorem count_unlock (howned : 0 < mutex.count thread) (other : τ) :
    mutex.unlock.count other + (if other = thread then 1 else 0) = mutex.count other := by
  cases mutex with
  | free => simp [count] at howned
  | held owner again =>
      have howner : owner = thread := by
        by_contra hne
        simp [count, hne] at howned
      subst howner
      by_cases hother : other = owner
      · cases again <;> simp [count, unlock, hother]
      · cases again <;> simp [count, unlock, hother, Ne.symm hother]

end FireboltTransport.Transport.CriticalSection

namespace FireboltTransport.Sections

open Semantics Transport

universe u v

variable {τ : Type u} {κ : Type v}

/-- An operation that has returned left its thread with the holds it had before. -/
def Balanced (state : State τ κ) : Prop :=
  ∀ op thread entered left result,
    state.phase op = .returned thread entered left result → left = entered

/-- The stage is the emplacement of a `Send`, and the identifier is in `_pendingQueue`. -/
def Stage.Clashes (state : State τ κ) (stage : Stage κ) : Prop :=
  ∃ id message node, stage = .inside (.emplace id message false) ∧
    state.pendingQueue.lookup id = some node

/-- A `Send` that comes to its emplacement finds its identifier unused. -/
def EmplacesUnused (state : State τ κ) : Action τ κ → Prop
  | .next op =>
      match state.phase op with
      | .running _ _ (.inside (.emplace id _ false)) => state.pendingQueue.lookup id = none
      | _ => True
  | .suspend _ | .start _ _ _ | .expire _ => True

instance [DecidableEq κ] (state : State τ κ) : ∀ action, Decidable (EmplacesUnused state action)
  | .next op =>
      match hphase : state.phase op with
      | .running _ _ (.inside (.emplace id _ false)) =>
          decidable_of_iff (state.pendingQueue.lookup id = none)
            (by simp only [EmplacesUnused, hphase])
      | .running _ _ (.inside (.emplace _ _ true)) => isTrue (by simp only [EmplacesUnused, hphase])
      | .running _ _ (.inside (.find _ _)) => isTrue (by simp only [EmplacesUnused, hphase])
      | .running _ _ (.inside (.erase _ _ _)) => isTrue (by simp only [EmplacesUnused, hphase])
      | .running _ _ (.inside (.revoke _)) => isTrue (by simp only [EmplacesUnused, hphase])
      | .running _ _ (.inside (.sweep _)) => isTrue (by simp only [EmplacesUnused, hphase])
      | .running _ _ (.inside .abortAll) => isTrue (by simp only [EmplacesUnused, hphase])
      | .running _ _ (.check _ _ _) => isTrue (by simp only [EmplacesUnused, hphase])
      | .running _ _ (.enter _) => isTrue (by simp only [EmplacesUnused, hphase])
      | .running _ _ (.leave _) => isTrue (by simp only [EmplacesUnused, hphase])
      | .running _ _ (.outside _) => isTrue (by simp only [EmplacesUnused, hphase])
      | .idle => isTrue (by simp only [EmplacesUnused, hphase])
      | .returned _ _ _ _ => isTrue (by simp only [EmplacesUnused, hphase])
      | .undefined => isTrue (by simp only [EmplacesUnused, hphase])
  | .suspend _ | .start _ _ _ | .expire _ => isTrue trivial

/-- The clash is the negation of the condition. -/
theorem emplacesUnused_iff {state : State τ κ} {op : κ} {thread : τ} {entered : ℕ}
    {stage : Stage κ} (hphase : state.phase op = .running thread entered stage) :
    EmplacesUnused state (.next op) ↔ ¬ stage.Clashes state := by
  simp only [EmplacesUnused, hphase]
  split
  · next hstage =>
      obtain ⟨_, _, rfl⟩ := Phase.running.inj hstage
      rw [Option.eq_none_iff_forall_ne_some]
      simp [Stage.Clashes]
  · next hother =>
      refine iff_of_true trivial ?_
      rintro ⟨id, message, node, rfl, _⟩
      exact hother _ _ _ _ rfl

/-- The holds of every thread are accounted for. -/
structure Counted [DecidableEq τ] (state : State τ κ) : Prop where
  busy : ∀ op thread entered stage, state.phase op = .running thread entered stage →
    state.busy thread = some op
  holds : ∀ op thread entered stage, state.phase op = .running thread entered stage →
    state.adminLock.count thread = entered + stage.nesting
  balanced : Balanced state

theorem counted_of_idle [DecidableEq τ] {start : State τ κ} (hidle : ∀ op, start.phase op = .idle) :
    Counted start where
  busy := by simp [hidle]
  holds := by simp [hidle]
  balanced := by simp [Balanced, hidle]

/-! ## What a step of an operation does to the lock -/

section Run

variable {codes : CoreErrors} {state after : State τ κ} {op : κ} {thread : τ}
  {outcome : Outcome κ}

/-- The body of a section does not touch the lock. -/
theorem body_adminLock (body : Body) :
    (body.run codes state op).1.adminLock = state.adminLock := by
  cases body with
  | emplace id message answer =>
      simp only [Body.run]
      split
      · rfl
      · split_ifs <;> rfl
  | find id use =>
      simp only [Body.run]
      split <;> rfl
  | _ => rfl

/-- A section ends at the unlock, except where a `Send` clashes. -/
theorem body_outcome {body : Body} (houtcome : (body.run codes state op).2 = outcome) :
    (∃ rest, outcome = .goOn (.leave rest)) ∨ outcome = .undefined ∨
      (∃ result, outcome = .return result) ∧ (Stage.inside body).Clashes state := by
  subst houtcome
  cases body with
  | emplace id message answer =>
      simp only [Body.run]
      split
      · exact .inl ⟨_, rfl⟩
      · split_ifs with hanswer
        · exact .inl ⟨_, rfl⟩
        · obtain rfl : answer = false := by simpa using hanswer
          exact .inr (.inr ⟨⟨_, rfl⟩, id, message, _, rfl, ‹_›⟩)
  | find id use =>
      simp only [Body.run]
      split
      · exact .inr (.inl rfl)
      · exact .inl ⟨_, rfl⟩
  | erase id result filled => exact .inl ⟨_, rfl⟩
  | revoke eventName => exact .inl ⟨_, rfl⟩
  | sweep currentTime => exact .inl ⟨_, rfl⟩
  | abortAll => exact .inl ⟨_, rfl⟩

/-- A clash is found inside the section. -/
theorem inside_of_clashes {stage : Stage κ} (hclash : stage.Clashes state) :
    ∃ body, stage = .inside body := by
  obtain ⟨id, message, node, hstage, _⟩ := hclash
  exact ⟨_, hstage⟩

/-- A clash makes the `Send` return at once. -/
theorem body_of_clashes (codes : CoreErrors) (op : κ) {body : Body}
    (hclash : (Stage.inside body).Clashes state) :
    ∃ result, (body.run codes state op).2 = .return result := by
  obtain ⟨id, message, node, hbody, hlookup⟩ := hclash
  obtain rfl := Stage.inside.inj hbody
  simp [Body.run, hlookup]

variable [DecidableEq κ]

/-- What follows the unlock happens without the lock. -/
theorem rest_run {rest : Rest κ} (hrun : rest.run codes state op = some (after, outcome)) :
    after.adminLock = state.adminLock ∧ ∀ stage, outcome = .goOn stage → stage.nesting = 0 := by
  cases rest with
  | wait id owner =>
      simp only [Rest.run] at hrun
      split at hrun
      · split_ifs at hrun
        cases hrun
        exact ⟨rfl, by rintro stage ⟨⟩; rfl⟩
      · cases hrun
        exact ⟨rfl, by simp⟩
  | read id owner =>
      simp only [Rest.run] at hrun
      split at hrun
      · cases hrun
        exact ⟨rfl, by rintro stage ⟨⟩; rfl⟩
      · cases hrun
        exact ⟨rfl, by simp⟩
  | abort id owner =>
      simp only [Rest.run] at hrun
      split at hrun <;> cases hrun <;> exact ⟨rfl, by simp⟩
  | _ =>
      cases hrun
      exact ⟨rfl, by simp⟩

variable [DecidableEq τ]

/-- A step moves the lock as the stages before and after it say, and leaves the holds of other
threads alone. -/
theorem run_count {stage : Stage κ} {entered : ℕ}
    (hcount : state.adminLock.count thread = entered + stage.nesting)
    (hrun : stage.run codes state op thread = some (after, outcome)) :
    (∀ other, other ≠ thread → after.adminLock.count other = state.adminLock.count other) ∧
      (∀ next, outcome = .goOn next →
        after.adminLock.count thread = entered + next.nesting) ∧
      (∀ result, outcome = .return result →
        (after.adminLock.count thread = entered ↔ ¬ stage.Clashes state)) := by
  cases stage with
  | check id message answer =>
      have hnot : ¬ (Stage.check id message answer : Stage κ).Clashes state := by
        intro hclash
        obtain ⟨body, hstage⟩ := inside_of_clashes hclash
        cases hstage
      simp only [Stage.run] at hrun
      split_ifs at hrun <;> cases hrun
      · exact ⟨fun _ _ => rfl, by simp, fun _ _ => iff_of_true hcount hnot⟩
      · exact ⟨fun _ _ => rfl, by simp, fun _ _ => iff_of_true hcount hnot⟩
      · exact ⟨fun _ _ => rfl, by rintro next ⟨⟩; exact hcount, by simp⟩
  | enter body =>
      obtain ⟨held, hlock, hpair⟩ := Option.map_eq_some_iff.mp hrun
      cases hpair
      refine ⟨?_, ?_, by simp⟩
      · intro other hother
        show held.count other = _
        rw [CriticalSection.count_lock hlock, if_neg hother, Nat.add_zero]
      · rintro next ⟨⟩
        show held.count thread = entered + 1
        rw [CriticalSection.count_lock hlock, if_pos rfl, hcount]
        rfl
  | inside body =>
      have hpair := Option.some.inj hrun
      have hafter : after = (body.run codes state op).1 := by rw [hpair]
      have houtcome : (body.run codes state op).2 = outcome := by rw [hpair]
      have hlock : after.adminLock = state.adminLock := by rw [hafter, body_adminLock]
      rw [hlock]
      refine ⟨fun _ _ => rfl, ?_, ?_⟩
      · intro next hnext
        rcases body_outcome houtcome with ⟨rest, hrest⟩ | hundefined | ⟨⟨result, hresult⟩, _⟩
        · rw [hrest] at hnext
          cases hnext
          exact hcount
        · rw [hundefined] at hnext
          cases hnext
        · rw [hresult] at hnext
          cases hnext
      · intro result hreturn
        rcases body_outcome houtcome with ⟨rest, hrest⟩ | hundefined | ⟨_, hclash⟩
        · rw [hrest] at hreturn
          cases hreturn
        · rw [hundefined] at hreturn
          cases hreturn
        · refine iff_of_false ?_ (not_not.mpr hclash)
          rw [hcount]
          exact Nat.succ_ne_self entered
  | leave rest =>
      cases hrun
      have howned : 0 < state.adminLock.count thread := by
        rw [hcount]
        exact Nat.succ_pos entered
      refine ⟨?_, ?_, by simp⟩
      · intro other hother
        have hunlock := CriticalSection.count_unlock howned other
        rwa [if_neg hother, Nat.add_zero] at hunlock
      · rintro next ⟨⟩
        have hunlock := CriticalSection.count_unlock howned thread
        rw [if_pos rfl, hcount] at hunlock
        exact Nat.succ.inj hunlock
  | outside rest =>
      obtain ⟨hlock, hnesting⟩ := rest_run hrun
      rw [hlock]
      refine ⟨fun _ _ => rfl, ?_, ?_⟩
      · intro next hnext
        rw [hcount, hnesting next hnext]
        rfl
      · intro result _
        apply iff_of_true hcount
        intro hclash
        obtain ⟨body, hstage⟩ := inside_of_clashes hclash
        cases hstage

/-- A step of an operation moves no other operation and leaves the threads where they are. -/
theorem run_frame {stage : Stage κ}
    (hrun : stage.run codes state op thread = some (after, outcome)) :
    after.phase = state.phase ∧ after.busy = state.busy := by
  cases stage with
  | check id message answer =>
      simp only [Stage.run] at hrun
      split_ifs at hrun <;> cases hrun <;> exact ⟨rfl, rfl⟩
  | enter body =>
      obtain ⟨held, _, hpair⟩ := Option.map_eq_some_iff.mp hrun
      cases hpair
      exact ⟨rfl, rfl⟩
  | inside body =>
      have hpair := Option.some.inj hrun
      have hafter : after = (body.run codes state op).1 := by rw [hpair]
      subst hafter
      cases body with
      | emplace id message answer =>
          simp only [Body.run]
          split
          · exact ⟨rfl, rfl⟩
          · split_ifs <;> exact ⟨rfl, rfl⟩
      | find id use =>
          simp only [Body.run]
          split <;> exact ⟨rfl, rfl⟩
      | _ => exact ⟨rfl, rfl⟩
  | leave rest =>
      cases hrun
      exact ⟨rfl, rfl⟩
  | outside rest =>
      cases rest with
      | wait id owner =>
          simp only [Stage.run, Rest.run] at hrun
          split at hrun
          · split_ifs at hrun
            cases hrun
            exact ⟨rfl, rfl⟩
          · cases hrun
            exact ⟨rfl, rfl⟩
      | read id owner | abort id owner =>
          simp only [Stage.run, Rest.run] at hrun
          split at hrun <;> cases hrun <;> exact ⟨rfl, rfl⟩
      | _ =>
          cases hrun
          exact ⟨rfl, rfl⟩

end Run

/-! ## Every run -/

section Step

variable [DecidableEq τ] [DecidableEq κ] {codes : CoreErrors} {parse : Text → Message}
  {state next : State τ κ} {action : Action τ κ}

/-- The count is kept by a step that brings `op` to a phase which accounts for the holds of its
thread, and leaves the threads of the other operations alone. -/
theorem Counted.setPhase (hcounted : Counted state) (after : State τ κ) {op : κ}
    {phase : Phase τ κ} (hphase : after.phase = state.phase)
    (hothers : ∀ other, other ≠ op → ∀ thread, state.busy thread = some other →
      after.busy thread = some other ∧
        after.adminLock.count thread = state.adminLock.count thread)
    (hrunning : ∀ thread entered stage, phase = .running thread entered stage →
      after.busy thread = some op ∧
        after.adminLock.count thread = entered + stage.nesting)
    (hreturned : ∀ thread entered left result, phase = .returned thread entered left result →
      left = entered) :
    Counted (after.setPhase op phase) where
  busy := by
    intro other thread entered stage hother
    by_cases hop : other = op
    · subst hop
      simp only [State.setPhase, Function.update_self] at hother
      exact (hrunning thread entered stage hother).1
    · simp only [State.setPhase, Function.update_of_ne hop, hphase] at hother
      exact (hothers other hop thread (hcounted.busy other thread entered stage hother)).1
  holds := by
    intro other thread entered stage hother
    by_cases hop : other = op
    · subst hop
      simp only [State.setPhase, Function.update_self] at hother
      exact (hrunning thread entered stage hother).2
    · simp only [State.setPhase, Function.update_of_ne hop, hphase] at hother
      show after.adminLock.count thread = _
      rw [(hothers other hop thread (hcounted.busy other thread entered stage hother)).2]
      exact hcounted.holds other thread entered stage hother
  balanced := by
    intro other thread entered left result hother
    by_cases hop : other = op
    · subst hop
      simp only [State.setPhase, Function.update_self] at hother
      exact hreturned thread entered left result hother
    · simp only [State.setPhase, Function.update_of_ne hop, hphase] at hother
      exact hcounted.balanced other thread entered left result hother

omit [DecidableEq κ] in
/-- An operation begins without the lock of its own. -/
theorem first_nesting {operation : Operation} {channel later : Option Channel} {stage : Stage κ}
    (hfirst : operation.first parse channel = some (stage, later)) : stage.nesting = 0 := by
  cases operation with
  | invokeAsync method parameters =>
      obtain ⟨current, _, hpair⟩ := Option.map_eq_some_iff.mp hfirst
      cases hpair
      rfl
  | _ =>
      cases hfirst
      rfl

omit [DecidableEq κ] in
/-- A thread that begins an operation was not busy with another. -/
theorem busy_update_of_free {busy : τ → Option κ} {thread which : τ} {op other : κ}
    (hfree : busy thread = none) (hwhich : busy which = some other) :
    Function.update busy thread (some op) which = some other := by
  have hne : which ≠ thread := by
    rintro rfl
    rw [hfree] at hwhich
    cases hwhich
  rw [Function.update_of_ne hne, hwhich]

/-- A step that meets the condition keeps the count. -/
theorem Counted.step (hcounted : Counted state) (hunused : EmplacesUnused state action)
    (hstep : Step codes parse state action next) : Counted next := by
  cases hstep with
  | suspend suspended => exact ⟨hcounted.busy, hcounted.holds, hcounted.balanced⟩
  | start op thread operation stage channel hphase hbusy hfirst =>
      apply hcounted.setPhase
        { state with busy := Function.update state.busy thread (some op), channel := channel } rfl
      · intro other hop which hwhich
        exact ⟨busy_update_of_free hbusy hwhich, rfl⟩
      · rintro which entered later ⟨⟩
        exact ⟨by simp, by rw [first_nesting hfirst, Nat.add_zero]⟩
      · simp
  | startUndefined op thread operation hphase hbusy hfirst =>
      apply hcounted.setPhase
        { state with busy := Function.update state.busy thread (some op) } rfl
      · intro other hop which hwhich
        exact ⟨busy_update_of_free hbusy hwhich, rfl⟩
      · simp
      · simp
  | next op thread entered stage after outcome hphase hrun =>
      have hbusy := hcounted.busy op thread entered stage hphase
      obtain ⟨hsame, hthreads⟩ := run_frame hrun
      obtain ⟨hothers, hgoOn, hreturn⟩ :=
        run_count (hcounted.holds op thread entered stage hphase) hrun
      have hne : ∀ other, other ≠ op → ∀ which, state.busy which = some other →
          which ≠ thread := by
        rintro other hop which hwhich rfl
        rw [hbusy] at hwhich
        exact hop (Option.some.inj hwhich).symm
      cases outcome with
      | goOn later =>
          apply hcounted.setPhase after hsame
          · intro other hop which hwhich
            exact ⟨by rw [hthreads]; exact hwhich, hothers which (hne other hop which hwhich)⟩
          · rintro which times third ⟨⟩
            exact ⟨by rw [hthreads]; exact hbusy, hgoOn later rfl⟩
          · simp
      | «return» result =>
          apply hcounted.setPhase
            { after with busy := Function.update after.busy thread none } hsame
          · intro other hop which hwhich
            have hother := hne other hop which hwhich
            exact ⟨by simpa [hother, hthreads] using hwhich, hothers which hother⟩
          · simp
          · rintro which times left last ⟨⟩
            exact (hreturn result rfl).mpr ((emplacesUnused_iff hphase).mp hunused)
      | undefined =>
          apply hcounted.setPhase after hsame
          · intro other hop which hwhich
            exact ⟨by rw [hthreads]; exact hwhich, hothers which (hne other hop which hwhich)⟩
          · simp
          · simp
  | expire op thread entered id owner signalled response hphase hentry =>
      apply hcounted.setPhase state rfl
      · exact fun _ _ _ hwhich => ⟨hwhich, rfl⟩
      · rintro which times stage ⟨⟩
        have hholds : state.adminLock.count thread = entered :=
          hcounted.holds op _ _ _ hphase
        exact ⟨hcounted.busy op _ _ _ hphase, hholds⟩
      · simp

/-- A `Send` that clashes returns with a hold too many. -/
theorem Counted.emplacesUnused (hcounted : Counted state)
    (hstep : Step codes parse state action next) (hnext : Balanced next) :
    EmplacesUnused state action := by
  cases hstep with
  | next op thread entered stage after outcome hphase hrun =>
      rw [emplacesUnused_iff hphase]
      intro hclash
      have hcopy := hclash
      obtain ⟨id, message, node, rfl, hlookup⟩ := hcopy
      obtain ⟨result, hresult⟩ := body_of_clashes codes op hclash
      have hpair : Body.run codes state op (.emplace id message false) = (after, outcome) :=
        Option.some.inj hrun
      rw [hpair] at hresult
      obtain rfl : outcome = .return result := hresult
      obtain ⟨_, _, hreturn⟩ := run_count (hcounted.holds op thread entered _ hphase) hrun
      have hleft := hnext op thread entered (after.adminLock.count thread) result
        (by simp [State.proceed, State.setPhase])
      exact (hreturn result rfl).mp hleft hclash
  | _ => trivial

end Step

/-- **The lock is given back.**  From any state in which no operation is under way, and for every
interleaving of the operations with any arguments, every operation that has returned left its
thread with as many holds of `_adminLock` as it had before, if and only if every `Send` (also that
of an `InvokeAsync`) that comes to its emplacement finds its identifier absent from
`_pendingQueue`. -/
theorem balanced_throughout_iff [DecidableEq τ] [DecidableEq κ] {codes : CoreErrors}
    {parse : Text → Message} {start final : State τ κ} {schedule : List (Action τ κ)}
    (hidle : ∀ op, start.phase op = .idle)
    (hrun : exec (step codes parse) start schedule = some final) :
    Throughout (step codes parse) start schedule Balanced ↔
      Meets (step codes parse) EmplacesUnused start schedule :=
  throughout_iff_meets (counted_of_idle hidle) (fun _ hcounted => hcounted.balanced)
    (fun _ _ _ hcounted hunused htaken => hcounted.step hunused (step_cases htaken))
    (fun _ _ _ hcounted htaken hnext => hcounted.emplacesUnused (step_cases htaken) hnext) hrun

/-- A call of an operation, with `steps` further steps. -/
def runs (op : κ) (thread : τ) (operation : Operation) (steps : ℕ) : List (Action τ κ) :=
  .start op thread operation :: List.replicate steps (.next op)

/-- A `Send`, the close that empties `_pendingQueue`, and a `Send` under the same identifier. -/
theorem balanced_throughout_iff_closedBetween :
    Throughout (step exampleCodes fun _ => .empty) (initial : State Bool ℕ)
      (runs 0 false (.send 7 [] []) 5 ++ runs 1 true .closed 4 ++ runs 2 false (.send 7 [] []) 5)
      Balanced := by
  obtain ⟨final, hrun, _⟩ : ∃ final : State Bool ℕ,
      exec (step exampleCodes fun _ => .empty) initial
          (runs 0 false (.send 7 [] []) 5 ++ runs 1 true .closed 4 ++
            runs 2 false (.send 7 [] []) 5) = some final ∧
        decide (final.phase 2 = .returned false 0 0 (.status .none)) = true :=
    exists_exec_of_any (by decide)
  exact (balanced_throughout_iff (fun _ => rfl) hrun).mpr (by decide)

/-- A second `Send` under an identifier that is still pending keeps the lock. -/
theorem lock_kept_by_clash :
    ¬ Throughout (step exampleCodes fun _ => .empty) (initial : State Bool ℕ)
      (runs 0 false (.send 7 [] []) 5 ++ runs 1 true (.send 7 [] []) 3) Balanced := by
  intro hbalanced
  obtain ⟨final, hrun, hfacts⟩ : ∃ final : State Bool ℕ,
      exec (step exampleCodes fun _ => .empty) initial
          (runs 0 false (.send 7 [] []) 5 ++ runs 1 true (.send 7 [] []) 3) = some final ∧
        decide (final.phase 1 = .returned true 0 1
          (.status (exampleCodes.fireboltErrorValue exampleCodes.errorAsyncFailed))) = true :=
    exists_exec_of_any (by decide)
  have hkept := hbalanced.last hrun 1 true 0 1 _ (of_decide_eq_true hfacts)
  exact absurd hkept (by decide)

end FireboltTransport.Sections
