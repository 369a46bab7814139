/-
# What asynchronous calls report

A call should invoke its callback once, with its response or with the error of
its request, and leave nothing behind.  The job does so only when the request
has succeeded and the entry of the pair is still there: it reports no error, and
of two calls in flight under one pair the second to finish reports nothing.
-/

import FireboltTransport.Async.Jobs

namespace FireboltTransport.Async

open Semantics

universe u v

variable {ι : Type u} {ψ : Type v} [DecidableEq ι]

/-- Every call whose job has ended was reported once, with its own response and status, and
when all jobs have ended nothing is recorded. -/
structure Settled (state : State ι ψ) : Prop where
  reported : ∀ op call outcome, state.phase op = .ended call outcome →
    state.reportsOf op = [outcome.report call]
  empty : (∀ op, (state.phase op).inProgress = none) → state.methodMap = ∅

/-- A job that looks for its entry has been answered with success and finds one. -/
def Delivers (state : State ι ψ) : Action ι ψ → Prop
  | .check op =>
      match state.phase op with
      | .answered call outcome =>
          outcome.status = .none ∧ isActive state.methodMap call = true
      | _ => True
  | _ => True

instance (state : State ι ψ) (action : Action ι ψ) : Decidable (Delivers state action) := by
  cases action with
  | check op =>
      unfold Delivers
      dsimp only
      split <;> infer_instance
  | _ => exact isTrue trivial

/-- What should have been reported of a call. -/
def Phase.expected : Phase ψ → List (Report ψ)
  | .called call outcome | .ended call outcome => [outcome.report call]
  | _ => []

/-- The invariant: a call is reported in its callback, and the job of every entry is in
progress under the pair of the entry. -/
structure Delivered (state : State ι ψ) : Prop where
  reported : ∀ op, state.reportsOf op = (state.phase op).expected
  entries : ∀ call found, entry state.methodMap call = some found →
    ∃ op, found.job = some op ∧ (state.phase op).inProgress = some call
  noneEmpty : NoneEmpty state.methodMap

theorem delivered_initial : Delivered (initial : State ι ψ) where
  reported _ := rfl
  entries _ _ hentry := by cases hentry
  noneEmpty := noneEmpty_empty

section Delivery

variable {state next : State ι ψ} {action : Action ι ψ}

/-- A call is reported in its callback and nowhere else; it ends unreported when its check
fails. -/
theorem reported_or_step {op : ι} (hprior : state.reportsOf op = (state.phase op).expected)
    (hstep : Step state action next) : next.reportsOf op = (next.phase op).expected ∨
      (¬ Delivers state action ∧ next.reportsOf op = [] ∧
        ∃ call outcome, next.phase op = .ended call outcome) := by
  rcases reportsOf_step hstep op with
    ⟨haction, hreports⟩ | ⟨call, outcome, -, hactive, hcalled, hreports⟩
  · rw [hreports, hprior]
    rcases phase_step hstep op with hsame | hmoved
    · rw [hsame]
      exact .inl rfl
    · generalize next.phase op = phase at hmoved
      cases hmoved with
      | callback call outcome hphase => exact absurd rfl haction
      | skip call outcome hphase hfailed =>
          rw [hphase]
          refine .inr ⟨fun hdelivers => ?_, rfl, call, outcome, rfl⟩
          simp only [Delivers, hphase, isActive_eq, Option.isSome_iff_ne_none] at hdelivers
          exact hdelivers.2 (hfailed hdelivers.1)
      | invoke call hphase | submit call hphase | start call hphase | answer call outcome hphase
      | pass call outcome hphase hstatus hactive | remove call outcome hphase
      | revoke action call removed hphase hremoves hentry =>
          rw [hphase]
          exact .inl rfl
  · rw [hreports, hprior, hactive, hcalled]
    exact .inl rfl

/-- A call that has ended stays as it is. -/
theorem ended_step {op : ι} {call : Call} {outcome : Outcome ψ}
    (hended : state.phase op = .ended call outcome) (hstep : Step state action next) :
    next.phase op = .ended call outcome ∧ next.reportsOf op = state.reportsOf op := by
  constructor
  · rcases phase_step hstep op with hsame | hmoved
    · rw [hsame, hended]
    · exfalso
      generalize next.phase op = phase at hmoved
      cases hmoved with
      | invoke | submit | start | answer | pass | skip | callback | remove | revoke => simp_all
  · rcases reportsOf_step hstep op with ⟨-, hreports⟩ | ⟨_, _, -, hactive, -⟩
    · exact hreports
    · rw [hended] at hactive
      cases hactive

theorem ended_exec {op : ι} {call : Call} {outcome : Outcome ψ} {schedule : List (Action ι ψ)}
    {final : State ι ψ} (hended : state.phase op = .ended call outcome)
    (hrun : exec step state schedule = some final) :
    final.phase op = .ended call outcome ∧ final.reportsOf op = state.reportsOf op := by
  refine exec_invariant (motive := fun later =>
    later.phase op = .ended call outcome ∧ later.reportsOf op = state.reportsOf op) ?_
    ⟨hended, rfl⟩ hrun
  rintro later action next ⟨hphase, hreports⟩ htaken
  have hkept := ended_step hphase (step_cases htaken)
  exact ⟨hkept.1, hkept.2.trans hreports⟩

theorem entries_step (hdelivered : Delivered state) (hstep : Step state action next)
    (hdelivers : Delivers state action) (call : Call) (found : CallbackData ι)
    (hentry : entry next.methodMap call = some found) :
    ∃ op, found.job = some op ∧ (next.phase op).inProgress = some call := by
  have hkept : ¬ Removes state action call := by
    intro hremoves
    rw [entry_of_removes hstep hremoves] at hentry
    cases hentry
  rcases entry_step hstep call with hsame | ⟨op, rfl, -, hnew⟩ | ⟨hremoves, -⟩
  · rw [hsame] at hentry
    obtain ⟨op, hjob, hprogress⟩ := hdelivered.entries call found hentry
    refine ⟨op, hjob, ?_⟩
    rcases phase_step hstep op with hphase | hmoved
    · rw [hphase, hprogress]
    · generalize next.phase op = phase at hmoved
      cases hmoved with
      | invoke other hphase => rw [hphase] at hprogress; cases hprogress
      | skip other outcome hphase hfailed =>
          simp only [Delivers, hphase, isActive_eq, Option.isSome_iff_ne_none] at hdelivers
          exact absurd (hfailed hdelivers.1) hdelivers.2
      | remove other outcome hphase =>
          rw [hphase] at hprogress
          obtain rfl := Option.some.inj hprogress
          exact absurd (.inr ⟨op, outcome, rfl, hphase⟩) hkept
      | revoke action other removed hphase hremoves hremoved =>
          obtain ⟨job, hown, hother⟩ := hdelivered.entries removed _ hremoved
          obtain rfl := Option.some.inj hown
          rw [hprogress] at hother
          obtain rfl := Option.some.inj hother
          exact absurd hremoves hkept
      | submit other hphase | start other hphase | answer other outcome hphase
      | pass other outcome hphase hstatus hactive | callback other outcome hphase =>
          rw [hphase] at hprogress
          exact hprogress
  · rw [hnew] at hentry
    obtain rfl := Option.some.inj hentry
    refine ⟨op, rfl, ?_⟩
    cases hstep with
    | invoke _ _ hphase => simp [State.setPhase, Phase.inProgress]
  · exact absurd hremoves hkept

theorem Delivered.step (hdelivered : Delivered state) (hstep : Step state action next)
    (hdelivers : Delivers state action) : Delivered next where
  reported op := (reported_or_step (hdelivered.reported op) hstep).resolve_right
    fun hfailed => hfailed.1 hdelivers
  entries := entries_step hdelivered hstep hdelivers
  noneEmpty := noneEmpty_step hstep hdelivered.noneEmpty

theorem Delivered.settled (hdelivered : Delivered state) : Settled state where
  reported op call outcome hphase := by
    rw [hdelivered.reported op, hphase]
    rfl
  empty hover := by
    apply hdelivered.noneEmpty.eq_empty
    intro call
    by_contra hentry
    obtain ⟨found, hfound⟩ := Option.ne_none_iff_exists'.mp hentry
    obtain ⟨op, -, hprogress⟩ := hdelivered.entries call found hfound
    rw [hover op] at hprogress
    cases hprogress

/-- In any run, what was reported of a call that has not ended. -/
theorem reportsOf_of_exec {schedule : List (Action ι ψ)} {final : State ι ψ}
    (hrun : exec step initial schedule = some final) (op : ι) :
    final.reportsOf op = (final.phase op).expected ∨
      ∃ call outcome, final.phase op = .ended call outcome := by
  refine exec_invariant (motive := fun later : State ι ψ =>
    later.reportsOf op = (later.phase op).expected ∨
      ∃ call outcome, later.phase op = .ended call outcome) ?_ (.inl rfl) hrun
  rintro later action next (hreports | ⟨call, outcome, hended⟩) htaken
  · exact (reported_or_step hreports (step_cases htaken)).imp_right fun hfailed => hfailed.2.2
  · exact .inr ⟨call, outcome, (ended_step hended (step_cases htaken)).1⟩

/-- A call whose check fails ends without a report. -/
theorem not_settled_of_not_delivers {schedule : List (Action ι ψ)} {final : State ι ψ}
    (hreached : ∀ op, state.reportsOf op = (state.phase op).expected ∨
      ∃ call outcome, state.phase op = .ended call outcome)
    (hfails : ¬ Delivers state action) (hrun : exec step state (action :: schedule) = some final) :
    ¬ Settled final := by
  intro hsettled
  obtain ⟨next, htaken, hrest⟩ := exec_cons_eq_some.mp hrun
  cases action with
  | check op =>
      cases step_cases htaken with
      | pass _ call outcome hphase hstatus hactive =>
          refine hfails ?_
          simp only [Delivers, hphase, isActive_eq, Option.isSome_iff_ne_none]
          exact ⟨hstatus, hactive⟩
      | skip _ call outcome hphase hfailed =>
          have hunreported : state.reportsOf op = [] := by
            rcases hreached op with hreports | ⟨_, _, hended⟩
            · rw [hreports, hphase]
              rfl
            · rw [hended] at hphase
              cases hphase
          obtain ⟨hended, hreports⟩ := ended_exec (Function.update_self _ _ _) hrest
          have hreported := hsettled.reported op call outcome hended
          rw [hreports] at hreported
          cases hreported.symm.trans hunreported
  | _ => exact hfails trivial

end Delivery

/-- **Reports of asynchronous calls.**  In every run, with or without `Abort`, every call whose
job has ended was reported exactly once, with its own response and status, and nothing is
recorded when all jobs have ended, if and only if every job that came to the end of its request
found that the request had succeeded and that its pair had an entry. -/
theorem settled_iff_delivers {schedule : List (Action ι ψ)} {final : State ι ψ}
    (hrun : exec step initial schedule = some final) :
    Settled final ↔ Meets step Delivers initial schedule := by
  constructor
  · intro hsettled
    rw [meets_iff_forall_split hrun]
    rintro before action after state rfl hbefore
    by_contra hfails
    obtain ⟨middle, hmiddle, hrest⟩ := exec_append_eq_some.mp hrun
    obtain rfl := Option.some.inj (hbefore.symm.trans hmiddle)
    exact not_settled_of_not_delivers (reportsOf_of_exec hbefore) hfails hrest hsettled
  · intro hmeets
    refine (exec_invariant_of_meets (motive := Delivered) ?_ delivered_initial hmeets hrun).settled
    intro state action next hdelivered hdelivers htaken
    exact hdelivered.step (step_cases htaken) hdelivers

/-- A call that is recorded, answered and reported. -/
def answeredCall (op : ι) (call : Call) (outcome : Outcome ψ) : List (Action ι ψ) :=
  [.invoke op call, .submit op, .start op, .answer op outcome, .check op, .callback op,
    .remove op]

theorem settled_iff_delivers_twoCalls :
    ∃ final : State (Fin 2) ℕ,
      exec step initial (answeredCall 0 ⟨['m'], 5⟩ ⟨.none, 17⟩ ++
        answeredCall 1 ⟨['m'], 5⟩ ⟨.none, 18⟩) = some final ∧
      final.reported = [(0, ⟨5, 17, .none⟩), (1, ⟨5, 18, .none⟩)] ∧ Settled final := by
  obtain ⟨final, hrun, hreported⟩ : ∃ final : State (Fin 2) ℕ,
      exec step initial (answeredCall 0 ⟨['m'], 5⟩ ⟨.none, 17⟩ ++
        answeredCall 1 ⟨['m'], 5⟩ ⟨.none, 18⟩) = some final ∧
      decide (final.reported = [(0, ⟨5, 17, .none⟩), (1, ⟨5, 18, .none⟩)]) = true :=
    exists_exec_of_any (by decide)
  exact ⟨final, hrun, of_decide_eq_true hreported, (settled_iff_delivers hrun).mpr (by decide)⟩

/-- A call whose request times out is not reported, and its entry stays. -/
theorem timedout_not_reported :
    ∃ final : State (Fin 1) ℕ,
      exec step initial [.invoke 0 ⟨['m'], 5⟩, .submit 0, .start 0, .answer 0 ⟨.timedout, 0⟩,
        .check 0] = some final ∧
      (∀ op, (final.phase op).inProgress = none) ∧ final.reported = [] ∧
      final.methodMap ≠ ∅ ∧ ¬ Settled final := by
  obtain ⟨final, hrun, hfacts⟩ : ∃ final : State (Fin 1) ℕ,
      exec step initial [.invoke 0 ⟨['m'], 5⟩, .submit 0, .start 0, .answer 0 ⟨.timedout, 0⟩,
        .check 0] = some final ∧
      decide ((∀ op, (final.phase op).inProgress = none) ∧ final.reported = [] ∧
        entry final.methodMap ⟨['m'], 5⟩ ≠ none) = true :=
    exists_exec_of_any (by decide)
  obtain ⟨hover, hreported, hentry⟩ := of_decide_eq_true hfacts
  have hleft : final.methodMap ≠ ∅ := by
    intro hempty
    rw [hempty] at hentry
    exact hentry rfl
  exact ⟨final, hrun, hover, hreported, hleft, fun hsettled => hleft (hsettled.empty hover)⟩

end FireboltTransport.Async
