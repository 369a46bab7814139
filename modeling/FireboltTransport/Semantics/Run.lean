/-
# Schedules of a partial step function

A concurrent program is presented by a partial step function: a label names the
thread that moves and resolves every choice the environment makes, and a label
that is not enabled has no successor.  A schedule is a list of labels, so every
interleaving is one schedule and a counterexample is a list that can be run.

The module supplies the rules the developments over such functions share: an
invariant rule, the same rule for schedules whose steps all meet a side
condition, a rule for every state a schedule passes through, rules that carry the
past of a schedule or a count of its labels along, and the transfer of executions
along a projection with stuttering.
-/

import Mathlib.Data.List.Induction

namespace FireboltTransport.Semantics

universe u v w x

variable {σ : Type u} {α : Type v}

/-- Run a schedule.  The result is `none` when some label was not enabled. -/
def exec (step : σ → α → Option σ) : σ → List α → Option σ
  | state, [] => some state
  | state, action :: rest => (step state action).bind fun next => exec step next rest

section Exec

variable {step : σ → α → Option σ} {start final state next : σ} {action : α}
  {schedule before after : List α}

@[simp]
theorem exec_nil : exec step start [] = some start := rfl

@[simp]
theorem exec_cons :
    exec step start (action :: schedule) =
      (step start action).bind fun next => exec step next schedule := rfl

theorem exec_cons_eq_some :
    exec step start (action :: schedule) = some final ↔
      ∃ next, step start action = some next ∧ exec step next schedule = some final := by
  simp [Option.bind_eq_some_iff]

theorem exec_append :
    exec step start (before ++ after) =
      (exec step start before).bind fun middle => exec step middle after := by
  induction before generalizing start with
  | nil => rfl
  | cons action rest ih =>
      cases htaken : step start action with
      | none => simp [htaken]
      | some next => simp [htaken, ih]

theorem exec_append_eq_some :
    exec step start (before ++ after) = some final ↔
      ∃ middle, exec step start before = some middle ∧ exec step middle after = some final := by
  simp [exec_append, Option.bind_eq_some_iff]

theorem exec_single (htaken : step start action = some next) :
    exec step start [action] = some next := by
  simp [htaken]

theorem exec_snoc (hprior : exec step start schedule = some state)
    (htaken : step state action = some next) :
    exec step start (schedule ++ [action]) = some next :=
  exec_append_eq_some.mpr ⟨state, hprior, by simp [htaken]⟩

theorem exec_trans (hfirst : exec step start before = some state)
    (hsecond : exec step state after = some final) :
    exec step start (before ++ after) = some final :=
  exec_append_eq_some.mpr ⟨state, hfirst, hsecond⟩

/-- A schedule that runs to a state passing a Boolean check does reach such a state. -/
theorem exists_exec_of_any {check : σ → Bool}
    (hcheck : (exec step start schedule).any check = true) :
    ∃ final, exec step start schedule = some final ∧ check final = true := by
  cases hrun : exec step start schedule with
  | none => simp [hrun] at hcheck
  | some final => exact ⟨final, rfl, by simpa [hrun] using hcheck⟩

/-- The same for a state the schedule is known to reach. -/
theorem check_of_exec {check : σ → Bool} (hcheck : (exec step start schedule).any check = true)
    (hrun : exec step start schedule = some final) : check final = true := by
  simpa [hrun] using hcheck

end Exec

/-- A state some schedule reaches. -/
def Reachable (step : σ → α → Option σ) (start state : σ) : Prop :=
  ∃ schedule, exec step start schedule = some state

theorem Reachable.refl (step : σ → α → Option σ) (start : σ) :
    Reachable step start start := ⟨[], rfl⟩

theorem Reachable.exec {step : σ → α → Option σ} {start state final : σ} {schedule : List α}
    (hreach : Reachable step start state) (hrun : exec step state schedule = some final) :
    Reachable step start final := by
  obtain ⟨before, hbefore⟩ := hreach
  exact ⟨before ++ schedule, exec_trans hbefore hrun⟩

/-- Every step of the schedule meets `condition` in the state it is taken in. -/
def Meets (step : σ → α → Option σ) (condition : σ → α → Prop) : σ → List α → Prop
  | _, [] => True
  | state, action :: rest =>
      condition state action ∧
        match step state action with
        | some next => Meets step condition next rest
        | none => True

instance Meets.decidable {step : σ → α → Option σ} {condition : σ → α → Prop}
    [∀ state action, Decidable (condition state action)] :
    ∀ (start : σ) (schedule : List α), Decidable (Meets step condition start schedule)
  | _, [] => isTrue trivial
  | start, action :: rest =>
      match hnext : step start action with
      | some next =>
          have : Decidable (Meets step condition next rest) := Meets.decidable next rest
          decidable_of_iff (condition start action ∧ Meets step condition next rest)
            (by simp [Meets, hnext])
      | none => decidable_of_iff (condition start action) (by simp [Meets, hnext])

section Rules

variable {step : σ → α → Option σ} {condition : σ → α → Prop} {start final : σ}
  {schedule : List α}

theorem meets_cons_of_step {action : α} {next : σ} (htaken : step start action = some next) :
    Meets step condition start (action :: schedule) ↔
      condition start action ∧ Meets step condition next schedule := by
  simp [Meets, htaken]

theorem meets_append {before after : List α} {middle : σ}
    (hbefore : exec step start before = some middle) :
    Meets step condition start (before ++ after) ↔
      Meets step condition start before ∧ Meets step condition middle after := by
  induction before generalizing start with
  | nil =>
      obtain rfl : start = middle := by simpa using hbefore
      simp [Meets]
  | cons action rest ih =>
      obtain ⟨next, htaken, hrest⟩ := exec_cons_eq_some.mp hbefore
      rw [List.cons_append, meets_cons_of_step htaken, meets_cons_of_step htaken, ih hrest,
        and_assoc]

/-- The steps of a run meet a condition when every step does in the state it starts from. -/
theorem meets_iff_forall_split (hrun : exec step start schedule = some final) :
    Meets step condition start schedule ↔
      ∀ before action after state, schedule = before ++ action :: after →
        exec step start before = some state → condition state action := by
  constructor
  · rintro hmeets before action after state rfl hbefore
    have hrest := ((meets_append hbefore).mp hmeets).2
    exact hrest.1
  · intro hall
    induction schedule generalizing start with
    | nil => trivial
    | cons action rest ih =>
        obtain ⟨next, htaken, hrest⟩ := exec_cons_eq_some.mp hrun
        rw [meets_cons_of_step htaken]
        refine ⟨hall [] action rest start rfl rfl, ih hrest ?_⟩
        intro before later after state hsplit hbefore
        refine hall (action :: before) later after state (by rw [hsplit]; rfl) ?_
        exact exec_cons_eq_some.mpr ⟨next, htaken, hbefore⟩

/-- Only the steps that are taken have to be looked at. -/
theorem meets_of_forall_taken (hrun : exec step start schedule = some final)
    (hall : ∀ before action after state next, schedule = before ++ action :: after →
      exec step start before = some state → step state action = some next →
      condition state action) :
    Meets step condition start schedule := by
  rw [meets_iff_forall_split hrun]
  rintro before action after state rfl hbefore
  obtain ⟨middle, hmiddle, hrest⟩ := exec_append_eq_some.mp hrun
  obtain rfl : middle = state := Option.some.inj (hmiddle.symm.trans hbefore)
  obtain ⟨next, htaken, _⟩ := exec_cons_eq_some.mp hrest
  exact hall before action after middle next rfl hbefore htaken

/-- A condition on labels alone is met by the schedules all of whose labels satisfy it. -/
theorem meets_of_forall_mem (hall : ∀ action ∈ schedule, ∀ state, condition state action) :
    Meets step condition start schedule := by
  induction schedule generalizing start with
  | nil => trivial
  | cons action rest ih =>
      refine ⟨hall action List.mem_cons_self start, ?_⟩
      cases step start action with
      | none => trivial
      | some next => exact ih fun later hmem => hall later (List.mem_cons_of_mem _ hmem)

theorem Meets.and {other : σ → α → Prop} (hmeets : Meets step condition start schedule)
    (hother : Meets step other start schedule) :
    Meets step (fun state action => condition state action ∧ other state action) start
      schedule := by
  induction schedule generalizing start with
  | nil => trivial
  | cons action rest ih =>
      refine ⟨⟨hmeets.1, hother.1⟩, ?_⟩
      cases htaken : step start action with
      | none => trivial
      | some next =>
          exact ih ((meets_cons_of_step htaken).mp hmeets).2
            ((meets_cons_of_step htaken).mp hother).2

/-- The invariant rule for schedules whose steps all meet a side condition. -/
theorem exec_invariant_of_meets {motive : σ → Prop}
    (hpreserved : ∀ state action next, motive state → condition state action →
      step state action = some next → motive next)
    (hstart : motive start) (hmeets : Meets step condition start schedule)
    (hrun : exec step start schedule = some final) : motive final := by
  induction schedule generalizing start with
  | nil =>
      obtain rfl : start = final := by simpa using hrun
      exact hstart
  | cons action rest ih =>
      obtain ⟨next, htaken, hrest⟩ := exec_cons_eq_some.mp hrun
      obtain ⟨hcondition, hmeets⟩ := (meets_cons_of_step htaken).mp hmeets
      exact ih (hpreserved _ _ _ hstart hcondition htaken) hmeets hrest

/-- What holds at the start and is preserved by every step holds after every schedule. -/
theorem exec_invariant {motive : σ → Prop}
    (hpreserved : ∀ state action next, motive state → step state action = some next →
      motive next)
    (hstart : motive start) (hrun : exec step start schedule = some final) :
    motive final := by
  have hmeets : Meets step (fun _ _ => True) start schedule :=
    meets_of_forall_mem fun _ _ _ => trivial
  apply exec_invariant_of_meets _ hstart hmeets hrun
  exact fun state action next hstate _ htaken => hpreserved state action next hstate htaken

/-- The rule for facts about a state and the schedule that led to it. -/
theorem exec_history {motive : List α → σ → Prop} (hstart : motive [] start)
    (hstep : ∀ prior state action next, exec step start prior = some state →
      motive prior state → step state action = some next → motive (prior ++ [action]) next)
    (hrun : exec step start schedule = some final) : motive schedule final := by
  induction schedule using List.reverseRecOn generalizing final with
  | nil =>
      obtain rfl : start = final := by simpa using hrun
      exact hstart
  | append_singleton prior action ih =>
      obtain ⟨state, hprior, hlast⟩ := exec_append_eq_some.mp hrun
      obtain ⟨next, htaken, hnil⟩ := exec_cons_eq_some.mp hlast
      obtain rfl : next = final := by simpa using hnil
      exact hstep _ _ _ _ hprior (ih hprior) htaken

/-- The rule for facts about a state and the number of some labels on the way to it. -/
theorem exec_count {counted : α → Bool} {motive : ℕ → σ → Prop} (hstart : motive 0 start)
    (hstep : ∀ count state action next, motive count state → step state action = some next →
      motive (count + [action].countP counted) next)
    (hrun : exec step start schedule = some final) : motive (schedule.countP counted) final := by
  refine exec_history (motive := fun prior state => motive (prior.countP counted) state)
    hstart ?_ hrun
  intro prior state action next _ hprior htaken
  rw [List.countP_append]
  exact hstep _ state action next hprior htaken

end Rules

/-- At some point of the schedule a step was taken whose state and label satisfy `event`. -/
def Happened (step : σ → α → Option σ) (start : σ) (schedule : List α)
    (event : σ → α → Prop) : Prop :=
  ∃ before action after state, schedule = before ++ action :: after ∧
    exec step start before = some state ∧ event state action

section Happened

variable {step : σ → α → Option σ} {start : σ} {schedule : List α} {event : σ → α → Prop}

/-- The past is not undone by further steps. -/
theorem Happened.append (hpast : Happened step start schedule event) (more : List α) :
    Happened step start (schedule ++ more) event := by
  obtain ⟨before, action, after, state, rfl, hbefore, hevent⟩ := hpast
  exact ⟨before, action, after ++ more, state, by simp, hbefore, hevent⟩

/-- The last step of a schedule has happened. -/
theorem happened_snoc {state : σ} {action : α} (hprior : exec step start schedule = some state)
    (hevent : event state action) : Happened step start (schedule ++ [action]) event :=
  ⟨schedule, action, [], state, rfl, hprior, hevent⟩

/-- What has happened was a label of the schedule. -/
theorem Happened.exists_mem (hpast : Happened step start schedule event) :
    ∃ action ∈ schedule, ∃ state, event state action := by
  obtain ⟨before, action, after, state, rfl, _, hevent⟩ := hpast
  exact ⟨action, by simp, state, hevent⟩

theorem happened_nil : ¬ Happened step start [] event := by
  rintro ⟨before, action, after, state, hsplit, _⟩
  simp at hsplit

/-- An event happened in the first step or in the rest. -/
theorem happened_cons {action : α} {next : σ} (htaken : step start action = some next) :
    Happened step start (action :: schedule) event ↔
      event start action ∨ Happened step next schedule event := by
  constructor
  · rintro ⟨before, taken, after, state, hsplit, hbefore, hevent⟩
    cases before with
    | nil =>
        obtain ⟨rfl, rfl⟩ : action = taken ∧ schedule = after := by simpa using hsplit
        obtain rfl : start = state := by simpa using hbefore
        exact .inl hevent
    | cons first before =>
        obtain ⟨rfl, rfl⟩ : action = first ∧ schedule = before ++ taken :: after := by
          simpa using hsplit
        obtain ⟨second, hsecond, hrest⟩ := exec_cons_eq_some.mp hbefore
        obtain rfl : second = next := Option.some.inj (hsecond.symm.trans htaken)
        exact .inr ⟨before, taken, after, state, rfl, hrest, hevent⟩
  · rintro (hevent | ⟨before, taken, after, state, rfl, hbefore, hevent⟩)
    · exact ⟨[], action, schedule, start, rfl, rfl, hevent⟩
    · exact ⟨action :: before, taken, after, state, rfl,
        exec_cons_eq_some.mpr ⟨next, htaken, hbefore⟩, hevent⟩

end Happened

/-- `motive` holds of every state the schedule passes through, the first and the last included. -/
def Throughout (step : σ → α → Option σ) (start : σ) (schedule : List α) (motive : σ → Prop) :
    Prop :=
  ∀ before after state, schedule = before ++ after → exec step start before = some state →
    motive state

section Throughout

variable {step : σ → α → Option σ} {condition : σ → α → Prop} {start final : σ}
  {schedule : List α} {motive invariant : σ → Prop}

theorem Throughout.prefix_of_append {before after : List α}
    (hall : Throughout step start (before ++ after) motive) :
    Throughout step start before motive := by
  intro first second state hsplit hfirst
  apply hall first (second ++ after) state _ hfirst
  rw [hsplit, List.append_assoc]

theorem Throughout.last (hall : Throughout step start schedule motive)
    (hrun : exec step start schedule = some final) : motive final :=
  hall schedule [] final (List.append_nil schedule).symm hrun

/-- The invariant rule for every state of a run. -/
theorem throughout_of_meets (hstart : invariant start)
    (hsound : ∀ state, invariant state → motive state)
    (hpreserved : ∀ state action next, invariant state → condition state action →
      step state action = some next → invariant next)
    (hmeets : Meets step condition start schedule) : Throughout step start schedule motive := by
  rintro before after state rfl hbefore
  apply hsound
  exact exec_invariant_of_meets (motive := invariant) hpreserved hstart
    ((meets_append hbefore).mp hmeets).1 hbefore

/-- When a step that does not meet the condition breaks the motive at once, the motive holds
throughout a run if and only if every step of the run meets the condition. -/
theorem throughout_iff_meets (hstart : invariant start)
    (hsound : ∀ state, invariant state → motive state)
    (hpreserved : ∀ state action next, invariant state → condition state action →
      step state action = some next → invariant next)
    (hbroken : ∀ state action next, invariant state → step state action = some next →
      motive next → condition state action)
    (hrun : exec step start schedule = some final) :
    Throughout step start schedule motive ↔ Meets step condition start schedule := by
  constructor
  · intro hall
    apply exec_history (motive := fun prior _ =>
      Throughout step start prior motive → Meets step condition start prior) _ _ hrun hall
    · exact fun _ => trivial
    · intro prior state action next hprior ih htaken hthroughout
      have hmeets := ih hthroughout.prefix_of_append
      have hinvariant : invariant state :=
        exec_invariant_of_meets (motive := invariant) hpreserved hstart hmeets hprior
      have hnext : motive next := hthroughout.last (exec_snoc hprior htaken)
      apply (meets_append hprior).mpr ⟨hmeets, _⟩
      apply (meets_cons_of_step htaken).mpr
      exact ⟨hbroken _ _ _ hinvariant htaken hnext, trivial⟩
  · exact throughout_of_meets hstart hsound hpreserved

end Throughout

/-- A concrete execution projects to an abstract one when each concrete step is
matched by an abstract schedule, possibly an empty one, from the projected state.
The match may rely on an invariant of the concrete machine. -/
theorem exec_project {τ : Type w} {β : Type x} {step : σ → α → Option σ}
    {abstractStep : τ → β → Option τ} (project : σ → τ) {motive : σ → Prop}
    (hpreserved : ∀ state action next, motive state → step state action = some next →
      motive next)
    (hmatch : ∀ state action next, motive state → step state action = some next →
      Reachable abstractStep (project state) (project next))
    {start final : σ} {schedule : List α} (hstart : motive start)
    (hrun : exec step start schedule = some final) :
    Reachable abstractStep (project start) (project final) := by
  induction schedule generalizing start with
  | nil =>
      obtain rfl : start = final := by simpa using hrun
      exact .refl _ _
  | cons action rest ih =>
      obtain ⟨next, htaken, hrest⟩ := exec_cons_eq_some.mp hrun
      obtain ⟨middle, hmiddle⟩ := ih (hpreserved _ _ _ hstart htaken) hrest
      exact (hmatch _ _ _ hstart htaken).exec hmiddle

end FireboltTransport.Semantics
