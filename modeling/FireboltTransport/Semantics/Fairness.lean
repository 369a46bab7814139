/-
# Runs without end

A run without end goes from state to state, at each moment by a step or by nothing
happening.  It treats some actions fairly when it does not leave them enabled for ever
without taking one of them.  A property leads to another when the other holds at the same
moment or later whenever the first holds.

One rule gets such facts from fairness: as long as the goal is not reached, a fair action
is enabled, taking one brings a rank down, and no other step brings it up.
-/

import FireboltTransport.Semantics.Run
import Mathlib.Data.Nat.Find
import Mathlib.Tactic.Push

namespace FireboltTransport.Semantics

universe u v w x

variable {σ : Type u} {α : Type v}

/-- A run without end. -/
structure Endless (step : σ → α → Option σ) where
  state : ℕ → σ
  /-- What is taken at a moment, if anything. -/
  action : ℕ → Option α
  taken : ∀ {moment taken}, action moment = some taken →
    step (state moment) taken = some (state (moment + 1))
  idle : ∀ {moment}, action moment = none → state (moment + 1) = state moment

namespace Endless

variable {step : σ → α → Option σ} (run : Endless step)

/-- The actions are not enabled for ever without one of them being taken. -/
def Fair (helpful : α → Prop) : Prop :=
  ∀ start, (∀ moment ≥ start, ∃ action, helpful action ∧
    (step (run.state moment) action).isSome = true) →
      ∃ moment ≥ start, ∃ action, run.action moment = some action ∧ helpful action

/-- The actions are not enabled again and again without one of them being taken. -/
def StronglyFair (helpful : α → Prop) : Prop :=
  ∀ start, (∀ moment ≥ start, ∃ later ≥ moment, ∃ action, helpful action ∧
    (step (run.state later) action).isSome = true) →
      ∃ moment ≥ start, ∃ action, run.action moment = some action ∧ helpful action

variable {run} in
/-- What is treated strongly fairly is treated fairly. -/
theorem StronglyFair.fair {helpful : α → Prop} (hfair : run.StronglyFair helpful) :
    run.Fair helpful :=
  fun start henabled => hfair start fun moment hmoment =>
    ⟨moment, Nat.le_refl moment, henabled moment hmoment⟩

/-- Whenever the first property holds, the second holds then or later. -/
def LeadsTo (first second : σ → Prop) : Prop :=
  ∀ start, first (run.state start) → ∃ moment ≥ start, second (run.state moment)

/-- What holds at a moment and is kept by the steps from then on holds from then on. -/
theorem always_of_step {motive : σ → Prop} {start : ℕ} (hstart : motive (run.state start))
    (hstep : ∀ moment ≥ start, ∀ action, run.action moment = some action →
      motive (run.state moment) → motive (run.state (moment + 1))) :
    ∀ moment ≥ start, motive (run.state moment) := by
  intro moment hmoment
  induction hmoment with
  | refl => exact hstart
  | @step moment hmoment ih =>
      cases haction : run.action moment with
      | none =>
          rw [run.idle haction]
          exact ih
      | some action => exact hstep moment hmoment action haction ih

/-- What holds at a moment and is kept by the steps up to another holds there. -/
theorem kept_before {motive : σ → Prop} {start moment : ℕ} (hmoment : start ≤ moment)
    (hstart : motive (run.state start))
    (hstep : ∀ between, start ≤ between → between < moment → motive (run.state between) →
      motive (run.state (between + 1))) : motive (run.state moment) := by
  induction hmoment with
  | refl => exact hstart
  | @step moment hmoment ih =>
      apply hstep moment hmoment (Nat.lt_succ_self moment)
      exact ih fun between hfirst hless => hstep between hfirst (Nat.lt_succ_of_lt hless)

variable {run} {first second third : σ → Prop}

variable (first second) in
/-- What each step keeps or ends holds as long as it has not been ended. -/
theorem kept_or_reached {start : ℕ} (hstart : first (run.state start))
    (hstep : ∀ moment action, run.action moment = some action → first (run.state moment) →
      first (run.state (moment + 1)) ∨ second (run.state (moment + 1))) :
    ∀ moment ≥ start, first (run.state moment) ∨ ∃ reached ≥ start, second (run.state reached) := by
  intro moment hmoment
  induction hmoment with
  | refl => exact .inl hstart
  | @step moment hmoment ih =>
      rcases ih with hholds | hreached
      · cases haction : run.action moment with
        | none =>
            rw [run.idle haction]
            exact .inl hholds
        | some action =>
            exact (hstep moment action haction hholds).imp_right fun hends =>
              ⟨moment + 1, Nat.le_succ_of_le hmoment, hends⟩
      · exact .inr hreached

variable (first) in
/-- What ceases to hold does so at one step. -/
theorem exists_last {start later : ℕ} (hstart : first (run.state start)) (hlater : start ≤ later)
    (hceased : ¬ first (run.state later)) :
    ∃ last ≥ start, ¬ first (run.state (last + 1)) ∧
      ∀ between, start ≤ between → between ≤ last → first (run.state between) := by
  classical
  have hexists : ∃ moment, start ≤ moment ∧ ¬ first (run.state moment) := ⟨later, hlater, hceased⟩
  obtain ⟨hle, hgone⟩ := Nat.find_spec hexists
  have hearlier : ∀ moment, start ≤ moment → moment < Nat.find hexists →
      first (run.state moment) := by
    intro moment hmoment hless
    by_contra hnot
    exact Nat.find_min hexists hless ⟨hmoment, hnot⟩
  cases hfound : Nat.find hexists with
  | zero =>
      rw [hfound] at hle hgone
      rw [Nat.le_zero.mp hle] at hstart
      exact absurd hstart hgone
  | succ last =>
      rw [hfound] at hle hgone hearlier
      have hlast : start ≤ last := by
        by_contra hless
        obtain rfl : start = last + 1 := by omega
        exact hgone hstart
      exact ⟨last, hlast, hgone, fun between hmoment hle => hearlier between hmoment (by omega)⟩

/-- What happens at some moment happens for the first time. -/
theorem exists_first {event : ℕ → Prop} {start : ℕ} (hevent : ∃ moment ≥ start, event moment) :
    ∃ first ≥ start, event first ∧
      ∀ between, start ≤ between → between < first → ¬ event between := by
  classical
  obtain ⟨hle, hfirst⟩ := Nat.find_spec hevent
  refine ⟨Nat.find hevent, hle, hfirst, fun between hstart hless hsame => ?_⟩
  exact Nat.find_min hevent hless ⟨hstart, hsame⟩

theorem LeadsTo.of_imp (himp : ∀ state, first state → second state) :
    run.LeadsTo first second :=
  fun start hfirst => ⟨start, Nat.le_refl start, himp _ hfirst⟩

theorem LeadsTo.trans (hfirst : run.LeadsTo first second) (hsecond : run.LeadsTo second third) :
    run.LeadsTo first third := by
  intro start hstart
  obtain ⟨middle, hmiddle, hreached⟩ := hfirst start hstart
  obtain ⟨moment, hmoment, hgoal⟩ := hsecond middle hreached
  exact ⟨moment, Nat.le_trans hmiddle hmoment, hgoal⟩

theorem LeadsTo.or (hfirst : run.LeadsTo first third) (hsecond : run.LeadsTo second third) :
    run.LeadsTo (fun state => first state ∨ second state) third := by
  intro start hstart
  cases hstart with
  | inl hholds => exact hfirst start hholds
  | inr hholds => exact hsecond start hholds

/-- **Progress by fairness.**  Until the goal is reached a fair action is enabled, and taking it
brings the rank down; other steps leave the rank or bring it down. -/
theorem LeadsTo.of_fair {helpful : α → Prop} (hfair : run.Fair helpful) (rank : σ → ℕ)
    (henabled : ∀ moment, first (run.state moment) → ¬ second (run.state moment) →
      ∃ action, helpful action ∧ (step (run.state moment) action).isSome = true)
    (hstep : ∀ moment action, run.action moment = some action → first (run.state moment) →
      second (run.state (moment + 1)) ∨
        (first (run.state (moment + 1)) ∧
          rank (run.state (moment + 1)) ≤ rank (run.state moment) ∧
          (helpful action → rank (run.state (moment + 1)) < rank (run.state moment)))) :
    run.LeadsTo first second := by
  intro start hstart
  induction hrank : rank (run.state start) using Nat.strong_induction_on generalizing start with
  | _ bound ih =>
      by_contra hnever
      push Not at hnever
      have hkept : ∀ moment ≥ start,
          first (run.state moment) ∧ rank (run.state moment) ≤ bound := by
        apply run.always_of_step (motive := fun state => first state ∧ rank state ≤ bound)
        · exact ⟨hstart, Nat.le_of_eq hrank⟩
        · rintro moment hmoment action haction ⟨hfirst, hbound⟩
          obtain ⟨hholds, hle, _⟩ := (hstep moment action haction hfirst).resolve_left
            (hnever (moment + 1) (Nat.le_succ_of_le hmoment))
          exact ⟨hholds, Nat.le_trans hle hbound⟩
      obtain ⟨moment, hmoment, action, haction, hhelpful⟩ := hfair start fun moment hmoment =>
        henabled moment (hkept moment hmoment).1 (hnever moment hmoment)
      have hlater := Nat.le_succ_of_le hmoment
      obtain ⟨hholds, _, hdown⟩ :=
        (hstep moment action haction (hkept moment hmoment).1).resolve_left
          (hnever (moment + 1) hlater)
      have hless := Nat.lt_of_lt_of_le (hdown hhelpful) (hkept moment hmoment).2
      obtain ⟨last, hlast, hgoal⟩ := ih _ hless (moment + 1) hholds rfl
      exact hnever last (Nat.le_trans hlater hlast) hgoal

/-- The rule for a goal that the first fair action reaches. -/
theorem LeadsTo.of_fair_once {helpful : α → Prop} (hfair : run.Fair helpful)
    (henabled : ∀ moment, first (run.state moment) → ¬ second (run.state moment) →
      ∃ action, helpful action ∧ (step (run.state moment) action).isSome = true)
    (hstep : ∀ moment action, run.action moment = some action → first (run.state moment) →
      second (run.state (moment + 1)) ∨ (first (run.state (moment + 1)) ∧ ¬ helpful action)) :
    run.LeadsTo first second := by
  refine .of_fair hfair (fun _ => 0) henabled ?_
  intro moment action haction hfirst
  exact (hstep moment action haction hfirst).imp_right fun ⟨hkept, hother⟩ =>
    ⟨hkept, Nat.le_refl 0, fun hhelpful => absurd hhelpful hother⟩

/-- **Progress by strong fairness.**  Until the goal is reached a fair action is enabled again and
again, and taking it reaches the goal. -/
theorem LeadsTo.of_stronglyFair {helpful : α → Prop} (hfair : run.StronglyFair helpful)
    (henabled : ∀ moment, first (run.state moment) → ∃ later ≥ moment, second (run.state later) ∨
      ∃ action, helpful action ∧ (step (run.state later) action).isSome = true)
    (hstep : ∀ moment action, run.action moment = some action → first (run.state moment) →
      second (run.state (moment + 1)) ∨ (first (run.state (moment + 1)) ∧ ¬ helpful action)) :
    run.LeadsTo first second := by
  intro start hstart
  by_contra hnever
  push Not at hnever
  have hkept : ∀ moment ≥ start, first (run.state moment) := by
    apply run.always_of_step hstart
    intro moment hmoment action haction hprior
    exact ((hstep moment action haction hprior).resolve_left
      (hnever (moment + 1) (Nat.le_succ_of_le hmoment))).1
  obtain ⟨moment, hmoment, action, haction, hhelpful⟩ := hfair start fun moment hmoment => by
    obtain ⟨later, hlater, hgoal | henabled⟩ := henabled moment (hkept moment hmoment)
    · exact absurd hgoal (hnever later (Nat.le_trans hmoment hlater))
    · exact ⟨later, hlater, henabled⟩
  exact ((hstep moment action haction (hkept moment hmoment)).resolve_left
    (hnever (moment + 1) (Nat.le_succ_of_le hmoment))).2 hhelpful

/-! ## The past of a moment, and other views of a run -/

section Trace

variable (run) {moment : ℕ}

/-- What is taken before a moment. -/
def trace (moment : ℕ) : List α := (List.range moment).filterMap run.action

theorem trace_succ : run.trace (moment + 1) = run.trace moment ++ (run.action moment).toList := by
  rw [trace, List.range_succ, List.filterMap_append, trace]
  cases haction : run.action moment <;> simp [haction]

/-- A run is a schedule up to each moment. -/
theorem exec_trace (moment : ℕ) :
    exec step (run.state 0) (run.trace moment) = some (run.state moment) := by
  induction moment with
  | zero => rfl
  | succ moment ih =>
      rw [trace_succ]
      cases haction : run.action moment with
      | none =>
          rw [run.idle haction, Option.toList_none, List.append_nil]
          exact ih
      | some action => exact exec_snoc ih (run.taken haction)

/-- What a function sees of a run, when each step is one of the other kind or is not seen. -/
def project {τ : Type w} {β : Type x} {other : τ → β → Option τ} (view : σ → τ)
    (label : σ → α → Option β)
    (hseen : ∀ moment action seen, run.action moment = some action →
      label (run.state moment) action = some seen →
        other (view (run.state moment)) seen = some (view (run.state (moment + 1))))
    (hunseen : ∀ moment action, run.action moment = some action →
      label (run.state moment) action = none →
        view (run.state (moment + 1)) = view (run.state moment)) : Endless other where
  state moment := view (run.state moment)
  action moment := (run.action moment).bind (label (run.state moment))
  taken := by
    intro moment seen haction
    obtain ⟨action, haction, hlabel⟩ := Option.bind_eq_some_iff.mp haction
    exact hseen moment action seen haction hlabel
  idle := by
    intro moment hnothing
    cases haction : run.action moment with
    | none => rw [run.idle haction]
    | some action =>
        rw [haction, Option.bind_some] at hnothing
        exact hunseen moment action haction hnothing

variable {run} in
/-- What a run treats fairly is treated fairly in what is seen of it, when it is possible there
only if it is possible in the run. -/
theorem Fair.project {τ : Type w} {β : Type x} {other : τ → β → Option τ} {view : σ → τ}
    {label : σ → α → Option β}
    {hseen : ∀ moment action seen, run.action moment = some action →
      label (run.state moment) action = some seen →
        other (view (run.state moment)) seen = some (view (run.state (moment + 1)))}
    {hunseen : ∀ moment action, run.action moment = some action →
      label (run.state moment) action = none →
        view (run.state (moment + 1)) = view (run.state moment)}
    {helpful : α → Prop} {wanted : β → Prop} (hfair : run.Fair helpful)
    (hpossible : ∀ moment seen, wanted seen →
      (other (view (run.state moment)) seen).isSome = true →
        ∃ action, helpful action ∧ (step (run.state moment) action).isSome = true)
    (htaken : ∀ moment action possible, run.action moment = some action → helpful action →
      wanted possible → (other (view (run.state moment)) possible).isSome = true →
        ∃ seen, label (run.state moment) action = some seen ∧ wanted seen) :
    (run.project view label hseen hunseen).Fair wanted := by
  intro start henabled
  obtain ⟨moment, hmoment, action, haction, hhelpful⟩ := hfair start fun moment hmoment => by
    obtain ⟨seen, hwanted, hseen⟩ := henabled moment hmoment
    exact hpossible moment seen hwanted hseen
  obtain ⟨possible, hwanted, hseen⟩ := henabled moment hmoment
  obtain ⟨seen, hlabel, htook⟩ := htaken moment action possible haction hhelpful hwanted hseen
  exact ⟨moment, hmoment, seen, Option.bind_eq_some_iff.mpr ⟨action, haction, hlabel⟩, htook⟩

end Trace

/-! ## Following a schedule -/

/-- The states when each action of an infinite schedule is taken, or left out when it is not
enabled. -/
def followed (step : σ → α → Option σ) (start : σ) (schedule : ℕ → α) : ℕ → σ
  | 0 => start
  | moment + 1 =>
      let state := followed step start schedule moment
      (step state (schedule moment)).getD state

def follow (step : σ → α → Option σ) (start : σ) (schedule : ℕ → α) : Endless step where
  state := followed step start schedule
  action moment :=
    if (step (followed step start schedule moment) (schedule moment)).isSome then
      some (schedule moment) else none
  taken := by
    intro moment taken haction
    split_ifs at haction with henabled
    obtain rfl := Option.some.inj haction
    obtain ⟨next, hnext⟩ := Option.isSome_iff_exists.mp henabled
    simp [followed, hnext]
  idle := by
    intro moment haction
    split_ifs at haction with hdisabled
    rw [Option.not_isSome_iff_eq_none] at hdisabled
    simp [followed, hdisabled]

theorem follow_action {start : σ} {schedule : ℕ → α} {moment : ℕ} {action : α}
    (hschedule : schedule moment = action)
    (henabled : (step ((follow step start schedule).state moment) action).isSome = true) :
    (follow step start schedule).action moment = some action := by
  subst hschedule
  exact if_pos henabled

theorem scheduled_of_action {start : σ} {schedule : ℕ → α} {moment : ℕ} {action : α}
    (haction : (follow step start schedule).action moment = some action) :
    schedule moment = action := by
  obtain ⟨_, hsame⟩ := Option.ite_none_right_eq_some.mp haction
  exact Option.some.inj hsame

theorem follow_succ {start next : σ} {schedule : ℕ → α} {moment : ℕ} {action : α}
    (hschedule : schedule moment = action)
    (htaken : step ((follow step start schedule).state moment) action = some next) :
    (follow step start schedule).state (moment + 1) = next := by
  show (step ((follow step start schedule).state moment) (schedule moment)).getD _ = next
  rw [hschedule, htaken]
  rfl

/-- Where the schedule goes through a list of actions that can be taken, they are. -/
theorem follow_exec {start final : σ} {schedule : ℕ → α} {actions : List α} {moment : ℕ}
    (hrun : exec step ((follow step start schedule).state moment) actions = some final)
    (hschedule : ∀ index (hindex : index < actions.length),
      schedule (moment + index) = actions[index]) :
    (follow step start schedule).state (moment + actions.length) = final := by
  induction actions generalizing moment with
  | nil => exact Option.some.inj hrun
  | cons action rest ih =>
      obtain ⟨next, htaken, hrest⟩ := exec_cons_eq_some.mp hrun
      have hnext := follow_succ (hschedule 0 (Nat.succ_pos _)) htaken
      rw [List.length_cons, Nat.add_comm rest.length, ← Nat.add_assoc]
      apply ih (hnext ▸ hrest)
      intro index hindex
      rw [Nat.add_assoc, Nat.add_comm 1]
      exact hschedule (index + 1) (Nat.succ_lt_succ hindex)

/-- And they meet what they are known to meet. -/
theorem follow_meets {condition : σ → α → Prop} {start final : σ} {schedule : ℕ → α}
    {actions : List α} {moment : ℕ}
    (hrun : exec step ((follow step start schedule).state moment) actions = some final)
    (hmeets : Meets step condition ((follow step start schedule).state moment) actions)
    (hschedule : ∀ index (hindex : index < actions.length),
      schedule (moment + index) = actions[index]) :
    ∀ index (hindex : index < actions.length),
      condition ((follow step start schedule).state (moment + index)) actions[index] := by
  induction actions generalizing moment with
  | nil => exact fun index hindex => absurd hindex (Nat.not_lt_zero index)
  | cons action rest ih =>
      obtain ⟨next, htaken, hrest⟩ := exec_cons_eq_some.mp hrun
      obtain ⟨hfirst, hlater⟩ := hmeets
      rw [htaken] at hlater
      have hnext := follow_succ (hschedule 0 (Nat.succ_pos _)) htaken
      intro index hindex
      cases index with
      | zero => exact hfirst
      | succ index =>
          have hshifted : moment + (index + 1) = moment + 1 + index := by omega
          rw [hshifted, List.getElem_cons_succ]
          refine ih (hnext ▸ hrest) (hnext ▸ hlater) ?_ index (Nat.lt_of_succ_lt_succ hindex)
          intro later hless
          rw [Nat.add_assoc, Nat.add_comm 1]
          exact hschedule (later + 1) (Nat.succ_lt_succ hless)

/-- The actions of a list, and after them those of another one round and round. -/
def cycle (before round : List α) (otherwise : α) (moment : ℕ) : α :=
  (before[moment]?).getD ((round[(moment - before.length) % round.length]?).getD otherwise)

section Cycle

variable {start middle : σ} {before round : List α} {otherwise : α}

theorem cycle_of_lt {index : ℕ} (hindex : index < before.length) :
    cycle before round otherwise index = before[index] := by
  simp [cycle, hindex]

theorem cycle_round {index : ℕ} (count : ℕ) (hindex : index < round.length) :
    cycle before round otherwise (before.length + count * round.length + index) =
      round[index] := by
  have hnone : before[before.length + count * round.length + index]? = none :=
    List.getElem?_eq_none (by omega)
  have hpast : before.length + count * round.length + index - before.length =
      index + count * round.length := by omega
  rw [cycle, hnone, hpast, Nat.add_mul_mod_self_right, Nat.mod_eq_of_lt hindex,
    List.getElem?_eq_getElem hindex]
  rfl

/-- After each round the run is back where the rounds began. -/
theorem follow_cycle (otherwise : α) (hbefore : exec step start before = some middle)
    (hround : exec step middle round = some middle) (count : ℕ) :
    (follow step start (cycle before round otherwise)).state
      (before.length + count * round.length) = middle := by
  induction count with
  | zero =>
      rw [Nat.zero_mul, Nat.add_zero, ← Nat.zero_add before.length]
      apply follow_exec hbefore
      intro index hindex
      rw [Nat.zero_add]
      exact cycle_of_lt hindex
  | succ count ih =>
      rw [Nat.succ_mul, ← Nat.add_assoc]
      apply follow_exec (ih.symm ▸ hround)
      exact fun index hindex => cycle_round count hindex

/-- An action of such a schedule, and from the first round on one of the round. -/
theorem mem_of_action {moment : ℕ} {action : α} (hrounds : 0 < round.length)
    (haction : (follow step start (cycle before round otherwise)).action moment = some action) :
    action ∈ before ++ round ∧ (before.length ≤ moment → action ∈ round) := by
  have hscheduled := scheduled_of_action haction
  by_cases hindex : moment < before.length
  · rw [cycle_of_lt hindex] at hscheduled
    rw [← hscheduled]
    exact ⟨List.mem_append_left round (List.getElem_mem hindex), fun hafter => by omega⟩
  · have hnone : before[moment]? = none := List.getElem?_eq_none (Nat.le_of_not_lt hindex)
    have hround := Nat.mod_lt (moment - before.length) hrounds
    rw [cycle, hnone, Option.getD_none, List.getElem?_eq_getElem hround, Option.getD_some]
      at hscheduled
    rw [← hscheduled]
    exact ⟨List.mem_append_right before (List.getElem_mem hround), fun _ => List.getElem_mem hround⟩

/-- What the actions of a round keep holds from the first round on. -/
theorem always_of_round {motive : σ → Prop} (otherwise : α)
    (hbefore : exec step start before = some middle)
    (hround : exec step middle round = some middle) (hrounds : 0 < round.length)
    (hmiddle : motive middle)
    (hkept : ∀ action ∈ round, ∀ state next, motive state → step state action = some next →
      motive next) :
    ∀ moment ≥ before.length,
      motive ((follow step start (cycle before round otherwise)).state moment) := by
  have hfirst := follow_cycle otherwise hbefore hround 0
  rw [Nat.zero_mul, Nat.add_zero] at hfirst
  apply always_of_step
  · rw [hfirst]
    exact hmiddle
  · intro moment hmoment action haction hprior
    exact hkept action ((mem_of_action hrounds haction).2 hmoment) _ _ hprior (taken _ haction)

/-- What cannot be taken from the first round on is treated fairly, strongly too. -/
theorem stronglyFair_of_never {run : Endless step} {helpful : α → Prop} {origin : ℕ}
    (hnever : ∀ moment ≥ origin, ∀ action, helpful action →
      step (run.state moment) action = none) : run.StronglyFair helpful := by
  intro start henabled
  obtain ⟨later, hlater, action, hhelpful, haction⟩ :=
    henabled (max start origin) (Nat.le_max_left start origin)
  have horigin := Nat.le_trans (Nat.le_max_right start origin) hlater
  rw [hnever later horigin action hhelpful] at haction
  cases haction

/-- What such a schedule meets up to the end of its first round, it meets for ever. -/
theorem meets_of_round {condition : σ → α → Prop} (hbefore : exec step start before = some middle)
    (hround : exec step middle round = some middle) (hrounds : 0 < round.length)
    (hmeets : Meets step condition start (before ++ round)) (moment : ℕ) :
    condition ((follow step start (cycle before round otherwise)).state moment)
      (cycle before round otherwise moment) := by
  obtain ⟨hmeets, hmeetsRound⟩ := (meets_append hbefore).mp hmeets
  by_cases hindex : moment < before.length
  · have hfirst : condition
        ((follow step start (cycle before round otherwise)).state (0 + moment)) before[moment] := by
      refine follow_meets hbefore hmeets (fun index hless => ?_) moment hindex
      rw [Nat.zero_add]
      exact cycle_of_lt hless
    rw [Nat.zero_add] at hfirst
    rw [cycle_of_lt hindex]
    exact hfirst
  · obtain ⟨count, index, hless, rfl⟩ : ∃ count index, index < round.length ∧
        moment = before.length + count * round.length + index := by
      refine ⟨(moment - before.length) / round.length, (moment - before.length) % round.length,
        Nat.mod_lt _ hrounds, ?_⟩
      have hsplit := Nat.div_add_mod' (moment - before.length) round.length
      omega
    have hstate := follow_cycle otherwise hbefore hround count
    rw [cycle_round count hless]
    exact follow_meets (hstate.symm ▸ hround) (hstate.symm ▸ hmeetsRound)
      (fun index hless => cycle_round count hless) index hless

/-- Each action of a round is taken again and again. -/
theorem exists_taken_of_round {action : α} (otherwise : α)
    (hbefore : exec step start before = some middle)
    (hround : exec step middle round = some middle) (hmem : action ∈ round) (origin : ℕ) :
    ∃ moment ≥ origin,
      (follow step start (cycle before round otherwise)).action moment = some action := by
  obtain ⟨first, last, rfl⟩ := List.append_of_mem hmem
  obtain ⟨reached, hfirst, hlast⟩ := exec_append_eq_some.mp hround
  obtain ⟨next, htaken, _⟩ := exec_cons_eq_some.mp hlast
  have hrounds : 0 < (first ++ action :: last).length := List.length_pos_of_mem hmem
  have hstate := follow_cycle otherwise hbefore hround origin
  have hindex : first.length < (first ++ action :: last).length := by simp
  have hreached : (follow step start (cycle before (first ++ action :: last) otherwise)).state
      (before.length + origin * (first ++ action :: last).length + first.length) = reached := by
    apply follow_exec (hstate.symm ▸ hfirst)
    intro index hless
    rw [cycle_round origin (Nat.lt_trans hless hindex), List.getElem_append_left hless]
  refine ⟨before.length + origin * (first ++ action :: last).length + first.length, ?_, ?_⟩
  · have horigin := Nat.le_mul_of_pos_right origin hrounds
    omega
  · apply follow_action
    · rw [cycle_round origin hindex, List.getElem_append_right (Nat.le_refl _)]
      simp
    · rw [hreached, htaken]
      rfl

/-- It is treated fairly, strongly too. -/
theorem stronglyFair_of_round {action : α} {helpful : α → Prop}
    (hbefore : exec step start before = some middle)
    (hround : exec step middle round = some middle) (hmem : action ∈ round)
    (hhelpful : helpful action) :
    (follow step start (cycle before round otherwise)).StronglyFair helpful := by
  intro origin _
  obtain ⟨moment, hmoment, htaken⟩ := exists_taken_of_round otherwise hbefore hround hmem origin
  exact ⟨moment, hmoment, action, htaken, hhelpful⟩

theorem fair_of_round {action : α} {helpful : α → Prop}
    (hbefore : exec step start before = some middle)
    (hround : exec step middle round = some middle) (hmem : action ∈ round)
    (hhelpful : helpful action) :
    (follow step start (cycle before round otherwise)).Fair helpful := by
  intro origin _
  obtain ⟨moment, hmoment, htaken⟩ := exists_taken_of_round otherwise hbefore hround hmem origin
  exact ⟨moment, hmoment, action, htaken, hhelpful⟩

/-- What cannot be taken between two rounds is treated fairly. -/
theorem fair_of_disabled {helpful : α → Prop} (hbefore : exec step start before = some middle)
    (hround : exec step middle round = some middle) (hrounds : 0 < round.length)
    (hdisabled : ∀ action, helpful action → step middle action = none) :
    (follow step start (cycle before round otherwise)).Fair helpful := by
  intro origin henabled
  obtain ⟨action, hhelpful, haction⟩ :=
    henabled (before.length + origin * round.length)
      (Nat.le_trans (Nat.le_mul_of_pos_right origin hrounds) (Nat.le_add_left _ _))
  rw [follow_cycle otherwise hbefore hround origin, hdisabled action hhelpful] at haction
  cases haction

end Cycle

end Endless

end FireboltTransport.Semantics
