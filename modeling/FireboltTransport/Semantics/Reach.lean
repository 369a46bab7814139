/-
# Finite graphs without cycles

A graph is a step relation, and only what is reached from one start matters.  When
that is finite and nothing in it is reached from itself again, a property holds of
all of it that holds of a node whenever it holds of the node's successors; no rank
has to be given.  A cycle must pass through a marked node when every step from an
unmarked node makes a measure smaller, so it is enough to forbid cycles through
marked nodes.

What goes down a level with every step is on no cycle.  Over a function that lists the
successors of a node, a walk of bounded depth goes down like this, so it checks both a
property of all nodes reached and that there are no cycles.
-/

import Mathlib.Data.Fintype.Card
import Mathlib.Data.Set.Finite.Basic
import Mathlib.Logic.Relation

namespace FireboltTransport.Semantics

open Relation

universe u

section Acyclic

variable {α : Type u} {step : α → α → Prop} {start : α}

/-- The induction rule of a finite graph without cycles. -/
theorem reach_induction {motive : α → Prop}
    (hfinite : {node | ReflTransGen step start node}.Finite)
    (hacyclic : ∀ node, ReflTransGen step start node → ¬ TransGen step node node)
    (hstep : ∀ node, ReflTransGen step start node → (∀ next, step node next → motive next) →
      motive node) :
    ∀ node, ReflTransGen step start node → motive node := by
  have : Finite {node // ReflTransGen step start node} := hfinite
  let later (first second : {node // ReflTransGen step start node}) : Prop :=
    TransGen step second.1 first.1
  have : IsTrans _ later := ⟨fun _ _ _ hfirst hsecond => hsecond.trans hfirst⟩
  have : Std.Irrefl later := ⟨fun node => hacyclic node.1 node.2⟩
  have hwf : WellFounded later := Finite.wellFounded_of_trans_of_irrefl later
  intro node hnode
  suffices ∀ reached : {node // ReflTransGen step start node}, motive reached.1 from
    this ⟨node, hnode⟩
  intro reached
  induction reached using hwf.induction with
  | _ reached ih =>
      apply hstep reached.1 reached.2
      intro next hnext
      exact ih ⟨next, reached.2.tail hnext⟩ (TransGen.single hnext)

/-- A path goes down all the way or passes through a marked node. -/
theorem decreases_or_marked {measure : α → ℕ} {marked : α → Prop}
    (hstep : ∀ first second, step first second → marked first ∨ measure second < measure first)
    {first second : α} (hpath : TransGen step first second) :
    measure second < measure first ∨
      ∃ node, marked node ∧ ReflTransGen step first node ∧ TransGen step node second := by
  induction hpath with
  | single htaken =>
      rcases hstep _ _ htaken with hmarked | hdecreases
      · exact .inr ⟨first, hmarked, .refl, .single htaken⟩
      · exact .inl hdecreases
  | @tail middle last hprior htaken ih =>
      rcases hstep _ _ htaken with hmarked | hdecreases
      · exact .inr ⟨middle, hmarked, hprior.to_reflTransGen, .single htaken⟩
      · rcases ih with hprior | ⟨node, hmarked, hfirst, hmiddle⟩
        · exact .inl (hdecreases.trans hprior)
        · exact .inr ⟨node, hmarked, hfirst, hmiddle.tail htaken⟩

/-- A cycle passes through a marked node, which is then on a cycle itself. -/
theorem exists_marked_of_cycle {measure : α → ℕ} {marked : α → Prop}
    (hstep : ∀ first second, step first second → marked first ∨ measure second < measure first)
    {node : α} (hcycle : TransGen step node node) :
    ∃ other, marked other ∧ ReflTransGen step node other ∧ TransGen step other other := by
  rcases decreases_or_marked hstep hcycle with hless | ⟨other, hmarked, hfirst, hback⟩
  · exact absurd hless (lt_irrefl _)
  · exact ⟨other, hmarked, hfirst, hback.trans_left hfirst⟩

end Acyclic

section Descent

variable {α : Type u} {step : α → α → Prop} (holds : ℕ → α → Prop)

/-- A path goes down a level with each of its steps. -/
theorem path_of_descends
    (hdescends : ∀ depth node next, holds depth node → step node next →
      ∃ rest < depth, holds rest next)
    {depth : ℕ} {node later : α} (hholds : holds depth node) (hpath : TransGen step node later) :
    ∃ rest < depth, holds rest later := by
  induction hpath with
  | single htaken => exact hdescends depth node _ hholds htaken
  | tail _ htaken ih =>
      obtain ⟨middle, hmiddle, hreached⟩ := ih
      obtain ⟨rest, hrest, hlater⟩ := hdescends middle _ _ hreached htaken
      exact ⟨rest, hrest.trans hmiddle, hlater⟩

/-- One round of a cycle would leave a smaller depth. -/
theorem not_cycle_of_descends
    (hdescends : ∀ depth node next, holds depth node → step node next →
      ∃ rest < depth, holds rest next)
    {depth : ℕ} {node : α} (hholds : holds depth node) : ¬ TransGen step node node := by
  induction depth using Nat.strong_induction_on with
  | _ depth ih =>
      intro hcycle
      obtain ⟨rest, hrest, hagain⟩ := path_of_descends holds hdescends hholds hcycle
      exact ih rest hrest hagain hcycle

end Descent

section Explore

variable {α : Type u} {next : α → List α} {check : α → Bool}

/-- The check holds of the node and of all nodes reached from it, and no path from it is as
long as the depth. -/
def explore (next : α → List α) (check : α → Bool) : ℕ → α → Bool
  | 0, _ => false
  | depth + 1, node => check node && (next node).all (explore next check depth)

theorem explore_succ {depth : ℕ} {node : α} :
    explore next check (depth + 1) node = true ↔
      check node = true ∧ ∀ later ∈ next node, explore next check depth later = true := by
  simp [explore]

/-- A step uses up a level of the depth. -/
theorem explore_step {depth : ℕ} {node later : α} (hexplored : explore next check depth node)
    (hstep : later ∈ next node) : ∃ rest < depth, explore next check rest later := by
  cases depth with
  | zero => cases hexplored
  | succ rest => exact ⟨rest, rest.lt_succ_self, (explore_succ.mp hexplored).2 later hstep⟩

theorem explore_path {depth : ℕ} {node later : α} (hexplored : explore next check depth node)
    (hpath : TransGen (fun first second => second ∈ next first) node later) :
    ∃ rest < depth, explore next check rest later :=
  path_of_descends (fun depth node => explore next check depth node)
    (fun _ _ _ => explore_step) hexplored hpath

theorem check_of_explore {depth : ℕ} {node later : α} (hexplored : explore next check depth node)
    (hpath : ReflTransGen (fun first second => second ∈ next first) node later) :
    check later = true := by
  have hchecked : ∀ {bound : ℕ} {reached : α}, explore next check bound reached →
      check reached = true := by
    intro bound reached hreached
    cases bound with
    | zero => cases hreached
    | succ rest => exact (explore_succ.mp hreached).1
  rcases reflTransGen_iff_eq_or_transGen.mp hpath with rfl | hpath
  · exact hchecked hexplored
  · obtain ⟨rest, _, hlater⟩ := explore_path hexplored hpath
    exact hchecked hlater

/-- A node that is explored at some depth is on no cycle. -/
theorem not_cycle_of_explore {depth : ℕ} {node : α} (hexplored : explore next check depth node) :
    ¬ TransGen (fun first second => second ∈ next first) node node :=
  not_cycle_of_descends (fun depth node => explore next check depth node)
    (fun _ _ _ => explore_step) hexplored

theorem not_cycle_reached_of_explore {depth : ℕ} {node later : α}
    (hexplored : explore next check depth node)
    (hpath : ReflTransGen (fun first second => second ∈ next first) node later) :
    ¬ TransGen (fun first second => second ∈ next first) later later := by
  rcases reflTransGen_iff_eq_or_transGen.mp hpath with rfl | hpath
  · exact not_cycle_of_explore hexplored
  · obtain ⟨rest, _, hlater⟩ := explore_path hexplored hpath
    exact not_cycle_of_explore hlater

end Explore

end FireboltTransport.Semantics
