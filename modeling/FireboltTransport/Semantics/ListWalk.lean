/-
# Walking a linked list that its visits shorten

A loop holds a position in a linked list, visits the node there and advances to the
node after it.  A visit may erase any nodes, the visited one included, and then
there is nothing to advance from.  As long as every visit leaves its own node the
walk visits, in the order of the list, the nodes that are still there when their
turn comes.
-/

import Mathlib.Data.List.Nodup
import Mathlib.Data.List.TakeWhile
import Mathlib.Tactic.Common

namespace FireboltTransport.Semantics

universe u v

variable {α : Type u} {σ : Type v} [DecidableEq α]

/-- The node after a node, or `none` at the end. -/
def successor (list : List α) (node : α) : Option α :=
  (list.dropWhile (· ≠ node)).tail.head?

/-- How a walk ends. -/
inductive WalkOutcome (σ : Type v)
  | done (state : σ)
  /-- The walk advances from a node that has been erased. -/
  | undefined (state : σ)
  deriving DecidableEq

/-- The walk from a position, or `none` when the fuel is used up. -/
def walk (nodes : σ → List α) (visit : σ → α → σ) : ℕ → Option α → σ → Option (WalkOutcome σ)
  | 0, _, _ => none
  | _ + 1, none, state => some (.done state)
  | fuel + 1, some node, state =>
      let next := visit state node
      if node ∈ nodes next then walk nodes visit fuel (successor (nodes next) node) next
      else some (.undefined next)

/-- Visit the nodes that are still there when their turn comes. -/
def inTurn (nodes : σ → List α) (visit : σ → α → σ) : List α → σ → σ
  | [], state => state
  | node :: ahead, state =>
      if node ∈ nodes state then inTurn nodes visit ahead (visit state node)
      else inTurn nodes visit ahead state

/-- Each of these visits leaves its own node in the list. -/
def VisitsLeaveOwn (nodes : σ → List α) (visit : σ → α → σ) : List α → σ → Prop
  | [], _ => True
  | node :: ahead, state =>
      if node ∈ nodes state then
        node ∈ nodes (visit state node) ∧ VisitsLeaveOwn nodes visit ahead (visit state node)
      else VisitsLeaveOwn nodes visit ahead state

instance VisitsLeaveOwn.decidable (nodes : σ → List α) (visit : σ → α → σ) :
    ∀ (ahead : List α) (state : σ), Decidable (VisitsLeaveOwn nodes visit ahead state)
  | [], _ => isTrue trivial
  | node :: ahead, state =>
      have : Decidable (VisitsLeaveOwn nodes visit ahead (visit state node)) :=
        VisitsLeaveOwn.decidable nodes visit ahead (visit state node)
      have : Decidable (VisitsLeaveOwn nodes visit ahead state) :=
        VisitsLeaveOwn.decidable nodes visit ahead state
      inferInstanceAs (Decidable (if node ∈ nodes state then _ else _))

/-! ## Lists that lose nodes -/

/-- A part of a list without duplicates is told by its elements. -/
theorem eq_filter_of_sublist {part list : List α} (hpart : part.Sublist list)
    (hnodup : list.Nodup) : part = list.filter (· ∈ part) := by
  induction hpart with
  | slnil => rfl
  | @cons part list first hpart ih =>
      obtain ⟨hfirst, hlist⟩ := List.nodup_cons.mp hnodup
      have hnot : first ∉ part := fun hmem => hfirst (hpart.subset hmem)
      rw [List.filter_cons, if_neg (by simpa using hnot)]
      exact ih hlist
  | @cons_cons part list first hpart ih =>
      obtain ⟨hfirst, hlist⟩ := List.nodup_cons.mp hnodup
      rw [List.filter_cons, if_pos (by simp)]
      congr 1
      refine (ih hlist).trans (List.filter_congr ?_)
      intro node hnode
      have hdifferent : node ≠ first := fun hsame => hfirst (hsame ▸ hnode)
      simp [hdifferent]

/-- The rest of a list, seen from a node that stays. -/
theorem split_of_sublist {part front rest : List α} {node : α}
    (hpart : part.Sublist (front ++ node :: rest)) (hnodup : (front ++ node :: rest).Nodup)
    (hnode : node ∈ part) :
    part = front.filter (· ∈ part) ++ node :: rest.filter (· ∈ part) := by
  have hfilter := eq_filter_of_sublist hpart hnodup
  rw [List.filter_append, List.filter_cons, if_pos (by simpa using hnode)] at hfilter
  exact hfilter

theorem successor_append {front rest : List α} {node : α} (hfront : node ∉ front) :
    successor (front ++ node :: rest) node = rest.head? := by
  have hdrop : (front ++ node :: rest).dropWhile (· ≠ node) = node :: rest := by
    rw [List.dropWhile_append_of_pos]
    · simp
    · intro other hother
      simpa using fun hsame : other = node => hfront (hsame ▸ hother)
  rw [successor, hdrop]
  rfl

/-! ## The walk -/

section Walk

variable {nodes : σ → List α} {visit : σ → α → σ}
  (hshorter : ∀ state node, (nodes (visit state node)).Sublist (nodes state))

include hshorter

/-- Nodes that are gone do not come back, so their turns may be left out. -/
theorem inTurn_filter {ahead : List α} {state gone : σ}
    (hgone : (nodes state).Sublist (nodes gone)) :
    inTurn nodes visit (ahead.filter (· ∈ nodes gone)) state = inTurn nodes visit ahead state := by
  induction ahead generalizing state with
  | nil => rfl
  | cons node ahead ih =>
      rw [List.filter_cons]
      by_cases hthere : node ∈ nodes gone
      · rw [if_pos (by simpa using hthere)]
        simp only [inTurn]
        split_ifs with hnode
        · exact ih ((hshorter state node).trans hgone)
        · exact ih hgone
      · have hnode : node ∉ nodes state := fun hmem => hthere (hgone.subset hmem)
        rw [if_neg (by simpa using hthere), ih hgone]
        simp only [inTurn, if_neg hnode]

theorem visitsLeaveOwn_filter {ahead : List α} {state gone : σ}
    (hgone : (nodes state).Sublist (nodes gone)) :
    VisitsLeaveOwn nodes visit (ahead.filter (· ∈ nodes gone)) state ↔
      VisitsLeaveOwn nodes visit ahead state := by
  induction ahead generalizing state with
  | nil => rfl
  | cons node ahead ih =>
      rw [List.filter_cons]
      by_cases hthere : node ∈ nodes gone
      · rw [if_pos (by simpa using hthere)]
        simp only [VisitsLeaveOwn]
        split_ifs with hnode
        · rw [ih ((hshorter state node).trans hgone)]
        · exact ih hgone
      · have hnode : node ∉ nodes state := fun hmem => hthere (hgone.subset hmem)
        rw [if_neg (by simpa using hthere), ih hgone]
        simp only [VisitsLeaveOwn, if_neg hnode]

/-- The walk from a position: it visits the rest of the list in turn, or it advances from a node
that has been erased. -/
theorem walk_from {fuel : ℕ} {front ahead : List α} {state : σ}
    (hnodes : nodes state = front ++ ahead) (hnodup : (front ++ ahead).Nodup)
    (hfuel : ahead.length < fuel) :
    (VisitsLeaveOwn nodes visit ahead state →
      walk nodes visit fuel ahead.head? state = some (.done (inTurn nodes visit ahead state))) ∧
    (¬ VisitsLeaveOwn nodes visit ahead state →
      ∃ stopped, walk nodes visit fuel ahead.head? state = some (.undefined stopped)) := by
  induction fuel generalizing front ahead state with
  | zero => exact absurd hfuel (Nat.not_lt_zero _)
  | succ fuel ih =>
      cases ahead with
      | nil => exact ⟨fun _ => rfl, fun hnot => absurd trivial hnot⟩
      | cons node rest =>
          have hthere : node ∈ nodes state := by
            rw [hnodes]
            simp
          have hsub : (nodes (visit state node)).Sublist (front ++ node :: rest) :=
            hnodes ▸ hshorter state node
          simp only [List.head?_cons, walk, VisitsLeaveOwn, inTurn, if_pos hthere]
          by_cases hstays : node ∈ nodes (visit state node)
          · have hsplit := split_of_sublist hsub hnodup hstays
            have hafter := hsub.nodup hnodup
            have hfront : node ∉ front.filter (· ∈ nodes (visit state node)) := by
              intro hmem
              exact (List.nodup_append.mp hnodup).2.2 _ (List.mem_of_mem_filter hmem) _
                List.mem_cons_self rfl
            have hnext : successor (nodes (visit state node)) node =
                (rest.filter (· ∈ nodes (visit state node))).head? := by
              conv_lhs => rw [hsplit]
              exact successor_append hfront
            have hlength : (rest.filter (· ∈ nodes (visit state node))).length < fuel :=
              Nat.lt_of_le_of_lt (List.length_filter_le _ _) (Nat.lt_of_succ_lt_succ hfuel)
            have hposition : nodes (visit state node) =
                (front.filter (· ∈ nodes (visit state node)) ++ [node]) ++
                  rest.filter (· ∈ nodes (visit state node)) := by
              rw [List.append_assoc]
              exact hsplit
            have hrest := ih hposition (hposition ▸ hafter) hlength
            rw [visitsLeaveOwn_filter hshorter (.refl _), inTurn_filter hshorter (.refl _)]
              at hrest
            rw [if_pos hstays, hnext]
            exact ⟨fun hown => hrest.1 hown.2,
              fun hnot => hrest.2 fun hown => hnot ⟨hstays, hown⟩⟩
          · rw [if_neg hstays]
            exact ⟨fun hown => absurd hown.1 hstays, fun _ => ⟨_, rfl⟩⟩

end Walk

end FireboltTransport.Semantics
