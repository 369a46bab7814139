/-
# Histories of calls

A history is the list of the calls made so far, the latest last, and a state is
what folding them leaves.  What one call begins and another ends holds since the
first when no later call was of the second kind; how that changes with one more
call is all that an induction on the history needs.
-/

import Mathlib.Data.List.Induction

namespace FireboltTransport.Semantics

universe u v

variable {α : Type u} {σ : Type v}

/-- Some call of the history began it, given the calls before that one, and no later call
ended it. -/
def Since (begins : List α → α → Prop) (ends : α → Prop) (history : List α) : Prop :=
  ∃ before call after, history = before ++ call :: after ∧ begins before call ∧
    ∀ later ∈ after, ¬ ends later

section Since

variable {begins : List α → α → Prop} {ends : α → Prop} {history : List α} {last : α}

theorem not_since_nil : ¬ Since begins ends ([] : List α) := by
  intro hsince
  obtain ⟨before, call, after, hsplit, _⟩ := hsince
  simp at hsplit

/-- After one more call it holds when that call begins it, or when it held and is not ended. -/
theorem since_snoc :
    Since begins ends (history ++ [last]) ↔
      begins history last ∨ Since begins ends history ∧ ¬ ends last := by
  constructor
  · intro hsince
    obtain ⟨before, call, after, hsplit, hbegins, hkept⟩ := hsince
    cases after using List.reverseRecOn with
    | nil =>
        obtain ⟨rfl, hlast⟩ := List.append_inj' hsplit rfl
        obtain rfl := List.singleton_inj.mp hlast
        exact .inl hbegins
    | append_singleton rest final =>
        have hsame : history ++ [last] = (before ++ call :: rest) ++ [final] := by
          rw [hsplit]
          simp
        obtain ⟨rfl, hlast⟩ := List.append_inj' hsame rfl
        obtain rfl := List.singleton_inj.mp hlast
        right
        constructor
        · exact ⟨before, call, rest, rfl, hbegins,
            fun later hlater => hkept later (List.mem_append_left _ hlater)⟩
        · exact hkept last (List.mem_append_right _ (List.mem_singleton_self _))
  · intro hcases
    rcases hcases with hbegins | ⟨hsince, hlast⟩
    · exact ⟨history, last, [], rfl, hbegins, by simp⟩
    · obtain ⟨before, call, after, rfl, hbegins, hkept⟩ := hsince
      refine ⟨before, call, after ++ [last], by simp, hbegins, ?_⟩
      intro later hlater
      rcases List.mem_append.mp hlater with hafter | hlater
      · exact hkept later hafter
      · rwa [List.mem_singleton.mp hlater]

end Since

/-- What holds at the start and is kept by one more call holds after every history. -/
theorem fold_history {motive : List α → σ → Prop} {apply : σ → α → σ} {start : σ}
    (hstart : motive [] start)
    (hcall : ∀ prior state call, motive prior state → motive (prior ++ [call]) (apply state call))
    (history : List α) : motive history (history.foldl apply start) := by
  induction history using List.reverseRecOn with
  | nil => exact hstart
  | append_singleton prior call ih =>
      rw [List.foldl_append]
      exact hcall prior _ call ih

end FireboltTransport.Semantics
