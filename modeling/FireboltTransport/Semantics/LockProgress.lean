/-
# Threads that get their mutexes

That threads never wait in a cycle says that some thread can move, not that each of them
does: a thread may wait for a mutex that others take again and again.  In a run without end
in which a move that is enabled again and again is taken, a rank that falls along every edge
of the wait-for relation is enough for every thread to move on, as long as whoever holds a
mutex needs a bounded number of moves to give it back.

The induction is on the rank: the threads that hold what a thread waits for have lower
ranks, so they move on, and each of their moves brings the release closer.
-/

import FireboltTransport.Semantics.Fairness
import FireboltTransport.Semantics.Mutex
import Mathlib.Order.Basic

namespace FireboltTransport.Semantics

universe u v w x

variable {σ : Type u} {α : Type v} {θ : Type w} {μ : Type x} {step : σ → α → Option σ}

/-- What the threads of a run keep to. -/
structure Orderly (run : Endless step) (move : θ → α) (active : σ → θ → Prop)
    (wants : σ → θ → Option μ) (holder : σ → μ → Option θ) (rank left : σ → θ → ℕ) : Prop where
  fair : ∀ thread, run.StronglyFair fun action => action = move thread
  /-- An active thread stays as it is until it moves. -/
  stays : ∀ {moment thread}, active (run.state moment) thread →
    run.action moment ≠ some (move thread) →
    active (run.state (moment + 1)) thread ∧
      wants (run.state (moment + 1)) thread = wants (run.state moment) thread ∧
      rank (run.state (moment + 1)) thread = rank (run.state moment) thread ∧
      left (run.state (moment + 1)) thread = left (run.state moment) thread
  /-- It can move when what it asks for is free. -/
  takes : ∀ {moment thread mutex}, active (run.state moment) thread →
    wants (run.state moment) thread = some mutex → holder (run.state moment) mutex = none →
    (step (run.state moment) (move thread)).isSome = true
  /-- When it asks for nothing it can move sooner or later. -/
  goesOn : ∀ {moment thread}, active (run.state moment) thread →
    wants (run.state moment) thread = none →
    ∃ later ≥ moment, run.action later = some (move thread) ∨
      (step (run.state later) (move thread)).isSome = true
  /-- Whoever holds a mutex is active, and keeps it until it moves. -/
  owner : ∀ {moment thread mutex}, holder (run.state moment) mutex = some thread →
    active (run.state moment) thread
  keeps : ∀ {moment thread mutex}, holder (run.state moment) mutex = some thread →
    run.action moment ≠ some (move thread) → holder (run.state (moment + 1)) mutex = some thread
  /-- A move of the owner releases the mutex or brings the release closer. -/
  closer : ∀ {moment thread mutex}, holder (run.state moment) mutex = some thread →
    run.action moment = some (move thread) →
    holder (run.state (moment + 1)) mutex = none ∨
      (holder (run.state (moment + 1)) mutex = some thread ∧
        left (run.state (moment + 1)) thread < left (run.state moment) thread)
  falls : ∀ {moment waiter owner},
    WaitsFor (wants (run.state moment)) (holder (run.state moment)) waiter owner →
    rank (run.state moment) owner < rank (run.state moment) waiter

namespace Orderly

variable {run : Endless step} {move : θ → α} {active : σ → θ → Prop} {wants : σ → θ → Option μ}
  {holder : σ → μ → Option θ} {rank left : σ → θ → ℕ} {thread : θ} {mutex : μ} {start : ℕ}

/-- As long as an active thread does not move, it stays as it is. -/
theorem stays_until (horderly : Orderly run move active wants holder rank left)
    (hactive : active (run.state start) thread) {moment : ℕ} (hmoment : start ≤ moment)
    (hstill : ∀ between, start ≤ between → between < moment →
      run.action between ≠ some (move thread)) :
    active (run.state moment) thread ∧
      wants (run.state moment) thread = wants (run.state start) thread ∧
      rank (run.state moment) thread = rank (run.state start) thread ∧
      left (run.state moment) thread = left (run.state start) thread := by
  refine run.kept_before (motive := fun state => active state thread ∧
    wants state thread = wants (run.state start) thread ∧
    rank state thread = rank (run.state start) thread ∧
    left state thread = left (run.state start) thread) hmoment ⟨hactive, rfl, rfl, rfl⟩ ?_
  rintro between hstart hless ⟨hprior, hwants, hrank, hleft⟩
  obtain ⟨hnext, hsameWants, hsameRank, hsameLeft⟩ :=
    horderly.stays hprior (hstill between hstart hless)
  exact ⟨hnext, hsameWants.trans hwants, hsameRank.trans hrank, hsameLeft.trans hleft⟩

/-- A mutex stays with its owner until the owner moves. -/
theorem keeps_until (horderly : Orderly run move active wants holder rank left)
    (hholder : holder (run.state start) mutex = some thread) {moment : ℕ} (hmoment : start ≤ moment)
    (hstill : ∀ between, start ≤ between → between < moment →
      run.action between ≠ some (move thread)) :
    holder (run.state moment) mutex = some thread := by
  refine run.kept_before (motive := fun state => holder state mutex = some thread) hmoment
    hholder ?_
  exact fun between hstart hless hkept => horderly.keeps hkept (hstill between hstart hless)

/-- A mutex is released when its owners move on: the induction is on the moves the owner has
left. -/
theorem exists_released (horderly : Orderly run move active wants holder rank left) {bound : ℕ}
    (hmoves : ∀ owner moment, start ≤ moment → active (run.state moment) owner →
      rank (run.state moment) owner < bound →
        ∃ later ≥ moment, run.action later = some (move owner))
    (hrank : ∀ moment ≥ start, ∀ owner, holder (run.state moment) mutex = some owner →
      rank (run.state moment) owner < bound) {moment : ℕ} (hmoment : start ≤ moment) {owner : θ}
    (hholder : holder (run.state moment) mutex = some owner) :
    ∃ later ≥ moment, holder (run.state later) mutex = none := by
  induction hleft : left (run.state moment) owner using Nat.strong_induction_on
    generalizing moment with
  | _ count ih =>
      obtain ⟨first, hfirst, haction, hstill⟩ := Endless.exists_first
        (hmoves owner moment hmoment (horderly.owner hholder) (hrank moment hmoment owner hholder))
      have hkept := horderly.keeps_until hholder hfirst hstill
      obtain ⟨_, _, _, hsame⟩ := horderly.stays_until (horderly.owner hholder) hfirst hstill
      rcases horderly.closer hkept haction with hfree | ⟨hagain, hless⟩
      · exact ⟨first + 1, Nat.le_succ_of_le hfirst, hfree⟩
      · rw [hsame, hleft] at hless
        obtain ⟨later, hlater, hfree⟩ :=
          ih _ hless (hmoment.trans (Nat.le_succ_of_le hfirst)) hagain rfl
        exact ⟨later, (Nat.le_succ_of_le hfirst).trans hlater, hfree⟩

/-- **Every thread moves on.**  The induction is on the rank. -/
theorem exists_move (horderly : Orderly run move active wants holder rank left)
    (hactive : active (run.state start) thread) :
    ∃ later ≥ start, run.action later = some (move thread) := by
  induction hbound : rank (run.state start) thread using Nat.strong_induction_on
    generalizing start thread with
  | _ bound ih =>
      by_contra hnever
      push Not at hnever
      have hstays : ∀ moment ≥ start, _ := fun moment hmoment =>
        horderly.stays_until hactive hmoment fun between hstart _ => hnever between hstart
      have henabled : ∀ moment ≥ start, ∃ later ≥ moment, ∃ action, action = move thread ∧
          (step (run.state later) action).isSome = true := by
        intro moment hmoment
        obtain ⟨hstill, hwants, _, _⟩ := hstays moment hmoment
        cases hmutex : wants (run.state start) thread with
        | none =>
            obtain ⟨later, hlater, hmoved | hpossible⟩ :=
              horderly.goesOn hstill (hwants.trans hmutex)
            · exact absurd hmoved (hnever later (hmoment.trans hlater))
            · exact ⟨later, hlater, _, rfl, hpossible⟩
        | some mutex =>
            have hasks : ∀ later ≥ start, wants (run.state later) thread = some mutex :=
              fun later hlater => (hstays later hlater).2.1.trans hmutex
            -- Whoever holds the mutex meanwhile is of a lower rank.
            have hlower : ∀ later ≥ start, ∀ owner,
                holder (run.state later) mutex = some owner →
                  rank (run.state later) owner < bound := by
              intro later hlater owner howner
              rw [← hbound, ← (hstays later hlater).2.2.1]
              exact horderly.falls ⟨mutex, hasks later hlater, howner⟩
            obtain ⟨later, hlater, hfree⟩ :
                ∃ later ≥ moment, holder (run.state later) mutex = none := by
              cases howner : holder (run.state moment) mutex with
              | none => exact ⟨moment, Nat.le_refl moment, howner⟩
              | some owner =>
                  refine horderly.exists_released ?_ hlower hmoment howner
                  exact fun other moment _ hother hless => ih _ hless hother rfl
            have hafter : start ≤ later := hmoment.trans hlater
            exact ⟨later, hlater, _, rfl,
              horderly.takes (hstays later hafter).1 (hasks later hafter) hfree⟩
      obtain ⟨moment, hmoment, _, haction, rfl⟩ := horderly.fair thread start henabled
      exact hnever moment hmoment haction

/-- And there is a first move, before which it stays as it is. -/
theorem exists_first_move (horderly : Orderly run move active wants holder rank left)
    (hactive : active (run.state start) thread) :
    ∃ first ≥ start, run.action first = some (move thread) ∧
      ∀ between, start ≤ between → between < first → run.action between ≠ some (move thread) :=
  Endless.exists_first (horderly.exists_move hactive)

end Orderly

end FireboltTransport.Semantics
