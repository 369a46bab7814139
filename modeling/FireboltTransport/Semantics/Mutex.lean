/-
# Threads and mutexes

A thread is a sequence of program points.  Each of its moves takes a mutex,
releases one or does neither, and the set of mutexes a thread holds is read off
its point.  Keeping the holder of every mutex beside the points lets taking a
mutex be a test; that the two agree is the one invariant of this module, and it
contains mutual exclusion.

A thread waits for another when its next move takes a mutex the other holds.
Threads are deadlocked when this relation has a cycle; a thread that asks for a
non-recursive mutex it holds itself is the shortest case.  Absence of cycles is
proved by a rank that falls along every edge.
-/

import Mathlib.Data.Nat.Notation
import Mathlib.Logic.Function.Basic
import Mathlib.Logic.Relation
import Mathlib.Tactic.Common

namespace FireboltTransport.Semantics

universe u v w

variable {θ : Type u} {μ : Type v} {π : θ → Type w}

/-! ## Moves -/

/-- What a move does to the mutexes. -/
inductive LockOp (μ : Type v)
  | keep
  | lock (mutex : μ)
  | unlock (mutex : μ)
  deriving DecidableEq

/-- The mutex a move takes. -/
def LockOp.wanted : LockOp μ → Option μ
  | .lock mutex => some mutex
  | _ => none

/-- What a thread holds after a move, from what it held before. -/
def LockOp.Effect (op : LockOp μ) (before after : μ → Prop) : Prop :=
  match op with
  | .keep => ∀ other, after other ↔ before other
  | .lock mutex => ∀ other, after other ↔ other = mutex ∨ before other
  | .unlock mutex => before mutex ∧ ∀ other, after other ↔ other ≠ mutex ∧ before other

/-- The points of all threads and the holders of all mutexes. -/
structure Locks (π : θ → Type w) (μ : Type v) where
  point : ∀ thread, π thread
  holder : μ → Option θ

/-- The holders are the threads whose points hold the mutex. -/
def Locks.Agrees (holds : ∀ thread, π thread → μ → Prop) (locks : Locks π μ) : Prop :=
  ∀ mutex thread, locks.holder mutex = some thread ↔ holds thread (locks.point thread) mutex

/-- Two threads do not hold the same mutex. -/
theorem Locks.Agrees.exclusive {holds : ∀ thread, π thread → μ → Prop} {locks : Locks π μ}
    (hagrees : locks.Agrees holds) {mutex : μ} {first second : θ}
    (hfirst : holds first (locks.point first) mutex)
    (hsecond : holds second (locks.point second) mutex) : first = second := by
  apply Option.some.inj
  rw [← (hagrees mutex first).mpr hfirst, (hagrees mutex second).mpr hsecond]

section Move

variable [DecidableEq θ] [DecidableEq μ]

/-- Move a thread to its next point, or `none` when the mutex it takes is held. -/
def Locks.move (locks : Locks π μ) (thread : θ) (op : LockOp μ) (next : π thread) :
    Option (Locks π μ) :=
  let point := Function.update locks.point thread next
  match op with
  | .keep => some ⟨point, locks.holder⟩
  | .lock mutex =>
      if locks.holder mutex = none then
        some ⟨point, Function.update locks.holder mutex (some thread)⟩
      else none
  | .unlock mutex => some ⟨point, Function.update locks.holder mutex none⟩

variable {locks later : Locks π μ} {thread : θ} {op : LockOp μ} {next : π thread}

theorem Locks.point_move (hmove : locks.move thread op next = some later) :
    later.point = Function.update locks.point thread next := by
  cases op with
  | keep => cases hmove; rfl
  | unlock mutex => cases hmove; rfl
  | lock mutex =>
      simp only [move] at hmove
      split_ifs at hmove
      cases hmove
      rfl

theorem Locks.point_move_of_ne (hmove : locks.move thread op next = some later) {other : θ}
    (hother : other ≠ thread) : later.point other = locks.point other := by
  rw [point_move hmove, Function.update_of_ne hother]

theorem Locks.point_move_self (hmove : locks.move thread op next = some later) :
    later.point thread = next := by
  rw [point_move hmove, Function.update_self]

/-- Holders and points stay in agreement when a move holds what its operation says. -/
theorem Locks.Agrees.move {holds : ∀ thread, π thread → μ → Prop} (hagrees : locks.Agrees holds)
    (heffect : op.Effect (holds thread (locks.point thread)) (holds thread next))
    (hmove : locks.move thread op next = some later) : later.Agrees holds := by
  intro mutex other
  by_cases hother : other = thread
  · subst hother
    rw [point_move_self hmove]
    cases op with
    | keep =>
        cases hmove
        rw [heffect mutex]
        exact hagrees mutex other
    | lock taken =>
        simp only [Locks.move] at hmove
        split_ifs at hmove with hfree
        cases hmove
        rw [heffect mutex]
        by_cases hmutex : mutex = taken
        · simp [hmutex]
        · simpa [hmutex] using hagrees mutex other
    | unlock released =>
        cases hmove
        rw [heffect.2 mutex]
        by_cases hmutex : mutex = released
        · simp [hmutex]
        · simpa [hmutex] using hagrees mutex other
  · rw [point_move_of_ne hmove hother]
    cases op with
    | keep =>
        cases hmove
        exact hagrees mutex other
    | lock taken =>
        simp only [Locks.move] at hmove
        split_ifs at hmove with hfree
        cases hmove
        by_cases hmutex : mutex = taken
        · have hnone := hagrees taken other
          simp only [hfree, reduceCtorEq, false_iff] at hnone
          simpa [hmutex, Ne.symm hother] using hnone
        · simpa [hmutex] using hagrees mutex other
    | unlock released =>
        cases hmove
        by_cases hmutex : mutex = released
        · have hother : ¬ holds other (locks.point other) released := fun hheld =>
            hother (hagrees.exclusive hheld heffect.1)
          simp [hmutex, hother]
        · simpa [hmutex] using hagrees mutex other

end Move

/-! ## Wait-for cycles -/

section Waiting

variable {wants : θ → Option μ} {holder : μ → Option θ}

/-- `waiter` asks for a mutex that `owner` holds. -/
def WaitsFor (wants : θ → Option μ) (holder : μ → Option θ) (waiter owner : θ) : Prop :=
  ∃ mutex, wants waiter = some mutex ∧ holder mutex = some owner

/-- Some threads wait for each other in a cycle. -/
def Deadlocked (wants : θ → Option μ) (holder : μ → Option θ) : Prop :=
  ∃ thread, Relation.TransGen (WaitsFor wants holder) thread thread

/-- Two threads that each ask for a mutex of the other are deadlocked. -/
theorem deadlocked_of_pair {first second : θ} (hfirst : WaitsFor wants holder first second)
    (hsecond : WaitsFor wants holder second first) : Deadlocked wants holder :=
  ⟨first, .tail (.single hfirst) hsecond⟩

/-- A thread that asks for a mutex it holds is deadlocked. -/
theorem deadlocked_of_self {thread : θ} {mutex : μ} (hwants : wants thread = some mutex)
    (hholder : holder mutex = some thread) : Deadlocked wants holder :=
  ⟨thread, .single ⟨mutex, hwants, hholder⟩⟩

/-- A lock order rules out cycles: no thread asks for a mutex that does not come after every
mutex it holds. -/
theorem not_deadlocked_of_order (level : μ → ℕ)
    (hlevel : ∀ thread held wanted, holder held = some thread → wants thread = some wanted →
      level held < level wanted) : ¬ Deadlocked wants holder := by
  have hpath : ∀ waiter owner, Relation.TransGen (WaitsFor wants holder) waiter owner →
      ∀ last, wants owner = some last → ∃ first, wants waiter = some first ∧
        level first < level last := by
    intro waiter owner hpath
    induction hpath with
    | single hedge =>
        obtain ⟨mutex, hwants, hholder⟩ := hedge
        exact fun last hlast => ⟨mutex, hwants, hlevel _ mutex last hholder hlast⟩
    | tail _ hedge ih =>
        obtain ⟨mutex, hwants, hholder⟩ := hedge
        intro last hlast
        obtain ⟨first, hfirst, hlt⟩ := ih mutex hwants
        exact ⟨first, hfirst, Nat.lt_trans hlt (hlevel _ mutex last hholder hlast)⟩
  rintro ⟨thread, hcycle⟩
  obtain ⟨next, ⟨mutex, hwants, -⟩, -⟩ := Relation.TransGen.head'_iff.mp hcycle
  obtain ⟨first, hfirst, hlt⟩ := hpath thread thread hcycle mutex hwants
  obtain rfl : first = mutex := Option.some.inj (hfirst.symm.trans hwants)
  exact Nat.lt_irrefl _ hlt

/-- A rank that falls along every edge rules out cycles. -/
theorem not_deadlocked_of_rank (rank : θ → ℕ)
    (hrank : ∀ waiter owner, WaitsFor wants holder waiter owner → rank owner < rank waiter) :
    ¬ Deadlocked wants holder := by
  have hpath : ∀ waiter owner, Relation.TransGen (WaitsFor wants holder) waiter owner →
      rank owner < rank waiter := by
    intro waiter owner hpath
    induction hpath with
    | single hedge => exact hrank _ _ hedge
    | tail _ hedge ih => exact Nat.lt_trans (hrank _ _ hedge) ih
  rintro ⟨thread, hcycle⟩
  exact Nat.lt_irrefl _ (hpath thread thread hcycle)

end Waiting

end FireboltTransport.Semantics
