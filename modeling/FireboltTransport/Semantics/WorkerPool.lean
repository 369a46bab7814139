/-
# Worker pools

A pool has a queue of jobs and a fixed number of workers.  A free worker starts
the oldest job, a job occupies its worker until it returns.  The load of a pool
counts the queued jobs of one kind and the workers that something keeps busy.  A
job that is started moves from the one count to the other, and a load below the
number of workers leaves a worker for the other jobs.
-/

import Mathlib.Data.Fintype.Card
import Mathlib.Data.Fintype.Fin

namespace FireboltTransport.Semantics

universe u

/-- A pool of `n` workers. -/
structure WorkerPool (n : ℕ) (J : Type u) where
  queue : List J
  worker : Fin n → Option J

namespace WorkerPool

variable {n : ℕ} {J : Type u}

/-- No job was submitted. -/
def empty : WorkerPool n J := ⟨[], fun _ => none⟩

def submit (pool : WorkerPool n J) (job : J) : WorkerPool n J :=
  { pool with queue := pool.queue ++ [job] }

/-- A worker takes the oldest job, or `none` when it is busy or there is no job. -/
def start (pool : WorkerPool n J) (worker : Fin n) : Option (WorkerPool n J) :=
  match pool.worker worker, pool.queue with
  | none, job :: rest => some ⟨rest, Function.update pool.worker worker (some job)⟩
  | _, _ => none

/-- The job of a worker returns. -/
def finish (pool : WorkerPool n J) (worker : Fin n) : WorkerPool n J :=
  { pool with worker := Function.update pool.worker worker none }

/-- The job is queued or running. -/
def Holds (pool : WorkerPool n J) (job : J) : Prop :=
  job ∈ pool.queue ∨ ∃ worker, pool.worker worker = some job

instance [DecidableEq J] (pool : WorkerPool n J) (job : J) : Decidable (pool.Holds job) :=
  inferInstanceAs (Decidable (_ ∨ _))

/-- Everything starting a job does. -/
theorem start_eq_some {pool next : WorkerPool n J} {worker : Fin n} :
    pool.start worker = some next ↔ ∃ job rest, pool.worker worker = none ∧
      pool.queue = job :: rest ∧
      next = ⟨rest, Function.update pool.worker worker (some job)⟩ := by
  constructor
  · intro hstart
    unfold start at hstart
    split at hstart
    · exact ⟨_, _, ‹_›, ‹_›, (Option.some.inj hstart).symm⟩
    · cases hstart
  · rintro ⟨job, rest, hfree, hqueue, rfl⟩
    simp [start, hfree, hqueue]

/-- A started job runs on its worker, and the others go on. -/
theorem update_worker_eq_some {pool : WorkerPool n J} {worker other : Fin n} {started job : J} :
    Function.update pool.worker worker (some started) other = some job ↔
      other = worker ∧ started = job ∨ other ≠ worker ∧ pool.worker other = some job := by
  by_cases hother : other = worker
  · subst hother
    simp
  · simp [hother]

theorem finish_worker_eq_some {pool : WorkerPool n J} {worker other : Fin n} {job : J} :
    (pool.finish worker).worker other = some job ↔
      other ≠ worker ∧ pool.worker other = some job := by
  by_cases hother : other = worker
  · subst hother
    simp [finish]
  · simp [finish, hother]

/-- The queued jobs of one kind, and the workers that are busy. -/
def load (pool : WorkerPool n J) (kind : J → Bool) (busy : Fin n → Bool) : ℕ :=
  pool.queue.countP kind + (Finset.univ.filter fun worker => busy worker = true).card

section Load

variable {pool : WorkerPool n J} {kind larger : J → Bool} {busy busier : Fin n → Bool}

theorem load_submit (pool : WorkerPool n J) (job : J) (kind : J → Bool) (busy : Fin n → Bool) :
    (pool.submit job).load kind busy = pool.load kind busy + if kind job then 1 else 0 := by
  show (pool.queue ++ [job]).countP kind + _ = _
  rw [List.countP_append, List.countP_singleton, load]
  exact Nat.add_right_comm _ _ _

theorem load_mono (hkind : ∀ job ∈ pool.queue, kind job = true → larger job = true)
    (hbusy : ∀ worker, busy worker = true → busier worker = true) :
    pool.load kind busy ≤ pool.load larger busier := by
  apply Nat.add_le_add
  · exact List.countP_mono_left hkind
  · apply Finset.card_le_card
    intro worker hworker
    simp only [Finset.mem_filter, Finset.mem_univ, true_and] at hworker ⊢
    exact hbusy worker hworker

/-- One more worker may be busy. -/
theorem load_le_succ {worker : Fin n} (pool : WorkerPool n J) (kind : J → Bool)
    (hbusy : ∀ other, other ≠ worker → busier other = true → busy other = true) :
    pool.load kind busier ≤ pool.load kind busy + 1 := by
  rw [load, load, Nat.add_assoc]
  apply Nat.add_le_add_left
  refine Nat.le_trans (Finset.card_le_card ?_) (Finset.card_insert_le worker _)
  intro other hother
  simp only [Finset.mem_insert, Finset.mem_filter, Finset.mem_univ, true_and] at hother ⊢
  by_cases hworker : other = worker
  · exact .inl hworker
  · exact .inr (hbusy other hworker hother)

/-- A job that is started may keep its worker busy if it is of the kind. -/
theorem load_start_le {next : WorkerPool n J} {worker : Fin n}
    (hstart : pool.start worker = some next)
    (hworker : ∀ job, next.worker worker = some job → busier worker = true → kind job = true)
    (hbusy : ∀ other, other ≠ worker → busier other = true → busy other = true) :
    next.load kind busier ≤ pool.load kind busy := by
  obtain ⟨job, rest, _, hqueue, rfl⟩ := start_eq_some.mp hstart
  have hjob := hworker job (Function.update_self _ _ _)
  cases hkind : kind job with
  | true =>
      have hcount : pool.queue.countP kind = rest.countP kind + 1 := by
        rw [hqueue, List.countP_cons, hkind]
        rfl
      have hle := load_le_succ ⟨rest, pool.worker⟩ kind hbusy
      simp only [load] at hle ⊢
      omega
  | false =>
      have hcount : pool.queue.countP kind = rest.countP kind := by
        rw [hqueue, List.countP_cons, hkind]
        rfl
      rw [load, load, hcount]
      apply Nat.add_le_add_left (Finset.card_le_card ?_)
      intro other hother
      simp only [Finset.mem_filter, Finset.mem_univ, true_and] at hother ⊢
      apply hbusy other ?_ hother
      rintro rfl
      rw [hjob hother] at hkind
      cases hkind

/-- A load below the number of workers leaves one of them alone. -/
theorem exists_worker_of_load_lt (hload : pool.load kind busy < n) :
    ∃ worker, busy worker = false := by
  by_contra hall
  have huniv : (Finset.univ.filter fun worker => busy worker = true) = Finset.univ := by
    ext worker
    simp only [Finset.mem_filter, Finset.mem_univ, true_and, iff_true]
    rw [← Bool.not_eq_false]
    exact fun hfree => hall ⟨worker, hfree⟩
  have hle : (Finset.univ.filter fun worker => busy worker = true).card ≤ pool.load kind busy :=
    Nat.le_add_left _ _
  rw [huniv, Finset.card_univ, Fintype.card_fin] at hle
  omega

end Load

end WorkerPool

end FireboltTransport.Semantics
