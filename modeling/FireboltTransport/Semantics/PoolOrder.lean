/-
# The order in which a worker pool returns its jobs

Jobs are numbered in the order of submission.  A pool starts them in that order,
so a job that returns overtakes only jobs that other workers are running at that
moment: fewer jobs than the pool has workers.  A single worker returns its jobs
in the order of submission.
-/

import FireboltTransport.Semantics.WorkerPool
import Mathlib.Data.List.Perm.Basic

namespace FireboltTransport.Semantics.WorkerPool

variable {n : ℕ}

/-- The first `started` of the `submitted` jobs were started; `returned` lists the jobs
that have returned, in the order of their return. -/
structure InOrder (pool : WorkerPool n ℕ) (started submitted : ℕ) (returned : List ℕ) : Prop where
  started_le : started ≤ submitted
  queue_eq : pool.queue = List.range' started (submitted - started)
  running_lt : ∀ worker job, pool.worker worker = some job → job < started
  running_new : ∀ worker job, pool.worker worker = some job → job ∉ returned
  running_inj : ∀ first second job, pool.worker first = some job →
    pool.worker second = some job → first = second
  returned_lt : ∀ job ∈ returned, job < started
  returned_nodup : returned.Nodup
  accounted : ∀ job < started, job ∈ returned ∨ ∃ worker, pool.worker worker = some job
  overtakes : ∀ before job after, returned = before ++ job :: after →
    ((Finset.range job).filter fun earlier => earlier ∉ before).card < n

theorem inOrder_empty : InOrder (empty : WorkerPool n ℕ) 0 0 [] where
  started_le := Nat.le_refl 0
  queue_eq := rfl
  running_lt := by simp [empty]
  running_new := by simp [empty]
  running_inj := by simp [empty]
  returned_lt := by simp
  returned_nodup := List.nodup_nil
  accounted := by simp
  overtakes := by simp

section InOrder

variable {pool next : WorkerPool n ℕ} {started submitted : ℕ} {returned : List ℕ}
  {worker : Fin n}

theorem InOrder.submit (horder : InOrder pool started submitted returned) :
    InOrder (pool.submit submitted) started (submitted + 1) returned :=
  { horder with
    started_le := Nat.le_succ_of_le horder.started_le
    queue_eq := by
      have hlast : started + (submitted - started) = submitted :=
        Nat.add_sub_cancel' horder.started_le
      show pool.queue ++ [submitted] = _
      rw [horder.queue_eq, Nat.succ_sub horder.started_le, List.range'_1_concat, hlast] }

/-- The job that is started is the first one that was not. -/
theorem InOrder.start (horder : InOrder pool started submitted returned)
    (hstart : pool.start worker = some next) :
    InOrder next (started + 1) submitted returned := by
  obtain ⟨first, rest, hfree, hqueue, rfl⟩ := start_eq_some.mp hstart
  obtain ⟨hlt, hfirst, hrest⟩ : started < submitted ∧ first = started ∧
      rest = List.range' (started + 1) (submitted - (started + 1)) := by
    have hcons := hqueue.symm.trans horder.queue_eq
    cases hcount : submitted - started with
    | zero =>
        rw [hcount] at hcons
        cases hcons
    | succ count =>
        rw [hcount, List.range'_succ] at hcons
        obtain ⟨hhead, htail⟩ := List.cons.inj hcons
        have hpred : submitted - (started + 1) = count := by omega
        rw [hpred]
        exact ⟨by omega, hhead, htail⟩
  subst hfirst
  exact {
    started_le := hlt
    queue_eq := hrest
    running_lt := by
      intro other job hjob
      rcases update_worker_eq_some.mp hjob with ⟨_, rfl⟩ | ⟨_, hbefore⟩
      · exact Nat.lt_succ_self first
      · exact Nat.lt_succ_of_lt (horder.running_lt other job hbefore)
    running_new := by
      intro other job hjob hmem
      rcases update_worker_eq_some.mp hjob with ⟨_, rfl⟩ | ⟨_, hbefore⟩
      · exact Nat.lt_irrefl first (horder.returned_lt first hmem)
      · exact horder.running_new other job hbefore hmem
    running_inj := by
      intro left right job hleft hright
      rcases update_worker_eq_some.mp hleft with ⟨hl, rfl⟩ | ⟨_, hleft⟩
      · rcases update_worker_eq_some.mp hright with ⟨hr, _⟩ | ⟨_, hright⟩
        · rw [hl, hr]
        · exact absurd (horder.running_lt right first hright) (Nat.lt_irrefl first)
      · rcases update_worker_eq_some.mp hright with ⟨_, rfl⟩ | ⟨_, hright⟩
        · exact absurd (horder.running_lt left first hleft) (Nat.lt_irrefl first)
        · exact horder.running_inj left right job hleft hright
    returned_lt := fun job hmem => Nat.lt_succ_of_lt (horder.returned_lt job hmem)
    returned_nodup := horder.returned_nodup
    accounted := by
      intro job hjob
      by_cases hlast : first = job
      · exact .inr ⟨worker, update_worker_eq_some.mpr (.inl ⟨rfl, hlast⟩)⟩
      · rcases horder.accounted job (by omega) with hmem | ⟨other, hother⟩
        · exact .inl hmem
        · have hne : other ≠ worker := by
            intro hworker
            rw [hworker, hfree] at hother
            cases hother
          exact .inr ⟨other, update_worker_eq_some.mpr (.inr ⟨hne, hother⟩)⟩
    overtakes := horder.overtakes }

/-- A job overtakes only jobs that other workers are running. -/
theorem InOrder.overtaken_lt (horder : InOrder pool started submitted returned) {job : ℕ}
    (hworker : pool.worker worker = some job) :
    ((Finset.range job).filter fun earlier => earlier ∉ returned).card < n := by
  have hsubset : ((Finset.range job).filter fun earlier => earlier ∉ returned) ⊆
      (Finset.univ.erase worker).image fun other => (pool.worker other).getD 0 := by
    intro earlier hearlier
    obtain ⟨hlt, hnot⟩ := Finset.mem_filter.mp hearlier
    rw [Finset.mem_range] at hlt
    have hstarted := Nat.lt_trans hlt (horder.running_lt worker job hworker)
    obtain ⟨other, hother⟩ := (horder.accounted earlier hstarted).resolve_left hnot
    apply Finset.mem_image.mpr
    refine ⟨other, Finset.mem_erase.mpr ⟨?_, Finset.mem_univ other⟩, by simp [hother]⟩
    rintro rfl
    rw [hworker] at hother
    have hsame := Option.some.inj hother
    omega
  have hpos : 0 < n := Nat.lt_of_le_of_lt (Nat.zero_le _) worker.isLt
  calc ((Finset.range job).filter fun earlier => earlier ∉ returned).card
      ≤ ((Finset.univ.erase worker).image fun other => (pool.worker other).getD 0).card :=
        Finset.card_le_card hsubset
    _ ≤ (Finset.univ.erase worker).card := Finset.card_image_le
    _ = n - 1 := by rw [Finset.card_erase_of_mem (Finset.mem_univ worker), Finset.card_univ,
        Fintype.card_fin]
    _ < n := Nat.sub_lt hpos Nat.one_pos

theorem InOrder.finish (horder : InOrder pool started submitted returned) {job : ℕ}
    (hworker : pool.worker worker = some job) :
    InOrder (pool.finish worker) started submitted (returned ++ [job]) where
  started_le := horder.started_le
  queue_eq := horder.queue_eq
  running_lt := by
    intro other later hlater
    exact horder.running_lt other later (finish_worker_eq_some.mp hlater).2
  running_new := by
    intro other later hlater hmem
    obtain ⟨hother, hlater⟩ := finish_worker_eq_some.mp hlater
    rcases List.mem_append.mp hmem with hbefore | hlast
    · exact horder.running_new other later hlater hbefore
    · rw [List.mem_singleton.mp hlast] at hlater
      exact hother (horder.running_inj other worker job hlater hworker)
  running_inj := by
    intro left right later hleft hright
    exact horder.running_inj left right later (finish_worker_eq_some.mp hleft).2
      (finish_worker_eq_some.mp hright).2
  returned_lt := by
    intro later hmem
    rcases List.mem_append.mp hmem with hbefore | hlast
    · exact horder.returned_lt later hbefore
    · rw [List.mem_singleton.mp hlast]
      exact horder.running_lt worker job hworker
  returned_nodup := by
    apply List.nodup_append.mpr
    refine ⟨horder.returned_nodup, List.nodup_singleton job, ?_⟩
    rintro later hbefore _ hlast rfl
    rw [List.mem_singleton.mp hlast] at hbefore
    exact horder.running_new worker job hworker hbefore
  accounted := by
    intro later hlater
    rcases horder.accounted later hlater with hmem | ⟨other, hother⟩
    · exact .inl (List.mem_append_left _ hmem)
    · by_cases hsame : other = worker
      · rw [hsame, hworker] at hother
        rw [← Option.some.inj hother]
        exact .inl (List.mem_append_right _ (List.mem_singleton.mpr rfl))
      · exact .inr ⟨other, finish_worker_eq_some.mpr ⟨hsame, hother⟩⟩
  overtakes := by
    intro before later after hsplit
    rcases List.eq_nil_or_concat after with rfl | ⟨front, last, rfl⟩
    · obtain ⟨rfl, hlast⟩ := List.append_inj' hsplit rfl
      rw [← List.singleton_inj.mp hlast]
      exact horder.overtaken_lt hworker
    · apply horder.overtakes before later front
      have hassoc :
          before ++ later :: (front ++ [last]) = (before ++ later :: front) ++ [last] := by
        simp
      rw [List.concat_eq_append, hassoc] at hsplit
      exact (List.append_inj' hsplit rfl).1

/-- A submitted job that has left the pool has returned. -/
theorem InOrder.mem_returned (horder : InOrder pool started submitted returned) {job : ℕ}
    (hsubmitted : job < submitted) (hleft : ¬ pool.Holds job) : job ∈ returned := by
  rcases Nat.lt_or_ge job started with hstarted | hqueued
  · apply (horder.accounted job hstarted).resolve_right
    exact fun hrunning => hleft (.inr hrunning)
  · apply absurd (Or.inl _) hleft
    rw [horder.queue_eq, List.mem_range'_1]
    omega

/-- When the pool is drained, every submitted job has returned once. -/
theorem InOrder.returned_perm (horder : InOrder pool started submitted returned)
    (hdrained : ∀ job, ¬ pool.Holds job) : returned.Perm (List.range submitted) := by
  apply (List.perm_ext_iff_of_nodup horder.returned_nodup List.nodup_range).mpr
  intro job
  rw [List.mem_range]
  constructor
  · intro hmem
    exact Nat.lt_of_lt_of_le (horder.returned_lt job hmem) horder.started_le
  · intro hsubmitted
    exact horder.mem_returned hsubmitted (hdrained job)

end InOrder

/-! ## One worker -/

/-- What has returned, what runs and what is queued, in this order, is what was submitted. -/
def Sequential (pool : WorkerPool 1 ℕ) (submitted : ℕ) (returned : List ℕ) : Prop :=
  ∀ worker, returned ++ (pool.worker worker).toList ++ pool.queue = List.range submitted

section Sequential

variable {pool next : WorkerPool 1 ℕ} {submitted : ℕ} {returned : List ℕ} {worker : Fin 1}

theorem sequential_empty : Sequential empty 0 [] := fun _ => rfl

theorem Sequential.submit (hsequential : Sequential pool submitted returned) :
    Sequential (pool.submit submitted) (submitted + 1) returned := by
  intro other
  show returned ++ (pool.worker other).toList ++ (pool.queue ++ [submitted]) = _
  rw [List.range_succ, ← hsequential other, List.append_assoc _ pool.queue]

theorem Sequential.start (hsequential : Sequential pool submitted returned)
    (hstart : pool.start worker = some next) : Sequential next submitted returned := by
  obtain ⟨job, rest, hfree, hqueue, rfl⟩ := start_eq_some.mp hstart
  intro other
  obtain rfl : other = worker := Subsingleton.elim other worker
  rw [← hsequential other, hfree, hqueue]
  simp

theorem Sequential.finish (hsequential : Sequential pool submitted returned) {job : ℕ}
    (hworker : pool.worker worker = some job) :
    Sequential (pool.finish worker) submitted (returned ++ [job]) := by
  intro other
  obtain rfl : other = worker := Subsingleton.elim other worker
  rw [← hsequential other, hworker]
  simp [WorkerPool.finish]

theorem Sequential.returned_isPrefix (hsequential : Sequential pool submitted returned) :
    returned <+: List.range submitted := by
  rw [← hsequential 0, List.append_assoc]
  exact List.prefix_append _ _

end Sequential

end FireboltTransport.Semantics.WorkerPool
