/-
# Every job of a worker pool comes to its turn

Seen from its pool, a program submits jobs, lets a free worker start the oldest one, and
ends the job of a worker.  A job may take as long as it likes, and while it does its
worker is lost for the others.  When each job comes to an end, and the pool does not leave
a free worker and a queued job alone for ever, every job is started, as the one whose turn
it is, and its worker returns from it.  This holds for any number of workers, however many
of them are busy at a time.
-/

import FireboltTransport.Semantics.Fairness
import FireboltTransport.Semantics.WorkerPool
import Mathlib.Order.Basic

namespace FireboltTransport.Semantics

universe u

/-- What a step of a program does to its pool. -/
inductive PoolAction (n : ℕ) (J : Type u)
  | submit (job : J)
  | start (worker : Fin n)
  | finish (worker : Fin n)

namespace PoolAction

variable {n : ℕ} {J : Type u}

def submitted : PoolAction n J → Option J
  | .submit job => some job
  | _ => none

def isStart : PoolAction n J → Bool
  | .start _ => true
  | _ => false

/-- What was submitted, in its order. -/
def submissions (actions : List (PoolAction n J)) : List J := actions.filterMap submitted

/-- How many jobs were started. -/
def starts (actions : List (PoolAction n J)) : ℕ := actions.countP isStart

end PoolAction

namespace WorkerPool

open PoolAction

variable {n : ℕ} {J : Type u}

/-- One step of a pool, or `none` when it is not possible. -/
def act (pool : WorkerPool n J) : PoolAction n J → Option (WorkerPool n J)
  | .submit job => some (pool.submit job)
  | .start worker => pool.start worker
  | .finish worker => (pool.worker worker).map fun _ => pool.finish worker

/-- What was submitted is what was started, and behind it what is queued. -/
theorem submissions_of_exec {pool : WorkerPool n J} {actions : List (PoolAction n J)}
    (hrun : exec act empty actions = some pool) :
    ∃ started, submissions actions = started ++ pool.queue ∧ started.length = starts actions := by
  refine exec_history (motive := fun prior pool =>
    ∃ started, submissions prior = started ++ pool.queue ∧ started.length = starts prior)
    ⟨[], rfl, rfl⟩ ?_ hrun
  rintro prior pool action next _ ⟨started, hsubmitted, hlength⟩ htaken
  have hstarts : starts (prior ++ [action]) = starts prior + starts [action] :=
    List.countP_append
  have hsubmissions :
      submissions (prior ++ [action]) = submissions prior ++ submissions [action] :=
    List.filterMap_append
  rw [hstarts, hsubmissions, hsubmitted, ← hlength]
  cases action with
  | submit job =>
      obtain rfl := Option.some.inj htaken
      exact ⟨started, List.append_assoc _ _ _, rfl⟩
  | start worker =>
      obtain ⟨job, rest, _, hqueue, rfl⟩ := start_eq_some.mp htaken
      refine ⟨started ++ [job], ?_, List.length_append⟩
      show started ++ pool.queue ++ [] = started ++ [job] ++ rest
      rw [List.append_nil, hqueue, List.append_assoc]
      rfl
  | finish worker =>
      obtain ⟨job, _, rfl⟩ := Option.map_eq_some_iff.mp htaken
      exact ⟨started, List.append_nil _, rfl⟩

/-- The job of a worker stays until it is finished. -/
theorem worker_act {pool next : WorkerPool n J} {action : PoolAction n J} {worker : Fin n} {job : J}
    (htaken : pool.act action = some next) (hworker : pool.worker worker = some job) :
    next.worker worker = some job ∨ action = .finish worker := by
  cases action with
  | submit submitted =>
      obtain rfl := Option.some.inj htaken
      exact .inl hworker
  | start other =>
      obtain ⟨_, _, hfree, _, rfl⟩ := start_eq_some.mp htaken
      refine .inl (update_worker_eq_some.mpr (.inr ⟨?_, hworker⟩))
      rintro rfl
      cases hworker.symm.trans hfree
  | finish other =>
      obtain ⟨_, _, rfl⟩ := Option.map_eq_some_iff.mp htaken
      by_cases hother : worker = other
      · exact .inr (by rw [hother])
      · exact .inl (finish_worker_eq_some.mpr ⟨hother, hworker⟩)

/-- A free worker stays free, and the queue keeps its jobs, until one is started. -/
theorem free_act {pool next : WorkerPool n J} {action : PoolAction n J} {worker : Fin n}
    (htaken : pool.act action = some next) (hother : action.isStart = false)
    (hworker : pool.worker worker = none) (hqueue : pool.queue ≠ []) :
    next.worker worker = none ∧ next.queue ≠ [] := by
  cases action with
  | submit submitted =>
      obtain rfl := Option.some.inj htaken
      exact ⟨hworker, List.append_ne_nil_of_left_ne_nil hqueue _⟩
  | start other => cases hother
  | finish other =>
      obtain ⟨_, _, rfl⟩ := Option.map_eq_some_iff.mp htaken
      refine ⟨?_, hqueue⟩
      by_cases hsame : worker = other
      · rw [hsame]
        exact Function.update_self _ _ _
      · rw [← hworker]
        exact Function.update_of_ne hsame _ _

/-- So does the queue alone. -/
theorem queue_act {pool next : WorkerPool n J} {action : PoolAction n J}
    (htaken : pool.act action = some next) (hother : action.isStart = false)
    (hqueue : pool.queue ≠ []) : next.queue ≠ [] := by
  cases action with
  | submit submitted =>
      obtain rfl := Option.some.inj htaken
      exact List.append_ne_nil_of_left_ne_nil hqueue _
  | start other => cases hother
  | finish other =>
      obtain ⟨_, _, rfl⟩ := Option.map_eq_some_iff.mp htaken
      exact hqueue

section Runs

variable {run : Endless (act (n := n) (J := J))} {moment : ℕ}

/-- As long as jobs are queued, the next one is started. -/
theorem exists_start (hworkers : 0 < n) (hstart : run.Fair fun action => action.isStart = true)
    (hreturn : ∀ worker, run.LeadsTo (fun _ => True) (fun pool => pool.worker worker = none))
    (hqueue : (run.state moment).queue ≠ []) :
    ∃ later ≥ moment, ∃ worker, run.action later = some (.start worker) := by
  by_contra hnever
  push Not at hnever
  have hother : ∀ later ≥ moment, ∀ action, run.action later = some action →
      action.isStart = false := by
    intro later hlater action haction
    cases action with
    | start worker => exact absurd haction (hnever later hlater worker)
    | submit | finish => rfl
  have hqueued : ∀ later ≥ moment, (run.state later).queue ≠ [] := by
    apply run.always_of_step (motive := fun pool => pool.queue ≠ []) hqueue
    exact fun later hlater action haction =>
      queue_act (run.taken haction) (hother later hlater action haction)
  -- Some worker is free from some moment on, with jobs queued.
  let worker : Fin n := ⟨0, hworkers⟩
  obtain ⟨first, hfirst, hfree⟩ := hreturn worker moment trivial
  have hidle : ∀ later ≥ first, (run.state later).worker worker = none ∧
      (run.state later).queue ≠ [] := by
    apply run.always_of_step
      (motive := fun pool => pool.worker worker = none ∧ pool.queue ≠ [])
    · exact ⟨hfree, hqueued first hfirst⟩
    · rintro later hlater action haction ⟨hworker, hjobs⟩
      exact free_act (run.taken haction) (hother later (hfirst.trans hlater) action haction)
        hworker hjobs
  obtain ⟨later, hlater, action, haction, hstarts⟩ := hstart first fun later hlater => by
    obtain ⟨hworker, hjobs⟩ := hidle later hlater
    obtain ⟨job, rest, hjob⟩ := List.exists_cons_of_ne_nil hjobs
    exact ⟨.start worker, rfl, by rw [act, start, hworker, hjob]; rfl⟩
  rw [hother later (hfirst.trans hlater) action haction] at hstarts
  cases hstarts

/-- The worker of a job returns from it. -/
theorem exists_finish
    (hreturn : ∀ worker, run.LeadsTo (fun _ => True) (fun pool => pool.worker worker = none))
    {worker : Fin n} {job : J} (hworker : (run.state moment).worker worker = some job) :
    ∃ later ≥ moment, run.action later = some (.finish worker) ∧
      ∀ between, moment ≤ between → between ≤ later →
        (run.state between).worker worker = some job := by
  obtain ⟨freed, hfreed, hfree⟩ := hreturn worker moment trivial
  have hceased : ¬ (run.state freed).worker worker = some job := by simp [hfree]
  obtain ⟨last, hlast, hgone, hkept⟩ :=
    Endless.exists_last (fun pool : WorkerPool n J => pool.worker worker = some job) hworker
      hfreed hceased
  refine ⟨last, hlast, ?_, hkept⟩
  have hlastJob := hkept last hlast (Nat.le_refl last)
  cases haction : run.action last with
  | none =>
      rw [run.idle haction] at hgone
      exact absurd hlastJob hgone
  | some action =>
      rcases worker_act (run.taken haction) hlastJob with hstays | rfl
      · exact absurd hstays hgone
      · rfl

variable (run) in
/-- What was submitted before a moment. -/
def submittedBy (moment : ℕ) : List J := submissions (run.trace moment)

variable (run) in
/-- How many jobs were started before a moment. -/
def startedBy (moment : ℕ) : ℕ := starts (run.trace moment)

theorem submittedBy_succ :
    submittedBy run (moment + 1) =
      submittedBy run moment ++ submissions (run.action moment).toList := by
  rw [submittedBy, Endless.trace_succ]
  exact List.filterMap_append

theorem startedBy_succ :
    startedBy run (moment + 1) = startedBy run moment + starts (run.action moment).toList := by
  rw [startedBy, Endless.trace_succ]
  exact List.countP_append

theorem startedBy_le {later : ℕ} (hlater : moment ≤ later) :
    startedBy run moment ≤ startedBy run later := by
  induction hlater with
  | refl => exact Nat.le_refl _
  | step _ ih =>
      rw [Nat.succ_eq_add_one, startedBy_succ]
      exact Nat.le_add_right_of_le ih

/-- What was submitted keeps its index. -/
theorem getElem?_submittedBy {index later : ℕ} {job : J} (hlater : moment ≤ later)
    (hjob : (submittedBy run moment)[index]? = some job) :
    (submittedBy run later)[index]? = some job := by
  induction hlater with
  | refl => exact hjob
  | step _ ih =>
      obtain ⟨hindex, _⟩ := List.getElem?_eq_some_iff.mp ih
      rw [Nat.succ_eq_add_one, submittedBy_succ, List.getElem?_append_left hindex]
      exact ih

/-- What is queued follows what was started. -/
theorem submittedBy_eq (hempty : run.state 0 = empty) (moment : ℕ) :
    ∃ started, submittedBy run moment = started ++ (run.state moment).queue ∧
      started.length = startedBy run moment :=
  submissions_of_exec (hempty ▸ run.exec_trace moment)

/-- The number of started jobs passes each number it comes to with one start. -/
theorem exists_start_of_lt {index later : ℕ} (hlater : index < startedBy run later) :
    ∃ moment worker, run.action moment = some (.start worker) ∧ startedBy run moment = index := by
  induction later with
  | zero => cases hlater
  | succ later ih =>
      by_cases hbefore : index < startedBy run later
      · exact ih hbefore
      · rw [startedBy_succ] at hlater
        cases haction : run.action later with
        | none =>
            rw [haction] at hlater
            exact absurd hlater hbefore
        | some action =>
            rw [haction] at hlater
            cases action with
            | start worker =>
                have hlast : index < startedBy run later + 1 := hlater
                exact ⟨later, worker, haction, by omega⟩
            | submit | finish => exact absurd hlater hbefore

/-- As many jobs are started as were submitted: the induction is on their number. -/
theorem exists_startedBy (hempty : run.state 0 = empty) (hworkers : 0 < n)
    (hstart : run.Fair fun action => action.isStart = true)
    (hreturn : ∀ worker, run.LeadsTo (fun _ => True) (fun pool => pool.worker worker = none))
    {count : ℕ} (hcount : count ≤ (submittedBy run moment).length) :
    ∃ later ≥ moment, count ≤ startedBy run later := by
  induction count with
  | zero => exact ⟨moment, Nat.le_refl moment, Nat.zero_le _⟩
  | succ count ih =>
      obtain ⟨first, hfirst, hcounted⟩ := ih (Nat.le_of_succ_le hcount)
      by_cases hmore : count < startedBy run first
      · exact ⟨first, hfirst, hmore⟩
      · obtain ⟨started, hsubmitted, hlength⟩ := submittedBy_eq hempty first
        have hqueue : (run.state first).queue ≠ [] := by
          intro hnil
          have hlast := getElem?_submittedBy hfirst (List.getElem?_eq_getElem hcount)
          obtain ⟨hindex, _⟩ := List.getElem?_eq_some_iff.mp hlast
          rw [hsubmitted, hnil, List.append_nil] at hindex
          omega
        obtain ⟨second, hsecond, worker, haction⟩ := exists_start hworkers hstart hreturn hqueue
        refine ⟨second + 1, hfirst.trans (Nat.le_succ_of_le hsecond), ?_⟩
        rw [startedBy_succ, haction]
        exact Nat.add_le_add_right (hcounted.trans (startedBy_le hsecond)) 1

/-- **Every job comes to its turn and to its end.**  The job submitted as the one of an index is
started when this many jobs have been started before it, and its worker runs it until it
returns. -/
theorem started_in_turn (hempty : run.state 0 = empty) (hworkers : 0 < n)
    (hstart : run.Fair fun action => action.isStart = true)
    (hreturn : ∀ worker, run.LeadsTo (fun _ => True) (fun pool => pool.worker worker = none))
    {index : ℕ} {job : J} (hsubmitted : (submittedBy run moment)[index]? = some job) :
    ∃ started worker finished, started < finished ∧
      run.action started = some (.start worker) ∧ startedBy run started = index ∧
      run.action finished = some (.finish worker) ∧
      ∀ between, started < between → between ≤ finished →
        (run.state between).worker worker = some job := by
  obtain ⟨hindex, _⟩ := List.getElem?_eq_some_iff.mp hsubmitted
  obtain ⟨later, _, hlater⟩ := exists_startedBy hempty hworkers hstart hreturn hindex
  obtain ⟨started, worker, haction, hturn⟩ := exists_start_of_lt hlater
  obtain ⟨first, rest, _, hqueue, hnext⟩ := start_eq_some.mp (run.taken haction)
  have hfirst : (submittedBy run started)[index]? = some first := by
    obtain ⟨before, hbefore, hlength⟩ := submittedBy_eq hempty started
    rw [hbefore, hqueue, ← hturn, ← hlength]
    simp
  have hjob : first = job := by
    rcases Nat.le_total started moment with hle | hle
    · exact Option.some.inj ((getElem?_submittedBy hle hfirst).symm.trans hsubmitted)
    · exact Option.some.inj (hfirst.symm.trans (getElem?_submittedBy hle hsubmitted))
  have hworker : (run.state (started + 1)).worker worker = some job := by
    rw [hnext, hjob]
    exact Function.update_self _ _ _
  obtain ⟨finished, hfinished, hreturned, hkept⟩ := exists_finish hreturn hworker
  exact ⟨started, worker, finished, hfinished, haction, hturn, hreturned, hkept⟩

end Runs

end WorkerPool

end FireboltTransport.Semantics
