/-
# Every notification is delivered

A notification is a job of the pool, and its callback is invoked by the worker that runs
the job.  Jobs that take long delay the notifications behind them, whether they are in a
callback, wait for a mutex of the client or are asynchronous calls.  As long as each job
that is started returns, and free workers start jobs, they only delay them: in every run
without end each notification received for a subscribed event reaches the callback, once
and with its own text.
-/

import FireboltTransport.Gateway.Delivery
import FireboltTransport.Semantics.PoolFairness

namespace FireboltTransport.Delivery

open Semantics Server

universe u

variable {n : ℕ} {β : Type u}

/-- What the step does to the pool. -/
def Action.onPool (state : State n β) : Action n β → Option (PoolAction n ℕ)
  | .inbound _ | .submitOther => some (.submit state.submitted.length)
  | .start worker => some (.start worker)
  | .run worker => some (.finish worker)
  | .subscribe _ _ | .unsubscribe _ => none

section Step

variable {state next : State n β} {action : Action n β} {worker : Fin n} {number : ℕ}

theorem onPool_step (hstep : Step state action next) {moved : PoolAction n ℕ}
    (hmoved : action.onPool state = some moved) : state.pool.act moved = some next.pool := by
  cases hstep with
  | inbound | submitOther =>
      obtain rfl := Option.some.inj hmoved
      rfl
  | start worker pool hstart =>
      obtain rfl := Option.some.inj hmoved
      exact hstart
  | run worker number hworker =>
      obtain rfl := Option.some.inj hmoved
      exact Option.map_eq_some_iff.mpr ⟨number, hworker, rfl⟩
  | subscribe | unsubscribe => cases hmoved

theorem offPool_step (hstep : Step state action next) (hunmoved : action.onPool state = none) :
    next.pool = state.pool := by
  cases hstep with
  | subscribe | unsubscribe => rfl
  | _ => cases hunmoved

/-- Jobs are numbered in the order of their submission. -/
theorem submitted_step (hstep : Step state action next) :
    List.range next.submitted.length = List.range state.submitted.length ++
      PoolAction.submissions (action.onPool state).toList := by
  cases hstep with
  | inbound message | submitOther =>
      show List.range (state.submitted ++ [_]).length = _
      rw [List.length_append]
      exact List.range_succ
  | start | run | subscribe | unsubscribe => exact (List.append_nil _).symm

/-- A worker runs its job with one step. -/
theorem worker_step (hstep : Step state action next)
    (hworker : state.pool.worker worker = some number) :
    (next.pool.worker worker = some number ∧ action ≠ .run worker) ∨
      (next.pool.worker worker = none ∧ action = .run worker) := by
  cases hstep with
  | inbound | submitOther | subscribe | unsubscribe => exact .inl ⟨hworker, by simp⟩
  | start other pool hstart =>
      obtain ⟨_, _, hfree, _, rfl⟩ := WorkerPool.start_eq_some.mp hstart
      refine .inl ⟨WorkerPool.update_worker_eq_some.mpr (.inr ⟨?_, hworker⟩), by simp⟩
      rintro rfl
      cases hworker.symm.trans hfree
  | run other ran hother =>
      by_cases hsame : worker = other
      · exact .inr ⟨hsame ▸ Function.update_self _ _ _, by rw [hsame]⟩
      · exact .inl ⟨WorkerPool.finish_worker_eq_some.mpr ⟨hsame, hworker⟩,
          by simp [Ne.symm hsame]⟩

theorem returned_of_run (hstep : Step state (.run worker) next)
    (hworker : state.pool.worker worker = some number) : number ∈ next.returned := by
  cases hstep with
  | run _ ran hran =>
      obtain rfl : number = ran := Option.some.inj (hworker.symm.trans hran)
      exact List.mem_append_right _ (List.mem_singleton_self number)

theorem returned_step (hstep : Step state action next) (hreturned : number ∈ state.returned) :
    number ∈ next.returned := by
  cases hstep with
  | run => exact List.mem_append_left _ hreturned
  | _ => exact hreturned

theorem parametersFor_step (hstep : Step state action next) {key parameters : Text}
    (hreceived : state.parametersFor key number = some parameters) :
    next.parametersFor key number = some parameters := by
  obtain ⟨job, hjob, hparameters⟩ := Option.bind_eq_some_iff.mp hreceived
  refine Option.bind_eq_some_iff.mpr ⟨job, ?_, hparameters⟩
  cases hstep with
  | inbound | submitOther =>
      have hnumber : number < state.submitted.length := (List.getElem?_eq_some_iff.mp hjob).1
      exact (List.getElem?_append_left hnumber).trans hjob
  | start | run | subscribe | unsubscribe => exact hjob

end Step

/-- The run as the pool sees it. -/
def poolRun (run : Endless (step (n := n) (β := β))) : Endless (WorkerPool.act (n := n) (J := ℕ)) :=
  run.project State.pool (fun state action => action.onPool state)
    (fun _ _ _ haction hmoved => onPool_step (step_cases (run.taken haction)) hmoved)
    (fun _ _ haction hunmoved => offPool_step (step_cases (run.taken haction)) hunmoved)

section Runs

variable {run : Endless (step (n := n) (β := β))} {worker : Fin n} {moment number : ℕ}

theorem step_of_action {action : Action n β} (haction : run.action moment = some action) :
    Step (run.state moment) action (run.state (moment + 1)) :=
  step_cases (run.taken haction)

/-- What was submitted to the pool are the numbers of the jobs. -/
theorem submittedBy_poolRun {eventMap : EventMap β} (hstart : run.state 0 = initial eventMap)
    (moment : ℕ) :
    WorkerPool.submittedBy (poolRun run) moment =
      List.range (run.state moment).submitted.length := by
  induction moment with
  | zero =>
      rw [hstart]
      rfl
  | succ moment ih =>
      rw [WorkerPool.submittedBy_succ, ih]
      cases haction : run.action moment with
      | none =>
          have hnothing : (poolRun run).action moment = none := by
            show (run.action moment).bind _ = none
            rw [haction]
            rfl
          rw [hnothing, run.idle haction]
          exact List.append_nil _
      | some action =>
          have hmoved : (poolRun run).action moment = action.onPool (run.state moment) := by
            show (run.action moment).bind _ = _
            rw [haction]
            rfl
          rw [hmoved, submitted_step (step_of_action haction)]

/-- The worker of a job runs it and returns. -/
theorem leadsTo_free (hrun : ∀ worker, run.Fair fun action => action = .run worker)
    (worker : Fin n) :
    run.LeadsTo (fun _ => True) (fun state => state.pool.worker worker = none) := by
  have hbusy : ∀ number, run.LeadsTo (fun state => state.pool.worker worker = some number)
      (fun state => state.pool.worker worker = none) := by
    intro number
    refine .of_fair_once (hrun worker) ?_ ?_
    · intro moment hworker _
      exact ⟨.run worker, rfl, by rw [step, hworker]; rfl⟩
    · intro moment action haction hworker
      rcases worker_step (step_of_action haction) hworker with ⟨hkept, hother⟩ | ⟨hfree, _⟩
      · exact .inr ⟨hkept, hother⟩
      · exact .inl hfree
  intro moment _
  cases hworker : (run.state moment).pool.worker worker with
  | none => exact ⟨moment, Nat.le_refl moment, hworker⟩
  | some number => exact hbusy number moment hworker

theorem start_poolRun (hstart : run.Fair fun action => ∃ worker, action = .start worker) :
    (poolRun run).Fair fun moved => moved.isStart = true := by
  refine Endless.Fair.project hstart ?_ ?_
  · intro moment moved hstarts hpossible
    cases moved with
    | start worker =>
        obtain ⟨pool, hpool⟩ := Option.isSome_iff_exists.mp hpossible
        have hpool : (run.state moment).pool.start worker = some pool := hpool
        exact ⟨.start worker, ⟨worker, rfl⟩, by rw [step, hpool]; rfl⟩
    | submit | finish => cases hstarts
  · rintro moment _ _ _ ⟨worker, rfl⟩ _ _
    exact ⟨.start worker, rfl, rfl⟩

/-- Every job that is submitted has returned at some moment. -/
theorem exists_returned {eventMap : EventMap β} (hworkers : 0 < n)
    (hinitial : run.state 0 = initial eventMap)
    (hstart : run.Fair fun action => ∃ worker, action = .start worker)
    (hrun : ∀ worker, run.Fair fun action => action = .run worker)
    (hnumber : number < (run.state moment).submitted.length) :
    ∃ later, number ∈ (run.state later).returned := by
  have hsubmitted : (WorkerPool.submittedBy (poolRun run) moment)[number]? = some number := by
    rw [submittedBy_poolRun hinitial, List.getElem?_range hnumber]
  have hempty : (poolRun run).state 0 = .empty := by
    show (run.state 0).pool = _
    rw [hinitial]
    rfl
  obtain ⟨started, worker, finished, hless, _, _, hends, hruns⟩ :=
    WorkerPool.started_in_turn hempty hworkers (start_poolRun hstart) (leadsTo_free hrun) hsubmitted
  obtain ⟨action, haction, hended⟩ := Option.bind_eq_some_iff.mp hends
  have hworker : (run.state finished).pool.worker worker = some number :=
    hruns finished hless (Nat.le_refl finished)
  obtain rfl : action = .run worker := by
    cases action with
    | run other =>
        obtain rfl := PoolAction.finish.inj (Option.some.inj hended)
        rfl
    | inbound | submitOther | start | subscribe | unsubscribe => cases hended
  exact ⟨finished + 1, returned_of_run (step_of_action haction) hworker⟩

end Runs

/-- Of a list whose elements a function tells apart, one element has its own value. -/
theorem filter_eq_singleton {α : Type u} {value : α → ℕ} {elements : List α} {element : α}
    (hnodup : (elements.map value).Nodup) (hmem : element ∈ elements) :
    elements.filter (fun other => value other = value element) = [element] := by
  induction elements with
  | nil => cases hmem
  | cons first rest ih =>
      obtain ⟨hnew, hrest⟩ := List.nodup_cons.mp hnodup
      rcases List.mem_cons.mp hmem with rfl | hlater
      · rw [List.filter_cons_of_pos (by simp), List.filter_eq_nil_iff.mpr]
        intro other hother hsame
        exact hnew (of_decide_eq_true hsame ▸ List.mem_map_of_mem hother)
      · have hne : value first ≠ value element := fun hsame =>
          hnew (hsame ▸ List.mem_map_of_mem hlater)
        rw [List.filter_cons_of_neg (by simpa using hne), ih hrest hlater]

/-- **Every notification is delivered.**  In every run without end in which free workers start what
is queued, every job that is started returns, be it a notification, a reply or an asynchronous
call, and the subscription under `key` is left alone: a notification received for `key` has from
some moment on been delivered to the callback, once and with its text. -/
theorem notified_of_fair {run : Endless (step (n := n) (β := β))} {eventMap : EventMap β}
    {key parameters : Text} {callback : CallbackDataEvent β} (hworkers : 0 < n)
    (hinitial : run.state 0 = initial eventMap) (hsubscribed : eventMap.lookup key = some callback)
    (hkeeps : ∀ moment action, run.action moment = some action →
      KeepsSubscription key (run.state moment) action)
    (hstart : run.Fair fun action => ∃ worker, action = .start worker)
    (hrun : ∀ worker, run.Fair fun action => action = .run worker) {moment number : ℕ}
    (hreceived : (run.state moment).parametersFor key number = some parameters) :
    ∃ later ≥ moment, ∀ after ≥ later,
      ((run.state after).invokedFor key).filter (fun call => call.job = number) =
        [⟨number, key, callback, parameters⟩] := by
  have htracked : ∀ moment, Tracked key callback (run.state moment) := by
    intro moment
    refine run.always_of_step (motive := Tracked key callback) ?_ ?_ moment (Nat.zero_le moment)
    · rw [hinitial]
      exact tracked_initial hsubscribed
    · exact fun moment _ action haction hprior =>
        hprior.step (step_of_action haction) (hkeeps moment action haction)
  have hnumber : number < (run.state moment).submitted.length := by
    obtain ⟨job, hjob, _⟩ := Option.bind_eq_some_iff.mp hreceived
    exact (List.getElem?_eq_some_iff.mp hjob).1
  obtain ⟨returned, hreturned⟩ := exists_returned hworkers hinitial hstart hrun hnumber
  refine ⟨max moment returned, Nat.le_max_left _ _, fun after hafter => ?_⟩
  have hreceivedAfter : (run.state after).parametersFor key number = some parameters := by
    apply run.always_of_step
      (motive := fun state => state.parametersFor key number = some parameters) hreceived
    · exact fun moment _ action haction => parametersFor_step (step_of_action haction)
    · exact (Nat.le_max_left _ _).trans hafter
  have hreturnedAfter : number ∈ (run.state after).returned := by
    apply run.always_of_step (motive := fun state => number ∈ state.returned) hreturned
    · exact fun moment _ action haction => returned_step (step_of_action haction)
    · exact (Nat.le_max_right _ _).trans hafter
  have hcalled : ⟨number, key, callback, parameters⟩ ∈ (run.state after).invokedFor key := by
    rw [(htracked after).invoked_eq]
    apply List.mem_filterMap.mpr
    exact ⟨number, hreturnedAfter, callFor_eq_some.mpr ⟨hreceivedAfter, rfl, rfl, rfl⟩⟩
  exact filter_eq_singleton (htracked after).deliveredOnce.once hcalled

/-- Two notifications for `e` and one for another event are received before two workers come to
them, one slower than the other. -/
def threeNotifications (first second : Fin n) : List (Action n Unit) :=
  [.inbound { Message.empty with designator := ⟨true, ['e']⟩, parameters := ⟨true, ['1']⟩ },
    .inbound { Message.empty with designator := ⟨true, ['f']⟩, parameters := ⟨true, ['2']⟩ },
    .inbound { Message.empty with designator := ⟨true, ['e']⟩, parameters := ⟨true, ['3']⟩ },
    .start first, .start second, .run second, .start second, .run second, .run first]

/-- And nothing else happens. -/
def threeNotificationsRun (first second : Fin 2) : Endless (step (n := 2) (β := Unit)) :=
  .follow step listening
    (Endless.cycle (threeNotifications first second) [.unsubscribe ['f']] .submitOther)

theorem notified_of_fair_threeNotificationsRun :
    ∃ later ≥ 3, ∀ after ≥ later,
      (((threeNotificationsRun 0 1).state after).invokedFor ['e']).filter
        (fun call => call.job = 2) = [⟨2, ['e'], listener, ['3']⟩] := by
  obtain ⟨middle, hbefore, hround, hidle, hqueue⟩ : ∃ middle : State 2 Unit,
      exec step listening (threeNotifications 0 1) = some middle ∧
        exec step middle [.unsubscribe ['f']] = some middle ∧
        (∀ worker, middle.pool.worker worker = none) ∧ middle.pool.queue = [] :=
    ⟨_, rfl, rfl, by decide, rfl⟩
  have hstart : (threeNotificationsRun 0 1).Fair
      fun action => ∃ worker, action = .start worker := by
    apply Endless.fair_of_disabled hbefore hround (by decide)
    rintro _ ⟨worker, rfl⟩
    simp [step, WorkerPool.start, hqueue]
  have hrun : ∀ worker, (threeNotificationsRun 0 1).Fair fun action => action = .run worker := by
    intro worker
    apply Endless.fair_of_disabled hbefore hround (by decide)
    rintro _ rfl
    simp [step, hidle]
  have hkeeps : ∀ moment action, (threeNotificationsRun 0 1).action moment = some action →
      KeepsSubscription ['e'] ((threeNotificationsRun 0 1).state moment) action := by
    intro moment action haction
    obtain ⟨hscheduled, _⟩ := Endless.mem_of_action (by decide) haction
    rcases List.mem_append.mp hscheduled with hnotifications | hround
    · cases action with
      | subscribe | unsubscribe => simp [threeNotifications] at hnotifications
      | inbound | submitOther | start | run => trivial
    · obtain rfl := List.mem_singleton.mp hround
      have hkey : getKeyFromEvent ['f'] = ['f'] := by decide
      simp only [KeepsSubscription, unsubscribe, hkey]
      split
      · rfl
      · rw [StdMap.lookup_erase_of_eq_or_ne, if_neg (by decide)]
  exact notified_of_fair (by decide) rfl (by decide) hkeeps hstart hrun rfl

end FireboltTransport.Delivery
