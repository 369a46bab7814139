/-
# Every job of the gateway's pool is done

The workers that run asynchronous calls wait for replies, and so do those whose jobs have
called their users back, when the callbacks make calls.  The replies are jobs of the same
pool, so all workers may be waiting for what is behind them in the queue.  The watchdog is
not a job: it ends the calls one after the other, and the pool goes on.  In a run without
end that treats every thread fairly, each job that is submitted, whatever it is and however
many are submitted before and after it, is started in its turn and returns.

The critical sections of the client are steps here.  That its threads get to them is shown
elsewhere for runs in which no reply finds a call that is answered already, and this is
asked of the replies that are on a worker.  `Send` and `SendResponse` are taken to get the
lock of the transport, which a clash of identifiers leaves locked, and the callbacks of the
users to return after finitely many calls.
-/

import FireboltTransport.Gateway.Deadlock
import FireboltTransport.Gateway.Returns
import FireboltTransport.Gateway.Starvation
import FireboltTransport.Semantics.PoolFairness

namespace FireboltTransport.Client

open Semantics

universe u

variable {ι : Type u} [DecidableEq ι] {state next : State ι} {action : Action ι} {call : ι}

/-- How many steps the call takes until its message is sent. -/
def Phase.unsent : Phase → ℕ
  | .idle => 4
  | .drawn _ => 3
  | .created => 2
  | .inserted => 1
  | .waiting | .woken | .erased | .checked _ | .notConnected | .failed _ | .returned _ => 0

theorem unsent_eq_zero_iff {phase : Phase} :
    phase.unsent = 0 ↔ phase.hasSent = true ∨ phase.isOver = true := by
  cases phase <;> simp [Phase.unsent, Phase.hasSent, Phase.isOver]

theorem unsent_step (hstep : Step state action next) (hactor : action.actor = some call)
    (hunsent : (state.phase call).unsent ≠ 0) :
    (next.phase call).unsent < (state.phase call).unsent := by
  cases hstep with
  | refuse actor hphase | draw actor channel hphase | create actor id hphase
  | insert actor hphase | send actor hphase | sendFailed actor result hphase =>
      obtain rfl : actor = call := Option.some.inj hactor
      simp [State.setPhase, hphase, Phase.unsent]
  | wake actor hphase | erase actor hphase | check actor hphase | readResponse actor hphase
  | readError actor hphase =>
      obtain rfl : actor = call := Option.some.inj hactor
      simp [hphase, Phase.unsent] at hunsent
  | setTransport | tick | ignore | response | sample | collect | mark | sleep => cases hactor

theorem unsent_of_ending (hstep : Step state action next) (hending : action.ending = some call) :
    (state.phase call).unsent = 0 := by
  cases hstep with
  | wake actor hphase | erase actor hphase | check actor hphase | readResponse actor hphase
  | readError actor hphase =>
      obtain rfl : actor = call := Option.some.inj hending
      rw [hphase]
      rfl
  | setTransport | tick | refuse | draw | create | insert | send | sendFailed | ignore | response
  | sample | collect | mark | sleep => cases hending

/-- A call that has not sent its message can go on. -/
theorem exists_step_of_unsent (hunsent : (state.phase call).unsent ≠ 0) :
    ∃ action : Action ι, action.actor = some call ∧ ∃ next, Step state action next := by
  cases hphase : state.phase call with
  | idle =>
      cases htransport : state.transport with
      | none => exact ⟨.draw call, rfl, _, .refuse call hphase htransport⟩
      | some channel => exact ⟨.draw call, rfl, _, .draw call channel hphase htransport⟩
  | drawn id => exact ⟨.create call, rfl, _, .create call id hphase⟩
  | created => exact ⟨.insert call, rfl, _, .insert call hphase⟩
  | inserted => exact ⟨.send call .none, rfl, _, .send call hphase⟩
  | waiting | woken | erased | checked | notConnected | failed | returned =>
      simp [hphase, Phase.unsent] at hunsent

/-- A call that is over takes no step. -/
theorem actor_ne_of_isOver (hstep : Step state action next)
    (hover : (state.phase call).isOver = true) : action.actor ≠ some call := by
  intro hactor
  cases hstep with
  | refuse actor hphase | draw actor channel hphase | create actor id hphase
  | insert actor hphase | send actor hphase | sendFailed actor result hphase
  | wake actor hphase | erase actor hphase | check actor hphase | readResponse actor hphase
  | readError actor hphase =>
      obtain rfl : actor = call := Option.some.inj hactor
      simp [hphase, Phase.isOver] at hover
  | setTransport | tick | ignore | response | sample | collect | mark | sleep => cases hactor

theorem isOver_step (hstep : Step state action next) (hover : (state.phase call).isOver = true) :
    (next.phase call).isOver = true := by
  rw [phase_step hstep (actor_ne_of_isOver hstep hover)]
  exact hover

theorem ending_of_unsent (hstep : Step state action next) (hactor : action.actor = some call)
    (hunsent : (state.phase call).unsent = 0) : action.ending = some call := by
  rcases unsent_eq_zero_iff.mp hunsent with hsent | hover
  · exact ending_of_actor hstep hactor hsent
  · exact absurd hactor (actor_ne_of_isOver hstep hover)

/-- A call that is woken has been answered. -/
theorem ready_of_woken_step (hready : ∀ call, state.phase call = .woken →
      (state.caller call).ready = true) (hstep : Step state action next) (call : ι)
    (hwoken : next.phase call = .woken) : (next.caller call).ready = true := by
  by_cases hactor : action.actor = some call
  · cases hstep with
    | wake actor hphase hset =>
        obtain rfl : actor = call := Option.some.inj hactor
        exact hset
    | refuse actor | draw actor | create actor | insert actor | send actor | sendFailed actor
    | erase actor | check actor | readResponse actor | readError actor =>
        obtain rfl : actor = call := Option.some.inj hactor
        simp [State.setPhase] at hwoken
    | setTransport | tick | ignore | response | sample | collect | mark | sleep => cases hactor
  · rw [phase_step hstep hactor] at hwoken
    exact ready_step hstep (by simp [hwoken]) (hready call hwoken)

end FireboltTransport.Client

namespace FireboltTransport.Workers

open Semantics

variable {n : ℕ} {ι : Type}

/-! ## What the pool and the client see of a run -/

/-- What the step does to the pool. -/
def Action.onPool : Action n ι → Option (PoolAction n (Job ι))
  | .invoke call => some (.submit (.async call))
  | .submit message => some (.submit (.communication message))
  | .start worker => some (.start worker)
  | .dispatch worker | .finish worker => some (.finish worker)
  | .begin _ | .client _ | .callback _ | .request _ _ | .resume _ | .respond _ => none

/-- What `GatewayImpl::Receive` passes on to the client. -/
def Job.reply : Job ι → Option Message
  | .async _ => none
  | .communication message => if message.designator.isSet then none else some message

/-- The reply that is on a worker. -/
def State.reply (state : State n ι) (worker : Fin n) : Option Message :=
  (state.pool.worker worker).bind Job.reply

/-- What the step does to the client. -/
def Action.onClient (state : State n ι) : Action n ι → Option (Client.Action ι)
  | .client action => some action
  | .begin call => some (.draw call)
  | .dispatch worker => (state.reply worker).map .response
  | _ => none

theorem reply_eq_some {state : State n ι} {worker : Fin n} {message : Message} :
    state.reply worker = some message ↔
      state.pool.worker worker = some (.communication message) ∧
        message.designator.isSet = false := by
  cases hjob : state.pool.worker worker with
  | none => simp [State.reply, hjob]
  | some job =>
      cases job with
      | async call => simp [State.reply, hjob, Job.reply]
      | communication received =>
          simp only [State.reply, hjob, Option.bind_some, Job.reply, Option.some.injEq,
            Job.communication.injEq]
          constructor
          · intro hreply
            split_ifs at hreply with hset
            obtain rfl := Option.some.inj hreply
            exact ⟨rfl, Bool.eq_false_iff.mpr hset⟩
          · rintro ⟨rfl, hset⟩
            simp [hset]

variable [DecidableEq ι]

section Step

variable {state next : State n ι} {action : Action n ι} {worker : Fin n}

omit [DecidableEq ι] in
theorem exists_job_of_returns (hreturns : state.returns worker = true) :
    ∃ job, state.pool.worker worker = some job := by
  cases hjob : state.pool.worker worker with
  | none => simp [State.returns, hjob] at hreturns
  | some job => exact ⟨job, rfl⟩

theorem onPool_step (hstep : Step state action next) {moved : PoolAction n (Job ι)}
    (hmoved : action.onPool = some moved) : state.pool.act moved = some next.pool := by
  cases hstep with
  | invoke | submit =>
      obtain rfl := Option.some.inj hmoved
      rfl
  | start worker pool hstart =>
      obtain rfl := Option.some.inj hmoved
      exact hstart
  | serve worker message hworker | reply worker message client hworker =>
      obtain rfl := Option.some.inj hmoved
      exact Option.map_eq_some_iff.mpr ⟨_, hworker, rfl⟩
  | finish worker hreturns =>
      obtain rfl := Option.some.inj hmoved
      obtain ⟨job, hworker⟩ := exists_job_of_returns hreturns
      exact Option.map_eq_some_iff.mpr ⟨_, hworker, rfl⟩
  | begin | client | call | succeed | request | resume | respond => cases hmoved

theorem offPool_step (hstep : Step state action next) (hunmoved : action.onPool = none) :
    next.pool = state.pool := by
  cases hstep with
  | begin | client | call | succeed | request | resume | respond => rfl
  | invoke | submit | start | serve | reply | finish => cases hunmoved

theorem onClient_step (hstep : Step state action next) {taken : Client.Action ι}
    (htaken : action.onClient state = some taken) :
    Client.step state.client taken = some next.client := by
  cases hstep with
  | begin call client hnew hclient =>
      obtain rfl := Option.some.inj htaken
      exact Client.step_of_cases hclient
  | client action client hpermits hclient =>
      obtain rfl := Option.some.inj htaken
      exact Client.step_of_cases hclient
  | serve worker message hworker hstage hdesignator =>
      simp [Action.onClient, State.reply, hworker, Job.reply, hdesignator] at htaken
  | reply worker message client hworker hstage hdesignator hclient =>
      rw [Action.onClient, reply_eq_some.mpr ⟨hworker, hdesignator⟩, Option.map_some] at htaken
      obtain rfl := Option.some.inj htaken
      exact Client.step_of_cases hclient
  | invoke | submit | start | call | succeed | request | resume | respond | finish => cases htaken

theorem offClient_step (hstep : Step state action next)
    (huntaken : action.onClient state = none) : next.client = state.client := by
  cases hstep with
  | begin | client => cases huntaken
  | reply worker message client hworker hstage hdesignator hclient =>
      simp [Action.onClient, reply_eq_some.mpr ⟨hworker, hdesignator⟩] at huntaken
  | _ => rfl

end Step

/-- The run as the pool sees it. -/
def poolRun (run : Endless (step (n := n) (ι := ι))) :
    Endless (WorkerPool.act (n := n) (J := Job ι)) :=
  run.project State.pool (fun _ action => action.onPool)
    (fun _ _ _ haction hmoved => onPool_step (step_cases (run.taken haction)) hmoved)
    (fun _ _ haction hunmoved => offPool_step (step_cases (run.taken haction)) hunmoved)

/-- The run as the client sees it. -/
def clientRun (run : Endless (step (n := n) (ι := ι))) : Endless (Client.step (ι := ι)) :=
  run.project State.client (fun state action => action.onClient state)
    (fun _ _ _ haction hseen => onClient_step (step_cases (run.taken haction)) hseen)
    (fun _ _ haction hunseen => offClient_step (step_cases (run.taken haction)) hunseen)

/-! ## How far the job of a worker is -/

namespace State

/-- The job of the worker has called its user back, and the callback has not returned. -/
def InCallback (state : State n ι) (worker : Fin n) : Prop :=
  ∃ job, state.pool.worker worker = some job ∧
    (state.stage worker = .callback ∨ ∃ call, state.stage worker = .requests call)

/-- The job of the worker is in `SendResponse`. -/
def Responds (state : State n ι) (worker : Fin n) : Prop :=
  ∃ job, state.pool.worker worker = some job ∧ state.stage worker = .responds

end State

section Step

variable {state next : State n ι} {action : Action n ι} {worker : Fin n} {call : ι} {job : Job ι}

theorem isOver_step (hstep : Step state action next)
    (hover : (state.client.phase call).isOver = true) :
    (next.client.phase call).isOver = true := by
  rcases client_step hstep with hsame | ⟨taken, hclient⟩
  · rw [hsame]
    exact hover
  · exact Client.isOver_step hclient hover

theorem isNew_of_begin (hstep : Step state (.begin call) next) : state.IsNew call := by
  cases hstep with
  | begin _ client hnew => exact hnew

/-- What a step does to a worker that runs a job. -/
inductive WorkerStep (state next : State n ι) (action : Action n ι) (worker : Fin n) (job : Job ι) :
    Prop
  | other (haction : action.worker ≠ some worker) (hjob : next.pool.worker worker = some job)
      (hstage : next.stage worker = state.stage worker)
  | dispatch (haction : action = .dispatch worker) (hbefore : state.stage worker = .own)
      (hfree : next.pool.worker worker = none)
  | finish (haction : action = .finish worker) (hreturns : state.returns worker = true)
      (hfree : next.pool.worker worker = none)
  | callback (haction : action = .callback worker) (hbefore : state.stage worker = .own)
      (hjob : next.pool.worker worker = some job) (hstage : next.stage worker = .callback)
  | request (call : ι) (haction : action = .request worker call)
      (hbefore : state.stage worker = .callback) (hjob : next.pool.worker worker = some job)
      (hstage : next.stage worker = .requests call)
  | resume (call : ι) (haction : action = .resume worker)
      (hbefore : state.stage worker = .requests call) (hjob : next.pool.worker worker = some job)
      (hstage : next.stage worker = .callback)
  | respond (haction : action = .respond worker) (hbefore : state.stage worker = .callback)
      (hjob : next.pool.worker worker = some job) (hstage : next.stage worker = .responds)

theorem workerStep_of_step (hstep : Step state action next)
    (hworker : state.pool.worker worker = some job) : WorkerStep state next action worker job := by
  by_cases hacting : action.worker = some worker
  · cases hstep with
    | invoke | submit | begin | client => cases hacting
    | start acting pool hstart =>
        obtain rfl : acting = worker := Option.some.inj hacting
        obtain ⟨_, _, hfree, _⟩ := WorkerPool.start_eq_some.mp hstart
        cases hworker.symm.trans hfree
    | serve acting message _ hown | reply acting message client _ hown =>
        obtain rfl : acting = worker := Option.some.inj hacting
        exact .dispatch rfl hown (Function.update_self _ _ _)
    | call acting message mutex _ hown | succeed acting made _ hown =>
        obtain rfl : acting = worker := Option.some.inj hacting
        exact .callback rfl hown hworker (Function.update_self _ _ _)
    | request acting made _ _ hbefore =>
        obtain rfl : acting = worker := Option.some.inj hacting
        exact .request made rfl hbefore hworker (Function.update_self _ _ _)
    | resume acting made hbefore =>
        obtain rfl : acting = worker := Option.some.inj hacting
        exact .resume made rfl hbefore hworker (Function.update_self _ _ _)
    | respond acting message _ hbefore =>
        obtain rfl : acting = worker := Option.some.inj hacting
        exact .respond rfl hbefore hworker (Function.update_self _ _ _)
    | finish acting hreturns =>
        obtain rfl : acting = worker := Option.some.inj hacting
        exact .finish rfl hreturns (Function.update_self _ _ _)
  · obtain ⟨hjob, hstage⟩ := frame_step hstep hacting
    exact .other hacting (hjob.trans hworker) hstage

/-- A job that has called nobody back ends, or calls its user back. -/
theorem own_step (hstep : Step state action next) (hworker : state.pool.worker worker = some job)
    (hown : state.stage worker = .own) :
    (next.pool.worker worker = some job ∧ next.stage worker = .own ∧
      action ≠ .dispatch worker ∧ action ≠ .callback worker ∧ action ≠ .finish worker) ∨
      next.pool.worker worker = none ∨ next.InCallback worker := by
  cases workerStep_of_step hstep hworker with
  | other haction hjob hstage =>
      refine .inl ⟨hjob, hstage.trans hown, ?_, ?_, ?_⟩ <;>
        · rintro rfl
          exact haction rfl
  | dispatch _ _ hfree | finish _ _ hfree => exact .inr (.inl hfree)
  | callback _ _ hjob hstage => exact .inr (.inr ⟨job, hjob, .inl hstage⟩)
  | request _ _ hbefore | resume _ _ hbefore | respond _ hbefore =>
      cases hown.symm.trans hbefore

/-- A callback makes calls, and returns. -/
theorem inCallback_step (hstep : Step state action next) (hin : state.InCallback worker) :
    (next.InCallback worker ∧ action ≠ .respond worker ∧ action ≠ .finish worker) ∨
      next.pool.worker worker = none ∨ next.Responds worker := by
  obtain ⟨job, hworker, hstages⟩ := hin
  cases workerStep_of_step hstep hworker with
  | other haction hjob hstage =>
      refine .inl ⟨⟨job, hjob, ?_⟩, ?_, ?_⟩
      · rw [hstage]
        exact hstages
      · rintro rfl
        exact haction rfl
      · rintro rfl
        exact haction rfl
  | dispatch _ hown | callback _ hown => simp [hown] at hstages
  | finish _ _ hfree => exact .inr (.inl hfree)
  | request made haction _ hjob hstage =>
      exact .inl ⟨⟨job, hjob, .inr ⟨made, hstage⟩⟩, by simp [haction]⟩
  | resume _ haction _ hjob hstage => exact .inl ⟨⟨job, hjob, .inl hstage⟩, by simp [haction]⟩
  | respond _ _ hjob hstage => exact .inr (.inr ⟨job, hjob, hstage⟩)

/-- `SendResponse` is the last that a job does. -/
theorem responds_step (hstep : Step state action next) (hin : state.Responds worker) :
    (next.Responds worker ∧ action ≠ .finish worker) ∨ next.pool.worker worker = none := by
  obtain ⟨job, hworker, hresponds⟩ := hin
  cases workerStep_of_step hstep hworker with
  | other haction hjob hstage =>
      refine .inl ⟨⟨job, hjob, hstage.trans hresponds⟩, ?_⟩
      rintro rfl
      exact haction rfl
  | dispatch _ _ hfree | finish _ _ hfree => exact .inr hfree
  | callback _ hbefore | request _ _ hbefore | resume _ _ hbefore | respond _ hbefore =>
      cases hresponds.symm.trans hbefore

/-- A callback that has made a call goes on when the call returns to it. -/
theorem made_step (hstep : Step state action next) (hworker : state.pool.worker worker = some job)
    (hmade : state.stage worker = .requests call) :
    (next.pool.worker worker = some job ∧ next.stage worker = .requests call ∧
      action ≠ .resume worker) ∨
      (next.pool.worker worker = some job ∧ next.stage worker = .callback) := by
  cases workerStep_of_step hstep hworker with
  | other haction hjob hstage =>
      refine .inl ⟨hjob, hstage.trans hmade, ?_⟩
      rintro rfl
      exact haction rfl
  | resume _ _ _ hjob hstage => exact .inr ⟨hjob, hstage⟩
  | finish _ hreturns => cases job <;> simp [State.returns, hworker, hmade] at hreturns
  | dispatch _ hbefore | callback _ hbefore | request _ _ hbefore | respond _ hbefore =>
      cases hmade.symm.trans hbefore

omit [DecidableEq ι] in
/-- The job of a worker ends when its message is dispatched or when it returns. -/
theorem eq_dispatch_or_finish (hmoved : action.onPool = some (.finish worker)) :
    action = .dispatch worker ∨ action = .finish worker := by
  cases action with
  | dispatch other =>
      obtain rfl := PoolAction.finish.inj (Option.some.inj hmoved)
      exact .inl rfl
  | finish other =>
      obtain rfl := PoolAction.finish.inj (Option.some.inj hmoved)
      exact .inr rfl
  | invoke | submit | begin | start | client | callback | request | resume | respond => cases hmoved

omit [DecidableEq ι] in
theorem eq_start (hmoved : action.onPool = some (.start worker)) : action = .start worker := by
  cases action with
  | start other =>
      obtain rfl := PoolAction.start.inj (Option.some.inj hmoved)
      rfl
  | invoke | submit | begin | client | dispatch | callback | request | resume | respond | finish =>
      cases hmoved

end Step

/-! ## No worker is busy for ever -/

/-- The threads of the workers, of the calls and of the watchdog are treated fairly. -/
structure TreatedFairly (run : Endless (step (n := n) (ι := ι))) : Prop where
  start : run.Fair fun action => ∃ worker, action = .start worker
  /-- A message that finds the mutex of its table free again and again is received. -/
  receive : ∀ worker, run.StronglyFair fun action =>
    action = .dispatch worker ∨ action = .callback worker
  /-- A callback that can return again and again, between the calls that it makes, does. -/
  callback : ∀ worker, run.StronglyFair fun action =>
    action = .respond worker ∨ action = .finish worker
  /-- The job of a call that is over returns, and so does one in `SendResponse`: it gets the lock
  of the transport. -/
  finish : ∀ worker, run.Fair fun action => action = .finish worker
  resume : ∀ worker, run.Fair fun action => action = .resume worker
  /-- The thread of a call goes on, and `Send` gets the lock of the transport. -/
  call : ∀ call, run.Fair fun action => ∃ taken, action = .client taken ∧ taken.actor = some call
  watchdog : run.Fair fun action => ∃ taken, action = .client taken ∧ taken.isWatchdog = true

/-- The replies that are on workers find no call that is answered and has still to erase its
entry. -/
def FindsUnanswered (state : State n ι) : Prop :=
  ∀ worker, ∀ message ∈ state.reply worker,
    ∀ call ∈ state.client.queue.lookup message.id.value, ClientLocks.Unanswered state.client call

instance (state : State n ι) : Decidable (FindsUnanswered state) :=
  inferInstanceAs (Decidable (∀ worker, ∀ message ∈ state.reply worker, _))

/-- What holds in a run that never inserts a call under the identifier of another. -/
structure Sound (state : State n ι) : Prop where
  wf : WellFormed state
  client : Client.WellFormed state.client
  separated : Client.Separated state.client
  woken_ready : ∀ call, state.client.phase call = .woken → (state.client.caller call).ready = true

/-- A reply can then be handled at any time. -/
theorem isSome_dispatch {state : State n ι} (hsound : Sound state) (hfinds : FindsUnanswered state)
    {worker : Fin n} {message : Message}
    (hworker : state.pool.worker worker = some (.communication message))
    (hown : state.stage worker = .own) (hdesignator : message.designator.isSet = false) :
    (step state (.dispatch worker)).isSome = true := by
  obtain ⟨client, hclient⟩ := Client.exists_response message fun call hlookup hwoken => by
    rcases hfinds worker message (reply_eq_some.mpr ⟨hworker, hdesignator⟩) call hlookup with
      hready | ⟨status, hfailed⟩
    · rw [hsound.woken_ready call hwoken] at hready
      cases hready
    · rw [hwoken] at hfailed
      cases hfailed
  rw [step_of_cases (.reply worker message client hworker hown hdesignator hclient)]
  rfl

section Runs

variable {run : Endless (step (n := n) (ι := ι))} {worker : Fin n} {call : ι}

theorem step_of_action {moment : ℕ} {action : Action n ι}
    (haction : run.action moment = some action) :
    Step (run.state moment) action (run.state (moment + 1)) :=
  step_cases (run.taken haction)

/-! ### What the client's run has -/

/-- No call is inserted under the identifier of another registered call. -/
def InsertsUnused (run : Endless (step (n := n) (ι := ι))) : Prop :=
  ∀ moment taken, run.action moment = some (.client taken) →
    Client.InsertsUnusedId (run.state moment).client taken

theorem insertsUnusedId_clientRun (hunused : InsertsUnused run) (moment : ℕ)
    (taken : Client.Action ι) (htaken : (clientRun run).action moment = some taken) :
    Client.InsertsUnusedId ((clientRun run).state moment) taken := by
  obtain ⟨action, haction, hseen⟩ := Option.bind_eq_some_iff.mp htaken
  cases action with
  | client action =>
      obtain rfl := Option.some.inj hseen
      exact hunused moment action haction
  | begin call =>
      obtain rfl := Option.some.inj hseen
      trivial
  | dispatch worker =>
      obtain ⟨message, _, rfl⟩ := Option.map_eq_some_iff.mp hseen
      trivial
  | invoke | submit | start | callback | request | resume | respond | finish => cases hseen

theorem sound_of_insertsUnused {transport : Option Channel} {clock : Timestamp}
    (hstart : run.state 0 = initial transport clock) (hunused : InsertsUnused run) (moment : ℕ) :
    Sound (run.state moment) := by
  have hclient : (clientRun run).state 0 = Client.initial transport clock := by
    show (run.state 0).client = _
    rw [hstart]
    rfl
  obtain ⟨hwf, hseparated⟩ :=
    Client.sound_of_insertsUnusedId hclient (insertsUnusedId_clientRun hunused) moment
  refine ⟨?_, hwf, hseparated, ?_⟩
  · refine run.always_of_step (motive := WellFormed) ?_ ?_ moment (Nat.zero_le moment)
    · rw [hstart]
      exact wellFormed_initial transport clock
    · exact fun moment _ action haction hprior => hprior.step (step_of_action haction)
  · refine (clientRun run).always_of_step (motive := fun client => ∀ call,
      client.phase call = .woken → (client.caller call).ready = true) ?_ ?_ moment
      (Nat.zero_le moment)
    · rw [hclient]
      simp [Client.initial]
    · exact fun moment _ taken htaken hprior =>
        Client.ready_of_woken_step hprior (Client.step_of_action htaken)

theorem isSome_client {state : State n ι} {taken : Client.Action ι}
    (hpermits : state.Permits taken) (henabled : (Client.step state.client taken).isSome = true) :
    (step state (.client taken)).isSome = true := by
  obtain ⟨client, hclient⟩ := Option.isSome_iff_exists.mp henabled
  rw [step_of_cases (.client taken client hpermits (Client.step_cases hclient))]
  rfl

theorem watchdog_clientRun (hfair : TreatedFairly run) :
    (clientRun run).Fair fun taken => taken.isWatchdog = true := by
  refine Endless.Fair.project hfair.watchdog ?_ ?_
  · intro moment taken hwatchdog hpossible
    have hpermits : (run.state moment).Permits taken := by
      cases taken with
      | sample | collect | mark | sleep => simp [State.Permits, Client.Action.actor]
      | _ => cases hwatchdog
    exact ⟨.client taken, ⟨taken, rfl, hwatchdog⟩, isSome_client hpermits hpossible⟩
  · rintro moment _ _ _ ⟨taken, rfl, hwatchdog⟩ _ _
    exact ⟨taken, rfl, hwatchdog⟩

/-- A call that can take a step after its message is sent has been started. -/
theorem ending_clientRun (hsound : ∀ moment, Sound (run.state moment))
    (hfair : TreatedFairly run) (call : ι) :
    (clientRun run).Fair fun taken => taken.ending = some call := by
  have hsent : ∀ moment taken, taken.ending = some call →
      (Client.step (run.state moment).client taken).isSome = true →
        ((run.state moment).client.phase call).unsent = 0 := by
    intro moment taken hending hpossible
    obtain ⟨client, hclient⟩ := Option.isSome_iff_exists.mp hpossible
    exact Client.unsent_of_ending (Client.step_cases hclient) hending
  refine Endless.Fair.project (hfair.call call) ?_ ?_
  · intro moment taken hending hpossible
    have hactor := Client.actor_of_ending hending
    have hpermits : (run.state moment).Permits taken := by
      refine ⟨?_, ?_, ?_⟩
      · rintro message rfl
        cases hactor
      · intro other hother hqueued
        obtain rfl : call = other := Option.some.inj (hactor.symm.trans hother)
        have hunsent := hsent moment taken hending hpossible
        rw [(hsound moment).wf.queued_idle call hqueued] at hunsent
        cases hunsent
      · rintro other rfl
        cases hending
    exact ⟨.client taken, ⟨taken, rfl, hactor⟩, isSome_client hpermits hpossible⟩
  · rintro moment _ possible haction ⟨taken, rfl, hactor⟩ hending hpossible
    have hunsent := hsent moment possible hending hpossible
    have hstep := Client.step_cases (onClient_step (step_of_action haction) rfl)
    exact ⟨taken, rfl, Client.ending_of_unsent hstep hactor hunsent⟩

/-! ### The calls that workers are in -/

/-- The clock gets to where a call that waits is overdue. -/
def TimePasses (run : Endless (step (n := n) (ι := ι))) : Prop :=
  ∀ call moment, (run.state moment).client.phase call = .waiting →
    ∃ later ≥ moment, (run.state later).client.IsOverdue (run.state later).client.clock call

/-- A call that a worker is in sends its message, or ends without. -/
theorem unsent_leadsTo_sent (hsound : ∀ moment, Sound (run.state moment))
    (hfair : TreatedFairly run) (worker : Fin n) (call : ι) :
    run.LeadsTo
      (fun state => state.requests worker = some call ∧ (state.client.phase call).unsent ≠ 0)
      (fun state => (state.client.phase call).unsent = 0) := by
  refine .of_fair (hfair.call call) (fun state => (state.client.phase call).unsent) ?_ ?_
  · rintro moment ⟨hrequests, hunsent⟩ _
    obtain ⟨taken, hactor, client, hclient⟩ := Client.exists_step_of_unsent hunsent
    have hpermits : (run.state moment).Permits taken := by
      refine ⟨?_, ?_, ?_⟩
      · rintro message rfl
        cases hactor
      · intro other hother
        obtain rfl : call = other := Option.some.inj (hactor.symm.trans hother)
        exact (hsound moment).wf.requested_not_queued worker call hrequests
      · rintro other rfl
        obtain rfl : other = call := Option.some.inj hactor
        exact ⟨worker, hrequests⟩
    refine ⟨.client taken, ⟨taken, rfl, hactor⟩, ?_⟩
    rw [step_of_cases (.client taken client hpermits hclient)]
    rfl
  · rintro moment action haction ⟨hrequests, hunsent⟩
    have hstep := step_of_action haction
    have hover : ((run.state moment).client.phase call).isOver = false := by
      rw [Bool.eq_false_iff]
      exact fun hover => hunsent (Client.unsent_eq_zero_iff.mpr (.inr hover))
    have hkept : (run.state (moment + 1)).requests worker = some call := by
      obtain ⟨hjob, hstage⟩ := frame_step hstep (worker_ne_of_requests hstep hrequests hover)
      rw [requests_eq_some, hjob, hstage, ← requests_eq_some]
      exact hrequests
    by_cases hsent : ((run.state (moment + 1)).client.phase call).unsent = 0
    · exact .inl hsent
    · by_cases hown : ∃ taken, action = .client taken ∧ taken.actor = some call
      · obtain ⟨taken, rfl, hactor⟩ := hown
        have hless :=
          Client.unsent_step (Client.step_cases (onClient_step hstep rfl)) hactor hunsent
        exact .inr ⟨⟨hkept, hsent⟩, Nat.le_of_lt hless, fun _ => hless⟩
      · have hphase : (run.state (moment + 1)).client.phase call =
            (run.state moment).client.phase call := by
          apply phase_step hstep
          · rintro rfl
            exact (isNew_of_begin hstep).2.2 worker hrequests
          · exact fun taken htaken hactor => hown ⟨taken, htaken, hactor⟩
        exact .inr ⟨⟨hkept, hsent⟩, by rw [hphase], fun hhelpful => absurd hhelpful hown⟩

/-- A call that has sent its message comes to be over. -/
theorem exists_isOver_of_hasSent (hsound : ∀ moment, Sound (run.state moment))
    (hunused : InsertsUnused run) (hfair : TreatedFairly run) (htime : TimePasses run) {moment : ℕ}
    (hsent : ((run.state moment).client.phase call).hasSent = true) :
    ∃ later ≥ moment, ((run.state later).client.phase call).isOver = true := by
  have hcalls := ending_clientRun hsound hfair
  obtain ⟨later, hlater, outcome, hreturned⟩ :
      ∃ later ≥ moment, ∃ outcome, (run.state later).client.phase call = .returned outcome := by
    by_cases hwaiting : (run.state moment).client.phase call = .waiting
    · obtain ⟨later, hlater, hoverdue⟩ := htime call moment hwaiting
      show ∃ later ≥ moment, ∃ outcome,
        ((clientRun run).state later).phase call = .returned outcome
      exact Client.exists_returned
        (fun moment => ⟨(hsound moment).client, (hsound moment).separated⟩)
        (insertsUnusedId_clientRun hunused) (watchdog_clientRun hfair) hcalls hwaiting hlater
        hoverdue
    · exact Client.answered_leadsTo_returned (hcalls call) moment
        ⟨hsent, fun hphase => absurd hphase hwaiting⟩
  exact ⟨later, hlater, by rw [hreturned]; rfl⟩

/-- The call that a worker is in comes to be over. -/
theorem exists_isOver_of_requests (hsound : ∀ moment, Sound (run.state moment))
    (hunused : InsertsUnused run) (hfair : TreatedFairly run) (htime : TimePasses run) {moment : ℕ}
    (hrequests : (run.state moment).requests worker = some call) :
    ∃ later ≥ moment, ((run.state later).client.phase call).isOver = true := by
  obtain ⟨sent, hsent, hunsent⟩ :
      ∃ sent ≥ moment, ((run.state sent).client.phase call).unsent = 0 := by
    by_cases hunsent : ((run.state moment).client.phase call).unsent = 0
    · exact ⟨moment, Nat.le_refl moment, hunsent⟩
    · exact unsent_leadsTo_sent hsound hfair worker call moment ⟨hrequests, hunsent⟩
  rcases Client.unsent_eq_zero_iff.mp hunsent with hhasSent | hover
  · obtain ⟨later, hlater, hover⟩ := exists_isOver_of_hasSent hsound hunused hfair htime hhasSent
    exact ⟨later, hsent.trans hlater, hover⟩
  · exact ⟨sent, hsent, hover⟩

/-- And it stays over. -/
theorem isOver_later {moment later : ℕ} (hlater : moment ≤ later)
    (hover : ((run.state moment).client.phase call).isOver = true) :
    ((run.state later).client.phase call).isOver = true :=
  run.always_of_step (motive := fun state => (state.client.phase call).isOver = true) hover
    (fun _ _ _ haction => isOver_step (step_of_action haction)) later hlater

/-! ### The callbacks -/

/-- The call of a callback returns to it. -/
theorem made_leadsTo_callback (hsound : ∀ moment, Sound (run.state moment))
    (hunused : InsertsUnused run) (hfair : TreatedFairly run) (htime : TimePasses run)
    (job : Job ι) (call : ι) :
    run.LeadsTo
      (fun state => state.pool.worker worker = some job ∧ state.stage worker = .requests call)
      (fun state => state.pool.worker worker = some job ∧ state.stage worker = .callback) := by
  rintro moment ⟨hworker, hmade⟩
  obtain ⟨later, hlater, hover⟩ := exists_isOver_of_requests hsound hunused hfair htime
    (requests_eq_some.mpr (.inr ⟨job, hworker, hmade⟩))
  have hkept := Endless.kept_or_reached
    (fun state : State n ι => state.pool.worker worker = some job ∧
      state.stage worker = .requests call)
    (fun state => state.pool.worker worker = some job ∧ state.stage worker = .callback)
    ⟨hworker, hmade⟩
    (fun moment action haction ⟨hworker, hmade⟩ =>
      (made_step (step_of_action haction) hworker hmade).imp_left fun ⟨hjob, hstage, _⟩ =>
        ⟨hjob, hstage⟩)
  rcases hkept later hlater with ⟨hstill, hstays⟩ | hreached
  · have hresumes : run.LeadsTo
        (fun state => (state.pool.worker worker = some job ∧ state.stage worker = .requests call) ∧
          (state.client.phase call).isOver = true)
        (fun state => state.pool.worker worker = some job ∧ state.stage worker = .callback) := by
      refine .of_fair_once (hfair.resume worker) ?_ ?_
      · rintro moment ⟨⟨_, hstage⟩, hover⟩ _
        refine ⟨.resume worker, rfl, ?_⟩
        rw [step_of_cases (.resume worker call hstage hover)]
        rfl
      · rintro moment action haction ⟨⟨hjob, hstage⟩, hover⟩
        have hstep := step_of_action haction
        rcases made_step hstep hjob hstage with ⟨hsameJob, hsameStage, hother⟩ | hcallback
        · exact .inr ⟨⟨⟨hsameJob, hsameStage⟩, isOver_step hstep hover⟩, hother⟩
        · exact .inl hcallback
    obtain ⟨last, hlast, hcallback⟩ := hresumes later ⟨⟨hstill, hstays⟩, hover⟩
    exact ⟨last, hlater.trans hlast, hcallback⟩
  · exact hreached

/-- A callback returns. -/
theorem inCallback_leadsTo (hsound : ∀ moment, Sound (run.state moment))
    (hunused : InsertsUnused run) (hfair : TreatedFairly run) (htime : TimePasses run)
    (worker : Fin n) :
    run.LeadsTo (fun state => state.InCallback worker)
      (fun state => state.pool.worker worker = none ∨ state.Responds worker) := by
  refine .of_stronglyFair (hfair.callback worker) ?_ ?_
  · rintro moment ⟨job, hworker, hstages⟩
    obtain ⟨later, hlater, hjob, hstage⟩ : ∃ later ≥ moment,
        (run.state later).pool.worker worker = some job ∧
          (run.state later).stage worker = .callback := by
      rcases hstages with hstage | ⟨call, hmade⟩
      · exact ⟨moment, Nat.le_refl moment, hworker, hstage⟩
      · exact made_leadsTo_callback hsound hunused hfair htime job call moment ⟨hworker, hmade⟩
    refine ⟨later, hlater, .inr ?_⟩
    have hfinishes : (run.state later).returns worker = true →
        ∃ action, (action = .respond worker ∨ action = .finish worker) ∧
          (step (run.state later) action).isSome = true := fun hreturns =>
      ⟨.finish worker, .inr rfl, by rw [step_of_cases (.finish worker hreturns)]; rfl⟩
    cases job with
    | async call => exact hfinishes (by simp [State.returns, hjob, hstage])
    | communication message =>
        cases hid : message.id.isSet with
        | true =>
            refine ⟨.respond worker, .inl rfl, ?_⟩
            rw [step_of_cases (.respond worker message hjob hstage hid)]
            rfl
        | false => exact hfinishes (by simp [State.returns, hjob, hstage, hid])
  · intro moment action haction hin
    rcases inCallback_step (step_of_action haction) hin with ⟨hkept, hrespond, hfinish⟩ | hleft
    · exact .inr ⟨hkept, not_or.mpr ⟨hrespond, hfinish⟩⟩
    · exact .inl hleft

/-- `SendResponse` returns. -/
theorem responds_leadsTo_free (hfair : TreatedFairly run) (worker : Fin n) :
    run.LeadsTo (fun state => state.Responds worker)
      (fun state => state.pool.worker worker = none) := by
  refine .of_fair_once (hfair.finish worker) ?_ ?_
  · rintro moment ⟨job, hjob, hstage⟩ _
    refine ⟨.finish worker, rfl, ?_⟩
    rw [step_of_cases (.finish worker (by cases job <;> simp [State.returns, hjob, hstage]))]
    rfl
  · intro moment action haction hin
    exact (responds_step (step_of_action haction) hin).symm

/-- A job that has called its user back returns. -/
theorem inCallback_leadsTo_free (hsound : ∀ moment, Sound (run.state moment))
    (hunused : InsertsUnused run) (hfair : TreatedFairly run) (htime : TimePasses run)
    (worker : Fin n) :
    run.LeadsTo (fun state => state.InCallback worker)
      (fun state => state.pool.worker worker = none) :=
  (inCallback_leadsTo hsound hunused hfair htime worker).trans
    (.or (.of_imp fun _ => id) (responds_leadsTo_free hfair worker))

/-! ### The messages -/

/-- The mutex that a message waits for becomes free: the callback that holds it returns. -/
theorem exists_later_servable (hsound : ∀ moment, Sound (run.state moment))
    (hunused : InsertsUnused run) (hfair : TreatedFairly run) (htime : TimePasses run)
    (message : Message) (moment : ℕ) :
    ∃ later ≥ moment, (run.state later).IsServable message := by
  by_cases hservable : (run.state moment).IsServable message
  · exact ⟨moment, Nat.le_refl moment, hservable⟩
  · obtain ⟨mutex, hmutex, holder, hholds⟩ : ∃ mutex ∈ serverMutex message, ∃ holder,
        (run.state moment).serverHolds holder = some mutex := by
      simpa [State.IsServable] using hservable
    obtain ⟨received, hjob, hstage, _⟩ := serverHolds_eq_some.mp hholds
    obtain ⟨free, hfree, hnone⟩ : ∃ free ≥ moment,
        (run.state free).pool.worker holder = none := by
      cases hwhere : (run.state moment).stage holder with
      | own => exact absurd hwhere hstage
      | callback =>
          exact inCallback_leadsTo_free hsound hunused hfair htime holder moment
            ⟨_, hjob, .inl hwhere⟩
      | requests call =>
          exact inCallback_leadsTo_free hsound hunused hfair htime holder moment
            ⟨_, hjob, .inr ⟨call, hwhere⟩⟩
      | responds => exact responds_leadsTo_free hfair holder moment ⟨_, hjob, hwhere⟩
    -- The step with which the mutex is released takes it for nobody else.
    obtain ⟨last, hlast, hreleased, hkept⟩ := Endless.exists_last
      (fun state : State n ι => state.serverHolds holder = some mutex) hholds hfree
      (by simp [serverHolds_eq_some, hnone])
    have hheld := hkept last hlast (Nat.le_refl last)
    refine ⟨last + 1, Nat.le_succ_of_le hlast, ?_⟩
    intro wanted hwanted worker hworker
    obtain rfl : mutex = wanted := Option.some.inj (hmutex.symm.trans hwanted)
    cases haction : run.action last with
    | none =>
        rw [run.idle haction] at hreleased
        exact hreleased hheld
    | some action =>
        rcases serverHolds_step (step_of_action haction) hworker with hbefore | ⟨_, hnobody⟩
        · obtain rfl := (hsound last).wf.exclusive worker holder mutex hbefore hheld
          exact hreleased hworker
        · exact hnobody holder hheld

/-- A job that has called nobody back goes on as long as it has neither ended nor called back. -/
theorem own_kept_or_left {moment : ℕ} {job : Job ι}
    (hworker : (run.state moment).pool.worker worker = some job)
    (hown : (run.state moment).stage worker = .own) :
    ∀ later ≥ moment,
      ((run.state later).pool.worker worker = some job ∧ (run.state later).stage worker = .own) ∨
        ∃ reached ≥ moment, (run.state reached).pool.worker worker = none ∨
          (run.state reached).InCallback worker := by
  refine Endless.kept_or_reached
    (fun state : State n ι => state.pool.worker worker = some job ∧ state.stage worker = .own)
    (fun state => state.pool.worker worker = none ∨ state.InCallback worker) ⟨hworker, hown⟩ ?_
  rintro moment action haction ⟨hworker, hown⟩
  exact (own_step (step_of_action haction) hworker hown).imp_left fun ⟨hjob, hstage, _⟩ =>
    ⟨hjob, hstage⟩

/-- A message is received. -/
theorem communication_leadsTo (hsound : ∀ moment, Sound (run.state moment))
    (hunused : InsertsUnused run) (hfinds : ∀ moment, FindsUnanswered (run.state moment))
    (hfair : TreatedFairly run) (htime : TimePasses run) (message : Message) :
    run.LeadsTo
      (fun state => state.pool.worker worker = some (.communication message) ∧
        state.stage worker = .own)
      (fun state => state.pool.worker worker = none ∨ state.InCallback worker) := by
  refine .of_stronglyFair (hfair.receive worker) ?_ ?_
  · rintro moment ⟨hworker, hown⟩
    cases hdesignator : message.designator.isSet with
    | false =>
        refine ⟨moment, Nat.le_refl moment, .inr ⟨.dispatch worker, .inl rfl, ?_⟩⟩
        exact isSome_dispatch (hsound moment) (hfinds moment) hworker hown hdesignator
    | true =>
        obtain ⟨later, hlater, hservable⟩ :=
          exists_later_servable hsound hunused hfair htime message moment
        rcases own_kept_or_left hworker hown later hlater with
          ⟨hjob, hstage⟩ | ⟨reached, hreached, hleft⟩
        · refine ⟨later, hlater, .inr ⟨.dispatch worker, .inl rfl, ?_⟩⟩
          rw [step_of_cases (.serve worker message hjob hstage hdesignator hservable)]
          rfl
        · exact ⟨reached, hreached, .inl hleft⟩
  · rintro moment action haction ⟨hworker, hown⟩
    rcases own_step (step_of_action haction) hworker hown with
      ⟨hjob, hstage, hdispatch, hcallback, _⟩ | hleft
    · exact .inr ⟨⟨hjob, hstage⟩, not_or.mpr ⟨hdispatch, hcallback⟩⟩
    · exact .inl hleft

/-- An asynchronous job calls its user back when its call has succeeded, and returns otherwise. -/
theorem async_leadsTo (hsound : ∀ moment, Sound (run.state moment)) (hunused : InsertsUnused run)
    (hfair : TreatedFairly run) (htime : TimePasses run) (call : ι) :
    run.LeadsTo
      (fun state => state.pool.worker worker = some (.async call) ∧ state.stage worker = .own)
      (fun state => state.pool.worker worker = none ∨ state.InCallback worker) := by
  rintro moment ⟨hworker, hown⟩
  obtain ⟨later, hlater, hover⟩ := exists_isOver_of_requests hsound hunused hfair htime
    (requests_eq_some.mpr (.inl ⟨hworker, hown⟩))
  have hends : run.LeadsTo
      (fun state => (state.pool.worker worker = some (.async call) ∧ state.stage worker = .own) ∧
        (state.client.phase call).isOver = true)
      (fun state => state.pool.worker worker = none ∨ state.InCallback worker) := by
    refine .of_fair_once (hfair.finish worker) ?_ ?_
    · rintro moment ⟨⟨hjob, hstage⟩, hover⟩ _
      refine ⟨.finish worker, rfl, ?_⟩
      rw [step_of_cases (.finish worker (by simp [State.returns, hjob, hstage, hover]))]
      rfl
    · rintro moment action haction ⟨⟨hjob, hstage⟩, hover⟩
      have hstep := step_of_action haction
      rcases own_step hstep hjob hstage with ⟨hsameJob, hsameStage, _, _, hfinish⟩ | hleft
      · exact .inr ⟨⟨⟨hsameJob, hsameStage⟩, isOver_step hstep hover⟩, hfinish⟩
      · exact .inl hleft
  rcases own_kept_or_left hworker hown later hlater with hstill | hleft
  · obtain ⟨last, hlast, hgoal⟩ := hends later ⟨hstill, hover⟩
    exact ⟨last, hlater.trans hlast, hgoal⟩
  · exact hleft

/-- Each worker is free again and again. -/
theorem leadsTo_free (hsound : ∀ moment, Sound (run.state moment)) (hunused : InsertsUnused run)
    (hfinds : ∀ moment, FindsUnanswered (run.state moment)) (hfair : TreatedFairly run)
    (htime : TimePasses run) (worker : Fin n) :
    run.LeadsTo (fun _ => True) (fun state => state.pool.worker worker = none) := by
  intro moment _
  have hcallback := inCallback_leadsTo_free hsound hunused hfair htime worker
  have hends : run.LeadsTo (fun state => state.pool.worker worker = none ∨ state.InCallback worker)
      (fun state => state.pool.worker worker = none) := .or (.of_imp fun _ => id) hcallback
  cases hjob : (run.state moment).pool.worker worker with
  | none => exact ⟨moment, Nat.le_refl moment, hjob⟩
  | some job =>
      cases hstage : (run.state moment).stage worker with
      | own =>
          cases job with
          | async call =>
              exact ((async_leadsTo hsound hunused hfair htime call).trans hends) moment
                ⟨hjob, hstage⟩
          | communication message =>
              exact ((communication_leadsTo hsound hunused hfinds hfair htime message).trans
                hends) moment ⟨hjob, hstage⟩
      | callback => exact hcallback moment ⟨job, hjob, .inl hstage⟩
      | requests call => exact hcallback moment ⟨job, hjob, .inr ⟨call, hstage⟩⟩
      | responds => exact responds_leadsTo_free hfair worker moment ⟨job, hjob, hstage⟩

theorem start_poolRun (hfair : TreatedFairly run) :
    (poolRun run).Fair fun moved => moved.isStart = true := by
  refine Endless.Fair.project hfair.start ?_ ?_
  · intro moment moved hstarts hpossible
    cases moved with
    | start worker =>
        obtain ⟨pool, hpool⟩ := Option.isSome_iff_exists.mp hpossible
        exact ⟨.start worker, ⟨worker, rfl⟩, by rw [step_of_cases (.start worker pool hpool)]; rfl⟩
    | submit | finish => cases hstarts
  · rintro moment _ _ _ ⟨worker, rfl⟩ _ _
    exact ⟨.start worker, rfl, rfl⟩

end Runs

/-- **Every job is done.**  In every run without end that treats the threads fairly, where time
passes, no call is inserted under the identifier of another registered call and no reply is on a
worker while it finds a call that is answered already: the job that is submitted as the one of an
index, a call or a message, is started after as many others, and its worker runs it until it
returns.  Calls, those of callbacks included, may occupy all workers at a time, and the peer need
not answer them. -/
theorem done_of_fair {transport : Option Channel} {clock : Timestamp}
    {run : Endless (step (n := n) (ι := ι))} (hworkers : 0 < n)
    (hstart : run.state 0 = initial transport clock) (hunused : InsertsUnused run)
    (hfinds : ∀ moment, FindsUnanswered (run.state moment)) (hfair : TreatedFairly run)
    (htime : TimePasses run) {moment index : ℕ} {job : Job ι}
    (hsubmitted : (WorkerPool.submittedBy (poolRun run) moment)[index]? = some job) :
    ∃ started worker finished, started < finished ∧
      run.action started = some (.start worker) ∧
      WorkerPool.startedBy (poolRun run) started = index ∧
      (run.action finished = some (.dispatch worker) ∨
        run.action finished = some (.finish worker)) ∧
      ∀ between, started < between → between ≤ finished →
        (run.state between).pool.worker worker = some job := by
  have hsound := sound_of_insertsUnused hstart hunused
  have hempty : (poolRun run).state 0 = .empty := by
    show (run.state 0).pool = _
    rw [hstart]
    rfl
  obtain ⟨started, worker, finished, hless, hbegins, hturn, hends, hruns⟩ :=
    WorkerPool.started_in_turn hempty hworkers (start_poolRun hfair)
      (leadsTo_free hsound hunused hfinds hfair htime) hsubmitted
  obtain ⟨action, haction, hmoved⟩ := Option.bind_eq_some_iff.mp hbegins
  obtain ⟨last, hlast, hended⟩ := Option.bind_eq_some_iff.mp hends
  refine ⟨started, worker, finished, hless, ?_, hturn, ?_, hruns⟩
  · rw [haction, eq_start hmoved]
  · rcases eq_dispatch_or_finish hended with rfl | rfl
    · exact .inl hlast
    · exact .inr hlast

/-- The callback of a notification makes a call on the only worker, and waits for the reply that is
queued behind it, until the sweep. -/
def replyBehind (message : Message) : List (Action 1 Unit) :=
  [.submit notification, .start 0, .callback 0, .request 0 (), .client (.draw ()),
    .client (.create ()), .client (.insert ()), .client (.send () .none), .submit message,
    .client (.tick ⟨3004000000, by decide⟩), .client .sample, .client .collect, .client .mark,
    .client .sleep, .client (.wake ()), .client (.erase ()), .client (.check ()),
    .client (.read ()), .resume 0, .finish 0, .start 0, .dispatch 0]

/-- From then on the watchdog makes its rounds. -/
def watchdogRound : List (Action 1 Unit) := [.client .sample, .client .collect, .client .sleep]

def replyBehindRun : Endless (step (n := 1) (ι := Unit)) :=
  .follow step (initial (some .new) .zero)
    (Endless.cycle (replyBehind (.reply 1 ['a'])) watchdogRound (.client .sample))

section ReplyBehind

variable {middle : State 1 Unit}
  (hbefore : exec step (initial (some .new) .zero) (replyBehind (.reply 1 ['a'])) = some middle)
  (hround : exec step middle watchdogRound = some middle)
  (hphase : middle.client.phase () = .returned (.error .timedout))
  (hworker : middle.pool.worker 0 = none)

include hbefore hround hphase hworker

/-- The rounds of the watchdog leave the call and the worker alone. -/
theorem replyBehind_over : ∀ moment ≥ (replyBehind (.reply 1 ['a'])).length,
    (replyBehindRun.state moment).pool.worker 0 = none ∧
      (replyBehindRun.state moment).client.phase () = .returned (.error .timedout) := by
  refine Endless.always_of_round (motive := fun state => state.pool.worker 0 = none ∧
    state.client.phase () = .returned (.error .timedout)) (.client .sample) hbefore hround
    (by decide) ⟨hworker, hphase⟩ ?_
  rintro action hmember state next ⟨hfree, hreturned⟩ htaken
  obtain ⟨taken, rfl, hactor⟩ : ∃ taken, action = .client taken ∧ taken.actor = none := by
    simp only [watchdogRound, List.mem_cons, List.not_mem_nil, or_false] at hmember
    rcases hmember with rfl | rfl | rfl <;> exact ⟨_, rfl, rfl⟩
  have hstep := step_cases htaken
  rw [offPool_step hstep rfl, phase_step hstep (by simp)]
  · exact ⟨hfree, hreturned⟩
  · rintro other ⟨⟩
    simp [hactor]

/-- What needs a job is not possible any more. -/
theorem stronglyFair_replyBehindRun {helpful : Action 1 Unit → Prop}
    (hneeds : ∀ action, helpful action → ∃ worker, action = .dispatch worker ∨
      action = .callback worker ∨ action = .respond worker ∨ action = .finish worker) :
    replyBehindRun.StronglyFair helpful := by
  refine Endless.stronglyFair_of_never
    fun moment (hmoment : moment ≥ (replyBehind (.reply 1 ['a'])).length) action hhelpful => ?_
  have hfree := (replyBehind_over hbefore hround hphase hworker moment hmoment).1
  obtain ⟨worker, haction⟩ := hneeds action hhelpful
  obtain rfl : worker = 0 := Subsingleton.elim worker 0
  rcases haction with rfl | rfl | rfl | rfl <;> simp [step, State.returns, hfree]

theorem treatedFairly_replyBehindRun (hqueue : middle.pool.queue = [])
    (hstage : middle.stage 0 = .own) :
    TreatedFairly replyBehindRun where
  start := by
    apply Endless.fair_of_disabled hbefore hround (by decide)
    rintro _ ⟨worker, rfl⟩
    cases hworker : middle.pool.worker worker <;> simp [step, WorkerPool.start, hqueue, hworker]
  receive worker := by
    apply stronglyFair_replyBehindRun hbefore hround hphase hworker
    rintro _ (rfl | rfl) <;> exact ⟨worker, by simp⟩
  callback worker := by
    apply stronglyFair_replyBehindRun hbefore hround hphase hworker
    rintro _ (rfl | rfl) <;> exact ⟨worker, by simp⟩
  finish worker := by
    refine (stronglyFair_replyBehindRun hbefore hround hphase hworker ?_).fair
    rintro _ rfl
    exact ⟨worker, by simp⟩
  resume worker := by
    apply Endless.fair_of_disabled hbefore hround (by decide)
    rintro _ rfl
    obtain rfl : worker = 0 := Subsingleton.elim worker 0
    simp [step, hstage]
  call := by
    intro call
    apply Endless.fair_of_disabled hbefore hround (by decide)
    rintro _ ⟨taken, rfl, hactor⟩
    cases htaken : step middle (.client taken) with
    | none => rfl
    | some next =>
        cases step_cases htaken with
        | client _ _ _ hclient =>
            exact absurd hactor (Client.actor_ne_of_isOver hclient (by rw [hphase]; rfl))
  watchdog := Endless.fair_of_round hbefore hround (List.mem_cons_self ..) ⟨.sample, rfl, rfl⟩

theorem timePasses_replyBehindRun
    (hoverdue : middle.client.IsOverdue middle.client.clock ()) : TimePasses replyBehindRun := by
  intro call moment hwaiting
  have hlast := Endless.follow_cycle (.client .sample) hbefore hround 0
  rw [Nat.zero_mul, Nat.add_zero] at hlast
  have hlate : ∀ state : State 1 Unit, state = middle →
      state.client.IsOverdue state.client.clock call := by
    rintro _ rfl
    exact hoverdue
  refine ⟨(replyBehind (.reply 1 ['a'])).length, ?_, hlate _ hlast⟩
  by_contra hafter
  have hreturned :=
    (replyBehind_over hbefore hround hphase hworker moment (Nat.le_of_not_ge hafter)).2
  rw [hwaiting] at hreturned
  cases hreturned

end ReplyBehind

theorem done_of_fair_replyBehindRun :
    ∃ started worker finished, started < finished ∧
      replyBehindRun.action started = some (.start worker) ∧
      WorkerPool.startedBy (poolRun replyBehindRun) started = 1 ∧
      ∀ between, started < between → between ≤ finished →
        (replyBehindRun.state between).pool.worker worker =
          some (.communication (.reply 1 ['a'])) := by
  obtain ⟨middle, hbefore, hround, hphase, hworker, hstage, hqueue, hoverdue⟩ :
      ∃ middle : State 1 Unit,
      exec step (initial (some .new) .zero) (replyBehind (.reply 1 ['a'])) = some middle ∧
        exec step middle watchdogRound = some middle ∧
        middle.client.phase () = .returned (.error .timedout) ∧ middle.pool.worker 0 = none ∧
        middle.stage 0 = .own ∧ middle.pool.queue = [] ∧
        middle.client.IsOverdue middle.client.clock () :=
    ⟨_, rfl, rfl, rfl, rfl, rfl, rfl, by rw [Client.State.IsOverdue]; decide⟩
  have hunused : InsertsUnused replyBehindRun := fun moment taken haction =>
    Client.insertsUnusedId_of_subsingleton
      (Client.step_cases (onClient_step (step_of_action haction) rfl))
  have hmeets : Meets step (fun state _ => FindsUnanswered state)
      (initial (some .new) .zero : State 1 Unit)
      (replyBehind (.reply 1 ['a']) ++ watchdogRound) := by decide
  have hfinds : ∀ moment, FindsUnanswered (replyBehindRun.state moment) :=
    Endless.meets_of_round hbefore hround (by decide) hmeets
  have hfair := treatedFairly_replyBehindRun hbefore hround hphase hworker hqueue hstage
  have htime := timePasses_replyBehindRun hbefore hround hphase hworker hoverdue
  have hsubmitted : (WorkerPool.submittedBy (poolRun replyBehindRun) 9)[1]? =
      some (.communication (.reply 1 ['a'])) := rfl
  obtain ⟨started, worker, finished, hless, hstarted, hturn, _, hruns⟩ :=
    done_of_fair (by decide) rfl hunused hfinds hfair htime hsubmitted
  exact ⟨started, worker, finished, hless, hstarted, hturn, hruns⟩

end FireboltTransport.Workers
