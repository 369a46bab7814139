/-
# The worker pool that runs the gateway

Every message the transport receives becomes a `CommunicationJob` that hands the
message to `GatewayImpl::Receive`, and every `Async::Invoke` becomes a job that
makes a synchronous `Client::Request`.  Both go to the one pool of the accessor.
The state is the client together with that pool; the calls of application
threads are those that no job makes.

Jobs call their users back.  An asynchronous job does so after its call has
succeeded, the server half while it holds the mutex of its table, so that another
message for the same table waits.  A callback runs on the worker of its job and may
make further calls of `Request`, each of which keeps the worker until it is over.

The pool is third party.  It starts its jobs in the order of submission, and a job
occupies its worker until it returns.  A transport also submits a job that waits for
its link; while it runs there is no link that brings messages, and it is left out.
So are the locks of the transport and of `Async`, which others model: apart from the
calls that it makes, a callback returns.
-/

import FireboltTransport.Gateway.ClientInvariant
import FireboltTransport.Semantics.WorkerPool

namespace FireboltTransport.Client

/-- `Request` has returned. -/
def Phase.isOver : Phase → Bool
  | .notConnected | .failed _ | .returned _ => true
  | _ => false

/-- `Request` has returned `Error::None`. -/
def Phase.hasSucceeded : Phase → Bool
  | .returned (.response _) => true
  | _ => false

theorem isOver_of_hasSucceeded {phase : Phase} (hsucceeded : phase.hasSucceeded = true) :
    phase.isOver = true := by
  cases phase <;> simp_all [Phase.hasSucceeded, Phase.isOver]

end FireboltTransport.Client

namespace FireboltTransport.Workers

open Semantics

universe u

/-- What the pool runs. -/
inductive Job (ι : Type u)
  /-- `Async::Job`: the call it makes. -/
  | async (call : ι)
  /-- `Transport::CommunicationJob`: the message it received. -/
  | communication (message : Message)
  deriving DecidableEq

/-- The mutexes under which the server half calls its users back. -/
inductive ServerMutex
  | eventMapMtx
  | providersMtx
  deriving DecidableEq

/-- What `Server::Notify` or `Server::Request` locks for a message with a designator.  A request
for a method without a dot is dropped before. -/
def serverMutex (message : Message) : Option ServerMutex :=
  if message.id.isSet then
    if '.' ∈ message.designator.value then some .providersMtx else none
  else some .eventMapMtx

/-- How far the job of a worker is. -/
inductive Stage (ι : Type u)
  /-- An asynchronous job is in its own call; a message has not been received. -/
  | own
  /-- In the callback of the user. -/
  | callback
  /-- In a `Request` that the callback makes. -/
  | requests (call : ι)
  /-- The callback of a provider has returned, and `SendResponse` has not. -/
  | responds
  deriving DecidableEq

/-- The client and the pool with `n` threads. -/
structure State (n : ℕ) (ι : Type u) where
  client : Client.State ι
  pool : WorkerPool n (Job ι)
  /-- How far the jobs of the workers are. -/
  stage : Fin n → Stage ι

inductive Action (n : ℕ) (ι : Type u)
  /-- `Async::Invoke` submits the job that will make this call. -/
  | invoke (call : ι)
  /-- `Transport::Submit`. -/
  | submit (message : Message)
  /-- A thread outside of the pool makes this call. -/
  | begin (call : ι)
  /-- The pool hands its oldest job to this worker. -/
  | start (worker : Fin n)
  /-- A step of a call, of the watchdog or of the clock. -/
  | client (action : Client.Action ι)
  /-- The worker's communication job calls nobody back, and returns. -/
  | dispatch (worker : Fin n)
  /-- The worker's job calls its user back. -/
  | callback (worker : Fin n)
  /-- The callback makes this call. -/
  | request (worker : Fin n) (call : ι)
  /-- The call of the callback has returned to it. -/
  | resume (worker : Fin n)
  /-- The callback of a provider returns, and `SendResponse` is called. -/
  | respond (worker : Fin n)
  /-- The worker's job returns, an asynchronous one, after its callback or after `SendResponse`. -/
  | finish (worker : Fin n)
  deriving DecidableEq

variable {n : ℕ} {ι : Type u}

namespace State

/-- The call that the worker is in. -/
def requests (state : State n ι) (worker : Fin n) : Option ι :=
  match state.pool.worker worker, state.stage worker with
  | some (.async call), .own => some call
  | some _, .requests call => some call
  | _, _ => none

/-- The mutex of the server that the worker holds. -/
def serverHolds (state : State n ι) (worker : Fin n) : Option ServerMutex :=
  match state.pool.worker worker, state.stage worker with
  | some (.communication _), .own => none
  | some (.communication message), _ => serverMutex message
  | _, _ => none

/-- No worker holds what the server locks for the message. -/
def IsServable (state : State n ι) (message : Message) : Prop :=
  ∀ mutex ∈ serverMutex message, ∀ worker, state.serverHolds worker ≠ some mutex

instance (state : State n ι) (message : Message) : Decidable (state.IsServable message) :=
  inferInstanceAs (Decidable (∀ mutex ∈ serverMutex message, _))

/-- The job of the worker may return: an asynchronous call that is over without a callback, a
callback that has nothing to answer, or `SendResponse`. -/
def returns (state : State n ι) (worker : Fin n) : Bool :=
  match state.pool.worker worker, state.stage worker with
  | some (.async call), .own => (state.client.phase call).isOver
  | some (.async _), .callback => true
  | some (.communication message), .callback => !message.id.isSet
  | some _, .responds => true
  | _, _ => false

def setStage (state : State n ι) (worker : Fin n) (stage : Stage ι) : State n ι :=
  { state with stage := Function.update state.stage worker stage }

def finish (state : State n ι) (worker : Fin n) : State n ι :=
  { state with pool := state.pool.finish worker }

variable [DecidableEq ι]

/-- Nobody has made the call, and no job will. -/
def IsNew (state : State n ι) (call : ι) : Prop :=
  state.client.phase call = .idle ∧ ¬ state.pool.Holds (.async call) ∧
    ∀ worker, state.requests worker ≠ some call

instance (state : State n ι) (call : ι) : Decidable (state.IsNew call) :=
  inferInstanceAs (Decidable (_ ∧ _ ∧ _))

/-- The thread of a call takes a step only after the job that makes the call has been started; it
begins with its worker in the call.  Replies are handled by communication jobs only. -/
def Permits (state : State n ι) (action : Client.Action ι) : Prop :=
  (∀ message, action ≠ .response message) ∧
    (∀ call ∈ action.actor, .async call ∉ state.pool.queue) ∧
    ∀ call, action = .draw call → ∃ worker, state.requests worker = some call

instance (state : State n ι) (action : Client.Action ι) : Decidable (state.Permits action) :=
  have : Decidable (∀ message, action ≠ .response message) :=
    match action with
    | .response message => isFalse fun hall => hall message rfl
    | .setTransport _ | .tick _ | .draw _ | .create _ | .insert _ | .send _ _ | .wake _
    | .erase _ | .check _ | .read _ | .sample | .collect | .mark | .sleep => isTrue (by simp)
  have : Decidable (∀ call, action = .draw call → ∃ worker, state.requests worker = some call) :=
    match action with
    | .draw call =>
        decidable_of_iff (∃ worker, state.requests worker = some call)
          ⟨by rintro hworker _ ⟨⟩; exact hworker, fun hall => hall call rfl⟩
    | .response _ | .setTransport _ | .tick _ | .create _ | .insert _ | .send _ _ | .wake _
    | .erase _ | .check _ | .read _ | .sample | .collect | .mark | .sleep => isTrue (by simp)
  inferInstanceAs (Decidable (_ ∧ _ ∧ _))

end State

variable [DecidableEq ι]

/-- One step, or `none` when the label is not enabled. -/
def step (state : State n ι) : Action n ι → Option (State n ι)
  | .invoke call =>
      if state.IsNew call then some { state with pool := state.pool.submit (.async call) }
      else none
  | .submit message => some { state with pool := state.pool.submit (.communication message) }
  | .begin call =>
      if state.IsNew call then
        (Client.step state.client (.draw call)).map fun client => { state with client := client }
      else none
  | .start worker =>
      (state.pool.start worker).map fun pool => { state with pool := pool }.setStage worker .own
  | .client action =>
      if state.Permits action then
        (Client.step state.client action).map fun client => { state with client := client }
      else none
  | .dispatch worker =>
      match state.pool.worker worker, state.stage worker with
      | some (.communication message), .own =>
          -- `GatewayImpl::Receive`.
          if message.designator.isSet then
            if state.IsServable message then some (state.finish worker) else none
          else
            (Client.step state.client (.response message)).map fun client =>
              { state with client := client }.finish worker
      | _, _ => none
  | .callback worker =>
      match state.pool.worker worker, state.stage worker with
      | some (.communication message), .own =>
          if message.designator.isSet ∧ (serverMutex message).isSome ∧ state.IsServable message then
            some (state.setStage worker .callback)
          else none
      | some (.async call), .own =>
          if (state.client.phase call).hasSucceeded then some (state.setStage worker .callback)
          else none
      | _, _ => none
  | .request worker call =>
      if (state.pool.worker worker).isSome ∧ state.stage worker = .callback ∧ state.IsNew call then
        some (state.setStage worker (.requests call))
      else none
  | .resume worker =>
      match state.stage worker with
      | .requests call =>
          if (state.client.phase call).isOver then some (state.setStage worker .callback) else none
      | _ => none
  | .respond worker =>
      match state.pool.worker worker, state.stage worker with
      | some (.communication message), .callback =>
          if message.id.isSet then some (state.setStage worker .responds) else none
      | _, _ => none
  | .finish worker => if state.returns worker then some (state.finish worker) else none

/-- Nothing was called or received. -/
def initial (transport : Option Channel) (clock : Timestamp) : State n ι where
  client := Client.initial transport clock
  pool := .empty
  stage _ := .own

/-- The steps that workers and calls take by themselves: nothing is submitted and no call is
made anew, no transport changes, and the watchdog and the clock stand still. -/
def Action.isInternal : Action n ι → Bool
  | .start _ | .dispatch _ | .callback _ | .resume _ | .respond _ | .finish _ => true
  | .client action => action.actor.isSome
  | .invoke _ | .submit _ | .begin _ | .request _ _ => false

/-! ## What one step can do -/

/-- The steps of the client and its pool, as a relation. -/
inductive Step (state : State n ι) : Action n ι → State n ι → Prop
  | invoke (call : ι) (hnew : state.IsNew call) :
      Step state (.invoke call) { state with pool := state.pool.submit (.async call) }
  | submit (message : Message) :
      Step state (.submit message) { state with pool := state.pool.submit (.communication message) }
  | begin (call : ι) (client : Client.State ι) (hnew : state.IsNew call)
      (hclient : Client.Step state.client (.draw call) client) :
      Step state (.begin call) { state with client := client }
  | start (worker : Fin n) (pool : WorkerPool n (Job ι))
      (hstart : state.pool.start worker = some pool) :
      Step state (.start worker) ({ state with pool := pool }.setStage worker .own)
  | client (action : Client.Action ι) (client : Client.State ι) (hpermits : state.Permits action)
      (hclient : Client.Step state.client action client) :
      Step state (.client action) { state with client := client }
  | serve (worker : Fin n) (message : Message)
      (hworker : state.pool.worker worker = some (.communication message))
      (hstage : state.stage worker = .own) (hdesignator : message.designator.isSet = true)
      (hservable : state.IsServable message) :
      Step state (.dispatch worker) (state.finish worker)
  | reply (worker : Fin n) (message : Message) (client : Client.State ι)
      (hworker : state.pool.worker worker = some (.communication message))
      (hstage : state.stage worker = .own) (hdesignator : message.designator.isSet = false)
      (hclient : Client.Step state.client (.response message) client) :
      Step state (.dispatch worker) ({ state with client := client }.finish worker)
  | call (worker : Fin n) (message : Message) (mutex : ServerMutex)
      (hworker : state.pool.worker worker = some (.communication message))
      (hstage : state.stage worker = .own) (hdesignator : message.designator.isSet = true)
      (hmutex : serverMutex message = some mutex) (hservable : state.IsServable message) :
      Step state (.callback worker) (state.setStage worker .callback)
  | succeed (worker : Fin n) (call : ι) (hworker : state.pool.worker worker = some (.async call))
      (hstage : state.stage worker = .own)
      (hsucceeded : (state.client.phase call).hasSucceeded = true) :
      Step state (.callback worker) (state.setStage worker .callback)
  | request (worker : Fin n) (call : ι) (job : Job ι)
      (hworker : state.pool.worker worker = some job) (hstage : state.stage worker = .callback)
      (hnew : state.IsNew call) :
      Step state (.request worker call) (state.setStage worker (.requests call))
  | resume (worker : Fin n) (call : ι) (hstage : state.stage worker = .requests call)
      (hover : (state.client.phase call).isOver = true) :
      Step state (.resume worker) (state.setStage worker .callback)
  | respond (worker : Fin n) (message : Message)
      (hworker : state.pool.worker worker = some (.communication message))
      (hstage : state.stage worker = .callback) (hid : message.id.isSet = true) :
      Step state (.respond worker) (state.setStage worker .responds)
  | finish (worker : Fin n) (hreturns : state.returns worker = true) :
      Step state (.finish worker) (state.finish worker)

theorem step_cases {state next : State n ι} {action : Action n ι}
    (htaken : step state action = some next) : Step state action next := by
  cases action with
  | invoke call =>
      simp only [step] at htaken
      split_ifs at htaken with hnew
      obtain rfl := Option.some.inj htaken
      exact .invoke call hnew
  | submit message =>
      obtain rfl := Option.some.inj htaken
      exact .submit message
  | begin call =>
      simp only [step] at htaken
      split_ifs at htaken with hnew
      obtain ⟨client, hclient, rfl⟩ := Option.map_eq_some_iff.mp htaken
      exact .begin call client hnew (Client.step_cases hclient)
  | start worker =>
      obtain ⟨pool, hstart, rfl⟩ := Option.map_eq_some_iff.mp htaken
      exact .start worker pool hstart
  | client action =>
      simp only [step] at htaken
      split_ifs at htaken with hpermits
      obtain ⟨client, hclient, rfl⟩ := Option.map_eq_some_iff.mp htaken
      exact .client action client hpermits (Client.step_cases hclient)
  | dispatch worker =>
      simp only [step] at htaken
      split at htaken
      case h_1 message hworker hstage =>
          split_ifs at htaken with hdesignator hservable
          · obtain rfl := Option.some.inj htaken
            exact .serve worker message hworker hstage hdesignator hservable
          · obtain ⟨client, hclient, rfl⟩ := Option.map_eq_some_iff.mp htaken
            exact .reply worker message client hworker hstage (Bool.eq_false_iff.mpr hdesignator)
              (Client.step_cases hclient)
      case h_2 => cases htaken
  | callback worker =>
      simp only [step] at htaken
      split at htaken
      case h_1 message hworker hstage =>
          split_ifs at htaken with hguard
          obtain ⟨hdesignator, hsome, hservable⟩ := hguard
          obtain ⟨mutex, hmutex⟩ := Option.isSome_iff_exists.mp hsome
          obtain rfl := Option.some.inj htaken
          exact .call worker message mutex hworker hstage hdesignator hmutex hservable
      case h_2 call hworker hstage =>
          split_ifs at htaken with hsucceeded
          obtain rfl := Option.some.inj htaken
          exact .succeed worker call hworker hstage hsucceeded
      case h_3 => cases htaken
  | request worker call =>
      simp only [step] at htaken
      split_ifs at htaken with hguard
      obtain ⟨hsome, hstage, hnew⟩ := hguard
      obtain ⟨job, hworker⟩ := Option.isSome_iff_exists.mp hsome
      obtain rfl := Option.some.inj htaken
      exact .request worker call job hworker hstage hnew
  | resume worker =>
      simp only [step] at htaken
      split at htaken
      case h_1 call hstage =>
          split_ifs at htaken with hover
          obtain rfl := Option.some.inj htaken
          exact .resume worker call hstage hover
      case h_2 => cases htaken
  | respond worker =>
      simp only [step] at htaken
      split at htaken
      case h_1 message hworker hstage =>
          split_ifs at htaken with hid
          obtain rfl := Option.some.inj htaken
          exact .respond worker message hworker hstage hid
      case h_2 => cases htaken
  | finish worker =>
      simp only [step] at htaken
      split_ifs at htaken with hreturns
      obtain rfl := Option.some.inj htaken
      exact .finish worker hreturns

/-- The relation lists nothing that `step` does not do. -/
theorem step_of_cases {state next : State n ι} {action : Action n ι}
    (hstep : Step state action next) : step state action = some next := by
  cases hstep with
  | invoke call hnew => exact if_pos hnew
  | submit message => rfl
  | begin call client hnew hclient => simp [step, hnew, Client.step_of_cases hclient]
  | start worker pool hstart => simp [step, hstart]
  | client action client hpermits hclient =>
      simp [step, hpermits, Client.step_of_cases hclient]
  | serve worker message hworker hstage hdesignator hservable =>
      simp [step, hworker, hstage, hdesignator, hservable]
  | reply worker message client hworker hstage hdesignator hclient =>
      simp [step, hworker, hstage, hdesignator, Client.step_of_cases hclient]
  | call worker message mutex hworker hstage hdesignator hmutex hservable =>
      simp [step, hworker, hstage, hdesignator, hmutex, hservable]
  | succeed worker call hworker hstage hsucceeded => simp [step, hworker, hstage, hsucceeded]
  | request worker call job hworker hstage hnew => simp [step, hworker, hstage, hnew]
  | resume worker call hstage hover => simp [step, hstage, hover]
  | respond worker message hworker hstage hid => simp [step, hworker, hstage, hid]
  | finish worker hreturns => exact if_pos hreturns

/-! ## Workers and their jobs -/

/-- The worker that takes the step. -/
def Action.worker : Action n ι → Option (Fin n)
  | .start worker | .dispatch worker | .callback worker | .request worker _ | .resume worker
  | .respond worker | .finish worker => some worker
  | .invoke _ | .submit _ | .begin _ | .client _ => none

section Spec

variable {state next : State n ι} {action : Action n ι} {worker : Fin n}

omit [DecidableEq ι] in
theorem requests_eq_some {call : ι} : state.requests worker = some call ↔
    (state.pool.worker worker = some (.async call) ∧ state.stage worker = .own) ∨
      ∃ job, state.pool.worker worker = some job ∧ state.stage worker = .requests call := by
  unfold State.requests
  cases hjob : state.pool.worker worker with
  | none => simp
  | some job => cases job <;> cases hstage : state.stage worker <;> simp

omit [DecidableEq ι] in
theorem serverHolds_eq_some {mutex : ServerMutex} : state.serverHolds worker = some mutex ↔
    ∃ message, state.pool.worker worker = some (.communication message) ∧
      state.stage worker ≠ .own ∧ serverMutex message = some mutex := by
  unfold State.serverHolds
  cases hjob : state.pool.worker worker with
  | none => simp
  | some job => cases job <;> cases hstage : state.stage worker <;> simp

/-- A step leaves the jobs of the other workers where they are. -/
theorem frame_step (hstep : Step state action next) (hother : action.worker ≠ some worker) :
    next.pool.worker worker = state.pool.worker worker ∧
      next.stage worker = state.stage worker := by
  have hne : ∀ acting, action.worker = some acting → worker ≠ acting := by
    rintro acting hacting rfl
    exact hother hacting
  cases hstep with
  | invoke | submit | begin | client => exact ⟨rfl, rfl⟩
  | start acting pool hstart =>
      obtain ⟨_, _, _, _, rfl⟩ := WorkerPool.start_eq_some.mp hstart
      exact ⟨Function.update_of_ne (hne _ rfl) _ _, Function.update_of_ne (hne _ rfl) _ _⟩
  | serve acting | reply acting | finish acting =>
      exact ⟨Function.update_of_ne (hne _ rfl) _ _, rfl⟩
  | call acting | succeed acting | request acting | resume acting | respond acting =>
      exact ⟨rfl, Function.update_of_ne (hne _ rfl) _ _⟩

/-- A worker that is in a call takes no step until the call is over. -/
theorem worker_ne_of_requests (hstep : Step state action next) {call : ι}
    (hrequests : state.requests worker = some call)
    (hover : (state.client.phase call).isOver = false) : action.worker ≠ some worker := by
  intro hacting
  rw [requests_eq_some] at hrequests
  cases hstep with
  | invoke | submit | begin | client => cases hacting
  | start acting pool hstart =>
      obtain rfl : acting = worker := Option.some.inj hacting
      obtain ⟨_, _, hfree, _⟩ := WorkerPool.start_eq_some.mp hstart
      simp [hfree] at hrequests
  | serve acting message hjob hown | reply acting message client hjob hown
  | call acting message mutex hjob hown =>
      obtain rfl : acting = worker := Option.some.inj hacting
      simp [hjob, hown] at hrequests
  | succeed acting own hjob hown hsucceeded =>
      obtain rfl : acting = worker := Option.some.inj hacting
      obtain rfl : own = call := by simpa [hjob, hown] using hrequests
      rw [Client.isOver_of_hasSucceeded hsucceeded] at hover
      cases hover
  | request acting made job hjob hown | respond acting message hjob hown =>
      obtain rfl : acting = worker := Option.some.inj hacting
      simp [hjob, hown] at hrequests
  | resume acting made hmade hended =>
      obtain rfl : acting = worker := Option.some.inj hacting
      obtain rfl : made = call := by
        obtain ⟨_, _, hcall⟩ := hrequests.resolve_left (by simp [hmade])
        exact Stage.requests.inj (hmade.symm.trans hcall)
      rw [hended] at hover
      cases hover
  | finish acting hreturns =>
      obtain rfl : acting = worker := Option.some.inj hacting
      rcases hrequests with ⟨hjob, hown⟩ | ⟨job, hjob, hmade⟩
      · simp [State.returns, hjob, hown, hover] at hreturns
      · cases job <;> simp [State.returns, hjob, hmade] at hreturns

/-- A worker comes to be in a call with its job, or when the callback makes the call. -/
theorem requests_step (hstep : Step state action next) {call : ι}
    (hrequests : next.requests worker = some call) :
    state.requests worker = some call ∨
      (action = .start worker ∧ next.pool.worker worker = some (.async call) ∧
        .async call ∈ state.pool.queue) ∨
      (action = .request worker call ∧ state.IsNew call) := by
  by_cases hacting : action.worker = some worker
  · cases hstep with
    | invoke | submit | begin | client => cases hacting
    | start acting pool hstart =>
        obtain rfl : acting = worker := Option.some.inj hacting
        obtain ⟨job, rest, _, hqueue, rfl⟩ := WorkerPool.start_eq_some.mp hstart
        rcases requests_eq_some.mp hrequests with ⟨hjob, _⟩ | ⟨_, _, hstage⟩
        · obtain rfl : job = .async call := by
            simpa [State.setStage] using hjob
          exact .inr (.inl ⟨rfl, hjob, by simp [hqueue]⟩)
        · simp [State.setStage] at hstage
    | serve acting | reply acting | finish acting =>
        obtain rfl : acting = worker := Option.some.inj hacting
        simp [requests_eq_some, State.finish, WorkerPool.finish] at hrequests
    | call acting | succeed acting | resume acting | respond acting =>
        obtain rfl : acting = worker := Option.some.inj hacting
        simp [requests_eq_some, State.setStage] at hrequests
    | request acting requested job hworker hstage hnew =>
        obtain rfl : acting = worker := Option.some.inj hacting
        obtain rfl : requested = call := by
          simpa [requests_eq_some, State.setStage, hworker] using hrequests
        exact .inr (.inr ⟨rfl, hnew⟩)
  · obtain ⟨hjob, hstage⟩ := frame_step hstep hacting
    rw [requests_eq_some, hjob, hstage, ← requests_eq_some] at hrequests
    exact .inl hrequests

/-- What is queued was queued before, or is submitted. -/
theorem mem_queue_step (hstep : Step state action next) {job : Job ι}
    (hmem : job ∈ next.pool.queue) :
    job ∈ state.pool.queue ∨
      (∃ call, job = .async call ∧ action = .invoke call ∧ state.IsNew call) ∨
        ∃ message, job = .communication message := by
  cases hstep with
  | invoke call hnew =>
      rcases List.mem_append.mp hmem with hbefore | hlast
      · exact .inl hbefore
      · exact .inr (.inl ⟨call, List.mem_singleton.mp hlast, rfl, hnew⟩)
  | submit message =>
      rcases List.mem_append.mp hmem with hbefore | hlast
      · exact .inl hbefore
      · exact .inr (.inr ⟨message, List.mem_singleton.mp hlast⟩)
  | start worker pool hstart =>
      obtain ⟨first, rest, _, hqueue, rfl⟩ := WorkerPool.start_eq_some.mp hstart
      left
      rw [hqueue]
      exact List.mem_cons_of_mem first hmem
  | _ => exact .inl hmem

/-- A worker comes to hold a mutex of the server when it is free. -/
theorem serverHolds_step (hstep : Step state action next) {mutex : ServerMutex}
    (hholds : next.serverHolds worker = some mutex) :
    state.serverHolds worker = some mutex ∨
      (action = .callback worker ∧ ∀ other, state.serverHolds other ≠ some mutex) := by
  by_cases hacting : action.worker = some worker
  · obtain ⟨message, hjob, hstage, hmutex⟩ := serverHolds_eq_some.mp hholds
    cases hstep with
    | invoke | submit | begin | client => cases hacting
    | start acting | serve acting | reply acting | finish acting =>
        obtain rfl : acting = worker := Option.some.inj hacting
        simp [State.setStage, State.finish, WorkerPool.finish] at hjob hstage
    | call acting received taken hworker hown hdesignator htaken hservable =>
        obtain rfl : acting = worker := Option.some.inj hacting
        obtain rfl : received = message :=
          Job.communication.inj (Option.some.inj (hworker.symm.trans hjob))
        exact .inr ⟨rfl, hservable mutex hmutex⟩
    | succeed acting call hworker =>
        obtain rfl : acting = worker := Option.some.inj hacting
        cases hworker.symm.trans hjob
    | request acting call job hworker hown | resume acting call hown
    | respond acting received hworker hown =>
        obtain rfl : acting = worker := Option.some.inj hacting
        exact .inl (serverHolds_eq_some.mpr ⟨message, hjob, by simp [hown], hmutex⟩)
  · obtain ⟨hjob, hstage⟩ := frame_step hstep hacting
    rw [serverHolds_eq_some, hjob, hstage, ← serverHolds_eq_some] at hholds
    exact .inl hholds

end Spec

/-- What a call does is done by its thread. -/
theorem phase_step {state next : State n ι} {action : Action n ι} {call : ι}
    (hstep : Step state action next) (hbegin : action ≠ .begin call)
    (hother : ∀ taken, action = .client taken → taken.actor ≠ some call) :
    next.client.phase call = state.client.phase call := by
  cases hstep with
  | begin begun client hnew hclient =>
      apply Client.phase_step hclient
      rintro ⟨⟩
      exact hbegin rfl
  | client taken client hpermits hclient => exact Client.phase_step hclient (hother taken rfl)
  | reply worker message client hworker hstage hdesignator hclient =>
      exact Client.phase_step hclient (by simp [Client.Action.actor])
  | _ => rfl

/-- A call whose job is queued does nothing. -/
theorem phase_step_of_queued {state next : State n ι} {action : Action n ι} {call : ι}
    (hstep : Step state action next) (hqueued : .async call ∈ state.pool.queue) :
    next.client.phase call = state.client.phase call := by
  apply phase_step hstep
  · rintro rfl
    cases hstep with
    | begin begun client hnew hclient => exact hnew.2.1 (.inl hqueued)
  · rintro taken rfl hactor
    cases hstep with
    | client taken client hpermits hclient => exact hpermits.2.1 call hactor hqueued

/-- The client takes one of its own steps or none. -/
theorem client_step {state next : State n ι} {action : Action n ι}
    (hstep : Step state action next) :
    next.client = state.client ∨ ∃ taken, Client.Step state.client taken next.client := by
  cases hstep with
  | begin call client hnew hclient => exact .inr ⟨_, hclient⟩
  | client action client hpermits hclient => exact .inr ⟨action, hclient⟩
  | reply worker message client hworker hstage hdesignator hclient => exact .inr ⟨_, hclient⟩
  | _ => exact .inl rfl

/-! ## What every run keeps -/

/-- An asynchronous call is in the pool once and has not begun while it is queued, and a mutex of
the server has one holder. -/
structure WellFormed (state : State n ι) : Prop where
  queued_idle : ∀ call, .async call ∈ state.pool.queue → state.client.phase call = .idle
  queued_once : ∀ call, state.pool.queue.count (.async call) ≤ 1
  requested_not_queued : ∀ worker call, state.requests worker = some call →
    .async call ∉ state.pool.queue
  exclusive : ∀ first second mutex, state.serverHolds first = some mutex →
    state.serverHolds second = some mutex → first = second

theorem wellFormed_initial (transport : Option Channel) (clock : Timestamp) :
    WellFormed (initial transport clock : State n ι) where
  queued_idle := by simp [initial, WorkerPool.empty]
  queued_once := by simp [initial, WorkerPool.empty]
  requested_not_queued := by simp [initial, WorkerPool.empty]
  exclusive := by simp [initial, State.serverHolds, WorkerPool.empty]

section Invariant

variable {state next : State n ι} {action : Action n ι}

theorem queued_idle_step (hwf : WellFormed state) (hstep : Step state action next) :
    ∀ call, .async call ∈ next.pool.queue → next.client.phase call = .idle := by
  intro call hmem
  rcases mem_queue_step hstep hmem with hbefore | ⟨_, ⟨⟩, rfl, hnew⟩ | ⟨_, ⟨⟩⟩
  · rw [phase_step_of_queued hstep hbefore]
    exact hwf.queued_idle call hbefore
  · cases hstep with
    | invoke => exact hnew.1

theorem queued_once_step (hwf : WellFormed state) (hstep : Step state action next) :
    ∀ call, next.pool.queue.count (.async call) ≤ 1 := by
  intro call
  have hbefore := hwf.queued_once call
  cases hstep with
  | invoke submitted hnew =>
      show (state.pool.queue ++ [Job.async submitted]).count (.async call) ≤ 1
      rw [List.count_append]
      by_cases hsame : submitted = call
      · subst hsame
        rw [List.count_eq_zero_of_not_mem fun hqueued => hnew.2.1 (.inl hqueued), Nat.zero_add]
        exact List.count_le_length
      · rw [List.count_eq_zero_of_not_mem (l := [Job.async submitted])
          (by simpa using Ne.symm hsame)]
        exact hbefore
  | submit message =>
      show (state.pool.queue ++ [Job.communication message]).count (Job.async call) ≤ 1
      rw [List.count_append, List.count_eq_zero_of_not_mem (l := [Job.communication message])
        (by simp)]
      exact hbefore
  | start worker pool hstart =>
      obtain ⟨job, rest, _, hqueue, rfl⟩ := WorkerPool.start_eq_some.mp hstart
      rw [hqueue, List.count_cons] at hbefore
      exact Nat.le_trans (Nat.le_add_right _ _) hbefore
  | _ => exact hbefore

theorem requested_not_queued_step (hwf : WellFormed state) (hstep : Step state action next) :
    ∀ worker call, next.requests worker = some call → .async call ∉ next.pool.queue := by
  intro worker call hrequests hqueued
  rcases requests_step hstep hrequests with hbefore | ⟨rfl, hjob, _⟩ | ⟨rfl, hnew⟩
  · rcases mem_queue_step hstep hqueued with hmem | ⟨_, ⟨⟩, _, hnew⟩ | ⟨_, ⟨⟩⟩
    · exact hwf.requested_not_queued worker call hbefore hmem
    · exact hnew.2.2 worker hbefore
  · cases hstep with
    | start _ pool hstart =>
        -- It would have been queued twice.
        obtain ⟨job, rest, _, hqueue, rfl⟩ := WorkerPool.start_eq_some.mp hstart
        obtain rfl : job = .async call := by simpa [State.setStage] using hjob
        have hcount : 0 < rest.count (.async call) := List.count_pos_iff.mpr hqueued
        have honce := hwf.queued_once call
        rw [hqueue, List.count_cons_self] at honce
        omega
  · rcases mem_queue_step hstep hqueued with hmem | ⟨_, _, ⟨⟩, _⟩ | ⟨_, ⟨⟩⟩
    exact hnew.2.1 (.inl hmem)

theorem exclusive_step (hwf : WellFormed state) (hstep : Step state action next) :
    ∀ first second mutex, next.serverHolds first = some mutex →
      next.serverHolds second = some mutex → first = second := by
  intro first second mutex hfirst hsecond
  rcases serverHolds_step hstep hfirst with hfirstBefore | ⟨rfl, hfree⟩
  · rcases serverHolds_step hstep hsecond with hsecondBefore | ⟨rfl, hfree⟩
    · exact hwf.exclusive first second mutex hfirstBefore hsecondBefore
    · exact absurd hfirstBefore (hfree first)
  · rcases serverHolds_step hstep hsecond with hsecondBefore | ⟨hsame, _⟩
    · exact absurd hsecondBefore (hfree second)
    · exact Action.callback.inj hsame

theorem WellFormed.step (hwf : WellFormed state) (hstep : Step state action next) :
    WellFormed next where
  queued_idle := queued_idle_step hwf hstep
  queued_once := queued_once_step hwf hstep
  requested_not_queued := requested_not_queued_step hwf hstep
  exclusive := exclusive_step hwf hstep

end Invariant

end FireboltTransport.Workers
