/-
# Replies behind blocked workers

A worker that runs an asynchronous call waits in `Client::Request` for a reply, and
so does one whose job has called its user back, when the callback makes a call.  The
reply is itself a job of the same pool.  When as many calls wait as there are
workers, the replies stay in the queue until the watchdog gives the calls up.

One worker that no call can block is enough to keep every queued message going, as
long as no callback makes a call while it holds a mutex of the server: the messages
that wait for the mutex would take the other workers.
-/

import FireboltTransport.Gateway.Workers
import Mathlib.Logic.Relation

namespace FireboltTransport.Client

open Semantics Relation

universe u

variable {ι : Type u}

/-- The call waits and nothing is recorded for it. -/
def State.isBlocked (state : State ι) (call : ι) : Bool :=
  decide (state.phase call = .waiting) && !(state.caller call).ready

/-- The call waits, or may come to wait, for something that is not recorded yet. -/
def State.mayBlock (state : State ι) (call : ι) : Bool :=
  match state.phase call with
  | .idle | .created | .drawn _ => true
  | .inserted | .waiting => !(state.caller call).ready
  | _ => false

variable [DecidableEq ι]

section Step

variable {state next : State ι} {action : Action ι} {call : ι}

/-- A call that cannot block never blocks again. -/
theorem mayBlock_step (hstep : Step state action next) (hblock : next.mayBlock call = true) :
    state.mayBlock call = true := by
  by_cases hactor : action.actor = some call
  · cases hstep with
    | refuse actor hphase | draw actor channel hphase | create actor id hphase
    | insert actor hphase | send actor hphase | sendFailed actor result hphase
    | wake actor hphase | erase actor hphase | check actor hphase | readResponse actor hphase
    | readError actor hphase =>
        obtain rfl : actor = call := Option.some.inj hactor
        simp_all [State.mayBlock, State.setPhase]
    | _ => cases hactor
  · have hphase := phase_step hstep hactor
    have hready : (∀ id, state.phase call ≠ .drawn id) →
        (next.caller call).ready = false → (state.caller call).ready = false := by
      intro hdrawn hnext
      by_contra hrecorded
      have hkept := ready_step hstep hdrawn (Bool.not_eq_false _ |>.mp hrecorded)
      rw [hnext] at hkept
      cases hkept
    unfold State.mayBlock at hblock ⊢
    rw [hphase] at hblock
    cases hcase : state.phase call <;> simp_all

/-- No call wakes a blocked one. -/
theorem isBlocked_step (hstep : Step state action next) (hactor : action.actor.isSome = true)
    (hblocked : state.isBlocked call = true) : next.isBlocked call = true := by
  simp only [State.isBlocked, Bool.and_eq_true, decide_eq_true_eq, Bool.not_eq_true'] at hblocked ⊢
  constructor
  · rw [← hblocked.1]
    apply phase_step hstep
    intro hself
    cases hstep <;> simp_all [Action.actor]
  · apply unready_step hstep hblocked.2
    · rintro message rfl
      cases hactor
    · rintro rfl
      cases hactor

/-! ## A call that cannot block ends by itself -/

/-- The thread of the call takes a step. -/
def Advances (call : ι) (state next : State ι) : Prop :=
  ∃ action : Action ι, action.actor = some call ∧ Step state action next

/-- The call can return without anybody else's help. -/
def Ends (state : State ι) (call : ι) : Prop :=
  ∃ final, ReflTransGen (Advances call) state final ∧ (final.phase call).isOver = true

/-- A call ends when one of its steps leads to where it ends. -/
theorem Ends.of_step (hstep : Step state action next) (hactor : action.actor = some call)
    (hends : Ends next call) : Ends state call := by
  obtain ⟨final, hfinal, hover⟩ := hends
  exact ⟨final, .head ⟨action, hactor, hstep⟩ hfinal, hover⟩

theorem ends_of_isOver (hover : (state.phase call).isOver = true) : Ends state call :=
  ⟨state, .refl, hover⟩

theorem ends_of_checked {succeeded : Bool} (hphase : state.phase call = .checked succeeded) :
    Ends state call := by
  cases succeeded with
  | true =>
      apply Ends.of_step (Step.readResponse call hphase) rfl
      apply ends_of_isOver
      simp [State.setPhase, Phase.isOver]
  | false =>
      apply Ends.of_step (Step.readError call hphase) rfl
      apply ends_of_isOver
      simp [State.setPhase, Phase.isOver]

theorem ends_of_erased (hphase : state.phase call = .erased) : Ends state call := by
  apply Ends.of_step (Step.check call hphase) rfl
  exact ends_of_checked (Function.update_self call _ state.phase)

theorem ends_of_woken (hphase : state.phase call = .woken) : Ends state call := by
  apply Ends.of_step (Step.erase call hphase) rfl
  apply ends_of_erased
  simp only [State.setPhase, Function.update_self]

theorem ends_of_waiting (hphase : state.phase call = .waiting)
    (hready : (state.caller call).ready = true) : Ends state call := by
  apply Ends.of_step (Step.wake call hphase hready) rfl
  apply ends_of_woken
  simp only [State.setPhase, Function.update_self]

theorem ends_of_inserted (hphase : state.phase call = .inserted)
    (hready : (state.caller call).ready = true) : Ends state call := by
  apply Ends.of_step (Step.send call hphase) rfl
  apply ends_of_waiting
  · simp only [State.setPhase, Function.update_self]
  · exact hready

theorem ends_of_not_mayBlock (hfree : state.mayBlock call = false) : Ends state call := by
  cases hphase : state.phase call with
  | idle | drawn id | created => simp [State.mayBlock, hphase] at hfree
  | inserted =>
      apply ends_of_inserted hphase
      simpa [State.mayBlock, hphase] using hfree
  | waiting =>
      apply ends_of_waiting hphase
      simpa [State.mayBlock, hphase] using hfree
  | woken => exact ends_of_woken hphase
  | erased => exact ends_of_erased hphase
  | checked succeeded => exact ends_of_checked hphase
  | notConnected | failed status | returned outcome =>
      apply ends_of_isOver
      rw [hphase]
      rfl

/-- A reply can be handled unless the call it finds is about to erase its entry. -/
theorem exists_response (message : Message)
    (hwoken : ∀ call, state.queue.lookup message.id.value = some call →
      state.phase call ≠ .woken) : ∃ next, Step state (.response message) next := by
  cases hlookup : state.queue.lookup message.id.value with
  | none => exact ⟨_, .ignore message hlookup⟩
  | some call => exact ⟨_, .response message call hlookup (hwoken call hlookup)⟩

/-- And then it can be handled once that call has erased its entry. -/
theorem exists_response_of_woken {message : Message}
    (hlookup : state.queue.lookup message.id.value = some call)
    (hphase : state.phase call = .woken) :
    ∃ erased next, Step state (.erase call) erased ∧ Step erased (.response message) next := by
  obtain ⟨erased, herase, hqueue, hphases⟩ : ∃ erased, Step state (.erase call) erased ∧
      erased.queue = state.queue.erase (state.caller call).id ∧
      erased.phase = Function.update state.phase call .erased :=
    ⟨_, .erase call hphase, rfl, rfl⟩
  have hwoken : ∀ other, erased.queue.lookup message.id.value = some other →
      erased.phase other ≠ .woken := by
    intro other hother
    rw [hqueue, StdMap.lookup_erase_of_eq_or_ne] at hother
    split_ifs at hother
    obtain rfl : call = other := Option.some.inj (hlookup.symm.trans hother)
    simp [hphases]
  obtain ⟨next, hnext⟩ := exists_response message hwoken
  exact ⟨erased, next, herase, hnext⟩

end Step

end FireboltTransport.Client

namespace FireboltTransport.Workers

open Semantics Relation

universe u

variable {n : ℕ} {ι : Type u}

/-- The job is a call that waits or may come to wait. -/
def Job.mayBlock (client : Client.State ι) : Job ι → Bool
  | .async call => client.mayBlock call
  | .communication _ => false

namespace State

/-- The worker waits unanswered. -/
def isBlocked (state : State n ι) (worker : Fin n) : Bool :=
  (state.requests worker).any state.client.isBlocked

/-- The worker waits or may come to wait. -/
def mayBlock (state : State n ι) (worker : Fin n) : Bool :=
  (state.requests worker).any state.client.mayBlock

/-- The calls that may block, those of queued jobs and those the workers are in. -/
def load (state : State n ι) : ℕ := state.pool.load (Job.mayBlock state.client) state.mayBlock

end State

variable [DecidableEq ι]

/-- The job is a reply to a call that a worker is in. -/
def State.answersWorker (state : State n ι) : Job ι → Bool
  | .async _ => false
  | .communication message =>
      !message.designator.isSet &&
        (state.client.queue.lookup message.id.value).any fun call =>
          decide (∃ worker, state.requests worker = some call)

/-- Every worker waits for a reply. -/
def AllBlocked (state : State n ι) : Prop := ∀ worker, state.isBlocked worker = true

/-- Every worker waits for a reply and the reply to one of them is queued. -/
def Starved (state : State n ι) : Prop :=
  AllBlocked state ∧ ∃ job ∈ state.pool.queue, state.answersWorker job = true

instance (state : State n ι) : Decidable (Starved state) :=
  have : Decidable (AllBlocked state) := inferInstanceAs (Decidable (∀ _, _))
  inferInstanceAs (Decidable (_ ∧ _))

/-- A call is made by a job of the pool, or by a callback of one, only when it and the calls that
may block leave a worker, and not while the callback holds a mutex of the server. -/
def LeavesWorker (state : State n ι) : Action n ι → Prop
  | .invoke _ => state.load + 1 < n
  | .request worker _ => state.serverHolds worker = none ∧ state.load + 1 < n
  | _ => True

instance (state : State n ι) (action : Action n ι) : Decidable (LeavesWorker state action) := by
  cases action <;> unfold LeavesWorker <;> infer_instance

/-- What a run keeps in which every call leaves a worker. -/
structure Available (state : State n ι) : Prop extends WellFormed state where
  spare : state.load < n
  /-- Who holds a mutex of the server is not in a call. -/
  quiet : ∀ worker, state.serverHolds worker ≠ none → state.requests worker = none

section Step

variable {state next : State n ι} {action : Action n ι}

/-- Calls that cannot block never block again. -/
theorem mayBlock_client (hstep : Step state action next) {call : ι}
    (hblock : next.client.mayBlock call = true) : state.client.mayBlock call = true := by
  rcases client_step hstep with hsame | ⟨taken, hclient⟩
  · rwa [hsame] at hblock
  · exact Client.mayBlock_step hclient hblock

theorem job_mayBlock_step (hstep : Step state action next) {job : Job ι}
    (hblock : job.mayBlock next.client = true) : job.mayBlock state.client = true := by
  cases job with
  | async call => exact mayBlock_client hstep hblock
  | communication message => exact hblock

/-- A worker may block that might before, whose job is an asynchronous call, or whose callback
makes a call. -/
theorem mayBlock_step (hstep : Step state action next) {worker : Fin n}
    (hblock : next.mayBlock worker = true) :
    state.mayBlock worker = true ∨
      (action = .start worker ∧ ∃ call, next.pool.worker worker = some (.async call) ∧
        state.client.mayBlock call = true) ∨
      ∃ call, action = .request worker call := by
  obtain ⟨call, hrequests, hcall⟩ := (Option.any_eq_true ..).mp hblock
  have hbefore := mayBlock_client hstep hcall
  rcases requests_step hstep hrequests with hsame | ⟨hstart, hjob, _⟩ | ⟨hrequest, _⟩
  · exact .inl ((Option.any_eq_true ..).mpr ⟨call, hsame, hbefore⟩)
  · exact .inr (.inl ⟨hstart, call, hjob, hbefore⟩)
  · exact .inr (.inr ⟨call, hrequest⟩)

/-- Where nothing is submitted and nothing started, the workers carry the load. -/
theorem load_le_of_queue_eq (hstep : Step state action next)
    (hqueue : next.pool.queue = state.pool.queue)
    (hmay : ∀ worker, next.mayBlock worker = true → state.mayBlock worker = true) :
    next.load ≤ state.load := by
  have hsame : next.load = state.pool.load (Job.mayBlock next.client) next.mayBlock := by
    rw [State.load, WorkerPool.load, WorkerPool.load, hqueue]
  rw [hsame, State.load]
  exact WorkerPool.load_mono (fun job _ => job_mayBlock_step hstep) hmay

/-- A worker may block anew only with a step of its own. -/
theorem mayBlock_step_of_other (hstep : Step state action next) {worker : Fin n}
    (hstart : action ≠ .start worker) (hrequest : ∀ call, action ≠ .request worker call)
    (hblock : next.mayBlock worker = true) : state.mayBlock worker = true := by
  rcases mayBlock_step hstep hblock with hsame | ⟨hstarted, _⟩ | ⟨call, hrequested⟩
  · exact hsame
  · exact absurd hstarted hstart
  · exact absurd hrequested (hrequest call)

theorem spare_step (havailable : Available state) (hstep : Step state action next)
    (hleaves : LeavesWorker state action) : next.load < n := by
  have hspare := havailable.spare
  have hother : ∀ worker, action ≠ .start worker → (∀ call, action ≠ .request worker call) →
      next.mayBlock worker = true → state.mayBlock worker = true :=
    fun _ => mayBlock_step_of_other hstep
  have hkept : next.pool.queue = state.pool.queue →
      (∀ worker, action ≠ .start worker) → (∀ worker call, action ≠ .request worker call) →
      next.load < n := by
    intro hqueue hstart hrequest
    refine Nat.lt_of_le_of_lt (load_le_of_queue_eq hstep hqueue ?_) hspare
    exact fun worker => hother worker (hstart worker) (hrequest worker)
  cases hstep with
  | invoke call hnew =>
      have hle := WorkerPool.load_submit state.pool (.async call) (Job.mayBlock state.client)
        state.mayBlock
      have hone : (if (Job.async call).mayBlock state.client then 1 else 0) ≤ 1 := by
        split_ifs <;> omega
      refine Nat.lt_of_le_of_lt (Nat.le_of_eq hle) ?_
      exact Nat.lt_of_le_of_lt (Nat.add_le_add_left hone _) hleaves
  | submit message =>
      have hle := WorkerPool.load_submit state.pool (.communication message)
        (Job.mayBlock state.client) state.mayBlock
      exact Nat.lt_of_le_of_lt (Nat.le_of_eq hle) hspare
  | start worker pool hstart =>
      refine Nat.lt_of_le_of_lt (WorkerPool.load_start_le hstart ?_ ?_) hspare
      · intro job hjob hblock
        rcases mayBlock_step (.start worker pool hstart) hblock with
          hbefore | ⟨_, call, hcall, hmay⟩ | ⟨call, hrequest⟩
        · obtain ⟨_, _, hfree, _⟩ := WorkerPool.start_eq_some.mp hstart
          simp [State.mayBlock, State.requests, hfree] at hbefore
        · obtain rfl := Option.some.inj (hcall.symm.trans hjob)
          exact hmay
        · cases hrequest
      · intro other hne
        exact hother other (by simpa using Ne.symm hne) (by simp)
  | request worker call job hworker hstage hnew =>
      have hothers : ∀ other, other ≠ worker →
          (state.setStage worker (.requests call)).mayBlock other = true →
            state.mayBlock other = true :=
        fun other hne => hother other (by simp) (by simp [Ne.symm hne])
      exact Nat.lt_of_le_of_lt (WorkerPool.load_le_succ state.pool _ hothers) hleaves.2
  | begin | client | serve | reply | call | succeed | resume | respond | finish =>
      exact hkept rfl (by simp) (by simp)

theorem quiet_step (havailable : Available state) (hstep : Step state action next)
    (hleaves : LeavesWorker state action) :
    ∀ worker, next.serverHolds worker ≠ none → next.requests worker = none := by
  intro worker hholds
  obtain ⟨mutex, hmutex⟩ := Option.ne_none_iff_exists'.mp hholds
  rw [Option.eq_none_iff_forall_ne_some]
  intro call hrequests
  rcases serverHolds_step hstep hmutex with hbefore | ⟨rfl, _⟩
  · rcases requests_step hstep hrequests with hsame | ⟨rfl, hjob, _⟩ | ⟨rfl, _⟩
    · rw [havailable.quiet worker (by simp [hbefore])] at hsame
      cases hsame
    · obtain ⟨message, hmessage, _⟩ := serverHolds_eq_some.mp hmutex
      cases hjob.symm.trans hmessage
    · rw [hleaves.1] at hbefore
      cases hbefore
  · -- The worker is in its callback now.
    obtain ⟨message, hjob, hstage, _⟩ := serverHolds_eq_some.mp hmutex
    cases hstep with
    | call | succeed => simp [requests_eq_some, State.setStage] at hrequests

theorem Available.step (havailable : Available state) (hstep : Step state action next)
    (hleaves : LeavesWorker state action) : Available next where
  toWellFormed := havailable.toWellFormed.step hstep
  spare := spare_step havailable hstep hleaves
  quiet := quiet_step havailable hstep hleaves

end Step

/-! ## Every queued message can be handled -/

/-- A worker or a call takes a step by itself. -/
def Moves (state next : State n ι) : Prop :=
  ∃ action : Action n ι, action.isInternal = true ∧ step state action = some next

/-- The message, queued right before `after`, is received by a worker after steps of workers
and calls only: nothing is submitted, no call is made anew, and the watchdog and the clock stand
still. -/
def Processable (state : State n ι) (message : Message) (after : List (Job ι)) : Prop :=
  ∃ ready worker next, ReflTransGen Moves state ready ∧ ready.pool.queue = after ∧
    ready.pool.worker worker = some (.communication message) ∧
    step ready (.dispatch worker) = some next

section Moves

variable {state next : State n ι} {worker : Fin n}

theorem moves_of_step {action : Action n ι} (hstep : Step state action next)
    (hinternal : action.isInternal = true) : Moves state next :=
  ⟨action, hinternal, step_of_cases hstep⟩

theorem Available.moves (havailable : Available state) (hmoves : ReflTransGen Moves state next) :
    Available next := by
  induction hmoves with
  | refl => exact havailable
  | tail _ hlast ih =>
      obtain ⟨action, hinternal, htaken⟩ := hlast
      apply ih.step (step_cases htaken)
      cases action with
      | invoke | request => cases hinternal
      | _ => trivial

/-- The steps of a call that a worker is in are steps of the pool. -/
theorem moves_of_advances {call : ι} (hstarted : .async call ∉ state.pool.queue)
    (hrequests : state.requests worker = some call) {client : Client.State ι}
    (hadvances : ReflTransGen (Client.Advances call) state.client client) :
    ReflTransGen Moves state { state with client := client } := by
  refine hadvances.lift (fun client => { state with client := client }) ?_
  rintro before after ⟨action, hactor, hclient⟩
  have hpermits : { state with client := before }.Permits action := by
    refine ⟨?_, ?_, ?_⟩
    · rintro message rfl
      cases hactor
    · intro other hother
      obtain rfl : call = other := Option.some.inj (hactor.symm.trans hother)
      exact hstarted
    · rintro other rfl
      obtain rfl : other = call := Option.some.inj hactor
      exact ⟨worker, hrequests⟩
  apply moves_of_step (Step.client action after hpermits hclient)
  simp [Action.isInternal, hactor]

/-- A call that cannot block is not that of a queued job. -/
theorem Available.not_queued (havailable : Available state) {call : ι}
    (hfree : state.client.mayBlock call = false) : .async call ∉ state.pool.queue := by
  intro hqueued
  have hidle := havailable.queued_idle call hqueued
  simp [Client.State.mayBlock, hidle] at hfree

/-- The worker returns, and what is queued stays. -/
def Frees (worker : Fin n) (state next : State n ι) : Prop :=
  ReflTransGen Moves state next ∧ next.client = state.client ∧
    next.pool = state.pool.finish worker ∧
    ∀ other, other ≠ worker → next.stage other = state.stage other

theorem frees_of_returns (hreturns : state.returns worker = true) :
    Frees worker state (state.finish worker) :=
  ⟨.single (moves_of_step (.finish worker hreturns) rfl), rfl, rfl, fun _ _ => rfl⟩

/-- Callbacks return, and `SendResponse` after them. -/
theorem exists_frees_of_callback {job : Job ι} (hworker : state.pool.worker worker = some job)
    (hstage : state.stage worker = .callback ∨ state.stage worker = .responds) :
    ∃ next, Frees worker state next := by
  have hdirect : state.returns worker = true → ∃ next, Frees worker state next := fun hreturns =>
    ⟨_, frees_of_returns hreturns⟩
  rcases hstage with hcallback | hresponds
  · cases job with
    | async call => exact hdirect (by simp [State.returns, hworker, hcallback])
    | communication message =>
        cases hid : message.id.isSet with
        | false => exact hdirect (by simp [State.returns, hworker, hcallback, hid])
        | true =>
            have hrespond := moves_of_step (.respond worker message hworker hcallback hid) rfl
            have hreturns : (state.setStage worker .responds).returns worker = true := by
              simp [State.returns, State.setStage, hworker]
            obtain ⟨hmoves, _, _, _⟩ := frees_of_returns hreturns
            refine ⟨_, .head hrespond hmoves, rfl, rfl, fun other hother => ?_⟩
            exact Function.update_of_ne hother _ _
  · exact hdirect (by simp [State.returns, hworker, hresponds])

/-- Who holds a mutex of the server gives it back. -/
theorem Available.exists_frees (havailable : Available state) {mutex : ServerMutex}
    (hholds : state.serverHolds worker = some mutex) : ∃ next, Frees worker state next := by
  obtain ⟨message, hworker, hown, _⟩ := serverHolds_eq_some.mp hholds
  have hquiet := havailable.quiet worker (by simp [hholds])
  apply exists_frees_of_callback hworker
  cases hstage : state.stage worker with
  | own => exact absurd hstage hown
  | callback => exact .inl rfl
  | responds => exact .inr rfl
  | requests call =>
      rw [requests_eq_some.mpr (.inr ⟨_, hworker, hstage⟩)] at hquiet
      cases hquiet

/-- A message that a worker has not received can be, if need be after a callback has returned
that holds the mutex it asks for. -/
theorem exists_servable (havailable : Available state) {message : Message}
    (hworker : state.pool.worker worker = some (.communication message))
    (hstage : state.stage worker = .own) :
    ∃ ready, ReflTransGen Moves state ready ∧ ready.client = state.client ∧
      ready.pool.queue = state.pool.queue ∧
      ready.pool.worker worker = some (.communication message) ∧
      ready.stage worker = .own ∧ ready.IsServable message := by
  by_cases hservable : state.IsServable message
  · exact ⟨state, .refl, rfl, rfl, hworker, hstage, hservable⟩
  · unfold State.IsServable at hservable
    push Not at hservable
    obtain ⟨mutex, hmutex, holder, hholds⟩ := hservable
    obtain ⟨ready, hmoves, hclient, hpool, hothers⟩ := havailable.exists_frees hholds
    have hne : worker ≠ holder := by
      rintro rfl
      obtain ⟨_, _, hown, _⟩ := serverHolds_eq_some.mp hholds
      exact hown hstage
    refine ⟨ready, hmoves, hclient, by rw [hpool]; rfl, ?_, (hothers worker hne).trans hstage, ?_⟩
    · rw [hpool]
      exact WorkerPool.finish_worker_eq_some.mpr ⟨hne, hworker⟩
    · rintro taken htaken other hother
      obtain rfl : taken = mutex := Option.some.inj (htaken.symm.trans hmutex)
      obtain ⟨received, hjob, hown, hheld⟩ := serverHolds_eq_some.mp hother
      rw [hpool] at hjob
      obtain ⟨hdifferent, hjob⟩ := WorkerPool.finish_worker_eq_some.mp hjob
      rw [hothers other hdifferent] at hown
      exact hdifferent (havailable.exclusive other holder taken
        (serverHolds_eq_some.mpr ⟨received, hjob, hown, hheld⟩) hholds)

/-- A started communication job can run, if need be after the call it answers has erased its
entry, or after the callback has returned whose mutex it waits for. -/
theorem exists_dispatch (havailable : Available state) {message : Message}
    (hworker : state.pool.worker worker = some (.communication message))
    (hstage : state.stage worker = .own) :
    ∃ ready next, ReflTransGen Moves state ready ∧ ready.pool.queue = state.pool.queue ∧
      ready.pool.worker worker = some (.communication message) ∧
      Step ready (.dispatch worker) next ∧ next.pool = ready.pool.finish worker := by
  cases hdesignator : message.designator.isSet with
  | true =>
      obtain ⟨ready, hmoves, _, hqueue, hjob, hown, hservable⟩ :=
        exists_servable havailable hworker hstage
      exact ⟨ready, _, hmoves, hqueue, hjob,
        .serve worker message hjob hown hdesignator hservable, rfl⟩
  | false =>
      by_cases hwoken : ∃ call, state.client.queue.lookup message.id.value = some call ∧
          state.client.phase call = .woken
      · obtain ⟨call, hlookup, hphase⟩ := hwoken
        have hstarted : .async call ∉ state.pool.queue :=
          havailable.not_queued (by simp [Client.State.mayBlock, hphase])
        obtain ⟨erased, client, herase, hclient⟩ :=
          Client.exists_response_of_woken hlookup hphase
        have hpermits : state.Permits (.erase call) := by
          refine ⟨by simp, ?_, by simp⟩
          rintro other ⟨⟩
          exact hstarted
        have hmove := moves_of_step (Step.client _ erased hpermits herase) rfl
        exact ⟨_, _, .single hmove, rfl, hworker,
          .reply worker message client hworker hstage hdesignator hclient, rfl⟩
      · obtain ⟨client, hclient⟩ := Client.exists_response message
          fun call hlookup hphase => hwoken ⟨call, hlookup, hphase⟩
        exact ⟨state, _, .refl, rfl, hworker,
          .reply worker message client hworker hstage hdesignator hclient, rfl⟩

/-- The call that a worker is in comes to its end. -/
theorem exists_isOver (havailable : Available state) {call : ι}
    (hrequests : state.requests worker = some call)
    (hfree : state.client.mayBlock call = false) :
    ∃ client, ReflTransGen Moves state { state with client := client } ∧
      (client.phase call).isOver = true := by
  obtain ⟨client, hadvances, hover⟩ := Client.ends_of_not_mayBlock hfree
  exact ⟨client, moves_of_advances (havailable.not_queued hfree) hrequests hadvances, hover⟩

/-- A worker that no call may block becomes free. -/
theorem exists_free (havailable : Available state) (hmay : state.mayBlock worker = false) :
    ∃ free, ReflTransGen Moves state free ∧ free.pool.worker worker = none ∧
      free.pool.queue = state.pool.queue := by
  have hends : ∀ {middle}, ReflTransGen Moves state middle →
      middle.pool.queue = state.pool.queue → (∃ next, Frees worker middle next) →
      ∃ free, ReflTransGen Moves state free ∧ free.pool.worker worker = none ∧
        free.pool.queue = state.pool.queue := by
    rintro middle hmoves hqueue ⟨next, hnext, _, hpool, _⟩
    refine ⟨next, hmoves.trans hnext, ?_, ?_⟩
    · rw [hpool]
      exact Function.update_self _ _ _
    · rw [hpool, ← hqueue]
      rfl
  have hcannot : ∀ call, state.requests worker = some call →
      state.client.mayBlock call = false := by
    intro call hrequests
    simpa [State.mayBlock, hrequests] using hmay
  cases hjob : state.pool.worker worker with
  | none => exact ⟨state, .refl, hjob, rfl⟩
  | some job =>
      cases hstage : state.stage worker with
      | callback => exact hends .refl rfl (exists_frees_of_callback hjob (.inl hstage))
      | responds => exact hends .refl rfl (exists_frees_of_callback hjob (.inr hstage))
      | requests call =>
          have hrequests := requests_eq_some.mpr (.inr ⟨job, hjob, hstage⟩)
          obtain ⟨client, hmoves, hover⟩ :=
            exists_isOver havailable hrequests (hcannot call hrequests)
          have hresume : Step { state with client := client } (.resume worker) _ :=
            .resume worker call hstage hover
          refine hends (hmoves.tail (moves_of_step hresume rfl)) rfl
            (exists_frees_of_callback hjob (.inl ?_))
          exact Function.update_self _ _ _
      | own =>
          cases job with
          | async call =>
              have hrequests := requests_eq_some.mpr (.inl ⟨hjob, hstage⟩)
              obtain ⟨client, hmoves, hover⟩ :=
                exists_isOver havailable hrequests (hcannot call hrequests)
              refine hends hmoves rfl ⟨_, frees_of_returns ?_⟩
              simp [State.returns, hjob, hstage, hover]
          | communication message =>
              obtain ⟨ready, next, hmoves, hqueue, _, hstep, hpool⟩ :=
                exists_dispatch havailable hjob hstage
              refine ⟨next, hmoves.tail (moves_of_step hstep rfl), ?_, ?_⟩
              · rw [hpool]
                exact Function.update_self _ _ _
              · rw [hpool, ← hqueue]
                rfl

/-- The oldest job gets a worker. -/
theorem exists_start (havailable : Available state) {job : Job ι} {rest : List (Job ι)}
    (hqueue : state.pool.queue = job :: rest) :
    ∃ started worker, ReflTransGen Moves state started ∧
      started.pool.worker worker = some job ∧ started.stage worker = .own ∧
      started.pool.queue = rest := by
  obtain ⟨worker, hworker⟩ := WorkerPool.exists_worker_of_load_lt havailable.spare
  obtain ⟨free, hmoves, hfree, hkept⟩ := exists_free havailable hworker
  have hstart := WorkerPool.start_eq_some.mpr ⟨job, rest, hfree, hkept.trans hqueue, rfl⟩
  have hlast := moves_of_step (Step.start worker _ hstart) rfl
  exact ⟨_, worker, hmoves.tail hlast, Function.update_self _ _ _, Function.update_self _ _ _, rfl⟩

end Moves

/-! ## What starves cannot help itself -/

/-- The worker waits for a reply, or for a mutex of the server whose holder does. -/
def State.IsStuck (state : State n ι) (worker : Fin n) : Prop :=
  state.isBlocked worker = true ∨
    ∃ message holder mutex, state.pool.worker worker = some (.communication message) ∧
      state.stage worker = .own ∧ message.designator.isSet = true ∧
      serverMutex message = some mutex ∧ state.serverHolds holder = some mutex ∧
      state.isBlocked holder = true

/-- Every worker is stuck. -/
def AllStuck (state : State n ι) : Prop := ∀ worker, state.IsStuck worker

omit [DecidableEq ι] in
theorem allStuck_of_allBlocked {state : State n ι} (hblocked : AllBlocked state) :
    AllStuck state :=
  fun worker => .inl (hblocked worker)

section Stuck

variable {state next : State n ι} {action : Action n ι} {worker : Fin n}

omit [DecidableEq ι] in
/-- A worker that waits for a reply is in its call. -/
theorem isBlocked_eq_true : state.isBlocked worker = true ↔
    ∃ call, state.requests worker = some call ∧ state.client.phase call = .waiting ∧
      (state.client.caller call).ready = false := by
  simp [State.isBlocked, Client.State.isBlocked, Option.any_eq_true]

/-- A worker whose call waits for an answer takes no step. -/
theorem worker_ne_of_isBlocked (hstep : Step state action next)
    (hblocked : state.isBlocked worker = true) : action.worker ≠ some worker := by
  obtain ⟨call, hrequests, hwaiting, _⟩ := isBlocked_eq_true.mp hblocked
  exact worker_ne_of_requests hstep hrequests (by rw [hwaiting]; rfl)

/-- Neither does one that waits for a mutex. -/
theorem worker_ne_of_isStuck (hstep : Step state action next) (hstuck : state.IsStuck worker) :
    action.worker ≠ some worker := by
  rcases hstuck with hblocked | ⟨message, holder, mutex, hjob, hown, hset, hmutex, hholds, _⟩
  · exact worker_ne_of_isBlocked hstep hblocked
  · intro hacting
    cases hstep with
    | invoke | submit | begin | client => cases hacting
    | start acting pool hstart =>
        obtain rfl : acting = worker := Option.some.inj hacting
        obtain ⟨_, _, hfree, _⟩ := WorkerPool.start_eq_some.mp hstart
        cases hjob.symm.trans hfree
    | serve acting received hreceived _ _ hservable
    | call acting received taken hreceived _ _ _ hservable =>
        obtain rfl : acting = worker := Option.some.inj hacting
        obtain rfl : message = received :=
          Job.communication.inj (Option.some.inj (hjob.symm.trans hreceived))
        exact hservable mutex hmutex holder hholds
    | reply acting received client hreceived _ hunset =>
        obtain rfl : acting = worker := Option.some.inj hacting
        obtain rfl : message = received :=
          Job.communication.inj (Option.some.inj (hjob.symm.trans hreceived))
        rw [hset] at hunset
        cases hunset
    | succeed acting call hcall =>
        obtain rfl : acting = worker := Option.some.inj hacting
        cases hjob.symm.trans hcall
    | request acting call job hcall hstage =>
        obtain rfl : acting = worker := Option.some.inj hacting
        rw [hown] at hstage
        cases hstage
    | resume acting call hstage | respond acting received hreceived hstage =>
        obtain rfl : acting = worker := Option.some.inj hacting
        rw [hown] at hstage
        cases hstage
    | finish acting hreturns =>
        obtain rfl : acting = worker := Option.some.inj hacting
        simp [State.returns, hjob, hown] at hreturns

/-- A call that waits is woken by a reply or by the watchdog, not by what the calls do. -/
theorem isBlocked_step (hstep : Step state action next) (hinternal : action.isInternal = true)
    (hquiet : ∀ acting, action.worker ≠ some acting) (hblocked : state.isBlocked worker = true) :
    next.isBlocked worker = true := by
  obtain ⟨call, hrequests, hcall⟩ := (Option.any_eq_true ..).mp hblocked
  have hkept : next.requests worker = some call := by
    obtain ⟨hjob, hstage⟩ := frame_step hstep (hquiet worker)
    rw [requests_eq_some, hjob, hstage, ← requests_eq_some]
    exact hrequests
  refine (Option.any_eq_true ..).mpr ⟨call, hkept, ?_⟩
  cases hstep with
  | invoke | submit | begin => cases hinternal
  | client taken client hpermits hclient => exact Client.isBlocked_step hclient hinternal hcall
  | start acting | serve acting | reply acting | call acting | succeed acting | request acting
  | resume acting | respond acting | finish acting => exact absurd rfl (hquiet acting)

theorem allStuck_step (hmoves : Moves state next) (hstuck : AllStuck state) : AllStuck next := by
  obtain ⟨action, hinternal, htaken⟩ := hmoves
  have hstep := step_cases htaken
  have hquiet : ∀ acting, action.worker ≠ some acting := fun acting =>
    worker_ne_of_isStuck hstep (hstuck acting)
  intro worker
  rcases hstuck worker with
    hblocked | ⟨message, holder, mutex, hjob, hown, hset, hmutex, hholds, hblocked⟩
  · exact .inl (isBlocked_step hstep hinternal hquiet hblocked)
  · obtain ⟨hsameJob, hsameStage⟩ := frame_step hstep (hquiet worker)
    obtain ⟨hholderJob, hholderStage⟩ := frame_step hstep (hquiet holder)
    refine .inr ⟨message, holder, mutex, hsameJob.trans hjob, hsameStage.trans hown, hset, hmutex,
      ?_, isBlocked_step hstep hinternal hquiet hblocked⟩
    rw [serverHolds_eq_some, hholderJob, hholderStage, ← serverHolds_eq_some]
    exact hholds

/-- The workers stay stuck whatever they and the calls do by themselves. -/
theorem allStuck_moves (hmoves : ReflTransGen Moves state next) (hstuck : AllStuck state) :
    AllStuck next := by
  induction hmoves with
  | refl => exact hstuck
  | tail _ hlast ih => exact allStuck_step hlast ih

/-- Where every worker is stuck no message is handled before a call times out. -/
theorem AllStuck.not_processable (hstuck : AllStuck state) (message : Message)
    (after : List (Job ι)) : ¬ Processable state message after := by
  rintro ⟨ready, worker, next, hmoves, _, _, htaken⟩
  exact worker_ne_of_isStuck (step_cases htaken) (allStuck_moves hmoves hstuck worker) rfl

theorem Starved.not_processable (hstarved : Starved state) (message : Message)
    (after : List (Job ι)) : ¬ Processable state message after :=
  (allStuck_of_allBlocked hstarved.1).not_processable message after

end Stuck

/-- A call up to its wait. -/
def request (call : ι) : List (Action n ι) :=
  [.client (.draw call), .client (.create call), .client (.insert call),
    .client (.send call .none)]

/-- A notification for an event. -/
def notification : Message := { Message.empty with designator := ⟨true, ['e']⟩ }

section Sharp

/-- The client when a call has drawn its identifier from the channel and waits. -/
def sent (client : Client.State ι) (channel : Channel) (call : ι) : Client.State ι :=
  { client with
    transport := some channel.sequence.2
    queue := client.queue.insert channel.sequence.1 call
    caller := Function.update client.caller call (.new channel.sequence.1 client.clock)
    phase := Function.update client.phase call .waiting }

/-- A worker that is in a new call brings it to its wait. -/
theorem exec_request {state : State n ι} {channel : Channel} {worker : Fin n} {call : ι}
    (hrequests : state.requests worker = some call) (hidle : state.client.phase call = .idle)
    (hstarted : .async call ∉ state.pool.queue)
    (htransport : state.client.transport = some channel) :
    exec step state (request call) =
      some { state with client := sent state.client channel call } := by
  have hworker : ∀ client, ∃ acting,
      State.requests { state with client := client } acting = some call :=
    fun _ => ⟨worker, hrequests⟩
  simp [request, step, State.Permits, Client.Action.actor, hstarted, hworker, Client.step, hidle,
    htransport, Client.State.setPhase, Client.State.setCaller, Client.Caller.new, sent]

theorem lookup_sent (client : Client.State ι) (channel : Channel) (call : ι) :
    (sent client channel call).queue.lookup ((sent client channel call).caller call).id =
      some call := by
  have hid : ((sent client channel call).caller call).id = channel.sequence.1 := by
    simp [sent, Client.Caller.new]
  rw [hid]
  exact AList.lookup_insert _

theorem isBlocked_sent (client : Client.State ι) (channel : Channel) (call : ι) :
    (sent client channel call).isBlocked call = true := by
  simp [sent, Client.State.isBlocked, Client.Caller.new]

/-- The calls wait, each on the worker of its name, and the last one is in the queue. -/
structure AllWait (calls : List (Fin n)) (state : State n (Fin n)) : Prop where
  connected : ∃ channel, state.client.transport = some channel
  queue : state.pool.queue = []
  stage : ∀ worker, state.stage worker = .own
  waits : ∀ call ∈ calls, state.pool.worker call = some (.async call) ∧
    state.client.isBlocked call = true
  idle : ∀ call ∉ calls, state.pool.worker call = none ∧ state.client.phase call = .idle
  listed : ∀ call, calls.getLast? = some call →
    state.client.queue.lookup (state.client.caller call).id = some call

theorem allWait_initial (clock : Timestamp) :
    AllWait [] (initial (some .new) clock : State n (Fin n)) where
  connected := ⟨.new, rfl⟩
  queue := rfl
  stage _ := rfl
  waits := by simp
  idle := by simp [initial, WorkerPool.empty, Client.initial]
  listed := by simp

/-- A worker is in the call of its name. -/
theorem AllWait.requests {calls : List (Fin n)} {state : State n (Fin n)}
    (hwait : AllWait calls state) (worker : Fin n) :
    state.requests worker = if worker ∈ calls then some worker else none := by
  split_ifs with hmem
  · exact requests_eq_some.mpr (.inl ⟨(hwait.waits worker hmem).1, hwait.stage worker⟩)
  · simp [State.requests, (hwait.idle worker hmem).1]

theorem AllWait.isNew {calls : List (Fin n)} {state : State n (Fin n)}
    (hwait : AllWait calls state) {call : Fin n} (hnew : call ∉ calls) : state.IsNew call := by
  refine ⟨(hwait.idle call hnew).2, ?_, fun worker hrequests => ?_⟩
  · rintro (hqueued | ⟨worker, hworker⟩)
    · rw [hwait.queue] at hqueued
      cases hqueued
    · have hrequests := hwait.requests worker
      rw [requests_eq_some.mpr (.inl ⟨hworker, hwait.stage worker⟩)] at hrequests
      split_ifs at hrequests with hmem
      exact hnew (Option.some.inj hrequests ▸ hmem)
  · rw [hwait.requests] at hrequests
    split_ifs at hrequests with hmem
    exact hnew (Option.some.inj hrequests ▸ hmem)

/-- One more call is invoked, started on the free worker of its name, and sent. -/
theorem AllWait.exists_snoc {calls : List (Fin n)} {state : State n (Fin n)}
    (hwait : AllWait calls state) {call : Fin n} (hnew : call ∉ calls) :
    ∃ next, exec step state ([.invoke call, .start call] ++ request call) = some next ∧
      AllWait (calls ++ [call]) next := by
  obtain ⟨channel, htransport⟩ := hwait.connected
  obtain ⟨hworker, hphase⟩ := hwait.idle call hnew
  have hisNew := hwait.isNew hnew
  let started : State n (Fin n) := {
    client := state.client
    pool := ⟨[], Function.update state.pool.worker call (some (.async call))⟩
    stage := Function.update state.stage call .own }
  have hstarted : exec step state [.invoke call, .start call] = some started := by
    simp [step, hisNew, WorkerPool.submit, hwait.queue, WorkerPool.start, hworker, State.setStage,
      started]
  have hrequests : started.requests call = some call :=
    requests_eq_some.mpr (.inl ⟨Function.update_self _ _ _, Function.update_self _ _ _⟩)
  refine ⟨_, exec_trans hstarted (exec_request hrequests hphase List.not_mem_nil htransport),
    ⟨_, rfl⟩, rfl, ?_, ?_, ?_, ?_⟩
  · intro worker
    rcases eq_or_ne worker call with rfl | hother
    · exact Function.update_self _ _ _
    · exact (Function.update_of_ne hother _ _).trans (hwait.stage worker)
  · intro other hmem
    rcases eq_or_ne other call with rfl | hother
    · exact ⟨Function.update_self _ _ _, isBlocked_sent _ _ _⟩
    · have hold : other ∈ calls := by
        simpa [hother] using hmem
      obtain ⟨hjob, hblocked⟩ := hwait.waits other hold
      simp only [Client.State.isBlocked, sent, started, Function.update_of_ne hother] at hblocked ⊢
      exact ⟨hjob, hblocked⟩
  · intro other hmem
    obtain ⟨hold, hother⟩ : other ∉ calls ∧ other ≠ call := by
      simpa using hmem
    simpa [started, sent, hother] using hwait.idle other hold
  · intro last hlast
    obtain rfl : call = last := by simpa using hlast
    exact lookup_sent _ _ _

/-- Any calls can be brought to wait, one worker each. -/
theorem exists_allWait {calls : List (Fin n)} (hnodup : calls.Nodup) (clock : Timestamp) :
    ∃ final, exec step (initial (some .new) clock)
        (calls.flatMap fun call => [.invoke call, .start call] ++ request call) = some final ∧
      AllWait calls final := by
  induction calls using List.reverseRecOn with
  | nil => exact ⟨_, rfl, allWait_initial clock⟩
  | append_singleton calls call ih =>
      obtain ⟨hbefore, hnew⟩ : calls.Nodup ∧ call ∉ calls := by
        rw [← List.concat_eq_append, List.nodup_concat] at hnodup
        exact hnodup.symm
      obtain ⟨state, hrun, hwait⟩ := ih hbefore
      obtain ⟨final, hcall, hfinal⟩ := hwait.exists_snoc hnew
      refine ⟨final, ?_, hfinal⟩
      rw [List.flatMap_append, exec_append, hrun]
      simpa using hcall

/-- For every number of threads some run starves a reply: every worker gets a call. -/
theorem exists_starved (hworkers : 0 < n) (clock : Timestamp) :
    ∃ schedule final message,
      exec step (initial (some .new) clock : State n (Fin n)) schedule = some final ∧
        Starved final ∧ final.pool.queue = [.communication message] ∧
          ¬ Processable final message [] := by
  obtain ⟨state, hrun, hwait⟩ := exists_allWait (List.nodup_finRange n) clock
  obtain ⟨last, hlast⟩ : ∃ last, (List.finRange n).getLast? = some last := by
    rw [← Option.isSome_iff_exists, List.getLast?_isSome]
    exact List.ne_nil_of_mem (List.mem_finRange ⟨0, hworkers⟩)
  let message := Message.reply (state.client.caller last).id []
  have hsubmit : step state (.submit message) =
      some { state with pool := state.pool.submit (.communication message) } := rfl
  have hfinal := exec_snoc hrun hsubmit
  have hqueue : (state.pool.submit (.communication message)).queue = [.communication message] := by
    simp [WorkerPool.submit, hwait.queue]
  have hstarved : Starved { state with pool := state.pool.submit (.communication message) } := by
    refine ⟨?_, .communication message, ?_, ?_⟩
    · intro worker
      have hmem := List.mem_finRange worker
      refine (Option.any_eq_true ..).mpr ⟨worker, ?_, (hwait.waits worker hmem).2⟩
      exact (hwait.requests worker).trans (if_pos hmem)
    · rw [hqueue]
      exact List.mem_singleton_self _
    · have hlisted := hwait.listed last hlast
      have hworker := (hwait.requests last).trans (if_pos (List.mem_finRange last))
      simp only [State.answersWorker, message, Message.reply, Message.empty, Bool.not_false,
        Bool.true_and]
      exact (Option.any_eq_true ..).mpr ⟨last, hlisted, decide_eq_true ⟨last, hworker⟩⟩
  exact ⟨_, _, message, hfinal, hstarved, hqueue, hstarved.not_processable _ _⟩

end Sharp

/-- The callback of a notification waits on the first worker, and on the others further
notifications wait for the mutex it holds. -/
structure AllBehind (first : Fin n) (others : List (Fin n)) (state : State n ι) : Prop where
  queue : state.pool.queue = []
  blocked : state.isBlocked first = true
  holds : state.serverHolds first = some .eventMapMtx
  behind : ∀ worker ∈ others, state.pool.worker worker = some (.communication notification) ∧
    state.stage worker = .own
  free : ∀ worker ∉ others, worker ≠ first → state.pool.worker worker = none

/-- One more notification is received and started on a free worker. -/
theorem AllBehind.exists_snoc {first worker : Fin n} {others : List (Fin n)} {state : State n ι}
    (hbehind : AllBehind first others state) (hnew : worker ∉ others) (hne : worker ≠ first) :
    ∃ next, exec step state [.submit notification, .start worker] = some next ∧
      next.client = state.client ∧ AllBehind first (others ++ [worker]) next := by
  have hfree := hbehind.free worker hnew hne
  have hqueue := hbehind.queue
  refine ⟨{
    client := state.client
    pool := ⟨[], Function.update state.pool.worker worker (some (.communication notification))⟩
    stage := Function.update state.stage worker .own }, ?_, rfl, ?_⟩
  · simp [step, WorkerPool.submit, WorkerPool.start, hqueue, hfree, State.setStage]
  · have hfirst : first ≠ worker := Ne.symm hne
    have hholds := hbehind.holds
    have hblocked := hbehind.blocked
    refine ⟨rfl, ?_, ?_, ?_, ?_⟩
    · simpa [State.isBlocked, State.requests, hfirst] using hblocked
    · simpa [State.serverHolds, hfirst] using hholds
    · intro other hmem
      rcases eq_or_ne other worker with rfl | hother
      · simp
      · have hold : other ∈ others := by
          simpa [hother] using hmem
        simpa [hother] using hbehind.behind other hold
    · intro other hmem hotherFirst
      obtain ⟨hold, hother⟩ : other ∉ others ∧ other ≠ worker := by
        simpa using hmem
      simpa [hother] using hbehind.free other hold hotherFirst

theorem AllBehind.exists_append {first : Fin n} {others more : List (Fin n)} {state : State n ι}
    (hbehind : AllBehind first others state) (hmore : (others ++ more).Nodup)
    (hfirst : first ∉ more) :
    ∃ next, exec step state
        (more.flatMap fun worker => [.submit notification, .start worker]) = some next ∧
      next.client = state.client ∧ AllBehind first (others ++ more) next := by
  induction more generalizing others state with
  | nil => exact ⟨state, rfl, rfl, by simpa using hbehind⟩
  | cons worker more ih =>
      have hnew : worker ∉ others := fun hmem =>
        List.disjoint_of_nodup_append hmore hmem (List.mem_cons_self ..)
      obtain ⟨middle, hfirstRun, hclient, hmiddle⟩ :=
        hbehind.exists_snoc hnew fun hsame => hfirst (hsame ▸ List.mem_cons_self ..)
      obtain ⟨next, hrun, hsame, hnext⟩ := ih hmiddle (by simpa using hmore)
        fun hmem => hfirst (List.mem_cons_of_mem _ hmem)
      exact ⟨next, exec_trans hfirstRun hrun, hsame.trans hclient, by simpa using hnext⟩

/-- The callback of the first notification makes a call. -/
def callbackCalls (first : Fin n) (call : ι) : List (Action n ι) :=
  [.submit notification, .start first, .callback first, .request first call] ++ request call

theorem exists_allBehind (first : Fin n) (clock : Timestamp) :
    ∃ state, exec step (initial (some .new) clock : State n Unit) (callbackCalls first ()) =
        some state ∧
      AllBehind first [] state ∧ ∃ id, state.client.queue.lookup id = some () := by
  let called : State n Unit := {
    client := Client.initial (some .new) clock
    pool := ⟨[], Function.update (fun _ => none) first (some (.communication notification))⟩
    stage := Function.update (fun _ => .own) first .callback }
  have hjob : called.pool.worker first = some (.communication notification) := by
    simp only [called, Function.update_self]
  have hstage : called.stage first = .callback := by simp only [called, Function.update_self]
  have hstarted : exec step (initial (some .new) clock) [.submit notification, .start first] =
      some { called with stage := fun _ => .own } := by
    simp [step, initial, WorkerPool.empty, WorkerPool.submit, WorkerPool.start, State.setStage,
      called]
  have hservable : State.IsServable { called with stage := fun _ => .own } notification := by
    intro mutex _ worker hholds
    simp [serverHolds_eq_some] at hholds
  have hcallback : step { called with stage := fun _ => .own } (.callback first) = some called :=
    step_of_cases (.call first notification .eventMapMtx hjob rfl rfl rfl hservable)
  have hcalled := exec_snoc hstarted hcallback
  have hnew : called.IsNew () := by
    refine ⟨rfl, ?_, fun worker hrequests => ?_⟩
    · rintro (hqueued | ⟨worker, hworker⟩)
      · cases hqueued
      · rcases eq_or_ne worker first with rfl | hne <;> simp_all [called]
    · rcases eq_or_ne worker first with rfl | hne <;> simp_all [called, requests_eq_some]
  have hrequest : step called (.request first ()) = some (called.setStage first (.requests ())) :=
    step_of_cases (.request first () _ hjob hstage hnew)
  have hrequests : (called.setStage first (.requests ())).requests first = some () :=
    requests_eq_some.mpr (.inr ⟨_, hjob, Function.update_self _ _ _⟩)
  have hwaits := exec_request hrequests rfl List.not_mem_nil rfl
  refine ⟨_, exec_trans (exec_snoc hcalled hrequest) hwaits, ⟨rfl, ?_, ?_, by simp, ?_⟩,
    _, lookup_sent _ _ _⟩
  · exact (Option.any_eq_true ..).mpr ⟨(), hrequests, isBlocked_sent _ _ _⟩
  · refine serverHolds_eq_some.mpr ⟨notification, hjob, ?_, rfl⟩
    simp [State.setStage]
  · intro worker _ hne
    show called.pool.worker worker = none
    simp only [called, Function.update_of_ne hne]

/-- For every number of threads a single call starves its reply, when a callback makes it that
holds a mutex of the server: the other workers are lost to the messages that wait for it. -/
theorem exists_stuck (hworkers : 0 < n) (clock : Timestamp) :
    ∃ schedule final message,
      exec step (initial (some .new) clock : State n Unit) schedule = some final ∧
        final.load ≤ 1 ∧ final.pool.queue = [.communication message] ∧
          final.answersWorker (.communication message) = true ∧
            ¬ Processable final message [] := by
  let first : Fin n := ⟨0, hworkers⟩
  obtain ⟨state, hrun, hbehind, id, hlookup⟩ := exists_allBehind first clock
  let others := (List.finRange n).filter fun worker => worker ≠ first
  have hnodup : ([] ++ others).Nodup := (List.nodup_finRange n).filter _
  obtain ⟨middle, hmore, hclient, hmiddle⟩ := hbehind.exists_append hnodup (by simp [others])
  rw [List.nil_append] at hmiddle
  let message := Message.reply id []
  let final := { middle with pool := middle.pool.submit (.communication message) }
  have hqueue : final.pool.queue = [.communication message] := by
    show middle.pool.queue ++ [.communication message] = _
    rw [hmiddle.queue]
    rfl
  have hothers : ∀ worker, worker ≠ first →
      final.pool.worker worker = some (.communication notification) ∧ final.stage worker = .own :=
    fun worker hne => hmiddle.behind worker (by simp [others, hne])
  have hstuck : AllStuck final := by
    intro worker
    rcases eq_or_ne worker first with rfl | hne
    · exact .inl hmiddle.blocked
    · obtain ⟨hjob, hstage⟩ := hothers worker hne
      exact .inr ⟨notification, first, .eventMapMtx, hjob, hstage, rfl, rfl, hmiddle.holds,
        hmiddle.blocked⟩
  have hsubmit : step middle (.submit message) = some final := rfl
  refine ⟨_, final, message, exec_snoc (exec_trans hrun hmore) hsubmit, ?_, hqueue, ?_,
    hstuck.not_processable _ _⟩
  · have hfree : ∀ worker, worker ≠ first → final.mayBlock worker = true → false = true := by
      intro worker hne hblock
      obtain ⟨hjob, hstage⟩ := hothers worker hne
      simp [State.mayBlock, State.requests, hjob, hstage] at hblock
    have hle : final.load ≤ final.pool.load (Job.mayBlock final.client) (fun _ => false) + 1 :=
      WorkerPool.load_le_succ final.pool _ hfree
    simpa [WorkerPool.load, hqueue, Job.mayBlock] using hle
  · obtain ⟨call, hrequests, _⟩ := isBlocked_eq_true.mp hmiddle.blocked
    have hfound : final.client.queue.lookup id = some () := by
      show middle.client.queue.lookup id = some ()
      rw [hclient]
      exact hlookup
    have hlisted : (final.client.queue.lookup message.id.value).any
        (fun call => decide (∃ worker, final.requests worker = some call)) = true :=
      (Option.any_eq_true ..).mpr ⟨(), hfound, decide_eq_true ⟨first, hrequests⟩⟩
    simpa [State.answersWorker, message, Message.reply, Message.empty] using hlisted

end FireboltTransport.Workers
