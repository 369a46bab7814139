/-
# Delivery of notifications

`CommunicationChannel::Inbound` hands every message to the registered transport,
which submits one job for it; the job ends in `Server::Notify`, which invokes the
callback of the event under `eventMap_mtx`.  Nothing but this mutex orders the jobs
that several workers run at a time, so a notification may overtake those that were
received before it and have not reached the mutex.

Jobs are named by the number of their submission.  `submitted` says what each of
them does, `returned` and `invoked` record in which order they have run and which
callbacks they have invoked.
-/

import FireboltTransport.Gateway.Server
import FireboltTransport.Semantics.PoolOrder
import FireboltTransport.Semantics.Run

namespace FireboltTransport.Delivery

open Semantics Server

universe u

/-- What was submitted to the pool. -/
inductive Job
  /-- `Transport::CommunicationJob`. -/
  | communication (message : Message)
  /-- A job of another part of the library. -/
  | other
  deriving DecidableEq

/-- One call of a subscribed callback. -/
structure Invocation (β : Type u) where
  job : ℕ
  method : Text
  callback : CallbackDataEvent β
  parameters : Text
  deriving DecidableEq

structure State (n : ℕ) (β : Type u) where
  eventMap : EventMap β
  pool : WorkerPool n ℕ
  submitted : List Job
  returned : List ℕ
  invoked : List (Invocation β)

inductive Action (n : ℕ) (β : Type u)
  /-- `CommunicationChannel::Inbound` and `Transport::Submit`. -/
  | inbound (message : Message)
  | submitOther
  | start (worker : Fin n)
  /-- The worker's job runs and returns. -/
  | run (worker : Fin n)
  /-- `Server::Subscribe`, from any thread. -/
  | subscribe (event : Text) (callbackData : CallbackDataEvent β)
  /-- `Server::Unsubscribe`, from any thread. -/
  | unsubscribe (event : Text)
  deriving DecidableEq

variable {n : ℕ} {β : Type u}

/-- `GatewayImpl::Receive` takes the message for a notification. -/
def isNotification (message : Message) : Bool :=
  message.designator.isSet && !message.id.isSet

/-- The callback that a job invokes. -/
def invocation (eventMap : EventMap β) (number : ℕ) : Job → Option (Invocation β)
  | .communication message =>
      if isNotification message then
        (notify eventMap message.designator.value).map fun callback =>
          { job := number
            method := message.designator.value
            callback := callback
            parameters := message.parameters.value }
      else none
  | .other => none

def State.submit (state : State n β) (job : Job) : State n β :=
  { state with
    pool := state.pool.submit state.submitted.length
    submitted := state.submitted ++ [job] }

/-- One step, or `none` when the label is not enabled. -/
def step (state : State n β) : Action n β → Option (State n β)
  | .inbound message => some (state.submit (.communication message))
  | .submitOther => some (state.submit .other)
  | .start worker => (state.pool.start worker).map fun pool => { state with pool := pool }
  | .run worker =>
      (state.pool.worker worker).map fun number =>
        { state with
          pool := state.pool.finish worker
          returned := state.returned ++ [number]
          invoked := state.invoked ++
            (state.submitted[number]?.bind (invocation state.eventMap number)).toList }
  | .subscribe event callbackData =>
      some { state with eventMap := (Server.subscribe state.eventMap event callbackData).2 }
  | .unsubscribe event =>
      some { state with eventMap := (Server.unsubscribe state.eventMap event).2 }

/-- Nothing was received. -/
def initial (eventMap : EventMap β) : State n β where
  eventMap := eventMap
  pool := .empty
  submitted := []
  returned := []
  invoked := []

/-- The steps of the delivery, as a relation. -/
inductive Step (state : State n β) : Action n β → State n β → Prop
  | inbound (message : Message) :
      Step state (.inbound message) (state.submit (.communication message))
  | submitOther : Step state .submitOther (state.submit .other)
  | start (worker : Fin n) (pool : WorkerPool n ℕ)
      (hstart : state.pool.start worker = some pool) :
      Step state (.start worker) { state with pool := pool }
  | run (worker : Fin n) (number : ℕ) (hworker : state.pool.worker worker = some number) :
      Step state (.run worker)
        { state with
          pool := state.pool.finish worker
          returned := state.returned ++ [number]
          invoked := state.invoked ++
            (state.submitted[number]?.bind (invocation state.eventMap number)).toList }
  | subscribe (event : Text) (callbackData : CallbackDataEvent β) :
      Step state (.subscribe event callbackData)
        { state with eventMap := (Server.subscribe state.eventMap event callbackData).2 }
  | unsubscribe (event : Text) :
      Step state (.unsubscribe event)
        { state with eventMap := (Server.unsubscribe state.eventMap event).2 }

theorem step_cases {state next : State n β} {action : Action n β}
    (htaken : step state action = some next) : Step state action next := by
  cases action with
  | inbound message =>
      obtain rfl := Option.some.inj htaken
      exact .inbound message
  | submitOther =>
      obtain rfl := Option.some.inj htaken
      exact .submitOther
  | start worker =>
      obtain ⟨pool, hstart, rfl⟩ := Option.map_eq_some_iff.mp htaken
      exact .start worker pool hstart
  | run worker =>
      obtain ⟨number, hworker, rfl⟩ := Option.map_eq_some_iff.mp htaken
      exact .run worker number hworker
  | subscribe event callbackData =>
      obtain rfl := Option.some.inj htaken
      exact .subscribe event callbackData
  | unsubscribe event =>
      obtain rfl := Option.some.inj htaken
      exact .unsubscribe event

/-! ## What is delivered for one event -/

/-- The parameters that a job has for the subscribers of `key`. -/
def Job.parametersFor (key : Text) : Job → Option Text
  | .communication message =>
      if isNotification message ∧ message.designator.value = key then
        some message.parameters.value
      else none
  | .other => none

namespace State

/-- The parameters of the notifications for `key`, as the channel received them. -/
def receivedFor (state : State n β) (key : Text) : List Text :=
  state.submitted.filterMap (Job.parametersFor key)

/-- The parameters of a job's notification for `key`, by the job's number. -/
def parametersFor (state : State n β) (key : Text) (number : ℕ) : Option Text :=
  state.submitted[number]?.bind (Job.parametersFor key)

/-- The calls of the callback of `key`, in their order. -/
def invokedFor (state : State n β) (key : Text) : List (Invocation β) :=
  state.invoked.filter fun call => call.method = key

/-- The parameters the callback of `key` was invoked with. -/
def deliveredFor (state : State n β) (key : Text) : List Text :=
  (state.invokedFor key).map fun call => call.parameters

/-- No job is queued or running. -/
def Drained (state : State n β) : Prop :=
  state.pool.queue = [] ∧ ∀ worker, state.pool.worker worker = none

instance (state : State n β) : Decidable state.Drained :=
  inferInstanceAs (Decidable (_ ∧ _))

theorem Drained.not_holds {state : State n β} (hdrained : state.Drained) (number : ℕ) :
    ¬ state.pool.Holds number := by
  intro hholds
  rcases hholds with hqueued | ⟨worker, hworker⟩
  · rw [hdrained.1] at hqueued
    cases hqueued
  · rw [hdrained.2 worker] at hworker
    cases hworker

end State

/-- The step does not change the subscription under `key`. -/
def KeepsSubscription (key : Text) (state : State n β) : Action n β → Prop
  | .subscribe event callbackData =>
      (Server.subscribe state.eventMap event callbackData).2.lookup key = state.eventMap.lookup key
  | .unsubscribe event =>
      (Server.unsubscribe state.eventMap event).2.lookup key = state.eventMap.lookup key
  | _ => True

instance [DecidableEq β] (key : Text) (state : State n β) (action : Action n β) :
    Decidable (KeepsSubscription key state action) := by
  cases action <;> unfold KeepsSubscription <;> infer_instance

/-- The call that a job makes of the callback subscribed under `key`. -/
def callFor (key : Text) (callback : CallbackDataEvent β) (submitted : List Job) (number : ℕ) :
    Option (Invocation β) :=
  (submitted[number]?.bind (Job.parametersFor key)).map fun parameters =>
    { job := number, method := key, callback := callback, parameters := parameters }

/-- The callback subscribed under `key` was called by the jobs that have returned, in the
order of their return. -/
structure Tracked (key : Text) (callback : CallbackDataEvent β) (state : State n β) : Prop where
  subscribed : state.eventMap.lookup key = some callback
  ordered : ∃ started, state.pool.InOrder started state.submitted.length state.returned
  invoked_eq : state.invokedFor key =
    state.returned.filterMap (callFor key callback state.submitted)

theorem tracked_initial {key : Text} {callback : CallbackDataEvent β} {eventMap : EventMap β}
    (hsubscribed : eventMap.lookup key = some callback) :
    Tracked key callback (initial eventMap : State n β) where
  subscribed := hsubscribed
  ordered := ⟨0, WorkerPool.inOrder_empty⟩
  invoked_eq := rfl

/-- What a running job adds to the calls of the callback of `key`. -/
theorem filter_invocation {eventMap : EventMap β} {key : Text} {callback : CallbackDataEvent β}
    (hsubscribed : eventMap.lookup key = some callback) (submitted : List Job) (number : ℕ) :
    ((submitted[number]?.bind (invocation eventMap number)).toList.filter
      fun call => call.method = key) = (callFor key callback submitted number).toList := by
  unfold callFor
  cases submitted[number]? with
  | none => rfl
  | some job =>
      cases job with
      | other => rfl
      | communication message =>
          simp only [Option.bind_some, invocation, Job.parametersFor]
          by_cases hkey : message.designator.value = key
          · subst hkey
            cases hnotification : isNotification message <;> simp [notify, hsubscribed]
          · cases hcallback : notify eventMap message.designator.value <;>
              cases hnotification : isNotification message <;> simp [hkey]

section Step

variable {state next : State n β} {action : Action n β} {key : Text}
  {callback : CallbackDataEvent β}

/-- A submission leaves alone what the returned jobs have called. -/
theorem Tracked.submit (htracked : Tracked key callback state) (job : Job) :
    Tracked key callback (state.submit job) where
  subscribed := htracked.subscribed
  ordered := by
    obtain ⟨started, horder⟩ := htracked.ordered
    use started
    simpa [State.submit] using horder.submit
  invoked_eq := by
    obtain ⟨started, horder⟩ := htracked.ordered
    have hkept : ∀ number ∈ state.returned,
        callFor key callback state.submitted number =
          callFor key callback (state.submitted ++ [job]) number := by
      intro number hmem
      have hlt := Nat.lt_of_lt_of_le (horder.returned_lt number hmem) horder.started_le
      rw [callFor, callFor, List.getElem?_append_left hlt]
    exact htracked.invoked_eq.trans (List.filterMap_congr hkept)

theorem Tracked.step (htracked : Tracked key callback state) (hstep : Step state action next)
    (hkeeps : KeepsSubscription key state action) : Tracked key callback next := by
  cases hstep with
  | inbound message => exact htracked.submit _
  | submitOther => exact htracked.submit _
  | start worker pool hstart =>
      obtain ⟨started, horder⟩ := htracked.ordered
      exact { htracked with ordered := ⟨started + 1, horder.start hstart⟩ }
  | run worker number hworker =>
      obtain ⟨started, horder⟩ := htracked.ordered
      exact {
        subscribed := htracked.subscribed
        ordered := ⟨started, horder.finish hworker⟩
        invoked_eq := by
          have hprior := htracked.invoked_eq
          unfold State.invokedFor at hprior ⊢
          rw [List.filter_append, hprior, filter_invocation htracked.subscribed,
            List.filterMap_append]
          cases hcall : callFor key callback state.submitted number <;> simp [hcall] }
  | subscribe event callbackData =>
      exact { htracked with subscribed := hkeeps.trans htracked.subscribed }
  | unsubscribe event =>
      exact { htracked with subscribed := hkeeps.trans htracked.subscribed }

end Step

/-! ## What the callback has seen -/

/-- The calls of the callback of `key`, against the notifications received for it. -/
structure DeliveredOnce (key : Text) (callback : CallbackDataEvent β) (state : State n β) :
    Prop where
  /-- Every call is made for a notification, with its text. -/
  own : ∀ call ∈ state.invokedFor key, call.callback = callback ∧
    state.parametersFor key call.job = some call.parameters
  /-- No notification is delivered twice. -/
  once : ((state.invokedFor key).map fun call => call.job).Nodup
  /-- A notification that has left the pool was delivered. -/
  complete : ∀ number, (state.parametersFor key number).isSome = true →
    ¬ state.pool.Holds number → ∃ call ∈ state.invokedFor key, call.job = number
  /-- A delivery overtakes fewer notifications than there are workers. -/
  overtakes : ∀ before call after, state.invokedFor key = before ++ call :: after →
    ((Finset.range call.job).filter fun earlier =>
      (state.parametersFor key earlier).isSome = true ∧
        earlier ∉ before.map fun call => call.job).card < n
  /-- In the end nothing is lost or added. -/
  drained : state.Drained → (state.deliveredFor key).Perm (state.receivedFor key)

section Tracked

variable {state : State n β} {key : Text} {callback : CallbackDataEvent β}

theorem callFor_eq_some {submitted : List Job} {number : ℕ} {call : Invocation β} :
    callFor key callback submitted number = some call ↔
      submitted[number]?.bind (Job.parametersFor key) = some call.parameters ∧
        call.job = number ∧ call.method = key ∧ call.callback = callback := by
  unfold callFor
  rw [Option.map_eq_some_iff]
  constructor
  · rintro ⟨parameters, hparameters, rfl⟩
    exact ⟨hparameters, rfl, rfl, rfl⟩
  · rintro ⟨hparameters, rfl, rfl, rfl⟩
    exact ⟨_, hparameters, rfl⟩

/-- The texts the callback saw are those of the returned jobs. -/
theorem Tracked.deliveredFor_eq (htracked : Tracked key callback state) :
    state.deliveredFor key = state.returned.filterMap (state.parametersFor key) := by
  rw [State.deliveredFor, htracked.invoked_eq, List.map_filterMap]
  apply List.filterMap_congr
  intro number _
  show ((state.parametersFor key number).map _).map _ = _
  rw [Option.map_map]
  exact Option.map_id'

/-- The texts received are those of the submitted jobs. -/
theorem receivedFor_eq (state : State n β) (key : Text) :
    state.receivedFor key =
      (List.range state.submitted.length).filterMap (state.parametersFor key) := by
  have hjobs : (List.range state.submitted.length).map (fun number => state.submitted[number]?) =
      state.submitted.map some := by
    apply List.ext_getElem
    · simp
    · intro number hleft hright
      simp at hright
      simp [hright]
  have hbind : state.parametersFor key =
      (fun job => job.bind (Job.parametersFor key)) ∘ fun number => state.submitted[number]? := rfl
  rw [hbind, ← List.filterMap_map, hjobs, List.filterMap_map]
  rfl

theorem Tracked.overtakes (htracked : Tracked key callback state) {before after}
    {call : Invocation β} (hsplit : state.invokedFor key = before ++ call :: after) :
    ((Finset.range call.job).filter fun earlier =>
      (state.parametersFor key earlier).isSome = true ∧
        earlier ∉ before.map fun call => call.job).card < n := by
  obtain ⟨started, horder⟩ := htracked.ordered
  rw [htracked.invoked_eq] at hsplit
  obtain ⟨front, rest, hreturned, hfront, hrest⟩ := List.filterMap_eq_append_iff.mp hsplit
  obtain ⟨silent, number, back, hback, hsilent, hnumber, _⟩ :=
    List.filterMap_eq_cons_iff.mp hrest
  rw [hback, ← List.append_assoc] at hreturned
  have hjob := (callFor_eq_some.mp hnumber).2.1
  rw [hjob]
  apply Nat.lt_of_le_of_lt (Finset.card_le_card _) (horder.overtakes _ _ _ hreturned)
  intro earlier hearlier
  obtain ⟨hrange, hsome, hnot⟩ := Finset.mem_filter.mp hearlier
  refine Finset.mem_filter.mpr ⟨hrange, fun hmem => ?_⟩
  obtain ⟨parameters, hparameters⟩ := Option.isSome_iff_exists.mp hsome
  have hcall : callFor key callback state.submitted earlier =
      some ⟨earlier, key, callback, parameters⟩ :=
    callFor_eq_some.mpr ⟨hparameters, rfl, rfl, rfl⟩
  rcases List.mem_append.mp hmem with hdelivered | hskipped
  · apply hnot
    rw [← hfront]
    exact List.mem_map.mpr ⟨_, List.mem_filterMap.mpr ⟨earlier, hdelivered, hcall⟩, rfl⟩
  · rw [hsilent earlier hskipped] at hcall
    cases hcall

theorem Tracked.deliveredOnce (htracked : Tracked key callback state) :
    DeliveredOnce key callback state where
  own := by
    intro call hmem
    rw [htracked.invoked_eq] at hmem
    obtain ⟨number, _, hcall⟩ := List.mem_filterMap.mp hmem
    obtain ⟨hparameters, rfl, _, hcallback⟩ := callFor_eq_some.mp hcall
    exact ⟨hcallback, hparameters⟩
  once := by
    obtain ⟨started, horder⟩ := htracked.ordered
    rw [htracked.invoked_eq, List.map_filterMap]
    apply List.Nodup.filterMap _ horder.returned_nodup
    intro first second job hfirst hsecond
    obtain ⟨call, hcall, rfl⟩ := Option.map_eq_some_iff.mp hfirst
    obtain ⟨other, hother, hjob⟩ := Option.map_eq_some_iff.mp hsecond
    rw [← (callFor_eq_some.mp hcall).2.1, ← (callFor_eq_some.mp hother).2.1, hjob]
  complete := by
    intro number hsome hleft
    obtain ⟨started, horder⟩ := htracked.ordered
    obtain ⟨parameters, hparameters⟩ := Option.isSome_iff_exists.mp hsome
    obtain ⟨job, hjob, _⟩ := Option.bind_eq_some_iff.mp hparameters
    have hlt : number < state.submitted.length := (List.getElem?_eq_some_iff.mp hjob).1
    refine ⟨⟨number, key, callback, parameters⟩, ?_, rfl⟩
    rw [htracked.invoked_eq]
    apply List.mem_filterMap.mpr
    exact ⟨number, horder.mem_returned hlt hleft, callFor_eq_some.mpr ⟨hparameters, rfl, rfl, rfl⟩⟩
  overtakes _ _ _ hsplit := htracked.overtakes hsplit
  drained := by
    intro hdrained
    obtain ⟨started, horder⟩ := htracked.ordered
    rw [htracked.deliveredFor_eq, receivedFor_eq]
    exact (horder.returned_perm hdrained.not_holds).filterMap _

end Tracked

/-- One worker runs the jobs in the order of submission. -/
theorem sequential_of_exec {eventMap : EventMap β} {schedule : List (Action 1 β)}
    {final : State 1 β} (hrun : exec step (initial eventMap) schedule = some final) :
    final.pool.Sequential final.submitted.length final.returned := by
  apply exec_invariant (motive := fun state : State 1 β =>
    state.pool.Sequential state.submitted.length state.returned) ?_
    WorkerPool.sequential_empty hrun
  intro state action next hsequential htaken
  cases step_cases htaken with
  | inbound message => simpa [State.submit] using hsequential.submit
  | submitOther => simpa [State.submit] using hsequential.submit
  | start worker pool hstart => exact hsequential.start hstart
  | run worker number hworker => exact hsequential.finish hworker
  | subscribe event callbackData => exact hsequential
  | unsubscribe event => exact hsequential

theorem tracked_of_exec {eventMap : EventMap β} {key : Text} {callback : CallbackDataEvent β}
    {schedule : List (Action n β)} {final : State n β}
    (hsubscribed : eventMap.lookup key = some callback)
    (hkeeps : Meets step (KeepsSubscription key) (initial eventMap) schedule)
    (hrun : exec step (initial eventMap) schedule = some final) : Tracked key callback final :=
  exec_invariant_of_meets (fun _ _ _ hprior hkeeps htaken => hprior.step (step_cases htaken) hkeeps)
    (tracked_initial hsubscribed) hkeeps hrun

/-- **Notifications are delivered once, and in order up to the running jobs.**  In every
run that leaves the subscription under `key` alone, its callback is called exactly once
for each notification whose job has run, with that notification's text, and a call
overtakes fewer earlier notifications than there are workers.  With one worker the texts
arrive in the order in which they were received. -/
theorem delivered_once_nearly_in_order {eventMap : EventMap β} {key : Text}
    {callback : CallbackDataEvent β} {schedule : List (Action n β)} {final : State n β}
    (hsubscribed : eventMap.lookup key = some callback)
    (hkeeps : Meets step (KeepsSubscription key) (initial eventMap) schedule)
    (hrun : exec step (initial eventMap) schedule = some final) :
    DeliveredOnce key callback final ∧
      (n = 1 → final.deliveredFor key <+: final.receivedFor key ∧
        (final.Drained → final.deliveredFor key = final.receivedFor key)) := by
  have htracked := tracked_of_exec hsubscribed hkeeps hrun
  refine ⟨htracked.deliveredOnce, fun hone => ?_⟩
  subst hone
  have horder : final.deliveredFor key <+: final.receivedFor key := by
    rw [htracked.deliveredFor_eq, receivedFor_eq]
    exact List.IsPrefix.filterMap _ (sequential_of_exec hrun).returned_isPrefix
  refine ⟨horder, fun hdrained => ?_⟩
  exact horder.eq_of_length (htracked.deliveredOnce.drained hdrained).length_eq

/-- A callback. -/
def listener : CallbackDataEvent Unit := ⟨(), 0, 0⟩

/-- The event `e` is subscribed and nothing was received. -/
def listening : State n Unit := initial ((∅ : EventMap Unit).insert ['e'] listener)

/-- Two notifications for the event `e` are started on two workers, which get to run in
the order of `runs`. -/
def twoNotifications (first second : Fin n) (runs : List (Fin n)) : List (Action n Unit) :=
  [.inbound { Message.empty with designator := ⟨true, ['e']⟩, parameters := ⟨true, ['1']⟩ },
    .inbound { Message.empty with designator := ⟨true, ['e']⟩, parameters := ⟨true, ['2']⟩ },
    .start first, .start second, .subscribe ['f'] listener] ++ runs.map .run

theorem delivered_once_nearly_in_order_twoNotifications :
    ∃ final : State 2 Unit,
      exec step listening (twoNotifications 0 1 [0, 1]) = some final ∧
      final.deliveredFor ['e'] = [['1'], ['2']] ∧ DeliveredOnce ['e'] listener final := by
  obtain ⟨final, hrun, htexts⟩ : ∃ final : State 2 Unit,
      exec step listening (twoNotifications 0 1 [0, 1]) = some final ∧
        decide (final.deliveredFor ['e'] = [['1'], ['2']]) = true :=
    exists_exec_of_any (by decide)
  exact ⟨final, hrun, of_decide_eq_true htexts,
    (delivered_once_nearly_in_order (by decide) (by decide) hrun).1⟩

/-- The second notification reaches the mutex first: the callback is left with the older
value. -/
theorem delivered_out_of_order :
    ∃ final : State 2 Unit,
      exec step listening (twoNotifications 0 1 [1, 0]) = some final ∧
      Meets step (KeepsSubscription ['e']) (listening : State 2 Unit)
        (twoNotifications 0 1 [1, 0]) ∧
      final.Drained ∧ final.receivedFor ['e'] = [['1'], ['2']] ∧
      final.deliveredFor ['e'] = [['2'], ['1']] := by
  obtain ⟨final, hrun, hfacts⟩ : ∃ final : State 2 Unit,
      exec step listening (twoNotifications 0 1 [1, 0]) = some final ∧
        decide (final.Drained ∧ final.receivedFor ['e'] = [['1'], ['2']] ∧
          final.deliveredFor ['e'] = [['2'], ['1']]) = true :=
    exists_exec_of_any (by decide)
  exact ⟨final, hrun, by decide, of_decide_eq_true hfacts⟩

end FireboltTransport.Delivery
