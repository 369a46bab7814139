/-
# When the mutexes of the client cannot deadlock

`Client::Request` takes its caller's mutex and then `queue_mtx`;
`Client::Response` takes them in the opposite order.  The two orders meet only
at a caller that is ready and still in the queue, which takes a second reply
with the same identifier.  The watchdog never holds both.
-/

import FireboltTransport.Gateway.ClientLocks

namespace FireboltTransport.ClientLocks

open Semantics Client

variable {ι ρ : Type}

/-- A reply cannot meet the thread of this call any more: nothing is recorded for it
yet, or its `Request` has returned the error of `Send`. -/
def Unanswered (client : Client.State ι) (call : ι) : Prop :=
  (client.caller call).ready = false ∨ ∃ status, client.phase call = .failed status

variable [DecidableEq ι]

/-- A reply that is looked up under `queue_mtx` finds no call that is answered already. -/
def FindsUnanswered (state : State ι ρ) : Action ι ρ → Prop
  | .move (.visitor visitor) =>
      match state.visitorPoint visitor with
      | .replyHolds message => ∀ call ∈ state.client.queue.lookup message.id.value,
          Unanswered state.client call
      | _ => True
  | _ => True

/-- The callers that replies are about to lock are unanswered. -/
def Uncrossed (state : State ι ρ) : Prop :=
  ∀ visitor message call, state.visitorPoint visitor = .replyFound message call →
    Unanswered state.client call

/-! ## What a thread asks for while it holds a mutex -/

section Waiting

variable {state : State ι ρ} {thread : Thread ι ρ} {mutex : Mutex ι}

theorem exists_move_of_wants (hwants : state.wants thread = some mutex) :
    ∃ next client,
      moveAt state.client thread (state.locks.point thread) = some ⟨.lock mutex, next, client⟩ := by
  obtain ⟨⟨op, next, client⟩, hmove, hop⟩ := Option.bind_eq_some_iff.mp hwants
  cases op with
  | lock wanted =>
      obtain rfl := Option.some.inj hop
      exact ⟨next, client, hmove⟩
  | keep => cases hop
  | unlock released => cases hop

/-- A thread that holds `queue_mtx` and asks for a mutex is a reply that asks for the
caller it has found. -/
theorem visitor_of_holds_queue (hholds : holds thread (state.locks.point thread) .queueMtx)
    (hwants : state.wants thread = some mutex) :
    ∃ visitor call, thread = .visitor visitor ∧ mutex = .mtx call := by
  obtain ⟨next, client, hmove⟩ := exists_move_of_wants hwants
  cases thread with
  | request call =>
      generalize state.locks.point (.request call) = point at hholds hmove
      cases requestMove_cases hmove <;> cases hholds
  | visitor visitor =>
      generalize state.locks.point (.visitor visitor) = point at hholds hmove
      cases visitorMove_cases hmove with
      | lockCaller message call => exact ⟨visitor, call, rfl, rfl⟩
      | lockReply message => cases hholds
      | lockId id => cases hholds
  | watchdog =>
      generalize state.locks.point .watchdog = point at hholds hmove
      cases watchdogMove_cases hmove <;> cases hholds

/-- A thread that holds the mutex of a caller and asks for a mutex is the call itself and
asks for `queue_mtx`. -/
theorem request_of_holds_mtx {call : ι}
    (hholds : holds thread (state.locks.point thread) (.mtx call))
    (hwants : state.wants thread = some mutex) :
    thread = .request call ∧ state.requestPoint call = .eraseWants ∧ mutex = .queueMtx := by
  obtain ⟨next, client, hmove⟩ := exists_move_of_wants hwants
  cases thread with
  | request own =>
      unfold State.requestPoint
      generalize hpoint : state.locks.point (.request own) = point at hholds hmove
      cases requestMove_cases hmove with
      | lockErase =>
          obtain rfl : call = own := Mutex.mtx.inj hholds
          exact ⟨rfl, hpoint, rfl⟩
      | lockInsert => cases hholds
      | lockWait => cases hholds
  | visitor visitor =>
      generalize state.locks.point (.visitor visitor) = point at hholds hmove
      cases visitorMove_cases hmove <;> cases hholds
  | watchdog =>
      generalize state.locks.point .watchdog = point at hholds hmove
      cases watchdogMove_cases hmove <;> cases hholds

/-- A reply that asks for a caller's mutex has found that caller. -/
theorem replyFound_of_wants {visitor : ρ} {call : ι}
    (hwants : state.wants (.visitor visitor) = some (.mtx call)) :
    ∃ message, state.visitorPoint visitor = .replyFound message call := by
  obtain ⟨next, client, hmove⟩ := exists_move_of_wants hwants
  unfold State.visitorPoint
  generalize state.locks.point (.visitor visitor) = point at hmove
  cases visitorMove_cases hmove with
  | lockCaller message call => exact ⟨message, rfl⟩

end Waiting

/-- Who waits for whom: a thread that holds nothing and asks for a caller, then one
that asks for the queue, then a reply that asks for the caller it found. -/
def State.rank (state : State ι ρ) (thread : Thread ι ρ) : ℕ :=
  match state.wants thread, thread with
  | none, _ => 0
  | some .queueMtx, _ => 2
  | some (.mtx _), .visitor _ => 1
  | some (.mtx _), _ => 3

/-- The rank falls along every edge of the wait-for graph. -/
theorem rank_lt {state : State ι ρ} (hconsistent : Consistent state) (huncrossed : Uncrossed state)
    {waiter owner : Thread ι ρ} (hwaits : WaitsFor state.wants state.locks.holder waiter owner) :
    state.rank owner < state.rank waiter := by
  obtain ⟨mutex, hwants, hholder⟩ := hwaits
  have hholds := (hconsistent.agrees mutex owner).mp hholder
  cases howner : state.wants owner with
  | none =>
      have hzero : state.rank owner = 0 := by simp [State.rank, howner]
      rw [hzero]
      cases mutex <;> cases waiter <;> simp [State.rank, hwants]
  | some next =>
      cases mutex with
      | queueMtx =>
          obtain ⟨visitor, call, rfl, rfl⟩ := visitor_of_holds_queue hholds howner
          simp [State.rank, hwants, howner]
      | mtx call =>
          obtain ⟨rfl, hpoint, rfl⟩ := request_of_holds_mtx hholds howner
          have htwo : state.rank (.request call) = 2 := by simp [State.rank, howner]
          rw [htwo]
          cases waiter with
          | request other => simp [State.rank, hwants]
          | watchdog => simp [State.rank, hwants]
          | visitor visitor =>
              -- The reply would have found a call that is awake.
              exfalso
              obtain ⟨message, hfound⟩ := replyFound_of_wants hwants
              have hfact := hconsistent.fact (.request call)
              change state.locks.point (.request call) = _ at hpoint
              simp only [Fact, hpoint, RequestPoint.phase] at hfact
              rcases huncrossed visitor message call hfound with hready | ⟨status, hfailed⟩
              · rw [hfact.2 trivial] at hready
                cases hready
              · rw [hfact.1] at hfailed
                cases hfailed

variable [DecidableEq ρ]

section Step

variable {state next : State ι ρ} {action : Action ι ρ}

/-- While a reply holds `queue_mtx`, nobody answers the call it has found. -/
theorem uncrossed_step (hconsistent : Consistent state) (huncrossed : Uncrossed state)
    (hfinds : FindsUnanswered state action) (hstep : Step state action next) : Uncrossed next := by
  intro visitor message call hfound
  cases hstep with
  | outside coarse client houtside hclient =>
      rcases huncrossed visitor message call hfound with hready | ⟨status, hfailed⟩
      · left
        refine unready_step hclient hready ?_ ?_
        · rintro reply rfl
          cases houtside
        · rintro rfl
          cases houtside
      · exact .inr ⟨status, failed_step hclient hfailed⟩
  | start starter job locks hpoint hlocks =>
      by_cases hvisitor : visitor = starter
      · subst hvisitor
        have hstart : locks.point (.visitor visitor) = job.point := Locks.point_move_self hlocks
        simp only [State.visitorPoint, hstart] at hfound
        cases job <;> cases hfound
      · simp only [State.visitorPoint, Locks.point_move_of_ne hlocks
          (show Thread.visitor visitor ≠ .visitor starter by simpa using hvisitor)] at hfound
        exact huncrossed visitor message call hfound
  | move thread move locks hmove hlocks =>
      by_cases hthread : .visitor visitor = thread
      · subst hthread
        have hnext : move.next = .replyFound message call := by
          rw [← Locks.point_move_self hlocks]
          exact hfound
        simp only [FindsUnanswered, State.visitorPoint] at hfinds
        generalize state.locks.point (.visitor visitor) = point at hmove hfinds
        cases visitorMove_cases hmove with
        | find reply found hlookup =>
            cases hnext
            exact hfinds call hlookup
        | _ => cases hnext
      · have hpoint : state.visitorPoint visitor = .replyFound message call := by
          rw [← hfound]
          exact (Locks.point_move_of_ne hlocks hthread).symm
        have hlookup := hconsistent.fact (.visitor visitor)
        change state.locks.point (.visitor visitor) = _ at hpoint
        simp only [Fact, hpoint] at hlookup
        rcases hconsistent.client_of_move hmove with hsame | ⟨coarse, hdata, hcoarse⟩
        · simp only [Unanswered, hsame]
          exact huncrossed visitor message call hpoint
        · rcases huncrossed visitor message call hpoint with hready | ⟨status, hfailed⟩
          · left
            refine unready_step hcoarse hready ?_ ?_
            · -- Another reply that is recorded now would hold `queue_mtx` as well.
              rintro reply rfl
              refine absurd (hconsistent.agrees.exclusive ?_ (holds_of_response hdata)) hthread
              rw [hpoint]
              rfl
            · intro _ houtdated
              exact hconsistent.wellFormed.outdated_not_queued call houtdated _ hlookup
          · exact .inr ⟨status, failed_step hcoarse hfailed⟩

end Step

/-- **No deadlock without a repeated reply.**  In every run in which no reply is looked up
while the call it finds is already answered and has still to erase its entry, no threads
wait for each other in a cycle. -/
theorem not_deadlocked_of_findsUnanswered {transport : Option Channel} {clock : Timestamp}
    {schedule : List (Action ι ρ)} {final : State ι ρ}
    (hfinds : Meets step FindsUnanswered (initial transport clock) schedule)
    (hrun : exec step (initial transport clock) schedule = some final) :
    ¬ Deadlocked final.wants final.locks.holder := by
  have hinvariant : Consistent final ∧ Uncrossed final := by
    refine exec_invariant_of_meets (motive := fun state => Consistent state ∧ Uncrossed state)
      ?_ ?_ hfinds hrun
    · rintro state action next ⟨hconsistent, huncrossed⟩ hfinds htaken
      exact ⟨hconsistent.step (step_cases htaken),
        uncrossed_step hconsistent huncrossed hfinds (step_cases htaken)⟩
    · refine ⟨consistent_initial transport clock, ?_⟩
      intro visitor message call hfound
      cases hfound
  exact not_deadlocked_of_rank final.rank fun _ _ => rank_lt hinvariant.1 hinvariant.2

instance (client : Client.State ι) (call : ι) : Decidable (Unanswered client call) :=
  decidable_of_iff ((client.caller call).ready = false ∨
      (match client.phase call with | .failed _ => true | _ => false) = true) (by
    unfold Unanswered
    cases client.phase call <;> simp)

instance (state : State ι ρ) (action : Action ι ρ) : Decidable (FindsUnanswered state action) := by
  unfold FindsUnanswered
  split
  · split <;> infer_instance
  · infer_instance

/-- A call up to the point where it waits. -/
def callWaits (call : ι) : List (Action ι ρ) :=
  [.outside (.draw call), .outside (.create call)] ++ .replicate 4 (.move (.request call)) ++
    .outside (.send call .none) :: .replicate 3 (.move (.request call))

/-- A reply up to the point where it has found its call. -/
def replyFinds (visitor : ρ) : List (Action ι ρ) :=
  .start visitor (.response (.reply 1 ['o', 'k'])) :: .replicate 2 (.move (.visitor visitor))

/-- The rest of the reply. -/
def replyCompletes (visitor : ρ) : List (Action ι ρ) :=
  .replicate 4 (.move (.visitor visitor))

/-- One reply, and the call asks for `queue_mtx` while a thread holds it that looks
another identifier up. -/
def singleReply (call : ι) (visitor : ρ) : List (Action ι ρ) :=
  callWaits call ++ replyFinds visitor ++ replyCompletes visitor ++
    [.move (.request call), .move (.request call), .start visitor (.idRequested 7),
      .move (.visitor visitor), .move (.request call)]

theorem not_deadlocked_of_findsUnanswered_singleReply :
    ∃ final : State (Fin 1) (Fin 1),
      exec step (initial (some .new) .zero) (singleReply 0 0) = some final ∧
      WaitsFor final.wants final.locks.holder (.request 0) (.visitor 0) ∧
      ¬ Deadlocked final.wants final.locks.holder := by
  obtain ⟨final, hrun, hfacts⟩ : ∃ final : State (Fin 1) (Fin 1),
      exec step (initial (some .new) .zero) (singleReply 0 0) = some final ∧
        decide (final.wants (.request 0) = some .queueMtx ∧
          final.locks.holder .queueMtx = some (.visitor 0)) = true :=
    exists_exec_of_any (by decide)
  exact ⟨final, hrun, ⟨.queueMtx, of_decide_eq_true hfacts⟩,
    not_deadlocked_of_findsUnanswered (by decide) hrun⟩

/-- The first reply is delivered and the second finds the entry before the call wakes up. -/
def repeatedReply (call : ι) (visitor : ρ) : List (Action ι ρ) :=
  callWaits call ++ replyFinds visitor ++ replyCompletes visitor ++ replyFinds visitor ++
    .replicate 3 (.move (.request call))

/-- The second reply holds the queue and asks for the caller, the call does the opposite. -/
theorem deadlocked_after_repeatedReply :
    ∃ final : State (Fin 1) (Fin 1),
      exec step (initial (some .new) .zero) (repeatedReply 0 0) = some final ∧
      Deadlocked final.wants final.locks.holder := by
  obtain ⟨final, hrun, hfacts⟩ : ∃ final : State (Fin 1) (Fin 1),
      exec step (initial (some .new) .zero) (repeatedReply 0 0) = some final ∧
        decide (final.wants (.request 0) = some .queueMtx ∧
          final.locks.holder .queueMtx = some (.visitor 0) ∧
          final.wants (.visitor 0) = some (.mtx 0) ∧
          final.locks.holder (.mtx 0) = some (.request 0)) = true :=
    exists_exec_of_any (by decide)
  obtain ⟨hcallWants, hqueue, hreplyWants, hmtx⟩ := of_decide_eq_true hfacts
  exact ⟨final, hrun,
    deadlocked_of_pair ⟨.queueMtx, hcallWants, hqueue⟩ ⟨.mtx 0, hreplyWants, hmtx⟩⟩

end FireboltTransport.ClientLocks
