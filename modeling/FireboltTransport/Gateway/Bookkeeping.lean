/-
# What is left in the two maps

`Client::queue` and `_pendingQueue` record the operations under way.  A request that
has waited erases its queue entry, a request whose `Send` failed does not; and no
operation of an exchange erases its entry of `_pendingQueue`, which stays until the
next `Closed`.  The module keeps exact account of both maps: an entry of
`_pendingQueue` is there if and only if its owner has emplaced it and no `Closed`
has run since.
-/

import FireboltTransport.Gateway.ConnectionLoss

namespace FireboltTransport.Sections

open Semantics Transport

universe u v

variable {τ : Type u} {κ : Type v}

/-! ## The steps of requests and answers -/

/-- `Timed` removes asynchronous entries only. -/
theorem timedLoop_of_new (currentTime : UInt64) (ahead : List MessageID)
    (pending : StdMap MessageID (Node κ)) (result : UInt64)
    (hnew : ∀ id node, pending.lookup id = some node → node.entry = .new) :
    (timedLoop currentTime ahead pending result).1 = pending := by
  induction ahead generalizing result with
  | nil => rfl
  | cons id ahead ih =>
      unfold timedLoop
      cases hlookup : pending.lookup id with
      | none => exact ih result
      | some node =>
          have hentry := hnew id node hlookup
          simp only [hentry, Entry.new, Entry.expired]
          exact ih result

variable {codes : CoreErrors} {state after : State τ κ} {op : κ} {thread : τ}
  {stage : Stage κ} {outcome : Outcome κ}

/-- The first stage of a request or an answer. -/
theorem first_isExchange {parse : Text → Message} {channel : Option Channel}
    {operation : Operation} (hoperation : operation.isExchange = true) :
    ∃ stage : Stage κ, operation.first parse channel = some (stage, channel) ∧
      stage.isExchange = true ∧ stage.hasEmplaced = false := by
  cases operation with
  | send id method parameters => exact ⟨_, rfl, rfl, rfl⟩
  | sendResponse id response => exact ⟨_, rfl, rfl, rfl⟩
  | revoke eventName => exact ⟨_, rfl, rfl, rfl⟩
  | timed currentTime => exact ⟨_, rfl, rfl, rfl⟩
  | closed => exact ⟨_, rfl, rfl, rfl⟩
  | invokeAsync | waitForResponse | abort => cases hoperation

variable [DecidableEq κ] [DecidableEq τ]

/-- A step of an exchange leads to a stage of an exchange, for the same identifier. -/
theorem goOn_isExchange {next : Stage κ} (hstage : stage.isExchange = true)
    (hrun : stage.run codes state op thread = some (after, .goOn next)) :
    next.isExchange = true ∧ ∀ id, next.target = some id → stage.target = some id := by
  cases stage with
  | check id message answer =>
      simp only [Stage.run] at hrun
      split_ifs at hrun <;> cases hrun
      exact ⟨rfl, fun _ htarget => htarget⟩
  | enter body =>
      obtain ⟨held, _, hpair⟩ := Option.map_eq_some_iff.mp hrun
      cases hpair
      refine ⟨hstage, fun id htarget => ?_⟩
      cases body <;> exact htarget
  | inside body =>
      have hpair : body.run codes state op = (after, .goOn next) := Option.some.inj hrun
      cases body with
      | emplace id message answer =>
          simp only [Body.run] at hpair
          split at hpair
          · cases hpair
            exact ⟨rfl, by rintro _ ⟨⟩⟩
          · split_ifs at hpair <;> cases hpair
            exact ⟨rfl, by rintro _ ⟨⟩⟩
      | find | erase => cases hstage
      | revoke eventName =>
          cases hpair
          exact ⟨rfl, by rintro _ ⟨⟩⟩
      | sweep currentTime =>
          cases hpair
          exact ⟨rfl, by rintro _ ⟨⟩⟩
      | abortAll =>
          cases hpair
          exact ⟨rfl, by rintro _ ⟨⟩⟩
  | leave rest =>
      cases hrun
      exact ⟨hstage, by rintro _ ⟨⟩⟩
  | outside rest =>
      cases rest with
      | wait | read | abort => cases hstage
      | submit | refuse | notify | finish => cases hrun

/-- A step of an exchange is defined, and tells by its outcome whether something was emplaced. -/
theorem outcome_hasEmplaced (hstage : stage.isExchange = true)
    (hrun : stage.run codes state op thread = some (after, outcome)) :
    outcome ≠ .undefined ∧
      (outcome.hasEmplaced ↔ stage.emplaces state ≠ none ∨ stage.hasEmplaced = true) := by
  cases stage with
  | check id message answer =>
      simp only [Stage.run] at hrun
      split_ifs at hrun <;> cases hrun <;>
        simp [Outcome.hasEmplaced, Stage.emplaces, Stage.hasEmplaced]
  | enter body =>
      obtain ⟨held, _, hpair⟩ := Option.map_eq_some_iff.mp hrun
      cases hpair
      simp [Outcome.hasEmplaced, Stage.emplaces, Stage.hasEmplaced]
  | inside body =>
      have hpair : body.run codes state op = (after, outcome) := Option.some.inj hrun
      cases body with
      | emplace id message answer =>
          simp only [Body.run] at hpair
          split at hpair
          · cases hpair
            simp_all [Outcome.hasEmplaced, Stage.emplaces, Stage.hasEmplaced]
          · split_ifs at hpair <;> cases hpair <;>
              simp_all [Outcome.hasEmplaced, Stage.emplaces, Stage.hasEmplaced]
      | find | erase => cases hstage
      | revoke | sweep | abortAll =>
          cases hpair
          simp [Outcome.hasEmplaced, Stage.emplaces, Stage.hasEmplaced]
  | leave rest =>
      cases hrun
      cases rest <;> simp [Outcome.hasEmplaced, Stage.emplaces, Stage.hasEmplaced]
  | outside rest =>
      cases rest with
      | wait | read | abort => cases hstage
      | submit | refuse | notify =>
          cases hrun
          simp [Outcome.hasEmplaced, Stage.emplaces, Stage.hasEmplaced]
      | finish result =>
          cases hrun
          cases result <;>
            simp_all [Outcome.hasEmplaced, Stage.emplaces, Stage.hasEmplaced, Stage.isExchange,
              Rest.isExchange]

/-- What a step of an exchange does to `_pendingQueue`. -/
theorem lookup_run (hstage : stage.isExchange = true)
    (hnew : ∀ id node, state.pendingQueue.lookup id = some node → node.entry = .new)
    (hrun : stage.run codes state op thread = some (after, outcome)) (id : MessageID) :
    after.pendingQueue.lookup id =
      if stage.empties then none
      else if stage.emplaces state = some id then some ⟨op, .new⟩
      else state.pendingQueue.lookup id := by
  cases stage with
  | check _ message answer =>
      simp only [Stage.run] at hrun
      split_ifs at hrun <;> cases hrun <;> simp [Stage.empties, Stage.emplaces]
  | enter body =>
      obtain ⟨held, _, hpair⟩ := Option.map_eq_some_iff.mp hrun
      cases hpair
      simp [Stage.empties, Stage.emplaces]
  | inside body =>
      have hpair : body.run codes state op = (after, outcome) := Option.some.inj hrun
      cases body with
      | emplace target message answer =>
          simp only [Body.run] at hpair
          split at hpair
          · next hunused =>
              cases hpair
              simp only [Stage.empties, Stage.emplaces, hunused, if_true,
                StdMap.lookup_insert_of_eq_or_ne, Option.some.injEq, eq_comm]
              rfl
          · next hused =>
              split_ifs at hpair <;> cases hpair <;> simp [Stage.empties, Stage.emplaces, hused]
      | find | erase => cases hstage
      | revoke eventName =>
          cases hpair
          simp [Stage.empties, Stage.emplaces]
      | sweep currentTime =>
          cases hpair
          show (timedLoop _ _ _ _).1.lookup id = _
          rw [timedLoop_of_new _ _ _ _ hnew]
          simp [Stage.empties, Stage.emplaces]
      | abortAll =>
          cases hpair
          show (closedLoop _ _).1.lookup id = _
          rw [closedLoop_keys]
          rfl
  | leave rest =>
      cases hrun
      simp [Stage.empties, Stage.emplaces]
  | outside rest =>
      cases rest with
      | wait | read | abort => cases hstage
      | submit | refuse | notify | finish =>
          cases hrun
          simp [Stage.empties, Stage.emplaces]

omit [DecidableEq κ] [DecidableEq τ] in
/-- What is emplaced is what the operation was about to emplace, and it was not there. -/
theorem emplaces_eq_some {id : MessageID} (hemplaces : stage.emplaces state = some id) :
    stage.target = some id ∧ stage.hasEmplaced = false ∧ stage.empties = false ∧
      state.pendingQueue.lookup id = none := by
  unfold Stage.emplaces at hemplaces
  split at hemplaces
  · split_ifs at hemplaces with hunused
    cases hemplaces
    exact ⟨rfl, rfl, rfl, hunused⟩
  · cases hemplaces

/-- Where an outcome brings an operation. -/
def Outcome.phase (thread : τ) (entered left : ℕ) : Outcome κ → Phase τ κ
  | .goOn stage => .running thread entered stage
  | .return result => .returned thread entered left result
  | .undefined => .undefined

omit [DecidableEq κ] [DecidableEq τ] in
theorem Outcome.phase_hasEmplaced {entered left : ℕ} :
    (outcome.phase thread entered left).hasEmplaced ↔ outcome.hasEmplaced := by
  cases outcome <;> rfl

theorem proceed_phase (entered : ℕ) (other : κ) :
    (after.proceed op thread entered outcome).phase other =
      if other = op then outcome.phase thread entered (after.adminLock.count thread)
      else after.phase other := by
  cases outcome <;>
    simp [State.proceed, State.setPhase, Outcome.phase, Function.update_apply]

theorem proceed_pendingQueue (entered : ℕ) :
    (after.proceed op thread entered outcome).pendingQueue = after.pendingQueue := by
  cases outcome <;> rfl

end FireboltTransport.Sections

namespace FireboltTransport.Client

universe u

variable {ι : Type u} [DecidableEq ι] {state next : State ι} {action : Action ι}

/-- `Send` has returned to the request, with success. -/
def Phase.isSent : Phase → Bool
  | .waiting | .woken | .erased | .checked _ | .returned _ => true
  | _ => false

/-- A `Caller` keeps its identifier once it is constructed. -/
theorem caller_id_step (hstep : Step state action next) {call : ι}
    (hpast : (state.phase call).isBefore = false) :
    (next.caller call).id = (state.caller call).id := by
  cases hstep with
  | create created id hphase =>
      have hne : call ≠ created := by
        rintro rfl
        rw [hphase] at hpast
        cases hpast
      simp [State.setPhase, State.setCaller, hne]
  | response message receiver hqueue hphase =>
      exact state.setCaller_complete_id receiver call message
  | mark marked rest hwatchdog hphase => exact state.setCaller_timeOut_id marked call
  | _ => rfl

end FireboltTransport.Client

namespace FireboltTransport.Exchange

open Semantics Transport

universe u v w

variable {τ : Type u} {ι : Type v} {κ : Type w}

/-- The account of both maps, for every order of steps. -/
structure Recorded (state : State τ ι κ) : Prop where
  wellFormed : Client.WellFormed state.client
  exchange : ∀ op thread entered stage,
    state.transport.phase op = .running thread entered stage → stage.isExchange = true
  fresh : ∀ id node, state.transport.pendingQueue.lookup id = some node → node.entry = .new
  /-- Entries are there from their emplacement to the next close. -/
  entries : ∀ id op,
    state.transport.pendingQueue.lookup id = some ⟨op, .new⟩ ↔
      state.emplaced op = some (state.closes, id)
  emplaced : ∀ op, state.emplaced op ≠ none ↔ (state.transport.phase op).hasEmplaced
  emplaced_le : ∀ op closes id, state.emplaced op = some (closes, id) → closes ≤ state.closes
  past : ∀ call, state.transport.phase (.inl call) ≠ .idle →
    (state.client.phase call).isBefore = false
  target : ∀ call thread entered stage id,
    state.transport.phase (.inl call) = .running thread entered stage →
      stage.target = some id → (state.client.caller call).id = id
  emplaced_id : ∀ call closes id, state.emplaced (.inl call) = some (closes, id) →
    (state.client.caller call).id = id
  sent : ∀ call, (state.client.phase call).isSent = true → ∃ thread entered left,
    state.transport.phase (.inl call) = .returned thread entered left (.status .none)
  failed : ∀ call error, state.client.phase call = .failed error → ∃ thread entered left,
    state.transport.phase (.inl call) = .returned thread entered left (.status error) ∧
      error ≠ .none

theorem recorded_initial (clock : Timestamp) : Recorded (initial clock : State τ ι κ) where
  wellFormed := Client.wellFormed_initial _ clock
  exchange := by simp [initial, Sections.initial]
  fresh := by simp [initial, Sections.initial]
  entries := by simp [initial, Sections.initial]
  emplaced := by simp [initial, Sections.initial, Sections.Phase.hasEmplaced]
  emplaced_le := by simp [initial]
  past := by simp [initial, Sections.initial]
  target := by simp [initial, Sections.initial]
  emplaced_id := by simp [initial]
  sent := by simp [initial, Client.initial, Client.Phase.isSent]
  failed := by simp [initial, Client.initial]

section Step

variable [DecidableEq ι] {state next : State τ ι κ}

/-- A step of the client, outside `Send`. -/
theorem Recorded.client_step (hrecorded : Recorded state) {action : Client.Action ι}
    {client : Client.State ι} {channel : Option Channel} (hlocal : isLocal action = true)
    (hstep : Client.Step { state.client with transport := state.transport.channel } action
      client) :
    Recorded { state with
      client := client
      transport := { state.transport with channel := channel } } where
  wellFormed := by
    have hwf := hrecorded.wellFormed
    have hshared :
        Client.WellFormed { state.client with transport := state.transport.channel } :=
      ⟨hwf.queued_id, hwf.queued_phase, hwf.outdated_phase, hwf.outdated_not_queued,
        hwf.outdated_nodup, hwf.fresh⟩
    exact hshared.step hstep
  exchange := hrecorded.exchange
  fresh := hrecorded.fresh
  entries := hrecorded.entries
  emplaced := hrecorded.emplaced
  emplaced_le := hrecorded.emplaced_le
  past := fun call hphase => Client.isBefore_step hstep (hrecorded.past call hphase)
  target := by
    intro call thread entered stage id hphase htarget
    have hpast := hrecorded.past call (by rw [hphase]; simp)
    rw [Client.caller_id_step hstep hpast]
    exact hrecorded.target call thread entered stage id hphase htarget
  emplaced_id := by
    intro call closes id hemplaced
    have hphase : (state.transport.phase (.inl call)).hasEmplaced :=
      (hrecorded.emplaced (.inl call)).mp (by rw [hemplaced]; simp)
    have hpast := hrecorded.past call (by
      intro hidle
      rw [hidle] at hphase
      exact hphase)
    rw [Client.caller_id_step hstep hpast]
    exact hrecorded.emplaced_id call closes id hemplaced
  sent := by
    intro call hsent
    apply hrecorded.sent
    cases hstep with
    | send | sendFailed | setTransport => cases hlocal
    | refuse actor hphase | draw actor channel hphase | create actor id hphase
    | insert actor hphase | wake actor hphase | erase actor hphase | check actor hphase
    | readResponse actor hphase | readError actor hphase =>
        by_cases hcall : call = actor
        · subst hcall
          simp_all [Client.State.setPhase, Client.State.setCaller, Client.Phase.isSent]
        · simpa [Client.State.setPhase, Client.State.setCaller, hcall] using hsent
    | _ => exact hsent
  failed := by
    intro call error hfailed
    apply hrecorded.failed
    cases hstep with
    | send | sendFailed | setTransport => cases hlocal
    | refuse actor hphase | draw actor channel hphase | create actor id hphase
    | insert actor hphase | wake actor hphase | erase actor hphase | check actor hphase
    | readResponse actor hphase | readError actor hphase =>
        have hne : call ≠ actor := by
          rintro rfl
          simp [Client.State.setPhase] at hfailed
        simpa [Client.State.setPhase, Client.State.setCaller, hne] using hfailed
    | _ => exact hfailed

/-- `Send` returns to its request. -/
theorem Recorded.sent_step (hrecorded : Recorded state) {call : ι} {thread : τ}
    {entered left : ℕ} {result : Error} {client : Client.State ι}
    (hreturned : state.transport.phase (.inl call) =
      .returned thread entered left (.status result))
    (hstep : Client.Step state.client (.send call result) client) :
    Recorded { state with client := client } where
  wellFormed := hrecorded.wellFormed.step hstep
  exchange := hrecorded.exchange
  fresh := hrecorded.fresh
  entries := hrecorded.entries
  emplaced := hrecorded.emplaced
  emplaced_le := hrecorded.emplaced_le
  past := fun other hphase => Client.isBefore_step hstep (hrecorded.past other hphase)
  target := by
    cases hstep <;> exact hrecorded.target
  emplaced_id := by
    cases hstep <;> exact hrecorded.emplaced_id
  sent := by
    intro other hsent
    by_cases hother : other = call
    · subst hother
      cases hstep with
      | send _ hphase => exact ⟨_, _, _, hreturned⟩
      | sendFailed _ _ hphase hresult =>
          simp [Client.State.setPhase, Client.Phase.isSent] at hsent
    · apply hrecorded.sent other
      cases hstep <;> simpa [Client.State.setPhase, hother] using hsent
  failed := by
    intro other error hfailed
    by_cases hother : other = call
    · subst hother
      cases hstep with
      | send _ hphase => simp [Client.State.setPhase] at hfailed
      | sendFailed _ _ hphase hresult =>
          obtain rfl : result = error := by simpa [Client.State.setPhase] using hfailed
          exact ⟨_, _, _, hreturned, hresult⟩
    · apply hrecorded.failed other
      cases hstep <;> simpa [Client.State.setPhase, hother] using hfailed

variable [DecidableEq κ] [DecidableEq τ] {codes : CoreErrors} {parse : Text → Message}

/-- An operation of the exchange begins. -/
theorem Recorded.start_step (hrecorded : Recorded state) {op : ι ⊕ κ} {thread : τ}
    {operation : Sections.Operation} {stage : Sections.Stage (ι ⊕ κ)} {channel : Option Channel}
    (hadmits : state.admits (.start op thread operation) = true)
    (hidle : state.transport.phase op = .idle)
    (hfirst : operation.first parse state.transport.channel = some (stage, channel))
    (after : Sections.State τ (ι ⊕ κ))
    (hpending : after.pendingQueue = state.transport.pendingQueue)
    (hphase : ∀ other, after.phase other =
      if other = op then .running thread (state.transport.adminLock.count thread) stage
      else state.transport.phase other) :
    Recorded { state with transport := after } := by
  have hoperation : operation.isExchange = true := by
    cases op with
    | inl call => cases operation <;> first | rfl | cases hadmits
    | inr other => cases operation <;> first | rfl | cases hadmits
  obtain ⟨first, hstage, hexchange, hnot⟩ := Sections.first_isExchange hoperation
  obtain ⟨rfl, _⟩ : first = stage ∧ _ := by
    rw [hstage] at hfirst
    exact Prod.mk.inj (Option.some.inj hfirst)
  have hcalls : ∀ call, op = .inl call → state.client.phase call = .inserted ∧
      ∀ id, first.target = some id → (state.client.caller call).id = id := by
    rintro call rfl
    cases operation with
    | send id method parameters =>
        obtain ⟨hinserted, hid⟩ := of_decide_eq_true hadmits
        refine ⟨hinserted, fun target htarget => ?_⟩
        cases hstage
        cases htarget
        exact hid
    | _ => cases hadmits
  have hkeeps : ∀ other which entered left result,
      state.transport.phase other = .returned which entered left result →
        after.phase other = .returned which entered left result := by
    intro other which entered left result hreturned
    rw [hphase, if_neg, hreturned]
    rintro rfl
    rw [hidle] at hreturned
    cases hreturned
  exact {
    wellFormed := hrecorded.wellFormed
    exchange := by
      intro other which entered later hrunning
      rw [show after.phase other = _ from hphase other] at hrunning
      split_ifs at hrunning with hother
      · cases hrunning
        exact hexchange
      · exact hrecorded.exchange other which entered later hrunning
    fresh := by
      show ∀ id node, after.pendingQueue.lookup id = some node → _
      rw [hpending]
      exact hrecorded.fresh
    entries := by
      show ∀ id other, after.pendingQueue.lookup id = some ⟨other, .new⟩ ↔ _
      rw [hpending]
      exact hrecorded.entries
    emplaced := by
      intro other
      show _ ↔ (after.phase other).hasEmplaced
      rw [hphase other]
      split_ifs with hother
      · subst hother
        rw [hrecorded.emplaced other, hidle]
        simp [Sections.Phase.hasEmplaced, hnot]
      · exact hrecorded.emplaced other
    past := by
      intro call hstarted
      rw [show after.phase (.inl call) = _ from hphase _] at hstarted
      split_ifs at hstarted with hcall
      · show (state.client.phase call).isBefore = false
        rw [(hcalls call hcall.symm).1]
        rfl
      · exact hrecorded.past call hstarted
    target := by
      intro call which entered later id hrunning htarget
      rw [show after.phase (.inl call) = _ from hphase _] at hrunning
      split_ifs at hrunning with hcall
      · cases hrunning
        exact (hcalls call hcall.symm).2 id htarget
      · exact hrecorded.target call which entered later id hrunning htarget
    emplaced_le := hrecorded.emplaced_le
    emplaced_id := hrecorded.emplaced_id
    sent := by
      intro call hsent
      obtain ⟨which, entered, left, hreturned⟩ := hrecorded.sent call hsent
      exact ⟨which, entered, left, hkeeps _ _ _ _ _ hreturned⟩
    failed := by
      intro call error hfailed
      obtain ⟨which, entered, left, hreturned, herror⟩ := hrecorded.failed call error hfailed
      exact ⟨which, entered, left, hkeeps _ _ _ _ _ hreturned, herror⟩ }

omit [DecidableEq τ] in
/-- The record of a step of an operation. -/
theorem record_next {op : ι ⊕ κ} {thread : τ} {entered : ℕ} {stage : Sections.Stage (ι ⊕ κ)}
    (hphase : state.transport.phase op = .running thread entered stage) :
    state.record (.next op) = state.recordStage op stage := by
  simp only [State.record, hphase]

/-- The entries after a step are those emplaced since the last close. -/
theorem Recorded.entries_next (hrecorded : Recorded state) {op : ι ⊕ κ} {thread : τ}
    {entered : ℕ} {stage : Sections.Stage (ι ⊕ κ)} {after : Sections.State τ (ι ⊕ κ)}
    {outcome : Sections.Outcome (ι ⊕ κ)}
    (hphase : state.transport.phase op = .running thread entered stage)
    (hrun : stage.run codes state.transport op thread = some (after, outcome))
    (id : MessageID) (other : ι ⊕ κ) :
    after.pendingQueue.lookup id = some ⟨other, .new⟩ ↔
      (state.record (.next op)).emplaced other =
        some ((state.record (.next op)).closes, id) := by
  have hstage := hrecorded.exchange op thread entered stage hphase
  rw [Sections.lookup_run hstage hrecorded.fresh hrun, record_next hphase]
  by_cases hempties : stage.empties = true
  · have hnone : stage.emplaces state.transport = none := by
      cases hemplaces : stage.emplaces state.transport with
      | none => rfl
      | some new =>
          rw [(Sections.emplaces_eq_some hemplaces).2.2.1] at hempties
          cases hempties
    simp only [State.emplaced_of_none hnone, State.recordStage_closes, hempties, if_true]
    refine iff_of_false (by simp) fun hemplaced => ?_
    have hle := hrecorded.emplaced_le other _ id hemplaced
    omega
  · rw [if_neg hempties, State.recordStage_closes, if_neg hempties]
    cases hemplaces : stage.emplaces state.transport with
    | none =>
        rw [State.emplaced_of_none hemplaces]
        simpa using hrecorded.entries id other
    | some new =>
        rw [State.emplaced_of_some hemplaces]
        obtain ⟨_, hnot, _, hunused⟩ := Sections.emplaces_eq_some hemplaces
        have hfresh : state.emplaced op = none := by
          by_contra hsome
          have hhas := (hrecorded.emplaced op).mp hsome
          rw [hphase] at hhas
          simp [Sections.Phase.hasEmplaced, hnot] at hhas
        simp only [Option.some.injEq]
        by_cases hother : other = op
        · subst hother
          simp only [Function.update_self, Option.some.injEq, Prod.mk.injEq, true_and]
          by_cases hid : new = id
          · simp [hid]
          · simp only [if_neg hid, hrecorded.entries id other, hfresh]
            simp [hid]
        · simp only [Function.update_of_ne hother]
          by_cases hid : new = id
          · subst hid
            simp only [if_true, Option.some.injEq, Sections.Node.mk.injEq, and_true]
            refine iff_of_false (fun h => hother h.symm) fun hemplaced => ?_
            rw [← hrecorded.entries new other, hunused] at hemplaced
            cases hemplaced
          · rw [if_neg hid]
            exact hrecorded.entries id other

omit [DecidableEq τ] in
/-- What is recorded after a step was recorded by it or before. -/
theorem emplaced_recordStage {op other : ι ⊕ κ} {stage : Sections.Stage (ι ⊕ κ)} {closes : ℕ}
    {id : MessageID} (hemplaced : (state.recordStage op stage).emplaced other = some (closes, id)) :
    (other = op ∧ closes = state.closes ∧ stage.emplaces state.transport = some id) ∨
      state.emplaced other = some (closes, id) := by
  cases hemplaces : stage.emplaces state.transport with
  | none =>
      rw [State.emplaced_of_none hemplaces] at hemplaced
      exact .inr hemplaced
  | some new =>
      rw [State.emplaced_of_some hemplaces] at hemplaced
      by_cases hother : other = op
      · subst hother
        rw [Function.update_self] at hemplaced
        obtain ⟨rfl, rfl⟩ := Prod.mk.inj (Option.some.inj hemplaced)
        exact .inl ⟨rfl, rfl, rfl⟩
      · rw [Function.update_of_ne hother] at hemplaced
        exact .inr hemplaced

/-- After a step, what is recorded of an operation agrees with how far the operation is. -/
theorem Recorded.emplaced_next (hrecorded : Recorded state) {op : ι ⊕ κ} {thread : τ}
    {entered : ℕ} {stage : Sections.Stage (ι ⊕ κ)} {after : Sections.State τ (ι ⊕ κ)}
    {outcome : Sections.Outcome (ι ⊕ κ)}
    (hphase : state.transport.phase op = .running thread entered stage)
    (hrun : stage.run codes state.transport op thread = some (after, outcome)) (other : ι ⊕ κ) :
    (state.record (.next op)).emplaced other ≠ none ↔
      ((after.proceed op thread entered outcome).phase other).hasEmplaced := by
  have hstage := hrecorded.exchange op thread entered stage hphase
  obtain ⟨_, houtcome⟩ := Sections.outcome_hasEmplaced hstage hrun
  rw [Sections.proceed_phase, (Sections.run_frame hrun).1, record_next hphase]
  by_cases hother : other = op
  · subst hother
    have hbefore := hrecorded.emplaced other
    rw [hphase] at hbefore
    rw [if_pos rfl, Sections.Outcome.phase_hasEmplaced, houtcome]
    cases hemplaces : stage.emplaces state.transport with
    | none =>
        rw [State.emplaced_of_none hemplaces]
        simpa [Sections.Phase.hasEmplaced] using hbefore
    | some id =>
        rw [State.emplaced_of_some hemplaces]
        simp
  · rw [if_neg hother]
    cases hemplaces : stage.emplaces state.transport with
    | none =>
        rw [State.emplaced_of_none hemplaces]
        exact hrecorded.emplaced other
    | some id =>
        rw [State.emplaced_of_some hemplaces, Function.update_of_ne hother]
        exact hrecorded.emplaced other

/-- An operation of the exchange makes a step. -/
theorem Recorded.next_step (hrecorded : Recorded state) {op : ι ⊕ κ} {thread : τ}
    {entered : ℕ} {stage : Sections.Stage (ι ⊕ κ)} {after : Sections.State τ (ι ⊕ κ)}
    {outcome : Sections.Outcome (ι ⊕ κ)}
    (hphase : state.transport.phase op = .running thread entered stage)
    (hrun : stage.run codes state.transport op thread = some (after, outcome)) :
    Recorded { state.record (.next op) with
      transport := after.proceed op thread entered outcome } := by
  have hstage := hrecorded.exchange op thread entered stage hphase
  have hframe := (Sections.run_frame hrun).1
  have hclient : (state.record (.next op)).client = state.client := by
    rw [record_next hphase, State.recordStage_client]
  have hphases : ∀ other, (after.proceed op thread entered outcome).phase other =
      if other = op then outcome.phase thread entered (after.adminLock.count thread)
      else state.transport.phase other := by
    intro other
    rw [Sections.proceed_phase, hframe]
  have hreturned : ∀ call which times left result,
      state.transport.phase (.inl call) = .returned which times left result →
        (after.proceed op thread entered outcome).phase (.inl call) =
          .returned which times left result := by
    intro call which times left result hcall
    rw [hphases, if_neg, hcall]
    rintro rfl
    rw [hphase] at hcall
    cases hcall
  exact {
    wellFormed := by
      rw [hclient]
      exact hrecorded.wellFormed
    exchange := by
      intro other which times later hrunning
      rw [show (after.proceed op thread entered outcome).phase other = _ from hphases other]
        at hrunning
      split_ifs at hrunning with hother
      · cases outcome with
        | goOn next =>
            cases hrunning
            exact (Sections.goOn_isExchange hstage hrun).1
        | «return» | undefined => cases hrunning
      · exact hrecorded.exchange other which times later hrunning
    fresh := by
      intro id node hlookup
      rw [show (after.proceed op thread entered outcome).pendingQueue = _ from
        Sections.proceed_pendingQueue entered, Sections.lookup_run hstage hrecorded.fresh hrun]
        at hlookup
      split_ifs at hlookup
      · cases hlookup
        rfl
      · exact hrecorded.fresh id node hlookup
    entries := by
      intro id other
      rw [show (after.proceed op thread entered outcome).pendingQueue = _ from
        Sections.proceed_pendingQueue entered]
      exact hrecorded.entries_next hphase hrun id other
    emplaced := hrecorded.emplaced_next hphase hrun
    emplaced_le := by
      intro other closes id hemplaced
      show closes ≤ (state.record (.next op)).closes
      simp only [record_next hphase] at hemplaced ⊢
      have hmono : state.closes ≤ (state.recordStage op stage).closes := by
        rw [State.recordStage_closes]
        split_ifs <;> omega
      rcases emplaced_recordStage hemplaced with ⟨_, rfl, _⟩ | hbefore
      · exact hmono
      · exact (hrecorded.emplaced_le other closes id hbefore).trans hmono
    past := by
      intro call hstarted
      rw [hclient]
      apply hrecorded.past call
      rw [show (after.proceed op thread entered outcome).phase (.inl call) = _ from hphases _]
        at hstarted
      split_ifs at hstarted with hcall
      · rw [hcall, hphase]
        simp
      · exact hstarted
    target := by
      intro call which times later id hrunning htarget
      rw [hclient]
      rw [show (after.proceed op thread entered outcome).phase (.inl call) = _ from hphases _]
        at hrunning
      split_ifs at hrunning with hcall
      · subst hcall
        cases outcome with
        | goOn next =>
            cases hrunning
            exact hrecorded.target call thread entered stage id hphase
              ((Sections.goOn_isExchange hstage hrun).2 id htarget)
        | «return» | undefined => cases hrunning
      · exact hrecorded.target call which times later id hrunning htarget
    emplaced_id := by
      intro call closes id hemplaced
      rw [hclient]
      simp only [record_next hphase] at hemplaced
      rcases emplaced_recordStage hemplaced with ⟨rfl, _, hemplaces⟩ | hbefore
      · exact hrecorded.target call thread entered stage id hphase
          (Sections.emplaces_eq_some hemplaces).1
      · exact hrecorded.emplaced_id call closes id hbefore
    sent := by
      intro call hsent
      rw [hclient] at hsent
      obtain ⟨which, times, left, hcall⟩ := hrecorded.sent call hsent
      exact ⟨which, times, left, hreturned call which times left _ hcall⟩
    failed := by
      intro call error hfailed
      rw [hclient] at hfailed
      obtain ⟨which, times, left, hcall, herror⟩ := hrecorded.failed call error hfailed
      exact ⟨which, times, left, hreturned call which times left _ hcall, herror⟩ }

/-- Every step keeps the account. -/
theorem Recorded.step (hrecorded : Recorded state) {action : Action τ ι κ}
    (hstep : Step codes parse state action next) : Recorded next := by
  cases hstep with
  | client action client hlocal hclient => exact hrecorded.client_step hlocal hclient
  | sent call thread entered left result client hreturned hclient =>
      exact hrecorded.sent_step hreturned hclient
  | transport action transport hadmits htransport =>
      cases htransport with
      | suspend suspended => exact ⟨hrecorded.wellFormed, hrecorded.exchange, hrecorded.fresh,
          hrecorded.entries, hrecorded.emplaced, hrecorded.emplaced_le, hrecorded.past,
          hrecorded.target, hrecorded.emplaced_id, hrecorded.sent, hrecorded.failed⟩
      | start op thread operation stage channel hidle hbusy hfirst =>
          apply hrecorded.start_step hadmits hidle hfirst
          · rfl
          · intro other
            simp [Sections.State.setPhase, Function.update_apply]
      | startUndefined op thread operation hidle hbusy hfirst =>
          obtain ⟨stage, hstage, _⟩ : ∃ stage, operation.first parse state.transport.channel =
              some (stage, state.transport.channel) ∧ True := by
            cases op <;> cases operation <;> first | exact ⟨_, rfl, trivial⟩ | cases hadmits
          rw [hstage] at hfirst
          cases hfirst
      | next op thread entered stage after outcome hphase hrun =>
          exact hrecorded.next_step hphase hrun
      | expire op thread entered id owner signalled response hphase hentry =>
          have hstage := hrecorded.exchange op thread entered _ hphase
          cases hstage

end Step

end FireboltTransport.Exchange
