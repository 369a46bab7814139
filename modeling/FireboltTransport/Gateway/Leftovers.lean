/-
# No bookkeeping is left behind

When every entry of the two maps belongs to an operation under way, an operation
that has returned has left nothing, and both maps are empty when nothing is under
way.  Three steps can break this: the return of a request, the return of an answer,
and the return of a `Send` that failed.  The first two are harmless only when a
`Closed` has emptied `_pendingQueue` since the emplacement, the third only when a
sweep of the watchdog has collected the queue entry.
-/

import FireboltTransport.Gateway.Bookkeeping

namespace FireboltTransport.Client

universe u

variable {ι : Type u} [DecidableEq ι] {state next : State ι} {action : Action ι}

/-- Outside `Send`, a request under way stays so until it has read its outcome. -/
theorem isInProgress_step (hstep : Step state action next) {call : ι}
    (hsend : ∀ result, action ≠ .send call result)
    (hprogress : (state.phase call).isInProgress = true) :
    (next.phase call).isInProgress = true ∨
      action = .read call ∧ ∃ outcome, next.phase call = .returned outcome := by
  cases hstep with
  | refuse actor hphase =>
      left
      have hne : call ≠ actor := by
        rintro rfl
        rw [hphase] at hprogress
        cases hprogress
      simpa [State.setPhase, hne] using hprogress
  | sendFailed actor result hphase hresult =>
      left
      have hne : call ≠ actor := by
        rintro rfl
        exact hsend result rfl
      simpa [State.setPhase, hne] using hprogress
  | readResponse actor hphase | readError actor hphase =>
      by_cases hcall : call = actor
      · subst hcall
        exact .inr ⟨rfl, _, Function.update_self _ _ _⟩
      · left
        simpa [State.setPhase, hcall] using hprogress
  | draw actor channel hphase | create actor id hphase | insert actor hphase
  | send actor hphase | wake actor hphase | erase actor hphase | check actor hphase =>
      left
      by_cases hcall : call = actor
      · subst hcall
        simp [State.setPhase, Phase.isInProgress]
      · simpa [State.setPhase, State.setCaller, hcall] using hprogress
  | _ => exact .inl hprogress

end FireboltTransport.Client

namespace FireboltTransport.Sections

open Semantics Transport

universe u v

variable {τ : Type u} {κ : Type v} [DecidableEq κ] [DecidableEq τ] {codes : CoreErrors}
  {state after : State τ κ} {op : κ} {thread : τ} {stage : Stage κ}

/-- An operation that has emplaced its identifier returns from `Submit`. -/
theorem returns_of_hasEmplaced {result : Result} (hhas : stage.hasEmplaced = true)
    (hrun : stage.run codes state op thread = some (after, .return result)) :
    ∃ message, stage = .outside (.submit message) := by
  cases stage with
  | leave rest => cases hrun
  | outside rest =>
      cases rest with
      | submit message => exact ⟨message, rfl⟩
      | _ => cases hhas
  | _ => cases hhas

/-- The operation is about to submit its message, after which it returns. -/
def Phase.isSubmitting {τ : Type u} {κ : Type v} : Phase τ κ → Bool
  | .running _ _ (.outside (.submit _)) => true
  | _ => false

/-- The operation has returned an error. -/
def Phase.hasFailed {τ : Type u} {κ : Type v} : Phase τ κ → Bool
  | .returned _ _ _ (.status error) => decide (error ≠ .none)
  | _ => false

/-- What emplaces an identifier does not return. -/
theorem goOn_of_emplaces {outcome : Outcome κ} {id : MessageID}
    (hemplaces : stage.emplaces state = some id)
    (hrun : stage.run codes state op thread = some (after, outcome)) :
    ∃ later, outcome = .goOn later := by
  unfold Stage.emplaces at hemplaces
  split at hemplaces
  · split_ifs at hemplaces with hunused
    simp only [Stage.run, Body.run, hunused] at hrun
    cases hrun
    exact ⟨_, rfl⟩
  · cases hemplaces

end FireboltTransport.Sections

namespace FireboltTransport.Exchange

open Semantics Transport

universe u v w

variable {τ : Type u} {ι : Type v} {κ : Type w}

/-- The operation has begun and has not returned. -/
def State.InProgress (state : State τ ι κ) : ι ⊕ κ → Prop
  | .inl call => (state.client.phase call).isInProgress = true
  | .inr op => ∃ thread entered stage,
      state.transport.phase (.inr op) = .running thread entered stage

/-- Nothing is left in the maps by operations that have returned. -/
structure NoLeftovers (state : State τ ι κ) : Prop where
  /-- An entry under the identifier of a request that has returned, if there is one, belongs to
  an operation in progress. -/
  request : ∀ call, ((∃ error, state.client.phase call = .failed error) ∨
      ∃ outcome, state.client.phase call = .returned outcome) →
    (∀ other, state.client.queue.lookup (state.client.caller call).id = some other →
      state.InProgress (.inl other)) ∧
    ∀ node, state.transport.pendingQueue.lookup (state.client.caller call).id = some node →
      state.InProgress node.owner
  answer : ∀ op thread entered left result,
    state.transport.phase (.inr op) = .returned thread entered left result →
      ∀ id node, state.transport.pendingQueue.lookup id = some node → node.owner ≠ .inr op
  idle : (∀ op, ¬ state.InProgress op) →
    state.client.queue = ∅ ∧ state.transport.pendingQueue = ∅

/-- No `Closed` has emptied `_pendingQueue` since the operation emplaced its identifier. -/
def State.isCurrent (state : State τ ι κ) (op : ι ⊕ κ) : Bool :=
  match state.emplaced op with
  | some (closes, _) => decide (closes = state.closes)
  | none => false

/-- A request that waited and an answer return only after a close that followed their
emplacement, and a request whose `Send` failed only when the queue no longer lists it under its
identifier: a sweep has collected the entry, or another call with the identifier took its place. -/
def ReturnsUnrecorded [DecidableEq ι] (state : State τ ι κ) : Action τ ι κ → Prop
  | .client (.read call) => state.isCurrent (.inl call) = false
  | .client _ => True
  | .transport (.next (.inr op)) =>
      (state.transport.phase (.inr op)).isSubmitting = true → state.isCurrent (.inr op) = false
  | .transport _ => True
  | .sent call =>
      (state.transport.phase (.inl call)).hasFailed = true →
        state.client.queue.lookup (state.client.caller call).id ≠ some call

instance [DecidableEq ι] (state : State τ ι κ) :
    ∀ action, Decidable (ReturnsUnrecorded state action)
  | .client (.read call) => inferInstanceAs (Decidable (state.isCurrent (.inl call) = false))
  | .client (.setTransport _) | .client (.tick _) | .client (.draw _) | .client (.create _)
  | .client (.insert _) | .client (.send _ _) | .client (.wake _) | .client (.erase _)
  | .client (.check _) | .client (.response _) | .client .sample | .client .collect
  | .client .mark | .client .sleep => isTrue trivial
  | .transport (.next (.inr op)) =>
      inferInstanceAs (Decidable ((state.transport.phase (.inr op)).isSubmitting = true →
        state.isCurrent (.inr op) = false))
  | .transport (.next (.inl _)) | .transport (.suspend _) | .transport (.start _ _ _)
  | .transport (.expire _) => isTrue trivial
  | .sent call =>
      inferInstanceAs (Decidable ((state.transport.phase (.inl call)).hasFailed = true →
        state.client.queue.lookup (state.client.caller call).id ≠ some call))

theorem State.isCurrent_iff {state : State τ ι κ} {op : ι ⊕ κ} :
    state.isCurrent op = true ↔ ∃ id, state.emplaced op = some (state.closes, id) := by
  unfold isCurrent
  split
  · next closes id hemplaced => simp [hemplaced, eq_comm]
  · next hemplaced => simp [hemplaced]

/-- Every entry belongs to an operation in progress. -/
structure Kept (state : State τ ι κ) : Prop where
  recorded : Recorded state
  queue : ∀ id call, state.client.queue.lookup id = some call → state.InProgress (.inl call)
  pending : ∀ id node, state.transport.pendingQueue.lookup id = some node →
    state.InProgress node.owner

theorem kept_initial (clock : Timestamp) : Kept (initial clock : State τ ι κ) where
  recorded := recorded_initial clock
  queue := by simp [initial, Client.initial]
  pending := by simp [initial, Sections.initial]

theorem Kept.noLeftovers {state : State τ ι κ} (hkept : Kept state) : NoLeftovers state where
  request := fun call _ =>
    ⟨fun other hlookup => hkept.queue _ other hlookup,
      fun node hlookup => hkept.pending _ node hlookup⟩
  answer := by
    intro op thread entered left result hreturned id node hlookup howner
    have hprogress := hkept.pending id node hlookup
    rw [howner] at hprogress
    obtain ⟨which, times, stage, hrunning⟩ := hprogress
    rw [hreturned] at hrunning
    cases hrunning
  idle := by
    intro hidle
    constructor
    · apply StdMap.eq_empty_of_lookup
      intro id
      apply Option.eq_none_iff_forall_ne_some.mpr
      exact fun call hlookup => hidle _ (hkept.queue id call hlookup)
    · apply StdMap.eq_empty_of_lookup
      intro id
      apply Option.eq_none_iff_forall_ne_some.mpr
      exact fun node hlookup => hidle _ (hkept.pending id node hlookup)

/-- An entry of `_pendingQueue` shows its owner to be current. -/
theorem Recorded.isCurrent_of_lookup {state : State τ ι κ} (hrecorded : Recorded state)
    {id : MessageID} {node : Sections.Node (ι ⊕ κ)}
    (hlookup : state.transport.pendingQueue.lookup id = some node) :
    state.isCurrent node.owner = true := by
  rw [State.isCurrent_iff]
  refine ⟨id, (hrecorded.entries id node.owner).mp ?_⟩
  rw [hlookup, ← hrecorded.fresh id node hlookup]

/-- A current operation has its entry. -/
theorem Recorded.lookup_of_isCurrent {state : State τ ι κ} (hrecorded : Recorded state)
    {op : ι ⊕ κ} (hcurrent : state.isCurrent op = true) :
    ∃ id, state.transport.pendingQueue.lookup id = some ⟨op, .new⟩ ∧
      ∀ call, op = .inl call → (state.client.caller call).id = id := by
  obtain ⟨id, hemplaced⟩ := State.isCurrent_iff.mp hcurrent
  refine ⟨id, (hrecorded.entries id op).mpr hemplaced, ?_⟩
  rintro call rfl
  exact hrecorded.emplaced_id call state.closes id hemplaced

/-- An operation that is under way, but is not the one that steps, stays under way. -/
theorem inProgress_of_other {op : ι ⊕ κ} {after : Sections.State τ (ι ⊕ κ)}
    {state before : State τ ι κ} (hclient : before.client = state.client)
    (hphase : ∀ other, op = .inr other → after.phase op = state.transport.phase op)
    (hprogress : state.InProgress op) :
    State.InProgress { before with transport := after } op := by
  cases op with
  | inl call =>
      show (before.client.phase call).isInProgress = true
      rw [hclient]
      exact hprogress
  | inr other =>
      obtain ⟨thread, entered, stage, hrunning⟩ := hprogress
      exact ⟨thread, entered, stage, (hphase other rfl).trans hrunning⟩

section Step

variable [DecidableEq ι] {state next : State τ ι κ}

/-- A step of the client outside `Send` keeps the maps clean, unless a request returns whose
entry is still there. -/
theorem Kept.client_step (hkept : Kept state) {action : Client.Action ι}
    {client : Client.State ι} {channel : Option Channel} (hlocal : isLocal action = true)
    (hunrecorded : ReturnsUnrecorded state (.client action))
    (hstep : Client.Step { state.client with transport := state.transport.channel } action
      client) :
    Kept { state with
      client := client
      transport := { state.transport with channel := channel } } := by
  have hrecorded : Recorded { state with
      client := client
      transport := { state.transport with channel := channel } } :=
    hkept.recorded.client_step hlocal hstep
  have hsend : ∀ call result, action ≠ .send call result := by
    rintro call result rfl
    cases hlocal
  refine ⟨hrecorded, ?_, ?_⟩
  · intro id call hlookup
    have hqueued := hrecorded.wellFormed.queued_phase id call hlookup
    rcases Client.lookup_step hstep hlookup with hbefore | rfl
    · have hprogress := hkept.queue id call hbefore
      rcases Client.isInProgress_step hstep (hsend call) hprogress with hstill | ⟨_, outcome, hout⟩
      · exact hstill
      · rw [show client.phase call = _ from hout] at hqueued
        cases hqueued
    · show (client.phase call).isInProgress = true
      cases hstep with
      | insert _ hphase => simp [Client.State.setPhase, Client.Phase.isInProgress]
  · intro id node hlookup
    have hprogress := hkept.pending id node hlookup
    have hcurrent := hkept.recorded.isCurrent_of_lookup hlookup
    cases howner : node.owner with
    | inr op =>
        rw [howner] at hprogress
        exact hprogress
    | inl call =>
        rw [howner] at hprogress hcurrent
        rcases Client.isInProgress_step hstep (hsend call) hprogress with hstill | ⟨rfl, _⟩
        · exact hstill
        · have hgone : state.isCurrent (.inl call) = false := hunrecorded
          rw [hgone] at hcurrent
          cases hcurrent

/-- So does the return of `Send`, unless it failed and its queue entry is still there. -/
theorem Kept.sent_step (hkept : Kept state) {call : ι} {thread : τ} {entered left : ℕ}
    {result : Error} {client : Client.State ι}
    (hreturned : state.transport.phase (.inl call) =
      .returned thread entered left (.status result))
    (hunrecorded : ReturnsUnrecorded state (.sent call))
    (hstep : Client.Step state.client (.send call result) client) :
    Kept { state with client := client } := by
  have hrecorded := hkept.recorded.sent_step hreturned hstep
  simp only [ReturnsUnrecorded, hreturned, Sections.Phase.hasFailed, decide_eq_true_eq]
    at hunrecorded
  refine ⟨hrecorded, ?_, ?_⟩
  · intro id other hlookup
    cases hstep with
    | send _ hphase =>
        by_cases hother : other = call
        · subst hother
          show (Function.update state.client.phase other Client.Phase.waiting other).isInProgress
            = true
          rw [Function.update_self]
          rfl
        · simpa [State.InProgress, Client.State.setPhase, hother] using
            hkept.queue id other hlookup
    | sendFailed _ _ hphase hresult =>
        have hother : other ≠ call := by
          rintro rfl
          exact hunrecorded hresult (hkept.recorded.wellFormed.lookup_id hlookup)
        simpa [State.InProgress, Client.State.setPhase, hother] using
          hkept.queue id other hlookup
  · intro id node hlookup
    have hprogress := hkept.pending id node hlookup
    cases howner : node.owner with
    | inr op =>
        rw [howner] at hprogress
        exact hprogress
    | inl other =>
        rw [howner] at hprogress
        have hcurrent := hkept.recorded.isCurrent_of_lookup hlookup
        rw [howner] at hcurrent
        obtain ⟨stamp, hemplaced⟩ := State.isCurrent_iff.mp hcurrent
        cases hstep with
        | send _ hphase =>
            by_cases hother : other = call
            · subst hother
              simp [State.InProgress, Client.State.setPhase, Client.Phase.isInProgress]
            · simpa [State.InProgress, Client.State.setPhase, hother] using hprogress
        | sendFailed _ _ hphase hresult =>
            have hother : other ≠ call := by
              rintro rfl
              have hhas := (hkept.recorded.emplaced (.inl other)).mp (by rw [hemplaced]; simp)
              rw [hreturned] at hhas
              exact hresult (Sections.Result.status.inj hhas)
            simpa [State.InProgress, Client.State.setPhase, hother] using hprogress

variable [DecidableEq κ] [DecidableEq τ] {codes : CoreErrors} {parse : Text → Message}

/-- A step of an operation keeps the maps clean, unless an answer returns whose entry is still
there. -/
theorem Kept.next_step (hkept : Kept state) {op : ι ⊕ κ} {thread : τ} {entered : ℕ}
    {stage : Sections.Stage (ι ⊕ κ)} {after : Sections.State τ (ι ⊕ κ)}
    {outcome : Sections.Outcome (ι ⊕ κ)}
    (hunrecorded : ReturnsUnrecorded state (.transport (.next op)))
    (hphase : state.transport.phase op = .running thread entered stage)
    (hrun : stage.run codes state.transport op thread = some (after, outcome)) :
    Kept { state.record (.next op) with
      transport := after.proceed op thread entered outcome } := by
  have hrecorded := hkept.recorded
  have hstage := hrecorded.exchange op thread entered stage hphase
  obtain ⟨hdefined, _⟩ := Sections.outcome_hasEmplaced hstage hrun
  have hclient : (state.record (.next op)).client = state.client := by
    rw [record_next hphase, State.recordStage_client]
  have hothers : ∀ other, other ≠ op →
      (after.proceed op thread entered outcome).phase other = state.transport.phase other := by
    intro other hother
    rw [Sections.proceed_phase, if_neg hother, (Sections.run_frame hrun).1]
  have hown : (after.proceed op thread entered outcome).phase op =
      outcome.phase thread entered (after.adminLock.count thread) := by
    rw [Sections.proceed_phase, if_pos rfl]
  refine ⟨hrecorded.next_step hphase hrun, ?_, ?_⟩
  · intro id call hlookup
    rw [hclient] at hlookup
    exact inProgress_of_other hclient (by simp) (hkept.queue id call hlookup)
  · intro id node hlookup
    rw [show (after.proceed op thread entered outcome).pendingQueue = _ from
      Sections.proceed_pendingQueue entered, Sections.lookup_run hstage hrecorded.fresh hrun]
      at hlookup
    split_ifs at hlookup with hempties hemplaces
    · -- The entry of this step: its owner has yet to submit.
      cases hlookup
      obtain ⟨later, rfl⟩ := Sections.goOn_of_emplaces hemplaces hrun
      cases op with
      | inr other => exact ⟨thread, entered, later, hown⟩
      | inl call =>
          show ((state.record _).client.phase call).isInProgress = true
          rw [hclient]
          have hpast := hrecorded.past call (by rw [hphase]; simp)
          have hsent : (state.client.phase call).isSent ≠ true := by
            intro hsent
            obtain ⟨_, _, _, hreturned⟩ := hrecorded.sent call hsent
            rw [hphase] at hreturned
            cases hreturned
          have hfailed : ∀ error, state.client.phase call ≠ .failed error := by
            intro error hfailed
            obtain ⟨_, _, _, hreturned, _⟩ := hrecorded.failed call error hfailed
            rw [hphase] at hreturned
            cases hreturned
          cases hcall : state.client.phase call <;>
            simp_all [Client.Phase.isBefore, Client.Phase.isSent, Client.Phase.isInProgress]
    · -- An entry that was there before.
      have hprogress := hkept.pending id node hlookup
      by_cases howner : node.owner = op
      · cases op with
        | inl call =>
            rw [howner] at hprogress ⊢
            exact inProgress_of_other hclient (by simp) hprogress
        | inr other =>
            rw [howner]
            cases outcome with
            | goOn later => exact ⟨thread, entered, later, hown⟩
            | undefined => exact absurd rfl hdefined
            | «return» result =>
                have hcurrent := hrecorded.isCurrent_of_lookup hlookup
                rw [howner] at hcurrent
                obtain ⟨stamp, hemplaced⟩ := State.isCurrent_iff.mp hcurrent
                have hhas := (hrecorded.emplaced (.inr other)).mp (by rw [hemplaced]; simp)
                rw [hphase] at hhas
                obtain ⟨message, rfl⟩ := Sections.returns_of_hasEmplaced hhas hrun
                have hgone : state.isCurrent (.inr other) = false :=
                  hunrecorded (by rw [hphase]; rfl)
                rw [hgone] at hcurrent
                cases hcurrent
      · exact inProgress_of_other hclient (fun _ _ => hothers _ howner) hprogress

/-- A step that meets the condition keeps the maps clean. -/
theorem Kept.step (hkept : Kept state) {action : Action τ ι κ}
    (hunrecorded : ReturnsUnrecorded state action) (hstep : Step codes parse state action next) :
    Kept next := by
  have hrecorded := hkept.recorded.step hstep
  cases hstep with
  | client action client hlocal hclient => exact hkept.client_step hlocal hunrecorded hclient
  | sent call thread entered left result client hreturned hclient =>
      exact hkept.sent_step hreturned hunrecorded hclient
  | transport action transport hadmits htransport =>
      cases htransport with
      | suspend suspended => exact ⟨hrecorded, hkept.queue, hkept.pending⟩
      | start op thread operation stage channel hidle hbusy hfirst =>
          have hother : ∀ other, state.InProgress other → ∀ which, other = .inr which →
              Function.update state.transport.phase op
                (.running thread (state.transport.adminLock.count thread) stage) other =
                  state.transport.phase other := by
            rintro other hprogress which rfl
            apply Function.update_of_ne
            rintro rfl
            obtain ⟨_, _, _, hrunning⟩ := hprogress
            rw [hidle] at hrunning
            cases hrunning
          refine ⟨hrecorded, ?_, ?_⟩
          · exact fun id call hlookup => hkept.queue id call hlookup
          · intro id node hlookup
            have hprogress := hkept.pending id node hlookup
            exact inProgress_of_other rfl (hother _ hprogress) hprogress
      | startUndefined op thread operation hidle hbusy hfirst =>
          cases op <;> cases operation <;> first | cases hfirst | cases hadmits
      | next op thread entered stage after outcome hphase hrun =>
          exact hkept.next_step hunrecorded hphase hrun
      | expire op thread entered id owner signalled response hphase hentry =>
          cases hkept.recorded.exchange op thread entered _ hphase

/-- A step that does not meet it leaves an entry behind. -/
theorem Kept.returnsUnrecorded (hkept : Kept state) {action : Action τ ι κ}
    (hstep : Step codes parse state action next) (hnext : NoLeftovers next) :
    ReturnsUnrecorded state action := by
  have hrecorded := hkept.recorded
  cases hstep with
  | client action client hlocal hclient =>
      cases hclient with
      | readResponse call hphase | readError call hphase =>
          show state.isCurrent (.inl call) = false
          by_contra hcurrent
          obtain ⟨id, hlookup, hid⟩ :=
            hrecorded.lookup_of_isCurrent (Bool.not_eq_false _ ▸ hcurrent)
          have hreturned := (hnext.request call
            (.inr ⟨_, Function.update_self _ _ _⟩)).2 ⟨.inl call, .new⟩
          have hprogress := hreturned (by
            show state.transport.pendingQueue.lookup (state.client.caller call).id = _
            rw [hid call rfl]
            exact hlookup)
          simp [State.InProgress, Client.State.setPhase, Client.Phase.isInProgress] at hprogress
      | _ => trivial
  | sent call thread entered left result client hreturned hclient =>
      simp only [ReturnsUnrecorded, hreturned, Sections.Phase.hasFailed, decide_eq_true_eq]
      intro hresult hlookup
      cases hclient with
      | send _ hphase => exact hresult rfl
      | sendFailed _ _ hphase _ =>
          have hprogress := (hnext.request call
            (.inl ⟨_, Function.update_self _ _ _⟩)).1 call hlookup
          simp [State.InProgress, Client.State.setPhase, Client.Phase.isInProgress] at hprogress
  | transport action transport hadmits htransport =>
      cases htransport with
      | next op thread entered stage after outcome hphase hrun =>
          cases op with
          | inl call => trivial
          | inr other =>
              intro hsubmitting
              rw [hphase] at hsubmitting
              obtain ⟨message, rfl⟩ : ∃ message, stage = .outside (.submit message) := by
                cases stage with
                | outside rest =>
                    cases rest with
                    | submit message => exact ⟨message, rfl⟩
                    | _ => cases hsubmitting
                | _ => cases hsubmitting
              cases hrun
              by_contra hcurrent
              obtain ⟨id, hlookup, _⟩ :=
                hrecorded.lookup_of_isCurrent (Bool.not_eq_false _ ▸ hcurrent)
              exact hnext.answer other thread entered _ _ (Function.update_self _ _ _) id
                ⟨.inr other, .new⟩ hlookup rfl
      | _ => trivial

end Step

/-- **No leftovers.**  In every run of requests, answers, replies, sweeps and closes on one
transport, no operation that has returned has left an entry in either map, and both maps are
empty whenever nothing is in progress, in every state reached, if and only if every request that
waited and every answer returns only after a `Closed` that followed the emplacement of its
identifier, and every request whose `Send` failed only after a sweep has collected its queue
entry. -/
theorem noLeftovers_throughout_iff [DecidableEq ι] [DecidableEq κ] [DecidableEq τ]
    {codes : CoreErrors} {parse : Text → Message} {clock : Timestamp}
    {schedule : List (Action τ ι κ)} {final : State τ ι κ}
    (hrun : exec (step codes parse) (initial clock) schedule = some final) :
    Throughout (step codes parse) (initial clock) schedule NoLeftovers ↔
      Meets (step codes parse) ReturnsUnrecorded (initial clock) schedule :=
  throughout_iff_meets (kept_initial clock) (fun _ hkept => hkept.noLeftovers)
    (fun _ _ _ hkept hunrecorded htaken => hkept.step hunrecorded (step_cases htaken))
    (fun _ _ _ hkept htaken hnext => hkept.returnsUnrecorded (step_cases htaken) hnext) hrun

/-- A request is answered by the peer and returns. -/
def answered (call : ι) (id : MessageID) : List (Action τ ι κ) :=
  [.client (.response (.reply id ['1'])), .client (.wake call), .client (.erase call),
    .client (.check call), .client (.read call)]

/-- The connection closes while a request waits, and its reply arrives all the same. -/
theorem noLeftovers_throughout_iff_closedWhileWaiting :
    Throughout (step exampleCodes fun _ => .empty) (initial .zero : State Bool Unit Unit)
      (sends () false 1 ++ closed () true ++ answered () 1) NoLeftovers := by
  obtain ⟨final, hrun, _⟩ : ∃ final : State Bool Unit Unit,
      exec (step exampleCodes fun _ => .empty) (initial .zero)
          (sends () false 1 ++ closed () true ++ answered () 1) = some final ∧
        decide (final.client.phase () = .returned (.response ['1'])) = true :=
    exists_exec_of_any (by decide)
  exact (noLeftovers_throughout_iff hrun).mpr (by decide)

/-- A request is answered and returns, and its entry stays in `_pendingQueue`. -/
theorem entry_left_by_request :
    ¬ Throughout (step exampleCodes fun _ => .empty) (initial .zero : State Bool Unit Unit)
      (sends () false 1 ++ answered () 1) NoLeftovers := by
  intro hclean
  obtain ⟨final, hrun, hfacts⟩ : ∃ final : State Bool Unit Unit,
      exec (step exampleCodes fun _ => .empty) (initial .zero)
          (sends () false 1 ++ answered () 1) = some final ∧
        decide (final.client.phase () = .returned (.response ['1']) ∧
          (final.client.caller ()).id = 1 ∧
          final.transport.pendingQueue.lookup 1 = some ⟨.inl (), .new⟩) = true :=
    exists_exec_of_any (by decide)
  obtain ⟨hreturned, hid, hlookup⟩ := of_decide_eq_true hfacts
  have hprogress := ((hclean.last hrun).request () (.inr ⟨_, hreturned⟩)).2 ⟨.inl (), .new⟩
    (by rw [hid]; exact hlookup)
  simp [State.InProgress, hreturned, Client.Phase.isInProgress] at hprogress

end FireboltTransport.Exchange
