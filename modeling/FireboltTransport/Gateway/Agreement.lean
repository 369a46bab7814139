/-
# Local and peer subscription state

The event map changes at the local update of a call and the peer's state is
decided by the order of the requests.  The two agree whenever nothing is in
progress if each call sends its request before another call for the same event
updates the map; otherwise the order of the updates and that of the requests can
differ, and the peer is left with the request of the earlier update.
-/

import FireboltTransport.Gateway.Listening
import Mathlib.Data.Fintype.Basic

namespace FireboltTransport.Listening

open Semantics Server GatewayImpl

universe u v

variable {β : Type u} {κ : Type v}

/-- The call that is being made, or has been made. -/
def Phase.call : Phase β → Option (Call β)
  | .idle => none
  | .begun call | .updated call | .sent call | .answered call _ | .rollingBack call _
  | .returned call _ => some call

/-- Nothing is in progress. -/
def Phase.isOver : Phase β → Bool
  | .idle | .returned _ _ => true
  | _ => false

/-- No call of the state is in progress. -/
def Quiescent (state : State β κ) : Prop := ∀ op, (state.phase op).isOver = true

/-- The event's key is in the event map if and only if the peer is listening for it. -/
def Agrees (state : State β κ) (event : Text) : Prop :=
  (state.eventMap.lookup (getKeyFromEvent event)).isSome = state.listening event

/-- The call has updated the event map and has not sent its request. -/
def Phase.unsent : Phase β → Option (Call β)
  | .updated call => some call
  | _ => none

/-- The event map is not updated for a key while another call has updated it for that key
and has still to send its request. -/
def UpdatesApart (state : State β κ) : Action β κ → Prop
  | .update op =>
      match state.phase op with
      | .begun call => (call.update state.eventMap).1 = .none →
          ∀ other, ∀ otherCall ∈ (state.phase other).unsent, otherCall.key ≠ call.key
      | _ => True
  | _ => True

/-- A request that ends otherwise than by the peer's confirmation. -/
def Action.isComplete : Action β κ → Bool
  | .complete _ _ => true
  | _ => false

/-- The calls of the schedule that share the key of `event` name that very event. -/
def NamedAlike (event : Text) : Action β κ → Prop
  | .start _ call => call.key = getKeyFromEvent event → call.event = event
  | _ => True

/-- What the peer will be listening for once it has processed the requests on their way. -/
def State.upcoming (state : State β κ) (event : Text) : Bool :=
  state.wire.foldl (fun listening message =>
    if message.event = event then message.listen else listening) (state.listening event)

/-- The invariant of a run whose requests all end in a confirmation. -/
structure InStep (event : Text) (state : State β κ) : Prop where
  named : ∀ op call, (state.phase op).call = some call → call.key = getKeyFromEvent event →
    call.event = event
  updated : ∀ op call, state.phase op = .updated call → call.key = getKeyFromEvent event →
    (state.eventMap.lookup (getKeyFromEvent event)).isSome = call.listen
  updated_unique : ∀ first second firstCall secondCall, state.phase first = .updated firstCall →
    state.phase second = .updated secondCall → firstCall.key = getKeyFromEvent event →
    secondCall.key = getKeyFromEvent event → first = second
  settled : (∀ op call, state.phase op = .updated call → call.key ≠ getKeyFromEvent event) →
    (state.eventMap.lookup (getKeyFromEvent event)).isSome = state.upcoming event
  confirmed : ∀ op call outcome, state.phase op = .answered call outcome →
    outcome.status = .none
  not_rollingBack : ∀ op call status, state.phase op ≠ .rollingBack call status
  wire_sent : ∀ message ∈ state.wire, ∃ call, state.phase message.op = .sent call ∧
    message = call.request message.op
  wire_nodup : (state.wire.map fun message => message.op).Nodup

theorem inStep_initial (connected : Bool) (event : Text) :
    InStep event (initial connected : State β κ) where
  named := by simp [initial, Phase.call]
  updated := by simp [initial]
  updated_unique := by simp [initial]
  settled := by simp [initial, State.upcoming]
  confirmed := by simp [initial]
  not_rollingBack := by simp [initial]
  wire_sent := by simp [initial]
  wire_nodup := by simp [initial]

/-- When nothing is in progress, the peer has processed everything. -/
theorem InStep.agrees {event : Text} {state : State β κ} (hinStep : InStep event state)
    (hquiescent : Quiescent state) : Agrees state event := by
  have hwire : state.wire = [] := by
    cases hcons : state.wire with
    | nil => rfl
    | cons message rest =>
        obtain ⟨call, hsent, _⟩ := hinStep.wire_sent message (by simp [hcons])
        have hover := hquiescent message.op
        rw [hsent] at hover
        cases hover
  have hsettled := hinStep.settled fun op call hupdated => by
    have hover := hquiescent op
    rw [hupdated] at hover
    cases hover
  rw [Agrees, hsettled, State.upcoming, hwire]
  rfl

/-! ## The local update -/

/-- A successful update leaves the key of its call as the call wants it. -/
theorem lookup_update {call : Call β} {eventMap later : EventMap β}
    (hupdate : call.update eventMap = (.none, later)) (key : Text) :
    (later.lookup key).isSome =
      if key = call.key then call.listen else (eventMap.lookup key).isSome := by
  cases call with
  | subscribe event callbackData =>
      by_cases hfree : eventMap.lookup (getKeyFromEvent event) = none
      · simp only [Call.update, Server.subscribe_of_free hfree, Prod.mk.injEq, true_and] at hupdate
        rw [← hupdate, StdMap.lookup_insert_of_eq_or_ne]
        by_cases hkey : key = getKeyFromEvent event <;>
          simp [Call.key, Call.event, Call.listen, hkey]
      · simp [Call.update, Server.subscribe_of_taken hfree] at hupdate
  | unsubscribe event =>
      by_cases hfree : eventMap.lookup (getKeyFromEvent event) = none
      · simp [Call.update, Server.unsubscribe_of_free hfree] at hupdate
      · simp only [Call.update, Server.unsubscribe_of_taken hfree, Prod.mk.injEq, true_and]
          at hupdate
        rw [← hupdate, StdMap.lookup_erase_of_eq_or_ne]
        by_cases hkey : key = getKeyFromEvent event <;>
          simp [Call.key, Call.event, Call.listen, hkey]

/-! ## One step -/

@[simp]
theorem Call.status_eq (call : Call β) (outcome : ListenOutcome) :
    call.status outcome = outcome.status := by
  cases call <;> simp [Call.status]

theorem UpdatesApart.key_ne {state : State β κ} {op other : κ} {call otherCall : Call β}
    {later : EventMap β} (hapart : UpdatesApart state (.update op))
    (hbegun : state.phase op = .begun call)
    (hupdate : call.update state.eventMap = (.none, later))
    (hother : state.phase other = .updated otherCall) : otherCall.key ≠ call.key := by
  simp only [UpdatesApart, hbegun] at hapart
  exact hapart (by rw [hupdate]) other otherCall (by simp [hother, Phase.unsent])

section Step

variable [DecidableEq κ] {event : Text} {state next : State β κ} {action : Action β κ}

/-- A call is made by its own start only. -/
theorem call_step (hstep : Step state action next) {op : κ} {call : Call β}
    (hcall : (next.phase op).call = some call) :
    (state.phase op).call = some call ∨ action = .start op call := by
  cases hstep with
  | setTransport connected => exact .inl hcall
  | peerLate message rest hwire hphase => exact .inl hcall
  | refuse actor own hphase | start actor own hphase =>
      by_cases hop : op = actor
      · subst hop
        obtain rfl : own = call := by simpa [State.setPhase, Phase.call] using hcall
        exact .inr rfl
      · left
        simpa [State.setPhase, hop] using hcall
  | update actor own eventMap hphase | updateFailed actor own hphase | send actor own hphase
  | settle actor own outcome hphase | settleFailed actor own outcome hphase
  | rollback actor own status hphase =>
      left
      by_cases hop : op = actor
      · subst hop
        simpa [State.setPhase, hphase, Phase.call] using hcall
      · simpa [State.setPhase, hop] using hcall
  | peer message rest own hwire hphase =>
      left
      by_cases hop : op = message.op
      · subst hop
        simpa [State.setPhase, hphase, Phase.call] using hcall
      · simpa [State.setPhase, hop] using hcall
  | complete actor own outcome hphase =>
      left
      by_cases hop : op = actor
      · subst hop
        rcases hphase with hphase | hphase <;>
          simpa [State.setPhase, hphase, Phase.call] using hcall
      · simpa [State.setPhase, hop] using hcall

/-- Which calls have updated the map and not sent: those that had, and the one that does. -/
theorem updated_step (hstep : Step state action next) {op : κ} {call : Call β}
    (hupdated : next.phase op = .updated call) :
    state.phase op = .updated call ∨ (action = .update op ∧ state.phase op = .begun call ∧
      call.update state.eventMap = (.none, next.eventMap)) := by
  cases hstep with
  | setTransport connected => exact .inl hupdated
  | peerLate message rest hwire hphase => exact .inl hupdated
  | update actor own eventMap hphase hupdate =>
      by_cases hop : op = actor
      · subst hop
        obtain rfl : own = call := by simpa [State.setPhase] using hupdated
        exact .inr ⟨rfl, hphase, hupdate⟩
      · left
        simpa [State.setPhase, hop] using hupdated
  | refuse actor own hphase | start actor own hphase | updateFailed actor own hphase
  | send actor own hphase | settle actor own outcome hphase
  | settleFailed actor own outcome hphase | rollback actor own status hphase
  | complete actor own outcome hphase =>
      have hne : op ≠ actor := by
        rintro rfl
        simp [State.setPhase] at hupdated
      left
      simpa [State.setPhase, hne] using hupdated
  | peer message rest own hwire hphase =>
      have hne : op ≠ message.op := by
        rintro rfl
        simp [State.setPhase] at hupdated
      left
      simpa [State.setPhase, hne] using hupdated

/-- A call that has updated the map stays there until it sends or its request ends. -/
theorem updated_mono (hstep : Step state action next) {op : κ} {call : Call β}
    (hupdated : state.phase op = .updated call) (hsend : action ≠ .send op)
    (hcomplete : action.isComplete = false) : next.phase op = .updated call := by
  cases hstep with
  | setTransport connected => exact hupdated
  | peerLate message rest hwire hphase => exact hupdated
  | send actor own hphase =>
      have hne : op ≠ actor := by
        rintro rfl
        exact hsend rfl
      simpa [State.setPhase, hne] using hupdated
  | complete actor own outcome hphase => cases hcomplete
  | refuse actor own hphase | start actor own hphase | update actor own eventMap hphase
  | updateFailed actor own hphase | settle actor own outcome hphase
  | settleFailed actor own outcome hphase | rollback actor own status hphase =>
      have hne : op ≠ actor := by
        rintro rfl
        rw [hphase] at hupdated
        cases hupdated
      simpa [State.setPhase, hne] using hupdated
  | peer message rest own hwire hphase =>
      have hne : op ≠ message.op := by
        rintro rfl
        rw [hphase] at hupdated
        cases hupdated
      simpa [State.setPhase, hne] using hupdated

/-- Without rollbacks, only a successful update changes the event map. -/
theorem eventMap_step (hstep : Step state action next)
    (hrollback : ∀ op call status, state.phase op ≠ .rollingBack call status) :
    next.eventMap = state.eventMap ∨ ∃ op call, action = .update op ∧
      state.phase op = .begun call ∧ next.phase op = .updated call ∧
      call.update state.eventMap = (.none, next.eventMap) := by
  cases hstep with
  | update actor own eventMap hphase hupdate =>
      exact .inr ⟨actor, own, rfl, hphase, by simp [State.setPhase], hupdate⟩
  | rollback actor own status hphase => exact absurd hphase (hrollback actor own status)
  | _ => exact .inl rfl

theorem named_step (hinStep : InStep event state) (hstep : Step state action next)
    (hnamed : NamedAlike event action) (op : κ) (call : Call β)
    (hcall : (next.phase op).call = some call) (hkey : call.key = getKeyFromEvent event) :
    call.event = event := by
  rcases call_step hstep hcall with hbefore | rfl
  · exact hinStep.named op call hbefore hkey
  · exact hnamed hkey

theorem updated_lookup_step (hinStep : InStep event state) (hstep : Step state action next)
    (hapart : UpdatesApart state action) (op : κ) (call : Call β)
    (hupdated : next.phase op = .updated call) (hkey : call.key = getKeyFromEvent event) :
    (next.eventMap.lookup (getKeyFromEvent event)).isSome = call.listen := by
  rcases updated_step hstep hupdated with hbefore | ⟨rfl, hbegun, hupdate⟩
  · rcases eventMap_step hstep hinStep.not_rollingBack with
      hsame | ⟨actor, own, rfl, hbegun, _, hupdate⟩
    · rw [hsame]
      exact hinStep.updated op call hbefore hkey
    · -- Another call updates the map, for another key.
      have hne : getKeyFromEvent event ≠ own.key := by
        rw [← hkey]
        exact hapart.key_ne hbegun hupdate hbefore
      rw [lookup_update hupdate, if_neg hne]
      exact hinStep.updated op call hbefore hkey
  · rw [lookup_update hupdate, if_pos hkey.symm]

theorem updated_unique_step (hinStep : InStep event state) (hstep : Step state action next)
    (hapart : UpdatesApart state action) (first second : κ) (firstCall secondCall : Call β)
    (hfirst : next.phase first = .updated firstCall)
    (hsecond : next.phase second = .updated secondCall)
    (hfirstKey : firstCall.key = getKeyFromEvent event)
    (hsecondKey : secondCall.key = getKeyFromEvent event) : first = second := by
  have hsameKey := hfirstKey.trans hsecondKey.symm
  rcases updated_step hstep hfirst with hfirstBefore | ⟨rfl, hbegun, hupdate⟩
  · rcases updated_step hstep hsecond with hsecondBefore | ⟨rfl, hbegun, hupdate⟩
    · exact hinStep.updated_unique first second firstCall secondCall hfirstBefore hsecondBefore
        hfirstKey hsecondKey
    · exact absurd hsameKey (hapart.key_ne hbegun hupdate hfirstBefore)
  · rcases updated_step hstep hsecond with hsecondBefore | ⟨hsame, _, _⟩
    · exact absurd hsameKey.symm (hapart.key_ne hbegun hupdate hsecondBefore)
    · exact Action.update.inj hsame

/-- What the peer is going to listen for changes when a request for the event is sent. -/
theorem upcoming_step (hstep : Step state action next) (event : Text) :
    next.upcoming event = state.upcoming event ∨
      ∃ op call, action = .send op ∧ state.phase op = .updated call ∧
        next.upcoming event = if call.event = event then call.listen else state.upcoming event := by
  cases hstep with
  | send actor own hphase =>
      refine .inr ⟨actor, own, rfl, hphase, ?_⟩
      simp [State.upcoming, State.setPhase, List.foldl_append, Call.request]
  | peer message rest own hwire hphase =>
      left
      simp only [State.upcoming, State.setPhase, hwire, List.foldl_cons]
      by_cases hevent : message.event = event
      · simp [hevent]
      · simp [hevent, Ne.symm hevent]
  | peerLate message rest hwire hphase =>
      left
      simp only [State.upcoming, hwire, List.foldl_cons]
      by_cases hevent : message.event = event
      · simp [hevent]
      · simp [hevent, Ne.symm hevent]
  | _ => exact .inl rfl

theorem settled_step (hinStep : InStep event state) (hstep : Step state action next)
    (hcomplete : action.isComplete = false)
    (hnobody : ∀ op call, next.phase op = .updated call → call.key ≠ getKeyFromEvent event) :
    (next.eventMap.lookup (getKeyFromEvent event)).isSome = next.upcoming event := by
  by_cases hsend : ∃ op call, action = .send op ∧ state.phase op = .updated call ∧
      call.key = getKeyFromEvent event
  · -- The request that is sent is the one that belongs to the present state of the map.
    obtain ⟨op, call, rfl, hupdated, hkey⟩ := hsend
    have hname := hinStep.named op call (by rw [hupdated]; rfl) hkey
    have hlookup := hinStep.updated op call hupdated hkey
    cases hstep with
    | send _ own hphase =>
        obtain rfl : own = call := by simpa [hphase] using hupdated
        simp only [State.setPhase, State.upcoming, List.foldl_append, List.foldl_cons,
          List.foldl_nil, Call.request, hname, if_true]
        exact hlookup
  · have hupcoming : next.upcoming event = state.upcoming event := by
      rcases upcoming_step hstep event with hsame | ⟨op, call, rfl, hupdated, hupcoming⟩
      · exact hsame
      · have hother : call.event ≠ event := fun hname =>
          hsend ⟨op, call, rfl, hupdated, by rw [Call.key, hname]⟩
        rw [hupcoming, if_neg hother]
    have hlookup : (next.eventMap.lookup (getKeyFromEvent event)).isSome =
        (state.eventMap.lookup (getKeyFromEvent event)).isSome := by
      rcases eventMap_step hstep hinStep.not_rollingBack with
        hsame | ⟨op, call, rfl, _, hnext, hupdate⟩
      · rw [hsame]
      · rw [lookup_update hupdate, if_neg (Ne.symm (hnobody op call hnext))]
    rw [hlookup, hupcoming]
    apply hinStep.settled
    intro op call hupdated hkey
    have hnotSend : action ≠ .send op := by
      rintro rfl
      exact hsend ⟨op, call, rfl, hupdated, hkey⟩
    exact hnobody op call (updated_mono hstep hupdated hnotSend hcomplete) hkey

/-- A request that is on its way stays so, unless it is the one the peer processes. -/
theorem sent_mono (hstep : Step state action next) {op : κ} {call : Call β}
    (hsent : state.phase op = .sent call) (hcomplete : action.isComplete = false)
    (hpeer : action = .peer → ∀ message ∈ state.wire.head?, message.op ≠ op) :
    next.phase op = .sent call := by
  cases hstep with
  | setTransport connected => exact hsent
  | peerLate message rest hwire hphase => exact hsent
  | complete actor own outcome hphase => cases hcomplete
  | refuse actor own hphase | start actor own hphase | update actor own eventMap hphase
  | updateFailed actor own hphase | send actor own hphase | settle actor own outcome hphase
  | settleFailed actor own outcome hphase | rollback actor own status hphase =>
      have hne : op ≠ actor := by
        rintro rfl
        rw [hphase] at hsent
        cases hsent
      simpa [State.setPhase, hne] using hsent
  | peer message rest own hwire hphase =>
      have hne := hpeer rfl message (by simp [hwire])
      simpa [State.setPhase, Ne.symm hne] using hsent

theorem wire_sent_step (hinStep : InStep event state) (hstep : Step state action next)
    (hcomplete : action.isComplete = false) (message : Listen κ) (hmem : message ∈ next.wire) :
    ∃ call, next.phase message.op = .sent call ∧ message = call.request message.op := by
  have hkept : message ∈ state.wire → (action = .peer → message ∈ state.wire.tail) →
      ∃ call, next.phase message.op = .sent call ∧ message = call.request message.op := by
    intro hbefore htail
    obtain ⟨call, hsent, hmessage⟩ := hinStep.wire_sent message hbefore
    refine ⟨call, sent_mono hstep hsent hcomplete ?_, hmessage⟩
    intro haction first hfirst
    -- The request the peer processes is the only one of its call.
    have hnodup := hinStep.wire_nodup
    cases hwire : state.wire with
    | nil => simp [hwire] at hbefore
    | cons head rest =>
        obtain rfl : head = first := by simpa [hwire] using hfirst
        rw [hwire, List.map_cons, List.nodup_cons] at hnodup
        have hrest : message ∈ rest := by simpa [hwire] using htail haction
        intro hop
        exact hnodup.1 (hop ▸ List.mem_map_of_mem hrest)
  cases hstep with
  | send actor own hphase =>
      rcases List.mem_append.mp hmem with hbefore | hnew
      · exact hkept hbefore (by simp)
      · obtain rfl := List.mem_singleton.mp hnew
        exact ⟨own, by simp [State.setPhase, Call.request], rfl⟩
  | peer first rest own hwire hphase | peerLate first rest hwire hphase =>
      have hrest : message ∈ rest := hmem
      exact hkept (by rw [hwire]; exact List.mem_cons_of_mem _ hrest)
        (fun _ => by rw [hwire]; exact hrest)
  | _ => exact hkept hmem (by simp)

theorem wire_nodup_step (hinStep : InStep event state) (hstep : Step state action next) :
    (next.wire.map fun message => message.op).Nodup := by
  cases hstep with
  | send actor own hphase =>
      simp only [State.setPhase, List.map_append, List.map_cons, List.map_nil]
      rw [List.nodup_append]
      refine ⟨hinStep.wire_nodup, by simp, ?_⟩
      intro op hop other hother hsame
      obtain ⟨message, hmem, rfl⟩ := List.mem_map.mp hop
      obtain ⟨call, hsent, _⟩ := hinStep.wire_sent message hmem
      rw [hsame, List.mem_singleton.mp hother, Call.request, hphase] at hsent
      cases hsent
  | peer message rest own hwire hphase | peerLate message rest hwire hphase =>
      have hnodup := hinStep.wire_nodup
      rw [hwire, List.map_cons] at hnodup
      exact (List.nodup_cons.mp hnodup).2
  | _ => exact hinStep.wire_nodup

theorem confirmed_step (hinStep : InStep event state) (hstep : Step state action next)
    (hcomplete : action.isComplete = false) (op : κ) (call : Call β) (outcome : ListenOutcome)
    (hanswered : next.phase op = .answered call outcome) : outcome.status = .none := by
  cases hstep with
  | setTransport connected => exact hinStep.confirmed op call outcome hanswered
  | peerLate message rest hwire hphase => exact hinStep.confirmed op call outcome hanswered
  | complete actor own reply hphase => cases hcomplete
  | peer message rest own hwire hphase =>
      by_cases hop : op = message.op
      · subst hop
        simp only [State.setPhase, Function.update_self, Phase.answered.injEq] at hanswered
        rw [← hanswered.2]
        rfl
      · apply hinStep.confirmed op call
        simpa [State.setPhase, hop] using hanswered
  | refuse actor own hphase | start actor own hphase | update actor own eventMap hphase
  | updateFailed actor own hphase | send actor own hphase | settle actor own reply hphase
  | settleFailed actor own reply hphase | rollback actor own status hphase =>
      have hne : op ≠ actor := by
        rintro rfl
        simp [State.setPhase] at hanswered
      apply hinStep.confirmed op call
      simpa [State.setPhase, hne] using hanswered

theorem not_rollingBack_step (hinStep : InStep event state) (hstep : Step state action next)
    (op : κ) (call : Call β) (status : Error) : next.phase op ≠ .rollingBack call status := by
  intro hrolling
  have hprior := hinStep.not_rollingBack op call status
  cases hstep with
  | setTransport connected => exact hprior hrolling
  | peerLate message rest hwire hphase => exact hprior hrolling
  | settleFailed actor own outcome hphase hstatus =>
      apply hstatus
      rw [own.status_eq]
      exact hinStep.confirmed actor own outcome hphase
  | refuse actor own | start actor own | update actor own | updateFailed actor own
  | send actor own | settle actor own | rollback actor own | complete actor own =>
      have hne : op ≠ actor := by
        rintro rfl
        simp [State.setPhase] at hrolling
      exact hprior (by simpa [State.setPhase, hne] using hrolling)
  | peer message rest own =>
      have hne : op ≠ message.op := by
        rintro rfl
        simp [State.setPhase] at hrolling
      exact hprior (by simpa [State.setPhase, hne] using hrolling)

theorem InStep.step (hinStep : InStep event state) (hstep : Step state action next)
    (hcomplete : action.isComplete = false) (hnamed : NamedAlike event action)
    (hapart : UpdatesApart state action) : InStep event next where
  named := named_step hinStep hstep hnamed
  updated := updated_lookup_step hinStep hstep hapart
  updated_unique := updated_unique_step hinStep hstep hapart
  settled := settled_step hinStep hstep hcomplete
  confirmed := confirmed_step hinStep hstep hcomplete
  not_rollingBack := not_rollingBack_step hinStep hstep
  wire_sent := wire_sent_step hinStep hstep hcomplete
  wire_nodup := wire_nodup_step hinStep hstep

end Step

/-! ## Quiescent states -/

variable [DecidableEq κ]

/-- **Agreement.**  In every run in which the peer confirms every request, the calls that
share the event's key name that event, and no call updates the map for a key while
another has updated it and not sent its request, the event's key is in the event map if
and only if the peer is listening for it, in every state in which no call is in progress. -/
theorem agrees_of_updatesApart {connected : Bool} {event : Text} {schedule : List (Action β κ)}
    {final : State β κ} (hconfirmed : ∀ action ∈ schedule, action.isComplete = false)
    (hnamed : ∀ action ∈ schedule, NamedAlike event action)
    (hapart : Meets step UpdatesApart (initial connected) schedule)
    (hrun : exec step (initial connected) schedule = some final) (hquiescent : Quiescent final) :
    Agrees final event := by
  have hlabels : Meets step (fun _ action => action.isComplete = false ∧ NamedAlike event action)
      (initial connected) schedule :=
    meets_of_forall_mem fun action hmem _ => ⟨hconfirmed action hmem, hnamed action hmem⟩
  have hmeets := hapart.and hlabels
  have hinStep : InStep event final := by
    refine exec_invariant_of_meets ?_ (inStep_initial connected event) hmeets hrun
    intro state action next hprior hcondition htaken
    exact hprior.step (step_cases htaken) hcondition.2.1 hcondition.2.2 hcondition.1
  exact hinStep.agrees hquiescent

instance (event : Text) (action : Action β κ) : Decidable (NamedAlike event action) := by
  cases action <;> unfold NamedAlike <;> infer_instance

instance [Fintype κ] (state : State β κ) (action : Action β κ) :
    Decidable (UpdatesApart state action) := by
  cases action with
  | update op =>
      unfold UpdatesApart
      dsimp only
      split <;> infer_instance
  | _ => exact isTrue trivial

def exampleEvent : Text := ['A', '.', 'b']

def exampleSubscribe : Call Unit := .subscribe exampleEvent ⟨(), 0, 0⟩

/-- A subscription and its removal that overlap, each update followed by its request. -/
def overlapping (first second : κ) : List (Action Unit κ) :=
  [.start first exampleSubscribe, .start second (.unsubscribe exampleEvent),
    .update first, .send first, .update second, .send second,
    .peer, .settle first, .peer, .settle second]

theorem agrees_of_updatesApart_overlapping :
    ∃ final, exec step (initial true) (overlapping (0 : Fin 2) 1) = some final ∧ Quiescent final ∧
      Agrees final exampleEvent := by
  obtain ⟨final, hrun, hover⟩ : ∃ final : State Unit (Fin 2),
      exec step (initial true) (overlapping (0 : Fin 2) 1) = some final ∧
        decide (∀ op, (final.phase op).isOver = true) = true :=
    exists_exec_of_any (by decide)
  have hquiescent : Quiescent final := fun op => of_decide_eq_true hover op
  exact ⟨final, hrun, hquiescent,
    agrees_of_updatesApart (by decide) (by decide) (by decide) hrun hquiescent⟩

/-- A call removes the subscription and another one subscribes anew; the requests are
sent in the opposite order. -/
def crossed (first second third : κ) : List (Action Unit κ) :=
  [.start first exampleSubscribe, .update first, .send first, .peer, .settle first,
    .start second (.unsubscribe exampleEvent), .start third exampleSubscribe,
    .update second, .update third, .send third, .send second,
    .peer, .peer, .settle second, .settle third]

/-- All three calls succeed, the callback is registered and the peer is not listening. -/
theorem disagree_after_crossed :
    ∃ final : State Unit (Fin 3), exec step (initial true) (crossed 0 1 2) = some final ∧
      (∀ op, ∃ call, final.phase op = .returned call .none) ∧ Quiescent final ∧
      ¬ Agrees final exampleEvent := by
  obtain ⟨final, hrun, hfacts⟩ : ∃ final : State Unit (Fin 3),
      exec step (initial true) (crossed 0 1 2) = some final ∧
        decide (final.phase 0 = .returned exampleSubscribe .none ∧
          final.phase 1 = .returned (.unsubscribe exampleEvent) .none ∧
          final.phase 2 = .returned exampleSubscribe .none ∧
          (final.eventMap.lookup (getKeyFromEvent exampleEvent)).isSome = true ∧
          final.listening exampleEvent = false) = true :=
    exists_exec_of_any (by decide)
  obtain ⟨hfirst, hsecond, hthird, hsubscribed, hsilent⟩ := of_decide_eq_true hfacts
  have hreturned : ∀ op, ∃ call, final.phase op = .returned call .none := by
    intro op
    match op with
    | 0 => exact ⟨_, hfirst⟩
    | 1 => exact ⟨_, hsecond⟩
    | 2 => exact ⟨_, hthird⟩
  refine ⟨final, hrun, hreturned, fun op => ?_, fun hagrees => ?_⟩
  · obtain ⟨call, hop⟩ := hreturned op
    rw [hop]
    rfl
  · rw [Agrees, hsubscribed, hsilent] at hagrees
    cases hagrees

end FireboltTransport.Listening
