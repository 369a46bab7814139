/-
# The listen handshake

`GatewayImpl::Subscribe` inserts the callback, asks the peer to listen and takes
the insertion back when the request fails; `GatewayImpl::Unsubscribe` removes the
callback and tells the peer.  Both look at the `listening` member of the reply,
and both write `status == Error::General` where an assignment is meant, so a
peer that does not confirm is taken for one that does.
-/

import FireboltTransport.Gateway.Server

namespace FireboltTransport.GatewayImpl

open Semantics Server

universe u

/-- What `Client::Request` leaves: its status and the `Listening` member of the
`ListeningResponse`, which stays unset unless a reply sets it. -/
structure ListenOutcome where
  status : Error
  listening : Field Bool
  deriving DecidableEq

/-- The peer has replied that it is, or is not, listening. -/
def ListenOutcome.Confirms (outcome : ListenOutcome) (listening : Bool) : Prop :=
  outcome.status = .none ∧ outcome.listening = ⟨true, listening⟩

instance (outcome : ListenOutcome) (listening : Bool) : Decidable (outcome.Confirms listening) :=
  inferInstanceAs (Decidable (_ ∧ _))

/-- The status `Subscribe` goes on with after the request. -/
def subscribeStatus (outcome : ListenOutcome) : Error :=
  if outcome.status = .none ∧ (!outcome.listening.isSet || !outcome.listening.value) then
    -- `status == Firebolt::Error::General;` assigns nothing.
    outcome.status
  else outcome.status

/-- The status `Unsubscribe` returns after the request. -/
def unsubscribeStatus (outcome : ListenOutcome) : Error :=
  if outcome.status = .none ∧ (!outcome.listening.isSet || outcome.listening.value) then
    -- `status == Firebolt::Error::General;` assigns nothing.
    outcome.status
  else outcome.status

variable {β : Type u}

/-- `GatewayImpl::Subscribe`, alone with the event map, when its request ends in `outcome`. -/
def subscribe (connected : Bool) (eventMap : EventMap β) (event : Text)
    (callbackData : CallbackDataEvent β) (outcome : ListenOutcome) : Error × EventMap β :=
  if !connected then (.notConnected, eventMap)
  else
    let inserted := Server.subscribe eventMap event callbackData
    if inserted.1 ≠ .none then inserted
    else
      let status := subscribeStatus outcome
      if status ≠ .none then (status, (Server.unsubscribe inserted.2 event).2)
      else (status, inserted.2)

/-- `GatewayImpl::Unsubscribe`, alone with the event map, when its request ends in `outcome`. -/
def unsubscribe (eventMap : EventMap β) (event : Text) (outcome : ListenOutcome) :
    Error × EventMap β :=
  let erased := Server.unsubscribe eventMap event
  if erased.1 ≠ .none then erased else (unsubscribeStatus outcome, erased.2)

@[simp]
theorem subscribeStatus_eq (outcome : ListenOutcome) :
    subscribeStatus outcome = outcome.status := by
  simp [subscribeStatus]

@[simp]
theorem unsubscribeStatus_eq (outcome : ListenOutcome) :
    unsubscribeStatus outcome = outcome.status := by
  simp [unsubscribeStatus]

/-! ## What the handshake is for -/

/-- A subscription succeeds exactly when the key was free and the peer confirms, and
changes the map only then. -/
structure SubscribeDecided (connected : Bool) (eventMap : EventMap β) (event : Text)
    (callbackData : CallbackDataEvent β) (outcome : ListenOutcome)
    (result : Error × EventMap β) : Prop where
  succeeds_iff : result.1 = .none ↔ connected = true ∧
    eventMap.lookup (getKeyFromEvent event) = none ∧ outcome.Confirms true
  gains : result.1 = .none → result.2 = eventMap.insert (getKeyFromEvent event) callbackData
  unchanged : result.1 ≠ .none → result.2 = eventMap

/-- Removing a subscription succeeds exactly when there was one and the peer confirms. -/
def UnsubscribeDecided (eventMap : EventMap β) (event : Text) (outcome : ListenOutcome)
    (result : Error × EventMap β) : Prop :=
  result.1 = .none ↔ eventMap.lookup (getKeyFromEvent event) ≠ none ∧ outcome.Confirms false

/-- The request succeeded and yet the peer did not confirm. -/
def Unconfirmed (outcome : ListenOutcome) (listening : Bool) : Prop :=
  outcome.status = .none ∧ ¬ outcome.Confirms listening

section Handshake

variable {connected : Bool} {eventMap : EventMap β} {event : Text}
  {callbackData : CallbackDataEvent β} {outcome : ListenOutcome}

/-- What `Subscribe` does under a free key: the status of the request alone decides. -/
theorem subscribe_of_free (hfree : eventMap.lookup (getKeyFromEvent event) = none) :
    subscribe true eventMap event callbackData outcome =
      (outcome.status, if outcome.status = .none then
        eventMap.insert (getKeyFromEvent event) callbackData else eventMap) := by
  simp only [subscribe, Server.subscribe_of_free hfree, subscribeStatus_eq]
  by_cases hstatus : outcome.status = .none
  · simp [hstatus]
  · simp [hstatus, Server.unsubscribe_insert hfree]

theorem subscribe_of_taken (htaken : eventMap.lookup (getKeyFromEvent event) ≠ none) :
    subscribe true eventMap event callbackData outcome = (.general, eventMap) := by
  simp [subscribe, Server.subscribe_of_taken htaken]

theorem unsubscribe_of_free (hfree : eventMap.lookup (getKeyFromEvent event) = none) :
    unsubscribe eventMap event outcome = (.general, eventMap) := by
  simp [unsubscribe, Server.unsubscribe_of_free hfree]

theorem unsubscribe_of_taken (htaken : eventMap.lookup (getKeyFromEvent event) ≠ none) :
    unsubscribe eventMap event outcome =
      (outcome.status, eventMap.erase (getKeyFromEvent event)) := by
  simp [unsubscribe, Server.unsubscribe_of_taken htaken]

/-- `Subscribe` is decided by the handshake unless the peer's refusal is missed. -/
theorem subscribeDecided_iff :
    SubscribeDecided connected eventMap event callbackData outcome
        (subscribe connected eventMap event callbackData outcome) ↔
      ¬ (connected = true ∧ eventMap.lookup (getKeyFromEvent event) = none ∧
        Unconfirmed outcome true) := by
  cases connected with
  | false =>
      simp only [Bool.false_eq_true, false_and, not_false_eq_true, iff_true]
      exact ⟨by simp [subscribe], by simp [subscribe], by simp [subscribe]⟩
  | true =>
      by_cases hfree : eventMap.lookup (getKeyFromEvent event) = none
      · rw [subscribe_of_free hfree]
        simp only [hfree, true_and, Unconfirmed, not_and, not_not]
        constructor
        · intro hdecided hstatus
          exact (hdecided.succeeds_iff.mp hstatus).2.2
        · intro hconfirms
          refine ⟨?_, ?_, ?_⟩
          · simp only [hfree, true_and]
            exact ⟨hconfirms, fun h => h.1⟩
          · intro hstatus
            exact if_pos hstatus
          · intro hstatus
            exact if_neg hstatus
      · rw [subscribe_of_taken hfree]
        simp only [hfree, false_and, and_false, not_false_eq_true, iff_true]
        exact ⟨by simp [hfree], by simp, by simp⟩

/-- `Unsubscribe` is decided by the handshake unless the peer's refusal is missed. -/
theorem unsubscribeDecided_iff :
    UnsubscribeDecided eventMap event outcome (unsubscribe eventMap event outcome) ↔
      ¬ (eventMap.lookup (getKeyFromEvent event) ≠ none ∧ Unconfirmed outcome false) := by
  by_cases hfree : eventMap.lookup (getKeyFromEvent event) = none
  · simp [UnsubscribeDecided, unsubscribe_of_free hfree, hfree]
  · simp only [UnsubscribeDecided, unsubscribe_of_taken hfree, ne_eq, hfree, not_false_eq_true,
      true_and, Unconfirmed, not_and, not_not]
    exact ⟨fun h => h.mp, fun h => ⟨h, fun hconfirms => hconfirms.1⟩⟩

end Handshake

/-- **The handshake.**  For every event map, event name and outcome of the request,
`Subscribe` and `Unsubscribe` do what the handshake is for exactly when they do not get
to a request that succeeds without the peer's confirmation. -/
theorem handshake_decides_iff (connected : Bool) (eventMap : EventMap β) (event : Text)
    (callbackData : CallbackDataEvent β) (outcome : ListenOutcome) :
    (SubscribeDecided connected eventMap event callbackData outcome
        (subscribe connected eventMap event callbackData outcome) ↔
      ¬ (connected = true ∧ eventMap.lookup (getKeyFromEvent event) = none ∧
        Unconfirmed outcome true)) ∧
    (UnsubscribeDecided eventMap event outcome (unsubscribe eventMap event outcome) ↔
      ¬ (eventMap.lookup (getKeyFromEvent event) ≠ none ∧ Unconfirmed outcome false)) :=
  ⟨subscribeDecided_iff, unsubscribeDecided_iff⟩

/-- The peer answers `listening: false` to a subscription, which succeeds. -/
theorem refused_subscribe_succeeds :
    let callbackData : CallbackDataEvent Unit := ⟨(), 0, 0⟩
    let outcome : ListenOutcome := ⟨.none, ⟨true, false⟩⟩
    (subscribe true (∅ : EventMap Unit) ['A', '.', 'b'] callbackData outcome).1 = .none ∧
      ¬ SubscribeDecided true ∅ ['A', '.', 'b'] callbackData outcome
        (subscribe true ∅ ['A', '.', 'b'] callbackData outcome) := by
  refine ⟨by decide, fun hdecided => ?_⟩
  have hconfirms := (hdecided.succeeds_iff.mp (by decide)).2.2
  exact absurd hconfirms (by decide)

end FireboltTransport.GatewayImpl
