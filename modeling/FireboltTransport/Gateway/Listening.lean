/-
# Subscriptions under concurrency

Any number of `Subscribe` and `Unsubscribe` calls run against one event map and
one peer.  The local update of the map and the sending of the listen request are
separate steps, since no lock spans them, and so are the peer's processing of
the request, the end of the wait and the rollback of a failed subscription.

The peer applies the messages in the order they were sent and confirms each of
them truthfully.  Every other way a request can end, such as an error, a timeout
or a reply that does not confirm, is a step of its own.
-/

import FireboltTransport.Gateway.GatewayImpl
import FireboltTransport.Semantics.Run
import Mathlib.Logic.Function.Basic

namespace FireboltTransport.Listening

open Semantics Server GatewayImpl

universe u v

/-- A call of the gateway for one event. -/
inductive Call (β : Type u)
  | subscribe (event : Text) (callbackData : CallbackDataEvent β)
  | unsubscribe (event : Text)
  deriving DecidableEq

namespace Call

variable {β : Type u}

def event : Call β → Text
  | .subscribe event _ => event
  | .unsubscribe event => event

/-- The `listen` parameter of the request. -/
def listen : Call β → Bool
  | .subscribe _ _ => true
  | .unsubscribe _ => false

/-- The key the call is about. -/
def key (call : Call β) : Text := getKeyFromEvent call.event

/-- The local update of the event map. -/
def update (call : Call β) (eventMap : EventMap β) : Error × EventMap β :=
  match call with
  | .subscribe event callbackData => Server.subscribe eventMap event callbackData
  | .unsubscribe event => Server.unsubscribe eventMap event

/-- The status after the request. -/
def status : Call β → ListenOutcome → Error
  | .subscribe _ _ => subscribeStatus
  | .unsubscribe _ => unsubscribeStatus

end Call

/-- Where a call is. -/
inductive Phase (β : Type u)
  | idle
  | begun (call : Call β)
  /-- The event map is updated, the request is not sent. -/
  | updated (call : Call β)
  | sent (call : Call β)
  /-- The request has ended; the call has not looked at its outcome. -/
  | answered (call : Call β) (outcome : ListenOutcome)
  /-- A subscription whose request failed is about to remove its key. -/
  | rollingBack (call : Call β) (status : Error)
  | returned (call : Call β) (status : Error)
  deriving DecidableEq

/-- A listen request on its way to the peer. -/
structure Listen (κ : Type v) where
  op : κ
  event : Text
  listen : Bool
  deriving DecidableEq

/-- The request a call sends. -/
def Call.request {β : Type u} {κ : Type v} (call : Call β) (op : κ) : Listen κ :=
  ⟨op, call.event, call.listen⟩

/-- The event map, the calls `κ` that use it and the peer. -/
structure State (β : Type u) (κ : Type v) where
  /-- `transport != nullptr`. -/
  connected : Bool
  eventMap : EventMap β
  phase : κ → Phase β
  /-- The requests the peer has not processed, oldest first. -/
  wire : List (Listen κ)
  /-- The events the peer is listening for. -/
  listening : Text → Bool

inductive Action (β : Type u) (κ : Type v)
  | setTransport (connected : Bool)
  | start (op : κ) (call : Call β)
  | update (op : κ)
  | send (op : κ)
  /-- The peer processes the oldest request and confirms it. -/
  | peer
  /-- The request ends in another way, sent or not. -/
  | complete (op : κ) (outcome : ListenOutcome)
  | settle (op : κ)
  | rollback (op : κ)
  deriving DecidableEq

variable {β : Type u} {κ : Type v} [DecidableEq κ]

def State.setPhase (state : State β κ) (op : κ) (phase : Phase β) : State β κ :=
  { state with phase := Function.update state.phase op phase }

/-- The outcome of a request the peer has confirmed. -/
def confirmation (listen : Bool) : ListenOutcome := ⟨.none, ⟨true, listen⟩⟩

/-- One step, or `none` when the label is not enabled. -/
def step (state : State β κ) : Action β κ → Option (State β κ)
  | .setTransport connected => some { state with connected := connected }
  | .start op call =>
      match state.phase op, call with
      | .idle, .subscribe _ _ =>
          if state.connected then some (state.setPhase op (.begun call))
          else some (state.setPhase op (.returned call .notConnected))
      | .idle, .unsubscribe _ => some (state.setPhase op (.begun call))
      | _, _ => none
  | .update op =>
      match state.phase op with
      | .begun call =>
          let result := call.update state.eventMap
          if result.1 = .none then
            some ({ state with eventMap := result.2 }.setPhase op (.updated call))
          else some (state.setPhase op (.returned call result.1))
      | _ => none
  | .send op =>
      match state.phase op with
      | .updated call =>
          if state.connected then
            some ({ state with wire := state.wire ++ [call.request op] }.setPhase op
              (.sent call))
          else none
      | _ => none
  | .peer =>
      match state.wire with
      | [] => none
      | message :: rest =>
          let processed := { state with
            wire := rest
            listening := Function.update state.listening message.event message.listen }
          match state.phase message.op with
          | .sent call =>
              some (processed.setPhase message.op (.answered call (confirmation message.listen)))
          -- Nobody waits for this reply any more.
          | _ => some processed
  | .complete op outcome =>
      match state.phase op with
      | .updated call | .sent call => some (state.setPhase op (.answered call outcome))
      | _ => none
  | .settle op =>
      match state.phase op with
      | .answered call outcome =>
          let status := call.status outcome
          match call with
          | .subscribe _ _ =>
              if status = .none then some (state.setPhase op (.returned call status))
              else some (state.setPhase op (.rollingBack call status))
          | .unsubscribe _ => some (state.setPhase op (.returned call status))
      | _ => none
  | .rollback op =>
      match state.phase op with
      | .rollingBack call status =>
          some ({ state with eventMap := (Server.unsubscribe state.eventMap call.event).2 }.setPhase
            op (.returned call status))
      | _ => none

/-- No call has begun, nobody is subscribed and the peer is listening for nothing. -/
def initial (connected : Bool) : State β κ where
  connected := connected
  eventMap := ∅
  phase _ := .idle
  wire := []
  listening _ := false

/-- The steps of the model, as a relation. -/
inductive Step (state : State β κ) : Action β κ → State β κ → Prop
  | setTransport (connected : Bool) :
      Step state (.setTransport connected) { state with connected := connected }
  | refuse (op : κ) (call : Call β) (hphase : state.phase op = .idle)
      (hcall : call.listen = true) (hconnected : state.connected = false) :
      Step state (.start op call) (state.setPhase op (.returned call .notConnected))
  | start (op : κ) (call : Call β) (hphase : state.phase op = .idle)
      (hstart : state.connected = true ∨ call.listen = false) :
      Step state (.start op call) (state.setPhase op (.begun call))
  | update (op : κ) (call : Call β) (eventMap : EventMap β)
      (hphase : state.phase op = .begun call)
      (hupdate : call.update state.eventMap = (.none, eventMap)) :
      Step state (.update op) ({ state with eventMap := eventMap }.setPhase op (.updated call))
  | updateFailed (op : κ) (call : Call β) (hphase : state.phase op = .begun call)
      (hfailed : (call.update state.eventMap).1 ≠ .none) :
      Step state (.update op) (state.setPhase op (.returned call (call.update state.eventMap).1))
  | send (op : κ) (call : Call β) (hphase : state.phase op = .updated call)
      (hconnected : state.connected = true) :
      Step state (.send op)
        ({ state with wire := state.wire ++ [call.request op] }.setPhase op
          (.sent call))
  | peer (message : Listen κ) (rest : List (Listen κ)) (call : Call β)
      (hwire : state.wire = message :: rest) (hphase : state.phase message.op = .sent call) :
      Step state .peer
        ({ state with
          wire := rest
          listening := Function.update state.listening message.event message.listen }.setPhase
            message.op (.answered call (confirmation message.listen)))
  | peerLate (message : Listen κ) (rest : List (Listen κ)) (hwire : state.wire = message :: rest)
      (hphase : ∀ call, state.phase message.op ≠ .sent call) :
      Step state .peer
        { state with
          wire := rest
          listening := Function.update state.listening message.event message.listen }
  | complete (op : κ) (call : Call β) (outcome : ListenOutcome)
      (hphase : state.phase op = .updated call ∨ state.phase op = .sent call) :
      Step state (.complete op outcome) (state.setPhase op (.answered call outcome))
  | settle (op : κ) (call : Call β) (outcome : ListenOutcome)
      (hphase : state.phase op = .answered call outcome)
      (hreturns : call.status outcome = .none ∨ call.listen = false) :
      Step state (.settle op) (state.setPhase op (.returned call (call.status outcome)))
  | settleFailed (op : κ) (call : Call β) (outcome : ListenOutcome)
      (hphase : state.phase op = .answered call outcome)
      (hstatus : call.status outcome ≠ .none) (hcall : call.listen = true) :
      Step state (.settle op) (state.setPhase op (.rollingBack call (call.status outcome)))
  | rollback (op : κ) (call : Call β) (status : Error)
      (hphase : state.phase op = .rollingBack call status) :
      Step state (.rollback op)
        ({ state with eventMap := (Server.unsubscribe state.eventMap call.event).2 }.setPhase op
          (.returned call status))

theorem step_cases {state next : State β κ} {action : Action β κ}
    (htaken : step state action = some next) : Step state action next := by
  cases action with
  | setTransport connected =>
      cases htaken
      exact .setTransport connected
  | start op call =>
      simp only [step] at htaken
      split at htaken
      · split_ifs at htaken with hconnected
        · cases htaken
          exact .start op _ ‹_› (.inl hconnected)
        · cases htaken
          exact .refuse op _ ‹_› rfl (by simpa using hconnected)
      · cases htaken
        exact .start op _ ‹_› (.inr rfl)
      · cases htaken
  | update op =>
      simp only [step] at htaken
      split at htaken
      · split_ifs at htaken with hupdate
        · cases htaken
          exact .update op _ _ ‹_› (Prod.ext hupdate rfl)
        · cases htaken
          exact .updateFailed op _ ‹_› hupdate
      · cases htaken
  | send op =>
      simp only [step] at htaken
      split at htaken
      · split_ifs at htaken with hconnected
        cases htaken
        exact .send op _ ‹_› hconnected
      · cases htaken
  | peer =>
      simp only [step] at htaken
      split at htaken
      · cases htaken
      · split at htaken
        · cases htaken
          exact .peer _ _ _ ‹_› ‹_›
        · cases htaken
          exact .peerLate _ _ ‹_› ‹_›
  | complete op outcome =>
      simp only [step] at htaken
      split at htaken
      · cases htaken
        exact .complete op _ outcome (.inl ‹_›)
      · cases htaken
        exact .complete op _ outcome (.inr ‹_›)
      · cases htaken
  | settle op =>
      simp only [step] at htaken
      split at htaken
      · split at htaken
        · split_ifs at htaken with hstatus
          · cases htaken
            exact .settle op _ _ ‹_› (.inl hstatus)
          · cases htaken
            exact .settleFailed op _ _ ‹_› hstatus rfl
        · cases htaken
          exact .settle op _ _ ‹_› (.inr rfl)
      · cases htaken
  | rollback op =>
      simp only [step] at htaken
      split at htaken
      · cases htaken
        exact .rollback op _ _ ‹_›
      · cases htaken

/-! ## A call that runs alone

Without interference the steps of a call add up to the operations of `GatewayImpl`.
-/

section Alone

variable {state : State β κ} {op : κ} {event : Text} {callbackData : CallbackDataEvent β}

theorem exists_subscribe_alone (hidle : state.phase op = .idle) (outcome : ListenOutcome) :
    ∃ schedule final, exec step state schedule = some final ∧
      final.phase op = .returned (.subscribe event callbackData)
        (GatewayImpl.subscribe state.connected state.eventMap event callbackData outcome).1 ∧
      final.eventMap =
        (GatewayImpl.subscribe state.connected state.eventMap event callbackData outcome).2 := by
  let call : Call β := .subscribe event callbackData
  cases hconnected : state.connected with
  | false =>
      refine ⟨[.start op call], state.setPhase op (.returned call .notConnected), ?_, ?_, rfl⟩
      · simp [call, step, hidle, hconnected]
      · simp [call, State.setPhase, GatewayImpl.subscribe]
  | true =>
      by_cases hfree : state.eventMap.lookup (getKeyFromEvent event) = none
      · rw [GatewayImpl.subscribe_of_free hfree]
        by_cases hstatus : outcome.status = .none
        · refine ⟨[.start op call, .update op, .complete op outcome, .settle op],
            { state with eventMap := state.eventMap.insert (getKeyFromEvent event) callbackData
              }.setPhase op (.returned call .none), ?_, ?_, ?_⟩
          · simp [call, step, hidle, hconnected, State.setPhase, Call.update, Call.status,
              Server.subscribe_of_free hfree, hstatus]
          · simp [call, State.setPhase, hstatus]
          · simp [State.setPhase, hstatus]
        · refine ⟨[.start op call, .update op, .complete op outcome, .settle op, .rollback op],
            state.setPhase op (.returned call outcome.status), ?_, ?_, ?_⟩
          · simp [call, step, hidle, hconnected, State.setPhase, Call.update, Call.status,
              Call.event, Server.subscribe_of_free hfree, Server.unsubscribe_insert hfree, hstatus]
          · simp [call, State.setPhase]
          · simp [State.setPhase, hstatus]
      · rw [GatewayImpl.subscribe_of_taken hfree]
        refine ⟨[.start op call, .update op], state.setPhase op (.returned call .general),
          ?_, ?_, rfl⟩
        · simp [call, step, hidle, hconnected, State.setPhase, Call.update,
            Server.subscribe_of_taken hfree]
        · simp [call, State.setPhase]

theorem exists_unsubscribe_alone (hidle : state.phase op = .idle) (outcome : ListenOutcome) :
    ∃ schedule final, exec step state schedule = some final ∧
      final.phase op = .returned (.unsubscribe event)
        (GatewayImpl.unsubscribe state.eventMap event outcome).1 ∧
      final.eventMap = (GatewayImpl.unsubscribe state.eventMap event outcome).2 := by
  let call : Call β := .unsubscribe event
  by_cases hfree : state.eventMap.lookup (getKeyFromEvent event) = none
  · rw [GatewayImpl.unsubscribe_of_free hfree]
    refine ⟨[.start op call, .update op], state.setPhase op (.returned call .general),
      ?_, ?_, rfl⟩
    · simp [call, step, hidle, State.setPhase, Call.update, Server.unsubscribe_of_free hfree]
    · simp [call, State.setPhase]
  · rw [GatewayImpl.unsubscribe_of_taken hfree]
    refine ⟨[.start op call, .update op, .complete op outcome, .settle op],
      { state with eventMap := state.eventMap.erase (getKeyFromEvent event) }.setPhase op
        (.returned call outcome.status), ?_, ?_, rfl⟩
    · simp [call, step, hidle, State.setPhase, Call.update, Call.status,
        Server.unsubscribe_of_taken hfree]
    · simp [call, State.setPhase]

end Alone

end FireboltTransport.Listening
