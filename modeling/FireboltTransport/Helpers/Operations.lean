/-
# Subscriptions, providers and their callbacks

The gateway's server holds `eventMap_mtx` while an event callback runs and
`providers_mtx` while a provider callback runs; a `SubscriptionHelper` holds its
own `mutex_` from the first to the last statement of `subscribe` and
`unsubscribe`, and so while it calls the server.  Threads call the helpers and
the gateway from the application or from within a callback, and deliver
notifications and requests.

A critical section in which nothing can block is one step, taken while the mutex
is free.  A mutex that is held over several steps has its holder recorded.
-/

import FireboltTransport.Gateway.GatewayImpl
import FireboltTransport.Gateway.Providers
import FireboltTransport.Semantics.Mutex

namespace FireboltTransport.Helpers

open Semantics Server GatewayImpl

universe u v w x

inductive Mutex (η : Type u)
  | eventMapMtx
  | providersMtx
  /-- `SubscriptionHelper::mutex_`. -/
  | helperMtx (helper : η)
  deriving DecidableEq

/-- What an event is dispatched to. -/
inductive Dispatch (β : Type v)
  | user (callback : β)
  /-- `onPropertyChangedCallback` and `onContainerPropertyChangedCallback`: they read the
  `SubscriptionData` that `usercb` points to. -/
  | propertyChanged
  deriving DecidableEq

/-- `SubscriptionData`, with the address of its node in the map. -/
structure SubscriptionData (β : Type v) where
  address : UInt64
  eventName : Text
  notification : β
  deriving DecidableEq

/-- What the operations share. -/
structure Data (η : Type u) (β : Type v) (ρ : Type w) where
  /-- `GatewayImpl::transport != nullptr`. -/
  connected : Bool
  eventMap : EventMap (Dispatch β)
  providers : Providers ρ
  /-- `subscriptions_` of each helper. -/
  subscriptions : η → StdMap ℕ (SubscriptionData β)
  /-- `currentId_` of each helper, whose 64 bits suffice for any run of fewer than `2 ^ 64` steps
  (`currentId_le_length`). -/
  currentId : η → ℕ
  /-- The addresses of the nodes that are not freed. -/
  allocated : List UInt64

/-- The operations a user may call. -/
inductive Op (η : Type u) (β : Type v) (ρ : Type w)
  | subscribe (event : Text) (callback : β) (usercb userdata : UInt64)
  | unsubscribe (event : Text)
  | helperSubscribe (helper : η) (eventName : Text) (notification : β)
  | helperUnsubscribe (helper : η) (id : ℕ)
  | helperUnsubscribeAll (helper : η)
  | registerProvider (fullMethod : Text) (callback : ρ) (usercb : UInt64)
  | unregisterProvider (interface method : Text) (usercb : UInt64)
  deriving DecidableEq

/-- What calls the gateway's `Subscribe` or `Unsubscribe`. -/
inductive Caller (η : Type u)
  | user
  | subscribe (helper : η)
  | unsubscribe (helper : η) (id : ℕ)
  /-- The loop of `unsubscribeAll`, at the node of `id`. -/
  | unsubscribeAll (helper : η) (id : ℕ)
  deriving DecidableEq

/-- The callback a thread runs. -/
inductive Context (β : Type v) (ρ : Type w)
  | application
  | event (callbackData : CallbackDataEvent (Dispatch β))
  | provider (method : Method ρ)
  deriving DecidableEq

/-- How far an operation is. -/
inductive Stage (η : Type u) (β : Type v) (ρ : Type w)
  /-- No operation is in progress. -/
  | ready
  /-- `SubscriptionHelper::subscribe`, before its lock guard. -/
  | helperSubscribe (helper : η) (eventName : Text) (notification : β)
  /-- `SubscriptionHelper::unsubscribe`, before its lock guard. -/
  | helperUnsubscribe (helper : η) (id : ℕ)
  /-- `GatewayImpl::Subscribe`, before it looks at `transport`. -/
  | check (caller : Caller η) (event : Text) (callbackData : CallbackDataEvent (Dispatch β))
  /-- `Server::Subscribe`. -/
  | insert (caller : Caller η) (event : Text) (callbackData : CallbackDataEvent (Dispatch β))
  /-- `Client::Request`. -/
  | request (caller : Caller η) (event : Text) (listen : Bool)
  /-- `Server::Unsubscribe`, called by a `Subscribe` that has failed. -/
  | rollback (caller : Caller η) (event : Text) (status : Error)
  /-- `Server::Unsubscribe`. -/
  | remove (caller : Caller η) (event : Text)
  /-- The call of the gateway has returned. -/
  | settle (caller : Caller η) (status : Error)
  | registerProvider (fullMethod : Text) (callback : ρ) (usercb : UInt64)
  | unregisterProvider (interface method : Text) (usercb : UInt64)
  /-- `Server::Notify`. -/
  | notify (method : Text)
  /-- `Server::Request`. -/
  | serve (method : Text)
  deriving DecidableEq

structure Point (η : Type u) (β : Type v) (ρ : Type w) where
  context : Context β ρ
  stage : Stage η β ρ
  deriving DecidableEq

/-- What a thread does next, and the choices that are not its own. -/
inductive Input (η : Type u) (β : Type v) (ρ : Type w)
  | begin (op : Op η β ρ)
  | notify (method : Text)
  | serve (method : Text)
  /-- The callback returns. -/
  | leave
  /-- The allocator places a node at `address`. -/
  | store (address : UInt64)
  /-- `Client::Request` returns. -/
  | answer (outcome : ListenOutcome)
  | go
  deriving DecidableEq

/-- One move of a thread: what it does to the mutexes, where it leads and the data it leaves. -/
structure Move (η : Type u) (β : Type v) (ρ : Type w) where
  op : LockOp (Mutex η)
  next : Point η β ρ
  data : Data η β ρ

variable {η : Type u} {β : Type v} {ρ : Type w}

/-- The mutex an operation asks for. -/
def Stage.wants : Stage η β ρ → Option (Mutex η)
  | .helperSubscribe helper _ _ | .helperUnsubscribe helper _ => some (.helperMtx helper)
  | .insert _ _ _ | .rollback _ _ _ | .remove _ _ | .notify _ => some .eventMapMtx
  | .registerProvider _ _ _ | .unregisterProvider _ _ _ | .serve _ => some .providersMtx
  | .ready | .check _ _ _ | .request _ _ _ | .settle _ _ => none

/-- The caller of the gateway's operation. -/
def Stage.caller : Stage η β ρ → Option (Caller η)
  | .check caller _ _ | .insert caller _ _ | .request caller _ _ | .rollback caller _ _
  | .remove caller _ | .settle caller _ => some caller
  | _ => none

/-- The helper whose mutex the caller holds. -/
def Caller.locked : Caller η → Option η
  | .subscribe helper | .unsubscribe helper _ => some helper
  | .user | .unsubscribeAll _ _ => none

/-- The mutexes a thread holds at a point. -/
def Point.holds (point : Point η β ρ) : Mutex η → Prop
  | .eventMapMtx => ∃ callbackData, point.context = .event callbackData
  | .providersMtx => ∃ method, point.context = .provider method
  | .helperMtx helper => point.stage.caller.bind Caller.locked = some helper

/-! ## The nodes of a helper -/

/-- The first node at `start` or after it, in the order of the identifiers. -/
def nextNode {ν : Type x} (subscriptions : StdMap ℕ ν) (start : ℕ) : Option (ℕ × ν) :=
  (subscriptions.keys.filter fun id => start ≤ id).min?.bind fun id =>
    (subscriptions.lookup id).map fun node => (id, node)

variable [DecidableEq η]

def Data.setSubscriptions (data : Data η β ρ) (helper : η)
    (subscriptions : StdMap ℕ (SubscriptionData β)) : Data η β ρ :=
  { data with subscriptions := Function.update data.subscriptions helper subscriptions }

/-- `subscriptions_[currentId_] = ...`: a new node at `address`, or none if the address is in
use; the node that is there already is assigned to. -/
def Data.store (data : Data η β ρ) (helper : η) (address : UInt64) (eventName : Text)
    (notification : β) : Option (UInt64 × Data η β ρ) :=
  let subscriptions := data.subscriptions helper
  let id := data.currentId helper
  match subscriptions.lookup id with
  | some node => some (node.address, data.setSubscriptions helper
      (subscriptions.insert id ⟨node.address, eventName, notification⟩))
  | none =>
      if address ∈ data.allocated then none
      else some (address, { data with allocated := address :: data.allocated }.setSubscriptions
        helper (subscriptions.insert id ⟨address, eventName, notification⟩))

/-- `subscriptions_.erase(id)`. -/
def Data.erase (data : Data η β ρ) (helper : η) (id : ℕ) : Data η β ρ :=
  match (data.subscriptions helper).lookup id with
  | none => data
  | some node => { data with
      allocated := data.allocated.filter fun address => address ≠ node.address
      }.setSubscriptions helper ((data.subscriptions helper).erase id)

/-- `subscriptions_.clear()`. -/
def Data.clear (data : Data η β ρ) (helper : η) : Data η β ρ :=
  let addresses := (data.subscriptions helper).entries.map
    fun entry : (_ : ℕ) × SubscriptionData β => entry.2.address
  { data with
    allocated := data.allocated.filter fun address => address ∉ addresses
    }.setSubscriptions helper ∅

/-! ## The operations -/

/-- `GatewayImpl::Subscribe` looks at `transport`. -/
def Data.check (data : Data η β ρ) (caller : Caller η) (event : Text)
    (callbackData : CallbackDataEvent (Dispatch β)) : Stage η β ρ :=
  if data.connected then .insert caller event callbackData else .settle caller .notConnected

/-- The next turn of the loop of `unsubscribeAll`, or what follows the loop. -/
def Data.turn (data : Data η β ρ) (helper : η) (start : ℕ) : Stage η β ρ × Data η β ρ :=
  match nextNode (data.subscriptions helper) start with
  | some (id, node) => (.remove (.unsubscribeAll helper id) node.eventName, data)
  | none => (.ready, data.clear helper)

/-- An operation begins. -/
def Data.begin (data : Data η β ρ) : Op η β ρ → Stage η β ρ × Data η β ρ
  | .subscribe event callback usercb userdata =>
      (data.check .user event ⟨.user callback, usercb, userdata⟩, data)
  | .unsubscribe event => (.remove .user event, data)
  | .helperSubscribe helper eventName notification =>
      (.helperSubscribe helper eventName notification, data)
  | .helperUnsubscribe helper id => (.helperUnsubscribe helper id, data)
  | .helperUnsubscribeAll helper => data.turn helper 0
  | .registerProvider fullMethod callback usercb =>
      (.registerProvider fullMethod callback usercb, data)
  | .unregisterProvider interface method usercb =>
      (.unregisterProvider interface method usercb, data)

/-- What follows the gateway's operation. -/
def Data.settle (data : Data η β ρ) (context : Context β ρ) (status : Error) :
    Caller η → Move η β ρ
  | .user => ⟨.keep, ⟨context, .ready⟩, data⟩
  | .subscribe helper =>
      if status = .none then
        ⟨.unlock (.helperMtx helper), ⟨context, .ready⟩, { data with
          currentId := Function.update data.currentId helper (data.currentId helper + 1) }⟩
      else ⟨.unlock (.helperMtx helper), ⟨context, .ready⟩,
        data.erase helper (data.currentId helper)⟩
  | .unsubscribe helper id =>
      ⟨.unlock (.helperMtx helper), ⟨context, .ready⟩, data.erase helper id⟩
  | .unsubscribeAll helper id =>
      let turn := data.turn helper (id + 1)
      ⟨.keep, ⟨context, turn.1⟩, turn.2⟩

/-- The move of a thread at a point. -/
def moveAt (data : Data η β ρ) (context : Context β ρ) :
    Stage η β ρ → Input η β ρ → Option (Move η β ρ)
  | .ready, .begin op =>
      let begun := data.begin op
      some ⟨.keep, ⟨context, begun.1⟩, begun.2⟩
  | .ready, .notify method =>
      match context with
      | .application => some ⟨.keep, ⟨context, .notify method⟩, data⟩
      | _ => none
  | .ready, .serve method =>
      match context with
      -- A method without a dot is not looked up.
      | .application =>
          some ⟨.keep, ⟨context, if '.' ∈ method then .serve method else .ready⟩, data⟩
      | _ => none
  | .ready, .leave =>
      match context with
      | .application => none
      | .event _ => some ⟨.unlock .eventMapMtx, ⟨.application, .ready⟩, data⟩
      | .provider _ => some ⟨.unlock .providersMtx, ⟨.application, .ready⟩, data⟩
  | .helperSubscribe helper eventName notification, .store address =>
      (data.store helper address eventName notification).map fun stored =>
        ⟨.lock (.helperMtx helper), ⟨context, .check (.subscribe helper) eventName
          ⟨.propertyChanged, stored.1, 0⟩⟩, stored.2⟩
  | .helperUnsubscribe helper id, .go =>
      match (data.subscriptions helper).lookup id with
      | none => some ⟨.keep, ⟨context, .ready⟩, data⟩
      | some node => some ⟨.lock (.helperMtx helper),
          ⟨context, .remove (.unsubscribe helper id) node.eventName⟩, data⟩
  | .check caller event callbackData, .go =>
      some ⟨.keep, ⟨context, data.check caller event callbackData⟩, data⟩
  | .insert caller event callbackData, .go =>
      let inserted := Server.subscribe data.eventMap event callbackData
      some ⟨.keep, ⟨context, if inserted.1 = .none then .request caller event true
        else .settle caller inserted.1⟩, { data with eventMap := inserted.2 }⟩
  | .request caller event true, .answer outcome =>
      let status := subscribeStatus outcome
      some ⟨.keep, ⟨context, if status = .none then .settle caller status
        else .rollback caller event status⟩, data⟩
  | .request caller _ false, .answer outcome =>
      some ⟨.keep, ⟨context, .settle caller (unsubscribeStatus outcome)⟩, data⟩
  | .rollback caller event status, .go =>
      some ⟨.keep, ⟨context, .settle caller status⟩,
        { data with eventMap := (Server.unsubscribe data.eventMap event).2 }⟩
  | .remove caller event, .go =>
      let erased := Server.unsubscribe data.eventMap event
      some ⟨.keep, ⟨context, if erased.1 = .none then .request caller event false
        else .settle caller erased.1⟩, { data with eventMap := erased.2 }⟩
  | .settle caller status, .go => some (data.settle context status caller)
  | .registerProvider fullMethod callback usercb, .go => some ⟨.keep, ⟨context, .ready⟩,
      { data with
        providers := (registerProviderInterface data.providers fullMethod callback usercb).2 }⟩
  | .unregisterProvider interface method usercb, .go => some ⟨.keep, ⟨context, .ready⟩,
      { data with
        providers := (unregisterProviderInterface data.providers interface method usercb).2 }⟩
  | .notify method, .go =>
      match Server.notify data.eventMap method with
      | none => some ⟨.keep, ⟨context, .ready⟩, data⟩
      | some callbackData => some ⟨.lock .eventMapMtx, ⟨.event callbackData, .ready⟩, data⟩
  | .serve method, .go =>
      match findMethod data.providers method with
      | none => some ⟨.keep, ⟨context, .ready⟩, data⟩
      | some m => some ⟨.lock .providersMtx, ⟨.provider m, .ready⟩, data⟩
  | _, _ => none

/-- The moves, as a relation. -/
inductive Moves (data : Data η β ρ) (context : Context β ρ) :
    Stage η β ρ → Input η β ρ → Move η β ρ → Prop
  | begin (op : Op η β ρ) : Moves data context .ready (.begin op)
      ⟨.keep, ⟨context, (data.begin op).1⟩, (data.begin op).2⟩
  | beginNotify (method : Text) (hcontext : context = .application) :
      Moves data context .ready (.notify method) ⟨.keep, ⟨context, .notify method⟩, data⟩
  | beginServe (method : Text) (hcontext : context = .application) (hdot : '.' ∈ method) :
      Moves data context .ready (.serve method) ⟨.keep, ⟨context, .serve method⟩, data⟩
  | ignore (method : Text) (hcontext : context = .application) (hdot : '.' ∉ method) :
      Moves data context .ready (.serve method) ⟨.keep, ⟨context, .ready⟩, data⟩
  | leaveEvent (callbackData : CallbackDataEvent (Dispatch β))
      (hcontext : context = .event callbackData) : Moves data context .ready .leave
      ⟨.unlock .eventMapMtx, ⟨.application, .ready⟩, data⟩
  | leaveProvider (method : Method ρ) (hcontext : context = .provider method) :
      Moves data context .ready .leave ⟨.unlock .providersMtx, ⟨.application, .ready⟩, data⟩
  | store (helper : η) (eventName : Text) (notification : β) (address place : UInt64)
      (stored : Data η β ρ)
      (hstored : data.store helper address eventName notification = some (place, stored)) :
      Moves data context (.helperSubscribe helper eventName notification) (.store address)
        ⟨.lock (.helperMtx helper), ⟨context, .check (.subscribe helper) eventName
          ⟨.propertyChanged, place, 0⟩⟩, stored⟩
  | unknown (helper : η) (id : ℕ) (hnone : (data.subscriptions helper).lookup id = none) :
      Moves data context (.helperUnsubscribe helper id) .go ⟨.keep, ⟨context, .ready⟩, data⟩
  | find (helper : η) (id : ℕ) (node : SubscriptionData β)
      (hnode : (data.subscriptions helper).lookup id = some node) :
      Moves data context (.helperUnsubscribe helper id) .go ⟨.lock (.helperMtx helper),
        ⟨context, .remove (.unsubscribe helper id) node.eventName⟩, data⟩
  | check (caller : Caller η) (event : Text) (callbackData : CallbackDataEvent (Dispatch β)) :
      Moves data context (.check caller event callbackData) .go
        ⟨.keep, ⟨context, data.check caller event callbackData⟩, data⟩
  | insert (caller : Caller η) (event : Text) (callbackData : CallbackDataEvent (Dispatch β))
      (hfree : data.eventMap.lookup (getKeyFromEvent event) = none) :
      Moves data context (.insert caller event callbackData) .go
        ⟨.keep, ⟨context, .request caller event true⟩, { data with
          eventMap := data.eventMap.insert (getKeyFromEvent event) callbackData }⟩
  | refuse (caller : Caller η) (event : Text) (callbackData : CallbackDataEvent (Dispatch β))
      (htaken : data.eventMap.lookup (getKeyFromEvent event) ≠ none) :
      Moves data context (.insert caller event callbackData) .go
        ⟨.keep, ⟨context, .settle caller .general⟩, data⟩
  | succeed (caller : Caller η) (event : Text) (outcome : ListenOutcome)
      (hstatus : outcome.status = .none) : Moves data context (.request caller event true)
      (.answer outcome) ⟨.keep, ⟨context, .settle caller outcome.status⟩, data⟩
  | fail (caller : Caller η) (event : Text) (outcome : ListenOutcome)
      (hstatus : outcome.status ≠ .none) : Moves data context (.request caller event true)
      (.answer outcome) ⟨.keep, ⟨context, .rollback caller event outcome.status⟩, data⟩
  | answer (caller : Caller η) (event : Text) (outcome : ListenOutcome) :
      Moves data context (.request caller event false) (.answer outcome)
        ⟨.keep, ⟨context, .settle caller outcome.status⟩, data⟩
  | rollback (caller : Caller η) (event : Text) (status : Error) :
      Moves data context (.rollback caller event status) .go
        ⟨.keep, ⟨context, .settle caller status⟩,
          { data with eventMap := (Server.unsubscribe data.eventMap event).2 }⟩
  | remove (caller : Caller η) (event : Text) (next : Stage η β ρ)
      (hnext : next = .request caller event false ∨ next = .settle caller .general) :
      Moves data context (.remove caller event) .go ⟨.keep, ⟨context, next⟩,
        { data with eventMap := (Server.unsubscribe data.eventMap event).2 }⟩
  | settle (caller : Caller η) (status : Error) :
      Moves data context (.settle caller status) .go (data.settle context status caller)
  | registerProvider (fullMethod : Text) (callback : ρ) (usercb : UInt64) :
      Moves data context (.registerProvider fullMethod callback usercb) .go
        ⟨.keep, ⟨context, .ready⟩, { data with
          providers := (registerProviderInterface data.providers fullMethod callback usercb).2 }⟩
  | unregisterProvider (interface method : Text) (usercb : UInt64) :
      Moves data context (.unregisterProvider interface method usercb) .go
        ⟨.keep, ⟨context, .ready⟩, { data with
          providers := (unregisterProviderInterface data.providers interface method usercb).2 }⟩
  | unheard (method : Text) (hnone : data.eventMap.lookup method = none) :
      Moves data context (.notify method) .go ⟨.keep, ⟨context, .ready⟩, data⟩
  | notify (method : Text) (callbackData : CallbackDataEvent (Dispatch β))
      (hfound : data.eventMap.lookup method = some callbackData) :
      Moves data context (.notify method) .go
        ⟨.lock .eventMapMtx, ⟨.event callbackData, .ready⟩, data⟩
  | unserved (method : Text) (hnone : findMethod data.providers method = none) :
      Moves data context (.serve method) .go ⟨.keep, ⟨context, .ready⟩, data⟩
  | serve (method : Text) (m : Method ρ) (hfound : findMethod data.providers method = some m) :
      Moves data context (.serve method) .go
        ⟨.lock .providersMtx, ⟨.provider m, .ready⟩, data⟩

theorem moveAt_cases {data : Data η β ρ} {context : Context β ρ} {stage : Stage η β ρ}
    {input : Input η β ρ} {move : Move η β ρ}
    (hmove : moveAt data context stage input = some move) :
    Moves data context stage input move := by
  cases stage with
  | ready =>
      cases input with
      | begin op =>
          obtain rfl := Option.some.inj hmove
          exact .begin op
      | notify method =>
          cases context with
          | application =>
              obtain rfl := Option.some.inj hmove
              exact .beginNotify method rfl
          | event | provider => cases hmove
      | serve method =>
          cases context with
          | application =>
              obtain rfl := Option.some.inj hmove
              split_ifs with hdot
              · exact .beginServe method rfl hdot
              · exact .ignore method rfl hdot
          | event | provider => cases hmove
      | leave =>
          cases context with
          | application => cases hmove
          | event callbackData =>
              obtain rfl := Option.some.inj hmove
              exact .leaveEvent callbackData rfl
          | provider method =>
              obtain rfl := Option.some.inj hmove
              exact .leaveProvider method rfl
      | store | answer | go => cases hmove
  | helperSubscribe helper eventName notification =>
      cases input with
      | store address =>
          obtain ⟨⟨place, stored⟩, hstored, rfl⟩ := Option.map_eq_some_iff.mp hmove
          exact .store helper eventName notification address place stored hstored
      | begin | notify | serve | leave | answer | go => cases hmove
  | request caller event listen =>
      cases input with
      | answer outcome =>
          cases listen with
          | true =>
              simp only [moveAt, subscribeStatus_eq, Option.some.injEq] at hmove
              obtain rfl := hmove
              split_ifs with hstatus
              · exact .succeed caller event outcome hstatus
              · exact .fail caller event outcome hstatus
          | false =>
              simp only [moveAt, unsubscribeStatus_eq, Option.some.injEq] at hmove
              obtain rfl := hmove
              exact .answer caller event outcome
      | begin | notify | serve | leave | store | go => cases listen <;> cases hmove
  | helperUnsubscribe helper id =>
      cases input with
      | go =>
          simp only [moveAt] at hmove
          split at hmove <;> obtain rfl := Option.some.inj hmove
          · exact .unknown helper id ‹_›
          · exact .find helper id _ ‹_›
      | begin | notify | serve | leave | store | answer => cases hmove
  | check caller event callbackData =>
      cases input with
      | go =>
          obtain rfl := Option.some.inj hmove
          exact .check caller event callbackData
      | begin | notify | serve | leave | store | answer => cases hmove
  | insert caller event callbackData =>
      cases input with
      | go =>
          obtain rfl := Option.some.inj hmove
          by_cases hfree : data.eventMap.lookup (getKeyFromEvent event) = none
          · simp only [Server.subscribe_of_free hfree, if_true]
            exact .insert caller event callbackData hfree
          · simp only [Server.subscribe_of_taken hfree, Error.general_ne_none, if_false]
            exact .refuse caller event callbackData hfree
      | begin | notify | serve | leave | store | answer => cases hmove
  | rollback caller event status =>
      cases input with
      | go =>
          obtain rfl := Option.some.inj hmove
          exact .rollback caller event status
      | begin | notify | serve | leave | store | answer => cases hmove
  | remove caller event =>
      cases input with
      | go =>
          obtain rfl := Option.some.inj hmove
          refine .remove caller event _ ?_
          by_cases hfree : data.eventMap.lookup (getKeyFromEvent event) = none
          · simp [Server.unsubscribe_of_free hfree]
          · simp [Server.unsubscribe_of_taken hfree]
      | begin | notify | serve | leave | store | answer => cases hmove
  | settle caller status =>
      cases input with
      | go =>
          obtain rfl := Option.some.inj hmove
          exact .settle caller status
      | begin | notify | serve | leave | store | answer => cases hmove
  | registerProvider fullMethod callback usercb =>
      cases input with
      | go =>
          obtain rfl := Option.some.inj hmove
          exact .registerProvider fullMethod callback usercb
      | begin | notify | serve | leave | store | answer => cases hmove
  | unregisterProvider interface method usercb =>
      cases input with
      | go =>
          obtain rfl := Option.some.inj hmove
          exact .unregisterProvider interface method usercb
      | begin | notify | serve | leave | store | answer => cases hmove
  | notify method =>
      cases input with
      | go =>
          simp only [moveAt, Server.notify] at hmove
          split at hmove <;> obtain rfl := Option.some.inj hmove
          · exact .unheard method ‹_›
          · exact .notify method _ ‹_›
      | begin | notify | serve | leave | store | answer => cases hmove
  | serve method =>
      cases input with
      | go =>
          simp only [moveAt] at hmove
          split at hmove <;> obtain rfl := Option.some.inj hmove
          · exact .unserved method ‹_›
          · exact .serve method _ ‹_›
      | begin | notify | serve | leave | store | answer => cases hmove

/-! ## The threads -/

/-- The shared data with the points of the threads `τ` and the holders of the mutexes. -/
structure State (τ : Type x) (η : Type u) (β : Type v) (ρ : Type w) where
  data : Data η β ρ
  locks : Locks (fun _ : τ => Point η β ρ) (Mutex η)

inductive Action (τ : Type x) (η : Type u) (β : Type v) (ρ : Type w)
  | setTransport (connected : Bool)
  | move (thread : τ) (input : Input η β ρ)
  deriving DecidableEq

variable {τ : Type x}

def State.point (state : State τ η β ρ) (thread : τ) : Point η β ρ := state.locks.point thread

/-- The mutex a thread asks for. -/
def State.wants (state : State τ η β ρ) (thread : τ) : Option (Mutex η) :=
  (state.point thread).stage.wants

variable [DecidableEq τ]

/-- One step, or `none` when the label is not enabled. -/
def step (state : State τ η β ρ) : Action τ η β ρ → Option (State τ η β ρ)
  | .setTransport connected => some { state with data := { state.data with connected } }
  | .move thread input =>
      let point := state.point thread
      if ∀ mutex ∈ point.stage.wants, state.locks.holder mutex = none then
        (moveAt state.data point.context point.stage input).bind fun move =>
          (state.locks.move thread move.op move.next).map fun locks => ⟨move.data, locks⟩
      else none

/-- Nothing is subscribed and nobody runs. -/
def initial (connected : Bool) : State τ η β ρ where
  data :=
    { connected
      eventMap := ∅
      providers := ∅
      subscriptions _ := ∅
      currentId _ := 0
      allocated := [] }
  locks := ⟨fun _ => ⟨.application, .ready⟩, fun _ => none⟩

/-- The steps, as a relation. -/
inductive Step (state : State τ η β ρ) : Action τ η β ρ → State τ η β ρ → Prop
  | setTransport (connected : Bool) :
      Step state (.setTransport connected) { state with data := { state.data with connected } }
  | move (thread : τ) (input : Input η β ρ) (move : Move η β ρ)
      (locks : Locks (fun _ : τ => Point η β ρ) (Mutex η))
      (hfree : ∀ mutex, state.wants thread = some mutex → state.locks.holder mutex = none)
      (hmove : Moves state.data (state.point thread).context (state.point thread).stage input move)
      (hlocks : state.locks.move thread move.op move.next = some locks) :
      Step state (.move thread input) ⟨move.data, locks⟩

theorem step_cases {state next : State τ η β ρ} {action : Action τ η β ρ}
    (htaken : step state action = some next) : Step state action next := by
  cases action with
  | setTransport connected =>
      obtain rfl := Option.some.inj htaken
      exact .setTransport connected
  | move thread input =>
      simp only [step] at htaken
      split_ifs at htaken with hfree
      obtain ⟨move, hmove, htaken⟩ := Option.bind_eq_some_iff.mp htaken
      obtain ⟨locks, hlocks, rfl⟩ := Option.map_eq_some_iff.mp htaken
      exact .move thread input move locks hfree (moveAt_cases hmove) hlocks

/-! ## Who holds what -/

/-- The thread is about to look for a callback. -/
def Stage.delivering : Stage η β ρ → Bool
  | .notify _ | .serve _ => true
  | _ => false

/-- Notifications and requests are not delivered from within a callback. -/
def Point.Delivers (point : Point η β ρ) : Prop :=
  point.stage.delivering = true → point.context = .application

/-- The holders of the mutexes are the threads whose points hold them. -/
structure Consistent (state : State τ η β ρ) : Prop where
  agrees : state.locks.Agrees fun _ => Point.holds
  delivers : ∀ thread, (state.point thread).Delivers

omit [DecidableEq η] in
theorem caller_check (data : Data η β ρ) (caller : Caller η) (event : Text)
    (callbackData : CallbackDataEvent (Dispatch β)) :
    (data.check caller event callbackData).caller = some caller ∧
      (data.check caller event callbackData).delivering = false := by
  unfold Data.check
  split_ifs <;> exact ⟨rfl, rfl⟩

section Holders

variable {data : Data η β ρ} {context : Context β ρ} {stage : Stage η β ρ} {input : Input η β ρ}
  {move : Move η β ρ}

/-- A turn of `unsubscribeAll` takes no mutex of a helper. -/
theorem locked_turn (data : Data η β ρ) (helper : η) (start : ℕ) :
    (data.turn helper start).1.caller.bind Caller.locked = none ∧
      (data.turn helper start).1.delivering = false := by
  unfold Data.turn
  split <;> exact ⟨rfl, rfl⟩

/-- Nor does an operation that begins. -/
theorem locked_begin (data : Data η β ρ) (op : Op η β ρ) :
    (data.begin op).1.caller.bind Caller.locked = none ∧
      (data.begin op).1.delivering = false := by
  cases op with
  | subscribe event callback usercb userdata =>
      obtain ⟨hcaller, hdelivering⟩ :=
        caller_check data .user event ⟨.user callback, usercb, userdata⟩
      exact ⟨by simp only [Data.begin, hcaller]; rfl, hdelivering⟩
  | helperUnsubscribeAll helper => exact locked_turn data helper 0
  | unsubscribe | helperSubscribe | helperUnsubscribe | registerProvider | unregisterProvider =>
      exact ⟨rfl, rfl⟩

/-- A move holds afterwards what its operation on the mutexes says. -/
theorem Moves.effect (hmoves : Moves data context stage input move)
    (hdelivers : Point.Delivers ⟨context, stage⟩) :
    move.op.Effect (Point.holds ⟨context, stage⟩) move.next.holds := by
  have hkeep : ∀ next : Stage η β ρ, next.caller.bind Caller.locked =
      stage.caller.bind Caller.locked →
        (LockOp.keep : LockOp (Mutex η)).Effect (Point.holds ⟨context, stage⟩)
          (Point.holds ⟨context, next⟩) := by
    intro next hsame mutex
    cases mutex with
    | helperMtx helper => simp only [Point.holds, hsame]
    | eventMapMtx | providersMtx => exact Iff.rfl
  cases hmoves with
  | begin op => exact hkeep _ (locked_begin data op).1
  | check caller event callbackData =>
      exact hkeep _ (by rw [(caller_check data caller event callbackData).1]; rfl)
  | beginNotify | beginServe | ignore | unknown | insert | refuse | succeed | fail | answer
  | rollback | registerProvider | unregisterProvider | unheard | unserved => exact hkeep _ rfl
  | remove caller event next hnext =>
      refine hkeep next ?_
      rcases hnext with rfl | rfl <;> rfl
  | leaveEvent callbackData hcontext =>
      subst hcontext
      refine ⟨⟨callbackData, rfl⟩, fun mutex => ?_⟩
      cases mutex <;> simp [Point.holds, Stage.caller]
  | leaveProvider method hcontext =>
      subst hcontext
      refine ⟨⟨method, rfl⟩, fun mutex => ?_⟩
      cases mutex <;> simp [Point.holds, Stage.caller]
  | store helper eventName notification address place stored hstored =>
      intro mutex
      cases mutex <;> simp [Point.holds, Stage.caller, Caller.locked, eq_comm]
  | find helper id node hnode =>
      intro mutex
      cases mutex <;> simp [Point.holds, Stage.caller, Caller.locked, eq_comm]
  | settle caller status =>
      have hunlock : ∀ helper, caller.locked = some helper →
          (LockOp.unlock (Mutex.helperMtx helper)).Effect
            (Point.holds ⟨context, (.settle caller status : Stage η β ρ)⟩)
            (Point.holds ⟨context, (.ready : Stage η β ρ)⟩) := by
        intro helper hlocked
        refine ⟨hlocked, fun mutex => ?_⟩
        cases mutex <;> simp [Point.holds, Stage.caller, hlocked, eq_comm]
      cases caller with
      | user => exact hkeep _ rfl
      | subscribe helper =>
          simp only [Data.settle]
          split_ifs <;> exact hunlock helper rfl
      | unsubscribe helper id => exact hunlock helper rfl
      | unsubscribeAll helper id => exact hkeep _ (locked_turn data helper (id + 1)).1
  | notify method callbackData hfound =>
      obtain rfl : context = .application := hdelivers rfl
      intro mutex
      cases mutex <;> simp [Point.holds, Stage.caller]
  | serve method m hfound =>
      obtain rfl : context = .application := hdelivers rfl
      intro mutex
      cases mutex <;> simp [Point.holds, Stage.caller]

theorem Moves.delivers (hmoves : Moves data context stage input move)
    (hdelivers : Point.Delivers ⟨context, stage⟩) : move.next.Delivers := by
  intro hdelivering
  cases hmoves with
  | begin op =>
      rw [(locked_begin data op).2] at hdelivering
      cases hdelivering
  | check caller event callbackData =>
      rw [(caller_check data caller event callbackData).2] at hdelivering
      cases hdelivering
  | remove caller event next hnext => rcases hnext with rfl | rfl <;> cases hdelivering
  | settle caller status =>
      cases caller with
      | subscribe helper =>
          simp only [Data.settle] at hdelivering
          split_ifs at hdelivering <;> cases hdelivering
      | unsubscribeAll helper id =>
          have hturn := (locked_turn data helper (id + 1)).2
          exact absurd (hturn.symm.trans hdelivering) Bool.false_ne_true
      | user | unsubscribe => cases hdelivering
  | beginNotify _ hcontext | beginServe _ hcontext => exact hcontext
  | ignore | leaveEvent | leaveProvider | store | unknown | find | insert | refuse | succeed | fail
  | answer | rollback | registerProvider | unregisterProvider | unheard | notify | unserved
  | serve => cases hdelivering

end Holders

omit [DecidableEq η] [DecidableEq τ] in
theorem consistent_initial (connected : Bool) :
    Consistent (initial connected : State τ η β ρ) where
  agrees mutex thread := by
    cases mutex <;> simp [initial, Point.holds, Stage.caller]
  delivers _ hdelivering := by cases hdelivering

theorem Consistent.step {state next : State τ η β ρ} {action : Action τ η β ρ}
    (hconsistent : Consistent state) (hstep : Step state action next) : Consistent next := by
  cases hstep with
  | setTransport connected => exact ⟨hconsistent.agrees, hconsistent.delivers⟩
  | move thread input move locks hfree hmove hlocks =>
      have hdelivers := hconsistent.delivers thread
      constructor
      · exact hconsistent.agrees.move (hmove.effect hdelivers) hlocks
      · intro other
        by_cases hother : other = thread
        · subst hother
          rw [State.point, Locks.point_move_self hlocks]
          exact hmove.delivers hdelivers
        · rw [State.point, Locks.point_move_of_ne hlocks hother]
          exact hconsistent.delivers other

end FireboltTransport.Helpers
