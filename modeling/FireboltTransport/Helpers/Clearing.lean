/-
# `unsubscribeAll` beside `subscribe`

`SubscriptionHelper::subscribe` runs under `mutex_`; `unsubscribeAll` walks and
clears `subscriptions_` without it.  Every operation on the map and every critical
section of the server is a step here, so the one can move between any two steps of
the other: between the assignment to `subscriptions_[currentId_]` and the taking of
its address, between the end of the walk and `clear()`, and while a request is in
progress.  The walk stands at a node, not at a key, and coming back to a node that
is no longer stored is a crash.
-/

import FireboltTransport.Helpers.Subscriptions

namespace FireboltTransport.Helpers.Clearing

open Semantics Server GatewayImpl

universe u

/-- A node of `subscriptions_` with its key.  The notification is empty when the node was made
by looking for it. -/
structure Node (β : Type u) extends SubscriptionData (Option β) where
  id : ℕ
  /-- Tells the nodes apart; the sources have no such number. -/
  serial : ℕ
  deriving DecidableEq

/-- How far the `subscribe` is that holds `mutex_`. -/
inductive Stage (β : Type u)
  /-- Before `subscriptions_[currentId_] = ...`. -/
  | store
  /-- Before `&subscriptions_[currentId_]`. -/
  | locate
  /-- Before `Server::Subscribe`, with `notificationPtr`. -/
  | subscribe (node : Node β)
  /-- `Client::Request` is in progress. -/
  | request (node : Node β)
  /-- The request has failed; before `Server::Unsubscribe`. -/
  | rollback (node : Node β) (status : Error)
  /-- Before `subscriptions_.erase(currentId_)`. -/
  | erase (status : Error)
  deriving DecidableEq

/-- A call of `subscribe`. -/
structure Call (β : Type u) where
  eventName : Text
  notification : β
  stage : Stage β
  deriving DecidableEq

/-- How far `unsubscribeAll` is. -/
inductive Sweep (β : Type u)
  /-- Not called yet. -/
  | idle
  /-- Before `Server::Unsubscribe` of the node's event. -/
  | unsubscribe (node : Node β)
  /-- Before the request of `Event::Unsubscribe`, which reads the node's event name again. -/
  | request (node : Node β)
  /-- Before the iterator moves on. -/
  | advance (node : Node β)
  /-- The loop is over; before `subscriptions_.clear()`. -/
  | clear
  | returned
  /-- The node it stood at had been erased. -/
  | crashed
  deriving DecidableEq

/-- One helper and the event map, whose entries lead to a node of the helper or to somebody
else. -/
structure State (β : Type u) where
  eventMap : EventMap (Option (Node β))
  subscriptions : StdMap ℕ (Node β)
  /-- The 64 bits of `currentId_` suffice for fewer than `2 ^ 64` steps (`currentId_le_length`). -/
  currentId : ℕ
  /-- The call that holds `mutex_`. -/
  call : Option (Call β)
  sweep : Sweep β
  /-- The number of nodes made. -/
  made : ℕ
  /-- The nodes `clear()` has discarded. -/
  discarded : List (Node β)
  /-- The identifiers that calls have returned, with the nodes they registered. -/
  returned : List (ℕ × Node β)

inductive Action (β : Type u)
  | begin (eventName : Text) (notification : β)
  /-- The allocator places a node at `address`. -/
  | store (address : UInt64)
  | locate (address : UInt64)
  /-- `transport` is set, or not. -/
  | subscribe (connected : Bool)
  | answer (outcome : ListenOutcome)
  | rollback
  | erase
  | sweep
  deriving DecidableEq

variable {β : Type u}

/-- The entry `Server::Subscribe` is given for a node. -/
def Node.entry (node : Node β) : CallbackDataEvent (Option (Node β)) :=
  ⟨some node, node.address, 0⟩

def State.setStage (state : State β) (call : Call β) (stage : Stage β) : State β :=
  { state with call := some { call with stage } }

/-- A new node under `currentId_`. -/
def State.newNode (state : State β) (address : UInt64) (eventName : Text)
    (notification : Option β) : Node β :=
  { address, eventName, notification, id := state.currentId, serial := state.made }

/-- The map with a new node under `currentId_`. -/
def State.addNode (state : State β) (node : Node β) : State β :=
  { state with
    subscriptions := state.subscriptions.insert state.currentId node
    made := state.made + 1 }

/-- A step of the call that holds `mutex_`. -/
def callStep (state : State β) (call : Call β) : Stage β → Action β → Option (State β)
  | .store, .store address =>
      let node := state.newNode address call.eventName (some call.notification)
      some ((state.addNode node).setStage call .locate)
  | .locate, .locate address =>
      match state.subscriptions.lookup state.currentId with
      | some node => some (state.setStage call (.subscribe node))
      | none =>
          -- `operator[]` makes the node it does not find.
          let node := state.newNode address [] none
          some ((state.addNode node).setStage call (.subscribe node))
  | .subscribe node, .subscribe connected =>
      if !connected then some (state.setStage call (.erase .notConnected))
      else
        let inserted := Server.subscribe state.eventMap call.eventName node.entry
        some ({ state with eventMap := inserted.2 }.setStage call
          (if inserted.1 = Error.none then .request node else .erase inserted.1))
  | .request node, .answer outcome =>
      let status := subscribeStatus outcome
      if status = .none then
        some { state with
          call := none
          currentId := state.currentId + 1
          returned := (state.currentId, node) :: state.returned }
      else some (state.setStage call (.rollback node status))
  | .rollback _ status, .rollback =>
      some ({ state with
        eventMap := (Server.unsubscribe state.eventMap call.eventName).2
        }.setStage call (.erase status))
  | .erase _, .erase =>
      some { state with
        call := none
        subscriptions := state.subscriptions.erase state.currentId }
  | _, _ => none

/-- Where the loop goes from `start`. -/
def State.turn (state : State β) (start : ℕ) : Sweep β :=
  match nextNode state.subscriptions start with
  | some (_, node) => .unsubscribe node
  | none => .clear

variable [DecidableEq β]

/-- A step of `unsubscribeAll` at a node, which must still be stored. -/
def State.visit (state : State β) (node : Node β) (next : State β) : State β :=
  if state.subscriptions.lookup node.id = some node then next
  else { state with sweep := .crashed }

/-- A step of `unsubscribeAll`. -/
def sweepStep (state : State β) : Sweep β → Option (State β)
  | .idle => some { state with sweep := state.turn 0 }
  | .unsubscribe node =>
      let erased := Server.unsubscribe state.eventMap node.eventName
      some (state.visit node { state with
        eventMap := erased.2
        sweep := if erased.1 = .none then .request node else .advance node })
  | .request node => some (state.visit node { state with sweep := .advance node })
  | .advance node => some (state.visit node { state with sweep := state.turn (node.id + 1) })
  | .clear => some { state with
      subscriptions := ∅
      sweep := .returned
      discarded := state.subscriptions.entries.map fun entry : (_ : ℕ) × Node β => entry.2 }
  | .returned | .crashed => none

/-- One step, or `none` when the label is not enabled. -/
def step (state : State β) : Action β → Option (State β)
  | .sweep => sweepStep state state.sweep
  | .begin eventName notification =>
      match state.call with
      | none => some { state with call := some ⟨eventName, notification, .store⟩ }
      | some _ => none
  | action => state.call.bind fun call => callStep state call call.stage action

/-- A new helper, beside an event map that has no entries of it. -/
def initial (eventMap : EventMap (Option (Node β))) : State β where
  eventMap
  subscriptions := ∅
  currentId := 0
  call := none
  sweep := .idle
  made := 0
  discarded := []
  returned := []

/-- The steps, as a relation. -/
inductive Step (state : State β) : Action β → State β → Prop
  | begin (eventName : Text) (notification : β) (hidle : state.call = none) :
      Step state (.begin eventName notification)
        { state with call := some ⟨eventName, notification, .store⟩ }
  | store (call : Call β) (address : UInt64) (hcall : state.call = some call)
      (hstage : call.stage = .store) :
      Step state (.store address) ((state.addNode (state.newNode address call.eventName
        (some call.notification))).setStage call .locate)
  | find (call : Call β) (address : UInt64) (node : Node β) (hcall : state.call = some call)
      (hstage : call.stage = .locate)
      (hnode : state.subscriptions.lookup state.currentId = some node) :
      Step state (.locate address) (state.setStage call (.subscribe node))
  | make (call : Call β) (address : UInt64) (hcall : state.call = some call)
      (hstage : call.stage = .locate)
      (hnone : state.subscriptions.lookup state.currentId = none) :
      Step state (.locate address) ((state.addNode (state.newNode address [] none)).setStage call
        (.subscribe (state.newNode address [] none)))
  | refuse (call : Call β) (connected : Bool) (node : Node β) (status : Error)
      (hcall : state.call = some call) (hstage : call.stage = .subscribe node) :
      Step state (.subscribe connected) (state.setStage call (.erase status))
  | insert (call : Call β) (connected : Bool) (node : Node β) (hcall : state.call = some call)
      (hstage : call.stage = .subscribe node)
      (hfree : state.eventMap.lookup (getKeyFromEvent call.eventName) = none) :
      Step state (.subscribe connected) ({ state with
        eventMap := state.eventMap.insert (getKeyFromEvent call.eventName) node.entry
        }.setStage call (.request node))
  | succeed (call : Call β) (outcome : ListenOutcome) (node : Node β)
      (hcall : state.call = some call) (hstage : call.stage = .request node)
      (hstatus : outcome.status = .none) :
      Step state (.answer outcome) { state with
        call := none
        currentId := state.currentId + 1
        returned := (state.currentId, node) :: state.returned }
  | fail (call : Call β) (outcome : ListenOutcome) (node : Node β)
      (hcall : state.call = some call) (hstage : call.stage = .request node)
      (hstatus : outcome.status ≠ .none) :
      Step state (.answer outcome) (state.setStage call (.rollback node outcome.status))
  | rollback (call : Call β) (node : Node β) (status : Error) (hcall : state.call = some call)
      (hstage : call.stage = .rollback node status) :
      Step state .rollback ({ state with
        eventMap := (Server.unsubscribe state.eventMap call.eventName).2
        }.setStage call (.erase status))
  | erase (call : Call β) (status : Error) (hcall : state.call = some call)
      (hstage : call.stage = .erase status) :
      Step state .erase { state with
        call := none
        subscriptions := state.subscriptions.erase state.currentId }
  | start (hsweep : state.sweep = .idle) :
      Step state .sweep { state with sweep := state.turn 0 }
  | visit (node : Node β) (next : Sweep β) (hsweep : state.sweep = .unsubscribe node)
      (hnode : state.subscriptions.lookup node.id = some node)
      (hnext : next = .request node ∨ next = .advance node) :
      Step state .sweep { state with
        eventMap := (Server.unsubscribe state.eventMap node.eventName).2
        sweep := next }
  | requested (node : Node β) (hsweep : state.sweep = .request node)
      (hnode : state.subscriptions.lookup node.id = some node) :
      Step state .sweep { state with sweep := .advance node }
  | advance (node : Node β) (hsweep : state.sweep = .advance node)
      (hnode : state.subscriptions.lookup node.id = some node) :
      Step state .sweep { state with sweep := state.turn (node.id + 1) }
  | crash (node : Node β)
      (hsweep : state.sweep = .unsubscribe node ∨ state.sweep = .request node ∨
        state.sweep = .advance node)
      (hlost : state.subscriptions.lookup node.id ≠ some node) :
      Step state .sweep { state with sweep := .crashed }
  | clear (hsweep : state.sweep = .clear) :
      Step state .sweep { state with
        subscriptions := ∅
        sweep := .returned
        discarded := state.subscriptions.entries.map fun entry : (_ : ℕ) × Node β => entry.2 }

section Cases

variable {state next : State β} {action : Action β}

omit [DecidableEq β] in
theorem callStep_cases {call : Call β} {stage : Stage β} (hcall : state.call = some call)
    (hstage : call.stage = stage) (htaken : callStep state call stage action = some next) :
    Step state action next := by
  cases stage with
  | store =>
      cases action with
      | store address =>
          obtain rfl := Option.some.inj htaken
          exact .store call address hcall hstage
      | begin | locate | subscribe | answer | rollback | erase | sweep => cases htaken
  | locate =>
      cases action with
      | locate address =>
          simp only [callStep] at htaken
          split at htaken <;> obtain rfl := Option.some.inj htaken
          · exact .find call address _ hcall hstage ‹_›
          · exact .make call address hcall hstage ‹_›
      | begin | store | subscribe | answer | rollback | erase | sweep => cases htaken
  | subscribe node =>
      cases action with
      | subscribe connected =>
          cases connected with
          | false =>
              obtain rfl := Option.some.inj htaken
              exact .refuse call false node .notConnected hcall hstage
          | true =>
              obtain rfl := Option.some.inj htaken
              by_cases hfree : state.eventMap.lookup (getKeyFromEvent call.eventName) = none
              · simp only [Server.subscribe_of_free hfree, if_true]
                exact .insert call true node hcall hstage hfree
              · simp only [Server.subscribe_of_taken hfree, Error.general_ne_none, if_false]
                exact .refuse call true node .general hcall hstage
      | begin | store | locate | answer | rollback | erase | sweep => cases htaken
  | request node =>
      cases action with
      | answer outcome =>
          simp only [callStep, subscribeStatus_eq] at htaken
          split_ifs at htaken with hstatus <;> obtain rfl := Option.some.inj htaken
          · exact .succeed call outcome node hcall hstage hstatus
          · exact .fail call outcome node hcall hstage hstatus
      | begin | store | locate | subscribe | rollback | erase | sweep => cases htaken
  | rollback node status =>
      cases action with
      | rollback =>
          obtain rfl := Option.some.inj htaken
          exact .rollback call node status hcall hstage
      | begin | store | locate | subscribe | answer | erase | sweep => cases htaken
  | erase status =>
      cases action with
      | erase =>
          obtain rfl := Option.some.inj htaken
          exact .erase call status hcall hstage
      | begin | store | locate | subscribe | answer | rollback | sweep => cases htaken

theorem sweepStep_cases {sweep : Sweep β} (hsweep : state.sweep = sweep)
    (htaken : sweepStep state sweep = some next) : Step state .sweep next := by
  cases sweep with
  | idle =>
      obtain rfl := Option.some.inj htaken
      exact .start hsweep
  | unsubscribe node =>
      obtain rfl := Option.some.inj htaken
      simp only [State.visit]
      split_ifs with hnode herased
      · exact .visit node _ hsweep hnode (.inl rfl)
      · exact .visit node _ hsweep hnode (.inr rfl)
      · exact .crash node (.inl hsweep) hnode
  | request node =>
      obtain rfl := Option.some.inj htaken
      simp only [State.visit]
      split_ifs with hnode
      · exact .requested node hsweep hnode
      · exact .crash node (.inr (.inl hsweep)) hnode
  | advance node =>
      obtain rfl := Option.some.inj htaken
      simp only [State.visit]
      split_ifs with hnode
      · exact .advance node hsweep hnode
      · exact .crash node (.inr (.inr hsweep)) hnode
  | clear =>
      obtain rfl := Option.some.inj htaken
      exact .clear hsweep
  | returned | crashed => cases htaken

theorem step_cases (htaken : step state action = some next) : Step state action next := by
  cases action with
  | sweep => exact sweepStep_cases rfl htaken
  | begin eventName notification =>
      simp only [step] at htaken
      split at htaken
      · obtain rfl := Option.some.inj htaken
        exact .begin eventName notification ‹_›
      · cases htaken
  | store | locate | subscribe | answer | rollback | erase =>
      obtain ⟨call, hcall, htaken⟩ := Option.bind_eq_some_iff.mp htaken
      exact callStep_cases hcall rfl htaken

end Cases

end FireboltTransport.Helpers.Clearing
