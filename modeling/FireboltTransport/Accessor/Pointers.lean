/-
# The pointers to the transport

The accessor owns the one `Transport`.  The gateway and its client keep raw
pointers to it, and the transport keeps one to the gateway, its receiver.
`Connect` and `Disconnect` set and clear them one statement at a time, and the
state between any two statements counts, since other threads use the pointers.

No constructor initialises the two pointers of the gateway or the receiver of a
transport, so these start with whatever their memory contains.
-/

import FireboltTransport.Semantics.Run
import FireboltTransport.Semantics.StdMap

namespace FireboltTransport.Accessor

open Semantics

/-- An address; `nullptr` is 0. -/
abbrev Pointer := UInt64

/-- What the developments need of a `Transport` object. -/
structure TransportObject where
  /-- `_transportReceiver`. -/
  transportReceiver : Pointer
  /-- It is among the observers of its channel. -/
  registered : Bool
  deriving DecidableEq

/-- The statement that `Connect` or `Disconnect` is about to execute. -/
inductive Statement
  | idle
  /-- `delete _transport` in `CreateTransport`, if there is one. -/
  | connectDelete
  /-- The destructor has run, the memory is not freed. -/
  | connectFree
  | connectNew
  /-- `this->transport = transport` in `TransportUpdated`. -/
  | connectGateway
  | connectClient
  | connectReceiver
  | disconnectGateway
  | disconnectClient
  /-- `delete _transport` in `DestroyTransport`. -/
  | disconnectDelete
  | disconnectFree
  /-- `_transport = nullptr`. -/
  | disconnectClear
  deriving DecidableEq

structure State where
  /-- `Accessor::_transport`. -/
  transport : Pointer
  /-- `GatewayImpl::transport`. -/
  gatewayTransport : Pointer
  /-- `Client::transport`. -/
  clientTransport : Pointer
  /-- The transports that exist, by their addresses. -/
  heap : StdMap Pointer TransportObject
  statement : Statement

inductive Action
  | connect
  | disconnect
  /-- `new Transport`: the address, and what the memory of the receiver contains. -/
  | allocate (address receiver : Pointer)
  /-- The next statement of the operation in progress. -/
  | next
  deriving DecidableEq

/-- Change a transport that exists. -/
def modify (heap : StdMap Pointer TransportObject) (address : Pointer)
    (change : TransportObject → TransportObject) : StdMap Pointer TransportObject :=
  match heap.lookup address with
  | none => heap
  | some object => heap.insert address (change object)

/-- The destructor takes the transport off its channel. -/
def State.unregister (state : State) : State :=
  { state with heap := modify state.heap state.transport fun object =>
      { object with registered := false } }

/-- One step, or `none` when the label is not enabled; `impl` is the address of the
`GatewayImpl`. -/
def step (impl : Pointer) (state : State) : Action → Option State
  | .connect =>
      if state.statement = .idle then some { state with statement := .connectDelete } else none
  | .disconnect =>
      if state.statement = .idle then
        if state.transport = 0 then some state
        else some { state with statement := .disconnectGateway }
      else none
  | .allocate address receiver =>
      if state.statement = .connectNew ∧ address ≠ 0 ∧ state.heap.lookup address = none then
        some { state with
          heap := state.heap.insert address ⟨receiver, true⟩
          transport := address
          statement := .connectGateway }
      else none
  | .next =>
      match state.statement with
      | .connectDelete =>
          if state.transport ≠ 0 then some { state.unregister with statement := .connectFree }
          else some { state with statement := .connectNew }
      | .connectFree =>
          some { state with heap := state.heap.erase state.transport, statement := .connectNew }
      | .connectGateway =>
          some { state with gatewayTransport := state.transport, statement := .connectClient }
      | .connectClient =>
          some { state with clientTransport := state.transport, statement := .connectReceiver }
      | .connectReceiver =>
          if state.transport ≠ 0 then
            some { state with
              heap := modify state.heap state.transport fun object =>
                { object with transportReceiver := impl }
              statement := .idle }
          else some { state with statement := .idle }
      | .disconnectGateway =>
          some { state with gatewayTransport := 0, statement := .disconnectClient }
      | .disconnectClient =>
          some { state with clientTransport := 0, statement := .disconnectDelete }
      | .disconnectDelete =>
          if state.transport ≠ 0 then some { state.unregister with statement := .disconnectFree }
          else some { state with statement := .idle }
      | .disconnectFree =>
          some { state with
            heap := state.heap.erase state.transport
            statement := .disconnectClear }
      | .disconnectClear => some { state with transport := 0, statement := .idle }
      | .idle | .connectNew => none

/-- The constructed accessor and gateway; the gateway's pointers are not initialised. -/
def initial (gatewayTransport clientTransport : Pointer) : State where
  transport := 0
  gatewayTransport := gatewayTransport
  clientTransport := clientTransport
  heap := ∅
  statement := .idle

/-- `GatewayImpl::Request` does not get to the client. -/
def State.requestRefused (state : State) : Bool := state.gatewayTransport = 0

/-- The steps of the accessor, as a relation. -/
inductive Step (impl : Pointer) (state : State) : Action → State → Prop
  | connect (hstatement : state.statement = .idle) :
      Step impl state .connect { state with statement := .connectDelete }
  | disconnectNone (hstatement : state.statement = .idle) (htransport : state.transport = 0) :
      Step impl state .disconnect state
  | disconnect (hstatement : state.statement = .idle) (htransport : state.transport ≠ 0) :
      Step impl state .disconnect { state with statement := .disconnectGateway }
  | allocate (address receiver : Pointer) (hstatement : state.statement = .connectNew)
      (haddress : address ≠ 0) (hfresh : state.heap.lookup address = none) :
      Step impl state (.allocate address receiver)
        { state with
          heap := state.heap.insert address ⟨receiver, true⟩
          transport := address
          statement := .connectGateway }
  | connectDelete (hstatement : state.statement = .connectDelete)
      (htransport : state.transport ≠ 0) :
      Step impl state .next { state.unregister with statement := .connectFree }
  | connectNothing (hstatement : state.statement = .connectDelete)
      (htransport : state.transport = 0) :
      Step impl state .next { state with statement := .connectNew }
  | connectFree (hstatement : state.statement = .connectFree) :
      Step impl state .next
        { state with heap := state.heap.erase state.transport, statement := .connectNew }
  | connectGateway (hstatement : state.statement = .connectGateway) :
      Step impl state .next
        { state with gatewayTransport := state.transport, statement := .connectClient }
  | connectClient (hstatement : state.statement = .connectClient) :
      Step impl state .next
        { state with clientTransport := state.transport, statement := .connectReceiver }
  | connectReceiver (hstatement : state.statement = .connectReceiver)
      (htransport : state.transport ≠ 0) :
      Step impl state .next
        { state with
          heap := modify state.heap state.transport fun object =>
            { object with transportReceiver := impl }
          statement := .idle }
  | receiverNone (hstatement : state.statement = .connectReceiver)
      (htransport : state.transport = 0) :
      Step impl state .next { state with statement := .idle }
  | disconnectGateway (hstatement : state.statement = .disconnectGateway) :
      Step impl state .next { state with gatewayTransport := 0, statement := .disconnectClient }
  | disconnectClient (hstatement : state.statement = .disconnectClient) :
      Step impl state .next { state with clientTransport := 0, statement := .disconnectDelete }
  | disconnectDelete (hstatement : state.statement = .disconnectDelete)
      (htransport : state.transport ≠ 0) :
      Step impl state .next { state.unregister with statement := .disconnectFree }
  | disconnectNothing (hstatement : state.statement = .disconnectDelete)
      (htransport : state.transport = 0) :
      Step impl state .next { state with statement := .idle }
  | disconnectFree (hstatement : state.statement = .disconnectFree) :
      Step impl state .next
        { state with heap := state.heap.erase state.transport, statement := .disconnectClear }
  | disconnectClear (hstatement : state.statement = .disconnectClear) :
      Step impl state .next { state with transport := 0, statement := .idle }

theorem step_cases {impl : Pointer} {state next : State} {action : Action}
    (htaken : step impl state action = some next) : Step impl state action next := by
  cases action with
  | connect =>
      simp only [step] at htaken
      split_ifs at htaken with hstatement
      obtain rfl := Option.some.inj htaken
      exact .connect hstatement
  | disconnect =>
      simp only [step] at htaken
      split_ifs at htaken with hstatement htransport
      · obtain rfl := Option.some.inj htaken
        exact .disconnectNone hstatement htransport
      · obtain rfl := Option.some.inj htaken
        exact .disconnect hstatement htransport
  | allocate address receiver =>
      simp only [step] at htaken
      split_ifs at htaken with hguard
      obtain rfl := Option.some.inj htaken
      exact .allocate address receiver hguard.1 hguard.2.1 hguard.2.2
  | next =>
      simp only [step] at htaken
      split at htaken
      case h_1 hstatement =>
          split_ifs at htaken with htransport
          · obtain rfl := Option.some.inj htaken
            exact .connectDelete hstatement htransport
          · obtain rfl := Option.some.inj htaken
            exact .connectNothing hstatement (not_ne_iff.mp htransport)
      case h_2 hstatement =>
          obtain rfl := Option.some.inj htaken
          exact .connectFree hstatement
      case h_3 hstatement =>
          obtain rfl := Option.some.inj htaken
          exact .connectGateway hstatement
      case h_4 hstatement =>
          obtain rfl := Option.some.inj htaken
          exact .connectClient hstatement
      case h_5 hstatement =>
          split_ifs at htaken with htransport
          · obtain rfl := Option.some.inj htaken
            exact .connectReceiver hstatement htransport
          · obtain rfl := Option.some.inj htaken
            exact .receiverNone hstatement (not_ne_iff.mp htransport)
      case h_6 hstatement =>
          obtain rfl := Option.some.inj htaken
          exact .disconnectGateway hstatement
      case h_7 hstatement =>
          obtain rfl := Option.some.inj htaken
          exact .disconnectClient hstatement
      case h_8 hstatement =>
          split_ifs at htaken with htransport
          · obtain rfl := Option.some.inj htaken
            exact .disconnectDelete hstatement htransport
          · obtain rfl := Option.some.inj htaken
            exact .disconnectNothing hstatement (not_ne_iff.mp htransport)
      case h_9 hstatement =>
          obtain rfl := Option.some.inj htaken
          exact .disconnectFree hstatement
      case h_10 hstatement =>
          obtain rfl := Option.some.inj htaken
          exact .disconnectClear hstatement
      case h_11 | h_12 => cases htaken

/-! ## The heap -/

theorem lookup_modify (heap : StdMap Pointer TransportObject) (address other : Pointer)
    (change : TransportObject → TransportObject) :
    (modify heap address change).lookup other =
      if other = address then (heap.lookup address).map change else heap.lookup other := by
  unfold modify
  cases hobject : heap.lookup address with
  | none =>
      split_ifs with hother
      · rw [hother, hobject]
        rfl
      · rfl
  | some object => exact StdMap.lookup_insert_of_eq_or_ne address other (change object) heap

/-- Changing a transport neither makes nor deletes one. -/
theorem isSome_lookup_modify (heap : StdMap Pointer TransportObject) (address other : Pointer)
    (change : TransportObject → TransportObject) :
    ((modify heap address change).lookup other).isSome = (heap.lookup other).isSome := by
  rw [lookup_modify]
  split_ifs with hother
  · rw [hother, Option.isSome_map]
  · rfl

/-! ## Null or live -/

/-- The pointer is null or the address of a transport that exists. -/
def NullOrLive (heap : StdMap Pointer TransportObject) (pointer : Pointer) : Prop :=
  pointer = 0 ∨ (heap.lookup pointer).isSome = true

/-- The pointers of the gateway and of its client are null or live, and the receiver of a
transport is null or the gateway. -/
structure PointersSound (impl : Pointer) (state : State) : Prop where
  gateway : NullOrLive state.heap state.gatewayTransport
  client : NullOrLive state.heap state.clientTransport
  receiver : ∀ address object, state.heap.lookup address = some object →
    object.transportReceiver = 0 ∨ object.transportReceiver = impl

/-- The pointers are sound between any two statements of the schedule. -/
def SoundThroughout (impl : Pointer) (start : State) (schedule : List Action) : Prop :=
  ∀ before after state, schedule = before ++ after →
    exec (step impl) start before = some state → PointersSound impl state

/-- `Connect` deletes no transport, and the memory of a new one has a receiver in it that is
null or the gateway. -/
def Clean (impl : Pointer) (state : State) : Action → Prop
  | .next => state.statement ≠ .connectFree
  | .allocate _ receiver => receiver = 0 ∨ receiver = impl
  | _ => True

instance (impl : Pointer) (state : State) (action : Action) :
    Decidable (Clean impl state action) := by
  cases action <;> unfold Clean <;> infer_instance

/-- What `GatewayImpl::transport` holds before a statement. -/
def Statement.gatewayTransport (transport : Pointer) : Statement → Pointer
  | .idle | .connectDelete | .connectFree | .connectClient | .connectReceiver
  | .disconnectGateway => transport
  | .connectNew | .connectGateway | .disconnectClient | .disconnectDelete | .disconnectFree
  | .disconnectClear => 0

/-- What `Client::transport` holds before a statement. -/
def Statement.clientTransport (transport : Pointer) : Statement → Pointer
  | .idle | .connectDelete | .connectFree | .connectReceiver | .disconnectGateway
  | .disconnectClient => transport
  | .connectNew | .connectGateway | .connectClient | .disconnectDelete | .disconnectFree
  | .disconnectClear => 0

/-- The accessor's own pointer is null or live before the statement. -/
def Statement.owns : Statement → Bool
  | .connectNew | .disconnectClear => false
  | _ => true

/-- The pointers are where the statements of `Connect` and `Disconnect` put them. -/
structure Published (impl : Pointer) (state : State) : Prop where
  gateway : state.gatewayTransport = state.statement.gatewayTransport state.transport
  client : state.clientTransport = state.statement.clientTransport state.transport
  owned : state.statement.owns = true → NullOrLive state.heap state.transport
  deleted : state.statement = .connectFree → state.transport ≠ 0
  receiver : ∀ address object, state.heap.lookup address = some object →
    object.transportReceiver = 0 ∨ object.transportReceiver = impl

theorem Published.sound {impl : Pointer} {state : State}
    (hpublished : Published impl state) : PointersSound impl state where
  gateway := by
    rw [hpublished.gateway]
    cases hstatement : state.statement with
    | idle | connectDelete | connectFree | connectClient | connectReceiver
    | disconnectGateway => exact hpublished.owned (by rw [hstatement]; rfl)
    | connectNew | connectGateway | disconnectClient | disconnectDelete | disconnectFree
    | disconnectClear => exact .inl rfl
  client := by
    rw [hpublished.client]
    cases hstatement : state.statement with
    | idle | connectDelete | connectFree | connectReceiver | disconnectGateway
    | disconnectClient => exact hpublished.owned (by rw [hstatement]; rfl)
    | connectNew | connectGateway | connectClient | disconnectDelete | disconnectFree
    | disconnectClear => exact .inl rfl
  receiver := hpublished.receiver

/-- A request made while no transport exists is refused. -/
theorem PointersSound.requestRefused {impl : Pointer} {state : State}
    (hsound : PointersSound impl state) (hnone : state.heap = ∅) :
    state.requestRefused = true := by
  rcases hsound.gateway with hnull | hlive
  · simp [State.requestRefused, hnull]
  · simp [hnone] at hlive

theorem published_initial (impl : Pointer) : Published impl (initial 0 0) where
  gateway := rfl
  client := rfl
  owned _ := .inl rfl
  deleted := by simp [initial]
  receiver := by simp [initial]

section Step

variable {impl : Pointer} {state next : State} {action : Action}

theorem NullOrLive.modify {heap : StdMap Pointer TransportObject} {pointer : Pointer}
    (hpointer : NullOrLive heap pointer) (address : Pointer)
    (change : TransportObject → TransportObject) :
    NullOrLive (modify heap address change) pointer := by
  rcases hpointer with hnull | hlive
  · exact .inl hnull
  · right
    rw [isSome_lookup_modify]
    exact hlive

/-- Receivers after a transport has changed. -/
theorem receiver_modify {heap : StdMap Pointer TransportObject} {pointer : Pointer}
    {change : TransportObject → TransportObject}
    (hreceiver : ∀ address object, heap.lookup address = some object →
      object.transportReceiver = 0 ∨ object.transportReceiver = impl)
    (hchange : ∀ object, (change object).transportReceiver = object.transportReceiver ∨
      (change object).transportReceiver = impl)
    (address : Pointer) (object : TransportObject)
    (hlookup : (modify heap pointer change).lookup address = some object) :
    object.transportReceiver = 0 ∨ object.transportReceiver = impl := by
  rw [lookup_modify] at hlookup
  split_ifs at hlookup with haddress
  · obtain ⟨before, hbefore, rfl⟩ := Option.map_eq_some_iff.mp hlookup
    rcases hchange before with hsame | himpl
    · rw [hsame]
      exact hreceiver pointer before hbefore
    · exact .inr himpl
  · exact hreceiver address object hlookup

theorem Published.step (hpublished : Published impl state)
    (hstep : Step impl state action next) (hclean : Clean impl state action) :
    Published impl next := by
  obtain ⟨hgateway, hclient, howned, hdeleted, hreceiver⟩ := hpublished
  cases hstep with
  | connectFree hstatement => exact absurd hstatement hclean
  | allocate address receiver hstatement haddress hfresh =>
      rw [hstatement] at hgateway hclient
      exact ⟨hgateway, hclient, fun _ => .inr (by simp), by simp,
        StdMap.forall_lookup_insert hclean hreceiver⟩
  | disconnectFree hstatement =>
      rw [hstatement] at hgateway hclient
      exact ⟨hgateway, hclient, by simp [Statement.owns], by simp,
        StdMap.forall_lookup_erase _ hreceiver⟩
  | connectDelete hstatement htransport | disconnectDelete hstatement htransport =>
      rw [hstatement] at hgateway hclient howned
      exact ⟨hgateway, hclient, fun _ => (howned rfl).modify _ _, fun _ => htransport,
        receiver_modify hreceiver fun object => .inl rfl⟩
  | connectReceiver hstatement htransport =>
      rw [hstatement] at hgateway hclient howned
      exact ⟨hgateway, hclient, fun _ => (howned rfl).modify _ _, by simp,
        receiver_modify hreceiver fun object => .inr rfl⟩
  | connectNothing hstatement htransport =>
      rw [hstatement] at hgateway hclient
      exact ⟨hgateway.trans htransport, hclient.trans htransport, by simp [Statement.owns],
        by simp, hreceiver⟩
  | disconnectNothing hstatement htransport =>
      rw [hstatement] at hgateway hclient
      exact ⟨hgateway.trans htransport.symm, hclient.trans htransport.symm,
        fun _ => .inl htransport, by simp, hreceiver⟩
  | disconnectClear hstatement =>
      rw [hstatement] at hgateway hclient
      exact ⟨hgateway, hclient, fun _ => .inl rfl, by simp, hreceiver⟩
  | disconnectNone hstatement htransport =>
      exact ⟨hgateway, hclient, howned, hdeleted, hreceiver⟩
  | connect hstatement | disconnect hstatement | connectGateway hstatement
  | connectClient hstatement | receiverNone hstatement | disconnectGateway hstatement
  | disconnectClient hstatement =>
      rw [hstatement] at hgateway hclient howned
      exact ⟨by first | exact hgateway | rfl, by first | exact hclient | rfl, fun _ => howned rfl,
        by simp, hreceiver⟩

/-- A step that is not clean leaves a pointer that is not sound. -/
theorem Published.not_sound (hpublished : Published impl state)
    (hstep : Step impl state action next) (hclean : ¬ Clean impl state action) :
    ¬ PointersSound impl next := by
  intro hsound
  cases hstep with
  | allocate address receiver hstatement haddress hfresh =>
      exact hclean (hsound.receiver address ⟨receiver, true⟩ (by simp))
  | connectFree hstatement =>
      have hnull := hpublished.deleted hstatement
      have hgateway : state.gatewayTransport = state.transport := by
        rw [hpublished.gateway, hstatement]
        rfl
      rcases hsound.gateway with hzero | hlive
      · exact hnull (hgateway.symm.trans hzero)
      · rw [StdMap.lookup_erase_of_eq_or_ne, if_pos hgateway] at hlive
        cases hlive
  | connect hstatement | disconnectNone hstatement | disconnect hstatement =>
      exact hclean trivial
  | connectDelete hstatement | connectNothing hstatement | connectGateway hstatement
  | connectClient hstatement | connectReceiver hstatement | receiverNone hstatement
  | disconnectGateway hstatement | disconnectClient hstatement | disconnectDelete hstatement
  | disconnectNothing hstatement | disconnectFree hstatement | disconnectClear hstatement =>
      exact hclean (by simp [Clean, hstatement])

end Step

/-! ## Every sequence of operations -/

/-- The gateway's pointers are null where they are sound at the start. -/
theorem null_of_sound_initial {impl gatewayTransport clientTransport : Pointer}
    (hsound : PointersSound impl (initial gatewayTransport clientTransport)) :
    gatewayTransport = 0 ∧ clientTransport = 0 := by
  constructor
  · rcases hsound.gateway with hnull | hlive
    · exact hnull
    · simp [initial] at hlive
  · rcases hsound.client with hnull | hlive
    · exact hnull
    · simp [initial] at hlive

/-- From null pointers, a run is sound throughout exactly when every step is clean. -/
theorem soundThroughout_initial_iff {impl : Pointer} {schedule : List Action} {final : State}
    (hrun : exec (step impl) (initial 0 0) schedule = some final) :
    SoundThroughout impl (initial 0 0) schedule ↔
      Meets (step impl) (Clean impl) (initial 0 0) schedule := by
  apply throughout_iff_meets (published_initial impl) (fun _ => Published.sound) _ _ hrun
  · exact fun _ _ _ hprior hclean htaken => hprior.step (step_cases htaken) hclean
  · intro state action next hprior htaken hnext
    by_contra hnot
    exact hprior.not_sound (step_cases htaken) hnot hnext

/-- **Null or live.**  For every sequence of `Connect` and `Disconnect`, whatever the
uninitialised memory contains, the pointers are sound between any two statements if and only
if the gateway's pointers happen to start as null, no `Connect` deletes a transport, and the
receiver of every new transport happens to be null or the gateway. -/
theorem soundThroughout_iff {impl gatewayTransport clientTransport : Pointer}
    {schedule : List Action} {final : State}
    (hrun : exec (step impl) (initial gatewayTransport clientTransport) schedule = some final) :
    SoundThroughout impl (initial gatewayTransport clientTransport) schedule ↔
      gatewayTransport = 0 ∧ clientTransport = 0 ∧
        Meets (step impl) (Clean impl) (initial gatewayTransport clientTransport) schedule := by
  constructor
  · intro hsound
    obtain ⟨rfl, rfl⟩ := null_of_sound_initial (hsound [] schedule _ rfl rfl)
    exact ⟨rfl, rfl, (soundThroughout_initial_iff hrun).mp hsound⟩
  · rintro ⟨rfl, rfl, hclean⟩
    exact (soundThroughout_initial_iff hrun).mpr hclean

/-- A `Connect` that finds no transport and is given one at `address`. -/
def connects (address : Pointer) : List Action :=
  [.connect, .next, .allocate address 0, .next, .next, .next]

/-- A `Disconnect` that finds a transport. -/
def disconnects : List Action :=
  [.disconnect, .next, .next, .next, .next, .next]

theorem soundThroughout_iff_reconnects :
    SoundThroughout 8 (initial 0 0) (connects 16 ++ disconnects ++ connects 16) := by
  obtain ⟨final, hrun, _⟩ : ∃ final : State,
      exec (step 8) (initial 0 0) (connects 16 ++ disconnects ++ connects 16) = some final ∧
        decide (final.gatewayTransport = 16) = true :=
    exists_exec_of_any (by decide)
  exact (soundThroughout_iff hrun).mpr ⟨rfl, rfl, by decide⟩

/-- The gateway's pointer is not initialised; and even where its memory is null, a second
`Connect` deletes the transport while the gateway still points to it. -/
theorem unsound_before_and_after_connect :
    ¬ SoundThroughout 8 (initial 24 0) [] ∧
      ¬ SoundThroughout 8 (initial 0 0) (connects 16 ++ [.connect, .next, .next]) := by
  constructor
  · intro hsound
    have hgateway := (hsound [] [] _ rfl rfl).gateway
    simp [initial, NullOrLive] at hgateway
  · intro hsound
    obtain ⟨final, hrun, hfacts⟩ : ∃ final : State,
        exec (step 8) (initial 0 0) (connects 16 ++ [.connect, .next, .next]) = some final ∧
          decide (final.gatewayTransport = 16 ∧ final.heap.lookup 16 = none) = true :=
      exists_exec_of_any (by decide)
    obtain ⟨hgateway, hdeleted⟩ := of_decide_eq_true hfacts
    rcases (hsound _ [] final (List.append_nil _).symm hrun).gateway with hnull | hlive
    · rw [hgateway] at hnull
      exact absurd hnull (by decide)
    · rw [hgateway, hdeleted] at hlive
      cases hlive

end FireboltTransport.Accessor
