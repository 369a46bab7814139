/-
# From a notification's parameters to the user's function

The type of the JSON object a notification is parsed into is a template argument
of `Subscribe`; the callback it is handed to as a `void*` assumes a type of its
own, and the user's function is taken from a `std::any` as a third.  Objects
carry their dynamic type here, and reading one as another type is an outcome, so
that the agreement of the three places is something to prove.
-/

import FireboltTransport.Helpers.Operations

namespace FireboltTransport.Helpers

open Semantics Server

universe u v w

/-- A JSON class `subscribe` is instantiated with, or `ArrayType` of one. -/
inductive JsonClass (τ : Type u)
  | json (jsonType : τ)
  | arrayType (jsonType : τ)
  deriving DecidableEq

/-- What the user is given: the `Value()` of an object, or those of the elements of an array. -/
def JsonClass.Contents {τ : Type u} (value : τ → Type v) : JsonClass τ → Type v
  | .json jsonType => value jsonType
  | .arrayType jsonType => List (value jsonType)

/-- The JSON library. -/
structure JsonLibrary (τ : Type u) (value : τ → Type v) where
  /-- What a text says, when it is a JSON value of the class. -/
  denotes : (type : JsonClass τ) → Text → Option (type.Contents value)
  /-- What a new object holds after `FromString`. -/
  fromString : (type : JsonClass τ) → Text → type.Contents value

/-- `FromString` reads every JSON value of its class. -/
def JsonLibrary.Faithful {τ : Type u} {value : τ → Type v} (library : JsonLibrary τ value) :
    Prop :=
  ∀ type text contents, library.denotes type text = some contents →
    library.fromString type text = contents

/-- The object behind a `ProxyType` that is passed on as a `void*`. -/
structure Inbound (τ : Type u) (value : τ → Type v) where
  type : JsonClass τ
  contents : type.Contents value

/-- A `std::function` in a `std::any`: what it takes, and which function it is. -/
structure Notification (τ : Type u) (ι : Type w) where
  argument : JsonClass τ
  function : ι
  deriving DecidableEq

/-- What comes of a notification that has found its entry. -/
inductive Receipt (τ : Type u) (value : τ → Type v) (ι : Type w)
  | received (function : ι) (type : JsonClass τ) (contents : type.Contents value)
  /-- The object was read as one of another type. -/
  | typeConfusion
  /-- `std::any_cast` threw. -/
  | badAnyCast
  /-- `usercb` did not point to a `SubscriptionData`. -/
  | dangling

/-- An instance of one of the two callback templates. -/
inductive Callback (τ : Type u)
  | propertyChanged (jsonType : τ)
  | containerPropertyChanged (jsonType : τ)
  deriving DecidableEq

/-- The lambda `Server::Subscribe<RESULT>` makes around a callback. -/
structure DispatchFunctionEvent (τ : Type u) where
  result : JsonClass τ
  actualCallback : Callback τ
  deriving DecidableEq

/-- One helper and the event map.  The nodes of `subscriptions_` are in `memory`, each at its
address. -/
structure HelperState (τ : Type u) (ι : Type w) where
  eventMap : EventMap (DispatchFunctionEvent τ)
  memory : StdMap UInt64 (SubscriptionData (Notification τ ι))
  subscriptions : StdMap ℕ UInt64
  /-- The 64 bits of `currentId_` suffice for fewer than `2 ^ 64` steps (`currentId_le_length`). -/
  currentId : ℕ

variable {τ : Type u} {value : τ → Type v} {ι : Type w} [DecidableEq τ]

/-! ## The callbacks -/

/-- `*(reinterpret_cast<ProxyType<...>*>(jsonResponse))`. -/
def Inbound.readAs (inbound : Inbound τ value) (type : JsonClass τ) :
    Option (type.Contents value) :=
  if htype : inbound.type = type then some (htype ▸ inbound.contents) else none

/-- The end of both callbacks: the function is cast to one of its own argument and called. -/
def notifier (memory : StdMap UInt64 (SubscriptionData (Notification τ ι)))
    (subscriptionDataPtr : UInt64) (argument : JsonClass τ) (contents : argument.Contents value) :
    Receipt τ value ι :=
  match memory.lookup subscriptionDataPtr with
  | none => .dangling
  | some subscriptionData =>
      if subscriptionData.notification.argument = argument then
        .received subscriptionData.notification.function argument contents
      else .badAnyCast

def onPropertyChangedCallback (memory : StdMap UInt64 (SubscriptionData (Notification τ ι)))
    (jsonType : τ) (subscriptionDataPtr : UInt64) (jsonResponse : Inbound τ value) :
    Receipt τ value ι :=
  match jsonResponse.readAs (.json jsonType) with
  | none => .typeConfusion
  | some changedProperty => notifier memory subscriptionDataPtr (.json jsonType) changedProperty

/-- `while (index.Next() == true)`, which pushes one value a turn. -/
def pushElements {α : Type v} (values : List α) : List α → List α
  | [] => values
  | current :: index => pushElements (values ++ [current]) index

def onContainerPropertyChangedCallback
    (memory : StdMap UInt64 (SubscriptionData (Notification τ ι))) (jsonType : τ)
    (subscriptionDataPtr : UInt64) (jsonResponse : Inbound τ value) : Receipt τ value ι :=
  match jsonResponse.readAs (.arrayType jsonType) with
  | none => .typeConfusion
  | some elements =>
      notifier memory subscriptionDataPtr (.arrayType jsonType) (pushElements [] elements)

def Callback.run (memory : StdMap UInt64 (SubscriptionData (Notification τ ι))) :
    Callback τ → UInt64 → Inbound τ value → Receipt τ value ι
  | .propertyChanged jsonType => onPropertyChangedCallback memory jsonType
  | .containerPropertyChanged jsonType =>
      onContainerPropertyChangedCallback memory jsonType

/-- The type a callback reads its object as. -/
def Callback.reads : Callback τ → JsonClass τ
  | .propertyChanged jsonType => .json jsonType
  | .containerPropertyChanged jsonType => .arrayType jsonType

/-- The lambda is invoked: it makes an object of `RESULT` and hands it to the callback. -/
def DispatchFunctionEvent.invoke (library : JsonLibrary τ value)
    (memory : StdMap UInt64 (SubscriptionData (Notification τ ι)))
    (lambda : DispatchFunctionEvent τ) (usercb : UInt64) (parameters : Text) :
    Receipt τ value ι :=
  lambda.actualCallback.run memory usercb
    ⟨lambda.result, library.fromString lambda.result parameters⟩

/-- `Server::Notify`. -/
def HelperState.notify (library : JsonLibrary τ value) (state : HelperState τ ι)
    (method parameters : Text) : Option (Receipt τ value ι) :=
  (Server.notify state.eventMap method).map fun callback =>
    callback.lambda.invoke library state.memory callback.usercb parameters

/-! ## The two overloads of `subscribe` -/

/-- `subscriptions_[currentId_] = ...`: the node that is there is assigned to, or a new one is
placed at `address`, which must be free. -/
def HelperState.store (state : HelperState τ ι) (address : UInt64) (eventName : Text)
    (notification : Notification τ ι) : Option (UInt64 × HelperState τ ι) :=
  match state.subscriptions.lookup state.currentId with
  | some node => some (node, { state with
      memory := state.memory.insert node ⟨node, eventName, notification⟩ })
  | none =>
      if (state.memory.lookup address).isSome then none
      else some (address, { state with
        memory := state.memory.insert address ⟨address, eventName, notification⟩
        subscriptions := state.subscriptions.insert state.currentId address })

/-- `subscriptions_.erase(currentId_)`. -/
def HelperState.erase (state : HelperState τ ι) : HelperState τ ι :=
  match state.subscriptions.lookup state.currentId with
  | none => state
  | some node => { state with
      memory := state.memory.erase node
      subscriptions := state.subscriptions.erase state.currentId }

/-- Both overloads: what they pass on is `result`, `callback` and `notification`.  The node is
placed at `address`, and the request for `listening` ends in `outcome`. -/
def HelperState.subscribeWith (state : HelperState τ ι) (result : JsonClass τ)
    (callback : Callback τ) (notification : Notification τ ι) (eventName : Text)
    (connected : Bool) (address : UInt64) (outcome : GatewayImpl.ListenOutcome) :
    Option (Except Error ℕ × HelperState τ ι) :=
  (state.store address eventName notification).map fun stored =>
    let subscribed := GatewayImpl.subscribe connected stored.2.eventMap eventName
      ⟨⟨result, callback⟩, stored.1, 0⟩ outcome
    if subscribed.1 = .none then
      (.ok stored.2.currentId, { stored.2 with
        eventMap := subscribed.2
        currentId := stored.2.currentId + 1 })
    else (.error subscribed.1, { stored.2 with eventMap := subscribed.2 }.erase)

/-- `subscribe` for a property. -/
def HelperState.subscribe (state : HelperState τ ι) (jsonType : τ) (function : ι)
    (eventName : Text) (connected : Bool) (address : UInt64)
    (outcome : GatewayImpl.ListenOutcome) : Option (Except Error ℕ × HelperState τ ι) :=
  state.subscribeWith (.json jsonType) (.propertyChanged jsonType)
    ⟨.json jsonType, function⟩ eventName connected address outcome

/-- `subscribe` for a container. -/
def HelperState.subscribeContainer (state : HelperState τ ι) (jsonType : τ) (function : ι)
    (eventName : Text) (connected : Bool) (address : UInt64)
    (outcome : GatewayImpl.ListenOutcome) : Option (Except Error ℕ × HelperState τ ι) :=
  -- `Subscribe<JsonType>`, as for a property.
  state.subscribeWith (.json jsonType) (.containerPropertyChanged jsonType)
    ⟨.arrayType jsonType, function⟩ eventName connected address outcome

inductive Overload
  | property
  | container
  deriving DecidableEq

def HelperState.subscribeBy (state : HelperState τ ι) :
    Overload → τ → ι → Text → Bool → UInt64 → GatewayImpl.ListenOutcome →
      Option (Except Error ℕ × HelperState τ ι)
  | .property => state.subscribe
  | .container => state.subscribeContainer

/-- The kind of value an overload subscribes to. -/
def Overload.kind (jsonType : τ) : Overload → JsonClass τ
  | .property => .json jsonType
  | .container => .arrayType jsonType

/-- The instance of the callback templates an overload registers. -/
def Overload.callback (jsonType : τ) : Overload → Callback τ
  | .property => .propertyChanged jsonType
  | .container => .containerPropertyChanged jsonType

/-! ## What is read -/

@[simp]
theorem Inbound.readAs_self (type : JsonClass τ) (contents : type.Contents value) :
    (⟨type, contents⟩ : Inbound τ value).readAs type = some contents := by
  simp [readAs]

theorem Inbound.readAs_of_ne {inbound : Inbound τ value} {type : JsonClass τ}
    (htype : inbound.type ≠ type) : inbound.readAs type = none := by
  simp [readAs, htype]

theorem pushElements_eq {α : Type v} (values elements : List α) :
    pushElements values elements = values ++ elements := by
  induction elements generalizing values with
  | nil => simp [pushElements]
  | cons current index ih => simp [pushElements, ih]

section Callbacks

variable {memory : StdMap UInt64 (SubscriptionData (Notification τ ι))}

theorem onPropertyChangedCallback_of_type (jsonType : τ) (subscriptionDataPtr : UInt64)
    (contents : (JsonClass.json jsonType).Contents value) :
    onPropertyChangedCallback memory jsonType subscriptionDataPtr ⟨.json jsonType, contents⟩ =
      notifier memory subscriptionDataPtr (.json jsonType) contents := by
  simp [onPropertyChangedCallback]

theorem onContainerPropertyChangedCallback_of_type (jsonType : τ) (subscriptionDataPtr : UInt64)
    (contents : (JsonClass.arrayType jsonType).Contents value) :
    onContainerPropertyChangedCallback memory jsonType subscriptionDataPtr
        ⟨.arrayType jsonType, contents⟩ =
      notifier memory subscriptionDataPtr (.arrayType jsonType) contents := by
  simp only [onContainerPropertyChangedCallback, Inbound.readAs_self]
  congr 1
  exact pushElements_eq [] contents

/-- A callback that reads its object as what it is hands its contents on. -/
theorem Callback.run_of_type (callback : Callback τ) (subscriptionDataPtr : UInt64)
    (contents : callback.reads.Contents value) :
    callback.run memory subscriptionDataPtr ⟨callback.reads, contents⟩ =
      notifier memory subscriptionDataPtr callback.reads contents := by
  cases callback with
  | propertyChanged jsonType =>
      exact onPropertyChangedCallback_of_type jsonType subscriptionDataPtr contents
  | containerPropertyChanged jsonType =>
      exact onContainerPropertyChangedCallback_of_type jsonType subscriptionDataPtr contents

theorem Callback.run_of_type_ne {callback : Callback τ} {subscriptionDataPtr : UInt64}
    {inbound : Inbound τ value} (htype : inbound.type ≠ callback.reads) :
    callback.run memory subscriptionDataPtr inbound = .typeConfusion := by
  cases callback with
  | propertyChanged jsonType =>
      have hread : inbound.readAs (.json jsonType) = none := Inbound.readAs_of_ne htype
      simp [run, onPropertyChangedCallback, hread]
  | containerPropertyChanged jsonType =>
      have hread : inbound.readAs (.arrayType jsonType) = none := Inbound.readAs_of_ne htype
      simp [run, onContainerPropertyChangedCallback, hread]

/-- What is made of the parameters reaches the user's function when the lambda and its callback
agree on the type, and is read as another type when they do not. -/
theorem DispatchFunctionEvent.invoke_eq (library : JsonLibrary τ value)
    (lambda : DispatchFunctionEvent τ) (usercb : UInt64) (parameters : Text) :
    (lambda : DispatchFunctionEvent τ).invoke library memory usercb parameters =
      if lambda.result = lambda.actualCallback.reads then
        notifier memory usercb lambda.actualCallback.reads
          (library.fromString lambda.actualCallback.reads parameters)
      else .typeConfusion := by
  split_ifs with htype
  · rw [invoke, htype]
    exact Callback.run_of_type lambda.actualCallback usercb _
  · exact Callback.run_of_type_ne htype

end Callbacks

/-! ## What a subscription leaves -/

section Subscribe

variable {state after : HelperState τ ι} {jsonType : τ} {function : ι} {eventName : Text}
  {connected : Bool} {address : UInt64} {outcome : GatewayImpl.ListenOutcome} {id : ℕ}

/-- A gateway subscription that succeeds leaves its entry in the map. -/
theorem lookup_of_subscribe_eq_none {β : Type u} {eventMap : EventMap β}
    {callbackData : CallbackDataEvent β}
    (hsuccess : (GatewayImpl.subscribe connected eventMap eventName callbackData outcome).1 =
      .none) :
    (GatewayImpl.subscribe connected eventMap eventName callbackData outcome).2.lookup
      (getKeyFromEvent eventName) = some callbackData := by
  cases connected with
  | false => simp [GatewayImpl.subscribe] at hsuccess
  | true =>
      by_cases hfree : eventMap.lookup (getKeyFromEvent eventName) = none
      · rw [GatewayImpl.subscribe_of_free hfree] at hsuccess ⊢
        rw [if_pos hsuccess]
        exact AList.lookup_insert _
      · rw [GatewayImpl.subscribe_of_taken hfree] at hsuccess
        exact absurd hsuccess (by simp)

omit [DecidableEq τ] in
theorem HelperState.lookup_store {notification : Notification τ ι} {node : UInt64}
    {stored : HelperState τ ι}
    (hstore : state.store address eventName notification = some (node, stored)) :
    stored.memory.lookup node = some ⟨node, eventName, notification⟩ := by
  unfold store at hstore
  split at hstore
  · obtain ⟨rfl, rfl⟩ := Prod.mk.inj (Option.some.inj hstore)
    exact AList.lookup_insert _
  · split_ifs at hstore
    obtain ⟨rfl, rfl⟩ := Prod.mk.inj (Option.some.inj hstore)
    exact AList.lookup_insert _

omit [DecidableEq τ] in
/-- After a successful subscription the event's entry holds the lambda, and its `usercb` points
to the node with the user's function. -/
theorem HelperState.subscribeWith_spec {result : JsonClass τ} {callback : Callback τ}
    {notification : Notification τ ι}
    (hsubscribe : state.subscribeWith result callback notification eventName connected address
      outcome = some (.ok id, after)) :
    ∃ node, Server.notify after.eventMap (getKeyFromEvent eventName) =
        some ⟨⟨result, callback⟩, node, 0⟩ ∧
      after.memory.lookup node = some ⟨node, eventName, notification⟩ := by
  obtain ⟨⟨node, stored⟩, hstore, hresult⟩ := Option.map_eq_some_iff.mp hsubscribe
  apply Exists.intro node
  by_cases hsuccess : (GatewayImpl.subscribe connected stored.eventMap eventName
      ⟨⟨result, callback⟩, node, 0⟩ outcome).1 = .none
  · simp only [hsuccess, if_true] at hresult
    obtain ⟨_, rfl⟩ := Prod.mk.inj hresult
    have hnode := lookup_store hstore
    exact ⟨lookup_of_subscribe_eq_none hsuccess, hnode⟩
  · simp only [hsuccess, if_false] at hresult
    cases (Prod.mk.inj hresult).1

omit [DecidableEq τ] in
/-- The two overloads differ in the callback and in what the user's function takes. -/
theorem HelperState.subscribeBy_spec {overload : Overload}
    (hsubscribe : state.subscribeBy overload jsonType function eventName connected address
      outcome = some (.ok id, after)) :
    ∃ node, Server.notify after.eventMap (getKeyFromEvent eventName) =
        some ⟨⟨.json jsonType, overload.callback jsonType⟩, node, 0⟩ ∧
      after.memory.lookup node =
        some ⟨node, eventName, ⟨overload.kind jsonType, function⟩⟩ := by
  cases overload with
  | property => exact subscribeWith_spec hsubscribe
  | container => exact subscribeWith_spec hsubscribe

end Subscribe

/-! ## Delivery -/

/-- The notification makes an object of the type the callback reads, and the user's function
receives what the parameters say. -/
structure ReceivedAsSent (library : JsonLibrary τ value) (state : HelperState τ ι)
    (method parameters : Text) (function : ι) (kind : JsonClass τ)
    (contents : kind.Contents value) : Prop where
  created : ∃ entry, Server.notify state.eventMap method = some entry ∧
    entry.lambda.result = entry.lambda.actualCallback.reads
  received : state.notify library method parameters = some (.received function kind contents)

/-- **When subscribed values reach the user as sent.**  After a successful `subscribe`, a
notification whose parameters are a JSON value of the subscribed kind is received as it was
sent if and only if the subscription was made by the overload for properties. -/
theorem receivedAsSent_iff (library : JsonLibrary τ value) (hlibrary : library.Faithful)
    (state after : HelperState τ ι) (overload : Overload) (jsonType : τ) (function : ι)
    (eventName : Text) (connected : Bool) (address : UInt64)
    (outcome : GatewayImpl.ListenOutcome) (id : ℕ)
    (hsubscribe : state.subscribeBy overload jsonType function eventName connected address
      outcome = some (.ok id, after))
    (parameters : Text) (contents : (overload.kind jsonType).Contents value)
    (hparameters : library.denotes (overload.kind jsonType) parameters = some contents) :
    ReceivedAsSent library after (getKeyFromEvent eventName) parameters function
        (overload.kind jsonType) contents ↔ overload = .property := by
  obtain ⟨node, hentry, hnode⟩ := HelperState.subscribeBy_spec hsubscribe
  have hnotify : after.notify library (getKeyFromEvent eventName) parameters =
      some (DispatchFunctionEvent.invoke library after.memory
        ⟨.json jsonType, overload.callback jsonType⟩ node parameters) := by
    rw [HelperState.notify, hentry, Option.map_some]
  rw [DispatchFunctionEvent.invoke_eq] at hnotify
  cases overload with
  | property =>
      apply iff_of_true _ rfl
      have hcontents : library.fromString (.json jsonType) parameters = contents :=
        hlibrary _ _ _ hparameters
      constructor
      · exact ⟨_, hentry, rfl⟩
      · rw [hnotify]
        simp only [Overload.callback, Overload.kind, Callback.reads, if_true, notifier, hnode,
          hcontents]
  | container =>
      apply iff_of_false _ nofun
      intro hreceived
      have hconfused := hreceived.received
      rw [hnotify, if_neg nofun] at hconfused
      cases hconfused

/-! ## Booleans -/

/-- The text of a boolean. -/
def boolean? (text : Text) : Option Bool :=
  if text = "true".toList then some true
  else if text = "false".toList then some false
  else none

/-- The text of an array of booleans, without white space. -/
def booleans? (text : Text) : Option (List Bool) :=
  if text.head? = some '[' ∧ text.getLast? = some ']' then
    if text.length = 2 then some []
    else ((text.drop 1).dropLast.splitOn ',').mapM boolean?
  else none

/-- The JSON library on `Boolean` and its arrays. -/
def booleanLibrary : JsonLibrary Unit fun _ => Bool where
  denotes
    | .json _ => boolean?
    | .arrayType _ => booleans?
  fromString
    | .json _ => fun text => (boolean? text).getD false
    | .arrayType _ => fun text => (booleans? text).getD []

theorem booleanLibrary_faithful : booleanLibrary.Faithful := by
  intro type text contents hdenotes
  cases type with
  | json jsonType =>
      have hsome : boolean? text = some contents := hdenotes
      show (boolean? text).getD false = contents
      rw [hsome]
      rfl
  | arrayType jsonType =>
      have hsome : booleans? text = some contents := hdenotes
      show (booleans? text).getD [] = contents
      rw [hsome]
      rfl

/-- A helper that has no subscriptions. -/
def HelperState.initial : HelperState τ ι :=
  ⟨∅, ∅, ∅, 0⟩

/-- A subscription to `A.onB`. -/
def subscribedBy (overload : Overload) : Option (Except Error ℕ × HelperState Unit Unit) :=
  HelperState.initial.subscribeBy overload () () "A.onB".toList true 16 ⟨.none, ⟨true, true⟩⟩

/-- The user of a property receives `true`. -/
theorem receivedAsSent_true :
    ∃ after, subscribedBy .property = some (.ok 0, after) ∧
      ReceivedAsSent booleanLibrary after (getKeyFromEvent "A.onB".toList) "true".toList ()
        (.json ()) true := by
  obtain ⟨after, hafter⟩ : ∃ after, subscribedBy .property = some (.ok 0, after) := ⟨_, rfl⟩
  apply Exists.intro after
  apply And.intro hafter
  exact (receivedAsSent_iff booleanLibrary booleanLibrary_faithful .initial after .property () ()
    "A.onB".toList true 16 ⟨.none, ⟨true, true⟩⟩ 0 hafter "true".toList true rfl).mpr rfl

/-- The user of a container does not receive `[true,false]`: the object is a `Boolean`, and it
is read as an array. -/
theorem not_receivedAsSent_array :
    ¬ ∀ (overload : Overload) (after : HelperState Unit Unit) (parameters : Text)
      (contents : (overload.kind ()).Contents fun _ : Unit => Bool),
      subscribedBy overload = some (.ok 0, after) →
      booleanLibrary.denotes (overload.kind ()) parameters = some contents →
      ReceivedAsSent booleanLibrary after (getKeyFromEvent "A.onB".toList) parameters ()
        (overload.kind ()) contents := by
  intro hreceived
  obtain ⟨after, hafter⟩ : ∃ after, subscribedBy .container = some (.ok 0, after) := ⟨_, rfl⟩
  have hdenotes : booleans? "[true,false]".toList = some [true, false] := by decide
  have harray := (hreceived .container after "[true,false]".toList [true, false] hafter
    hdenotes).created
  obtain ⟨entry, hentry, htype⟩ := harray
  obtain rfl : _ = after := congrArg Prod.snd (Option.some.inj hafter)
  obtain rfl : _ = entry := Option.some.inj hentry
  cases htype

end FireboltTransport.Helpers
