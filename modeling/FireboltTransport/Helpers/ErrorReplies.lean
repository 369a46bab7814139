/-
# What becomes of an error reply

The code of an error reply is cast into `Firebolt::Error`, in `Client::Response` and
again in `Transport::WaitForResponse`, and every layer above decides by comparing the
result with `Error::None`.  A code of zero is `Error::None`, so such a reply passes all
of them as a success.
-/

import FireboltTransport.Gateway.Client
import FireboltTransport.Gateway.PropertyKeys
import FireboltTransport.Helpers.Payloads
import FireboltTransport.Transport.PendingIds
import FireboltTransport.Transport.Sections

namespace FireboltTransport

universe u v

/-- `Firebolt::Result`. -/
structure Result (α : Type u) where
  value : Option α
  error : Error
  deriving DecidableEq

/-- `Result(const T& value)`. -/
def Result.ofValue {α : Type u} (value : α) : Result α := ⟨some value, .none⟩

/-- `Result(const Error& error)`. -/
def Result.ofError {α : Type u} (error : Error) : Result α := ⟨none, error⟩

namespace GatewayImpl

/-- `GatewayImpl::Request` when `Client::Request` ends in `outcome`: the status, and the text the
response object is filled from. -/
def request (connected : Bool) (outcome : Client.Outcome) : Error × Option Text :=
  if !connected then (.notConnected, none)
  else
    match outcome with
    | .error status => (status, none)
    | .response text => (.none, some text)

/-- What `Subscribe` and `Unsubscribe` see of the request; `listening` reads the member from the
text. -/
def listenOutcome (listening : Text → Field Bool) : Client.Outcome → ListenOutcome
  | .error status => ⟨status, ⟨false, false⟩⟩
  | .response text => ⟨.none, listening text⟩

end GatewayImpl

namespace Properties

/-- `Properties::Get`. -/
def get (connected : Bool) (outcome : Client.Outcome) : Error × Option Text :=
  GatewayImpl.request connected outcome

/-- `Properties::Set`; the response object is dropped. -/
def set (connected : Bool) (outcome : Client.Outcome) : Error :=
  (GatewayImpl.request connected outcome).1

end Properties

namespace Helpers

variable {α : Type v}

/-- The object a request has filled, or one nobody has; `read` gives its `Value()`. -/
def response (read : Text → α) (untouched : α) (filled : Option Text) : α :=
  match filled with
  | some text => read text
  | none => untouched

/-- `get`. -/
def get (read : Text → α) (untouched : α) (connected : Bool) (outcome : Client.Outcome) :
    Result α :=
  let (status, filled) := Properties.get connected outcome
  if status = .none then .ofValue (response read untouched filled) else .ofError status

/-- `get` for containers; `read` gives the values of the elements. -/
def getContainer (read : Text → List α) (connected : Bool) (outcome : Client.Outcome) :
    Result (List α) :=
  let (status, filled) := Properties.get connected outcome
  if status = .none then .ofValue (pushElements [] (response read [] filled))
  else .ofError status

/-- `set`, a `Result<void>`. -/
def set (connected : Bool) (outcome : Client.Outcome) : Error := Properties.set connected outcome

/-- `invoke`. -/
def invoke (read : Text → α) (untouched : α) (connected : Bool) (outcome : Client.Outcome) :
    Result α :=
  let (callStatus, filled) := GatewayImpl.request connected outcome
  if .none = callStatus then .ofValue (response read untouched filled) else .ofError callStatus

/-- `invoke` for containers. -/
def invokeContainer (read : Text → List α) (connected : Bool) (outcome : Client.Outcome) :
    Result (List α) :=
  let (callStatus, filled) := GatewayImpl.request connected outcome
  if .none = callStatus then .ofValue (pushElements [] (response read [] filled))
  else .ofError callStatus

/-- `invoke` for methods without a result, a `Result<void>`. -/
def invokeVoid (connected : Bool) (outcome : Client.Outcome) : Error :=
  (GatewayImpl.request connected outcome).1

end Helpers

/-! ## What an error reply should lead to -/

/-- A status and a response object that tell of a failure. -/
def Failed (result : Error × Option Text) : Prop := result.1 ≠ .none ∧ result.2 = none

/-- A failure that carries no value. -/
def Result.Failed {α : Type u} (result : Result α) : Prop :=
  result.error ≠ .none ∧ result.value = none

/-- The outcome of a request that the reply has completed. -/
def Completes (message : Message) (outcome : Client.Outcome) : Prop :=
  ∃ caller : Client.Caller, outcome = (caller.complete message).outcome

/-- Every operation that the message completes fails, and fills no response. -/
structure ReportsFailure (codes : CoreErrors) (message : Message) : Prop where
  /-- `Client::Request`, in every state the reply comes to. -/
  request : ∀ {ι : Type} [DecidableEq ι] (state next : Client.State ι) (call : ι),
    state.queue.lookup message.id.value = some call →
    Client.step state (.response message) = some next →
    ∃ status, status ≠ .none ∧ (next.caller call).outcome = .error status
  subscribe : ∀ {β : Type} (connected : Bool) (eventMap : Server.EventMap β) (event : Text)
    (callbackData : Server.CallbackDataEvent β) (listening : Text → Field Bool) outcome,
    Completes message outcome → (GatewayImpl.subscribe connected eventMap event callbackData
      (GatewayImpl.listenOutcome listening outcome)).1 ≠ .none
  unsubscribe : ∀ {β : Type} (eventMap : Server.EventMap β) (event : Text)
    (listening : Text → Field Bool) outcome, Completes message outcome →
    (GatewayImpl.unsubscribe eventMap event (GatewayImpl.listenOutcome listening outcome)).1 ≠
      .none
  get : ∀ connected outcome, Completes message outcome → Failed (Properties.get connected outcome)
  set : ∀ connected outcome, Completes message outcome → Properties.set connected outcome ≠ .none
  helpersGet : ∀ {α : Type} (read : Text → α) untouched connected outcome,
    Completes message outcome → (Helpers.get read untouched connected outcome).Failed
  helpersGetContainer : ∀ {α : Type} (read : Text → List α) connected outcome,
    Completes message outcome → (Helpers.getContainer read connected outcome).Failed
  helpersSet : ∀ connected outcome, Completes message outcome →
    Helpers.set connected outcome ≠ .none
  helpersInvoke : ∀ {α : Type} (read : Text → α) untouched connected outcome,
    Completes message outcome → (Helpers.invoke read untouched connected outcome).Failed
  helpersInvokeContainer : ∀ {α : Type} (read : Text → List α) connected outcome,
    Completes message outcome → (Helpers.invokeContainer read connected outcome).Failed
  helpersInvokeVoid : ∀ connected outcome, Completes message outcome →
    Helpers.invokeVoid connected outcome ≠ .none
  /-- `Transport::WaitForResponse`, when it reads the message from its entry. -/
  waitForResponse : ∀ {τ κ : Type} [DecidableEq κ] (state : Sections.State τ κ) (op : κ)
    (id : MessageID) (owner : κ) (signalled : Bool) (later : List Message) (result : UInt32)
    (filled : Option Text),
    state.entry id owner = some (.synchronous signalled (message :: later)) →
    Sections.Rest.run codes state op (.read id owner) =
      some (state, .goOn (.enter (.erase id result filled))) →
    Failed (codes.fireboltErrorValue result, filled)

/-! ## The layers -/

section Layers

variable {message : Message} {outcome : Client.Outcome} {status : Error}

/-- A code that is not zero is what the caller reads. -/
theorem outcome_complete_of_code_ne (herror : message.error.isSet = true)
    (hcode : message.error.value.code ≠ 0) (caller : Client.Caller) :
    (caller.complete message).outcome = .error ⟨message.error.value.code⟩ := by
  simp [Client.Caller.complete, herror, Client.Caller.outcome, Error.mk_ne_none hcode]

/-- A code of zero is taken for the absence of an error. -/
theorem outcome_complete_of_code_eq (herror : message.error.isSet = true)
    (hcode : message.error.value.code = 0) (caller : Client.Caller) :
    (caller.complete message).outcome = .response caller.response := by
  have hnone : (⟨message.error.value.code⟩ : Error) = .none := by rw [hcode]; rfl
  simp [Client.Caller.complete, herror, Client.Caller.outcome, hnone]

theorem outcome_of_completes (herror : message.error.isSet = true)
    (hcode : message.error.value.code ≠ 0) (hcompletes : Completes message outcome) :
    ∃ status, status ≠ .none ∧ outcome = .error status := by
  obtain ⟨caller, rfl⟩ := hcompletes
  exact ⟨_, Error.mk_ne_none hcode, outcome_complete_of_code_ne herror hcode caller⟩

/-- The gateway passes an error on. -/
theorem failed_request (hstatus : status ≠ .none) (connected : Bool) :
    Failed (GatewayImpl.request connected (.error status)) := by
  cases connected with
  | false => exact ⟨Error.notConnected_ne_none, rfl⟩
  | true => exact ⟨hstatus, rfl⟩

section Subscriptions

variable {β : Type v} {eventMap : Server.EventMap β} {event : Text}
  {callbackData : Server.CallbackDataEvent β} {listened : GatewayImpl.ListenOutcome}

/-- A subscription whose request fails does, too. -/
theorem subscribe_ne_none (hstatus : listened.status ≠ .none) (connected : Bool) :
    (GatewayImpl.subscribe connected eventMap event callbackData listened).1 ≠ .none := by
  cases connected with
  | false => exact Error.notConnected_ne_none
  | true =>
      by_cases hfree : eventMap.lookup (Server.getKeyFromEvent event) = none
      · rw [GatewayImpl.subscribe_of_free hfree]
        exact hstatus
      · rw [GatewayImpl.subscribe_of_taken hfree]
        exact Error.general_ne_none

theorem unsubscribe_ne_none (hstatus : listened.status ≠ .none) :
    (GatewayImpl.unsubscribe eventMap event listened).1 ≠ .none := by
  by_cases hfree : eventMap.lookup (Server.getKeyFromEvent event) = none
  · rw [GatewayImpl.unsubscribe_of_free hfree]
    exact Error.general_ne_none
  · rw [GatewayImpl.unsubscribe_of_taken hfree]
    exact hstatus

end Subscriptions

section Helpers

variable {α : Type v} {connected : Bool}
  (hfailed : Failed (GatewayImpl.request connected outcome))

include hfailed

theorem failed_get (read : Text → α) (untouched : α) :
    (Helpers.get read untouched connected outcome).Failed := by
  have hstatus : ¬ (GatewayImpl.request connected outcome).1 = .none := hfailed.1
  show Result.Failed (if (GatewayImpl.request connected outcome).1 = .none then _ else _)
  rw [if_neg hstatus]
  exact ⟨hstatus, rfl⟩

theorem failed_getContainer (read : Text → List α) :
    (Helpers.getContainer read connected outcome).Failed := by
  have hstatus : ¬ (GatewayImpl.request connected outcome).1 = .none := hfailed.1
  show Result.Failed (if (GatewayImpl.request connected outcome).1 = .none then _ else _)
  rw [if_neg hstatus]
  exact ⟨hstatus, rfl⟩

theorem failed_invoke (read : Text → α) (untouched : α) :
    (Helpers.invoke read untouched connected outcome).Failed := by
  have hstatus : ¬ .none = (GatewayImpl.request connected outcome).1 := hfailed.1.symm
  show Result.Failed (if .none = (GatewayImpl.request connected outcome).1 then _ else _)
  rw [if_neg hstatus]
  exact ⟨hfailed.1, rfl⟩

theorem failed_invokeContainer (read : Text → List α) :
    (Helpers.invokeContainer read connected outcome).Failed := by
  have hstatus : ¬ .none = (GatewayImpl.request connected outcome).1 := hfailed.1.symm
  show Result.Failed (if .none = (GatewayImpl.request connected outcome).1 then _ else _)
  rw [if_neg hstatus]
  exact ⟨hfailed.1, rfl⟩

end Helpers

/-- `Client::Request` reads the error from the caller the reply has completed. -/
theorem request_of_response {ι : Type v} [DecidableEq ι] {state next : Client.State ι} {call : ι}
    (herror : message.error.isSet = true) (hcode : message.error.value.code ≠ 0)
    (hqueued : state.queue.lookup message.id.value = some call)
    (htaken : Client.step state (.response message) = some next) :
    (next.caller call).outcome = .error ⟨message.error.value.code⟩ := by
  cases Client.step_cases htaken with
  | ignore _ hnone => simp [hqueued] at hnone
  | response _ receiver hreceiver hphase =>
      obtain rfl : call = receiver := Option.some.inj (hqueued.symm.trans hreceiver)
      simp [Client.State.setCaller, outcome_complete_of_code_ne herror hcode]

/-- `Transport::WaitForResponse` reads the error from its entry. -/
theorem failed_read {codes : CoreErrors} {τ κ : Type v} [DecidableEq κ]
    {state : Sections.State τ κ} {op owner : κ} {id : MessageID} {signalled : Bool}
    {later : List Message} {result : UInt32} {filled : Option Text}
    (herror : message.error.isSet = true) (hcode : message.error.value.code ≠ 0)
    (hentry : state.entry id owner = some (.synchronous signalled (message :: later)))
    (hread : Sections.Rest.run codes state op (.read id owner) =
      some (state, .goOn (.enter (.erase id result filled)))) :
    Failed (codes.fireboltErrorValue result, filled) := by
  simp only [Sections.Rest.run, hentry, herror, if_true, Option.some.injEq, Prod.mk.injEq,
    true_and, Sections.Outcome.goOn.injEq, Sections.Stage.enter.injEq,
    Sections.Body.erase.injEq] at hread
  obtain ⟨hresult, hfilled⟩ := hread
  constructor
  · show codes.fireboltErrorValue result ≠ .none
    rw [ne_eq, codes.fireboltErrorValue_eq_none_iff, ← hresult, codes.errorNone_eq]
    intro hzero
    exact hcode (congrArg UInt32.toInt32 hzero)
  · exact hfilled.symm

end Layers

theorem reportsFailure_of_code_ne {codes : CoreErrors} {message : Message}
    (herror : message.error.isSet = true) (hcode : message.error.value.code ≠ 0) :
    ReportsFailure codes message := by
  have hoperation : ∀ connected outcome, Completes message outcome →
      Failed (GatewayImpl.request connected outcome) := by
    intro connected outcome hcompletes
    obtain ⟨status, hstatus, rfl⟩ := outcome_of_completes herror hcode hcompletes
    exact failed_request hstatus connected
  have hlistened : ∀ listening outcome, Completes message outcome →
      (GatewayImpl.listenOutcome listening outcome).status ≠ .none := by
    intro listening outcome hcompletes
    obtain ⟨status, hstatus, rfl⟩ := outcome_of_completes herror hcode hcompletes
    exact hstatus
  constructor
  · intro ι _ state next call hqueued htaken
    exact ⟨_, Error.mk_ne_none hcode, request_of_response herror hcode hqueued htaken⟩
  · intro β connected eventMap event callbackData listening outcome hcompletes
    exact subscribe_ne_none (hlistened listening outcome hcompletes) connected
  · intro β eventMap event listening outcome hcompletes
    exact unsubscribe_ne_none (hlistened listening outcome hcompletes)
  · exact hoperation
  · exact fun connected outcome hcompletes => (hoperation connected outcome hcompletes).1
  · exact fun read untouched connected outcome hcompletes =>
      failed_get (hoperation connected outcome hcompletes) read untouched
  · exact fun read connected outcome hcompletes =>
      failed_getContainer (hoperation connected outcome hcompletes) read
  · exact fun connected outcome hcompletes => (hoperation connected outcome hcompletes).1
  · exact fun read untouched connected outcome hcompletes =>
      failed_invoke (hoperation connected outcome hcompletes) read untouched
  · exact fun read connected outcome hcompletes =>
      failed_invokeContainer (hoperation connected outcome hcompletes) read
  · exact fun connected outcome hcompletes => (hoperation connected outcome hcompletes).1
  · intro τ κ _ state op id owner signalled later result filled hentry hread
    exact failed_read herror hcode hentry hread

/-- **When an error reply is reported as a failure.**  A reply whose error member is set makes
every operation it completes fail, and leaves every response object alone, if and only if its
error code is not zero. -/
theorem errorReply_reportsFailure_iff (codes : CoreErrors) (message : Message) :
    (message.error.isSet = true → ReportsFailure codes message) ↔
      ¬ (message.error.isSet = true ∧ message.error.value.code = 0) := by
  constructor
  · intro hreports hzero
    obtain ⟨herror, hcode⟩ := hzero
    have hget := (hreports herror).get true _ ⟨Client.Caller.new 0 .zero, rfl⟩
    rw [outcome_complete_of_code_eq herror hcode] at hget
    exact hget.1 rfl
  · intro hcode herror
    exact reportsFailure_of_code_ne herror fun hzero => hcode ⟨herror, hzero⟩

/-- An error reply without a code is read as one with the code zero. -/
theorem not_reportsFailure_code_zero :
    ¬ ∀ (codes : CoreErrors) (message : Message), message.error.isSet = true →
      ReportsFailure codes message := by
  intro hreports
  have hget := (hreports Transport.exampleCodes (.errorReply 1 0) rfl).get true _
    ⟨Client.Caller.new 1 .zero, rfl⟩
  exact hget.1 (by decide)

end FireboltTransport
