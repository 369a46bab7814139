/-
# Answers to the peer's requests

`GatewayImpl::Receive` passes a message with a method and an identifier to
`Server::Request`, and the answer goes out through `SendResponse`.  A request
that no provider serves gets no answer at all, although the error codes have
one for a method that is not found and `SendResponse` can carry it.
-/

import FireboltTransport.Gateway.Providers
import FireboltTransport.Transport.PendingIds

namespace FireboltTransport.GatewayImpl

open Semantics Server Transport

universe u v w

/-- Where `GatewayImpl::Receive` passes a message to. -/
inductive Received
  /-- `Server::Request`. -/
  | request (id : MessageID) (method parameters : Text)
  /-- `Server::Notify`. -/
  | notify (method parameters : Text)
  /-- `Client::Response`. -/
  | response (message : Message)
  deriving DecidableEq

/-- `GatewayImpl::Receive`. -/
def receive (message : Message) : Received :=
  if message.designator.isSet then
    if message.id.isSet then
      .request message.id.value message.designator.value message.parameters.value
    else .notify message.designator.value message.parameters.value
  else .response message

variable {ρ : Type u} {τ : Type v} {κ : Type w}

/-- The call of `SendResponse` that a message leads to. -/
def Received.answer (respond : ρ → Text → UInt64 → Text) (providers : Providers ρ) :
    Received → Option Call
  | .request id method parameters => Server.request respond providers id method parameters
  | .notify _ _ => none
  | .response _ => none

/-- The steps of a call on the transport. -/
def callSteps (op : κ) (thread : τ) : Option Call → List (Action τ κ)
  | none => []
  | some call => [.start op thread call, .check op, .record op, .submit op]

/-- The message holds what the provider has returned: its result, and its error if there is one. -/
def Holds (parse : Text → Message) (answer : Message) (response : Text) : Prop :=
  answer.result.value = (parse response).result.value ∧
    ((parse response).error.isSet = true → answer.error = (parse response).error)

section Routing

variable {parse : Text → Message} {respond : ρ → Text → UInt64 → Text} {providers : Providers ρ}
  {message : Message}

theorem receive_request (hdesignator : message.designator.isSet = true)
    (hid : message.id.isSet = true) : receive message =
      .request message.id.value message.designator.value message.parameters.value := by
  simp [receive, hdesignator, hid]

theorem sendResponse_holds (id : MessageID) (response : Text) :
    Holds parse (Call.message parse id (.sendResponse id response)) response :=
  ⟨rfl, fun hset => by simp [Call.message, hset]⟩

/-- A request that nobody serves leads to no call. -/
theorem answer_of_not_serves (hdesignator : message.designator.isSet = true)
    (hid : message.id.isSet = true)
    (hnone : ∀ m, ¬ Serves providers message.designator.value m) :
    (receive message).answer respond providers = none := by
  have hfound : findMethod providers message.designator.value = none := by
    by_contra hfound
    obtain ⟨m, hm⟩ := findMethod_ne_none_iff.mp hfound
    exact hnone m hm
  simp [receive_request hdesignator hid, Received.answer, request, hfound]

/-- A request that a provider serves leads to a call with its response. -/
theorem answer_of_serves (respond : ρ → Text → UInt64 → Text)
    (hdesignator : message.designator.isSet = true) (hid : message.id.isSet = true)
    (hserved : ∃ m, Serves providers message.designator.value m) :
    ∃ m, Serves providers message.designator.value m ∧
      (receive message).answer respond providers = some (.sendResponse message.id.value
        (respond m.lambda (wrapParameters message.parameters.value) m.usercb)) := by
  obtain ⟨m, hm⟩ := Option.ne_none_iff_exists'.mp (findMethod_ne_none_iff.mpr hserved)
  refine ⟨m, serves_of_findMethod hm, ?_⟩
  simp [receive_request hdesignator hid, Received.answer, request, hm]

end Routing

variable [DecidableEq τ] [DecidableEq κ]

/-- The message leads to one submitted message, which carries its identifier and the response
of a provider that serves it, or an error when none does. -/
def AnsweredOnce (codes : CoreErrors) (parse : Text → Message) (respond : ρ → Text → UInt64 → Text)
    (providers : Providers ρ) (link : State τ κ) (op : κ) (thread : τ) (message : Message) : Prop :=
  ∃ final answer,
    exec (step codes parse) link
      (callSteps op thread ((receive message).answer respond providers)) = some final ∧
    final.submitted = link.submitted ++ [(op, answer)] ∧ answer.id = message.id ∧
    ((∃ m, Serves providers message.designator.value m ∧
        Holds parse answer
          (respond m.lambda (wrapParameters message.parameters.value) m.usercb)) ∨
      (∀ m, ¬ Serves providers message.designator.value m) ∧ answer.error.isSet = true)

section Answers

variable {codes : CoreErrors} {parse : Text → Message} {respond : ρ → Text → UInt64 → Text}
  {providers : Providers ρ} {link : State τ κ} {op : κ} {thread : τ} {message : Message}

/-- `SendResponse` on an open channel, under an identifier that is not in `_pendingQueue`. -/
theorem submitted_sendResponse (codes : CoreErrors) (parse : Text → Message) (thread : τ)
    (response : Text) {id : MessageID} (hidle : link.phase op = .idle)
    (hchannel : link.channel ≠ none) (hactive : link.suspended = false)
    (hfree : link.pendingQueue.lookup id = none) :
    (exec (step codes parse) link (callSteps op thread (some (.sendResponse id response)))).map
        (fun final => final.submitted) =
      (link.adminLock.lock thread).map fun _ =>
        link.submitted ++ [(op, Call.message parse id (.sendResponse id response))] := by
  cases hlock : link.adminLock.lock thread with
  | none => simp [callSteps, step, hidle, hchannel, hactive, hlock, State.setPhase]
  | some held => simp [callSteps, step, hidle, hchannel, hactive, hlock, hfree, State.setPhase]

/-- **Answers.**  On an open channel, and without a clash of identifiers, a request of the peer
is answered exactly once if and only if a provider serves its method and `_adminLock` can be
locked. -/
theorem answeredOnce_iff (hdesignator : message.designator.isSet = true)
    (hid : message.id.isSet = true) (hidle : link.phase op = .idle)
    (hchannel : link.channel ≠ none) (hactive : link.suspended = false)
    (hfree : link.pendingQueue.lookup message.id.value = none) :
    AnsweredOnce codes parse respond providers link op thread message ↔
      (∃ m, Serves providers message.designator.value m) ∧
        link.adminLock.lock thread ≠ none := by
  unfold AnsweredOnce
  by_cases hserved : ∃ m, Serves providers message.designator.value m
  · obtain ⟨m, hm, hanswer⟩ := answer_of_serves respond hdesignator hid hserved
    rw [hanswer]
    have hrun := submitted_sendResponse codes parse thread
      (respond m.lambda (wrapParameters message.parameters.value) m.usercb)
      hidle hchannel hactive hfree
    simp only [hserved, true_and]
    constructor
    · rintro ⟨final, answer, hfinal, -⟩ hblocked
      rw [hfinal, hblocked] at hrun
      cases hrun
    · intro hlock
      obtain ⟨held, hheld⟩ := Option.ne_none_iff_exists'.mp hlock
      rw [hheld] at hrun
      obtain ⟨final, hfinal, hsubmitted⟩ := Option.map_eq_some_iff.mp hrun
      refine ⟨final, _, hfinal, hsubmitted, ?_, .inl ⟨m, hm, sendResponse_holds _ _⟩⟩
      show (⟨true, message.id.value⟩ : Field MessageID) = message.id
      rw [← hid]
  · have hnone : ∀ m, ¬ Serves providers message.designator.value m := not_exists.mp hserved
    simp only [hserved, false_and, iff_false]
    rintro ⟨final, answer, hfinal, hsubmitted, -⟩
    rw [answer_of_not_serves hdesignator hid hnone] at hfinal
    obtain rfl := Option.some.inj hfinal
    simp at hsubmitted

end Answers

/-- One interface with one method. -/
def oneProvider : Providers Unit :=
  (registerProviderInterface ∅ ['A', '.', 'o', 'n', 'B'] () 5).2

/-- A request of the peer. -/
def peerRequest (method : Text) : Message :=
  { Message.empty with id := ⟨true, 7⟩, designator := ⟨true, method⟩ }

theorem answeredOnce_iff_oneProvider :
    AnsweredOnce exampleCodes (fun text => .reply 0 text) (fun _ _ _ => ['r']) oneProvider
      (initial : State (Fin 1) (Fin 1)) 0 0 (peerRequest ['A', '.', 'b']) := by
  refine (answeredOnce_iff rfl rfl rfl (by decide) rfl rfl).mpr ⟨?_, by decide⟩
  exact findMethod_ne_none_iff.mp (by decide)

/-- A request for a method of the interface that is not registered gets no answer. -/
theorem unknown_method_not_answered :
    ¬ AnsweredOnce exampleCodes (fun text => .reply 0 text) (fun _ _ _ => ['r']) oneProvider
      (initial : State (Fin 1) (Fin 1)) 0 0 (peerRequest ['A', '.', 'c']) := by
  rintro ⟨final, answer, hrun, hsubmitted, -⟩
  have hnothing : exec (step exampleCodes fun text => .reply 0 text)
      (initial : State (Fin 1) (Fin 1))
      (callSteps 0 0 ((receive (peerRequest ['A', '.', 'c'])).answer (fun _ _ _ => ['r'])
        oneProvider)) = some initial := rfl
  obtain rfl := Option.some.inj (hnothing.symm.trans hrun)
  cases hsubmitted

end FireboltTransport.GatewayImpl
