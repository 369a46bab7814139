/-
# Requests and answers on one transport

A call of `Client::Request` is recorded twice: in the client's queue, by the call
itself, and in `_pendingQueue` of the transport, by the `Send` it makes.  An answer
to a request of the peer, `SendResponse`, is recorded in `_pendingQueue` too.  The
machine of this module is the client and the transport side by side; they share
the channel identifiers are drawn from, and a call enters `Send` when its `Caller`
is inserted and goes on when `Send` has returned.

Besides requests, the runs have any number of `SendResponse`, `Closed`, `Timed` and
`Revoke`.  Asynchronous calls, whose entries stay until somebody waits for them,
are not part of these runs.
-/

import FireboltTransport.Gateway.ClientInvariant
import FireboltTransport.Transport.AdminLock

namespace FireboltTransport.Sections

open Semantics Transport

universe u v

variable {τ : Type u} {κ : Type v}

/-- The operations of requests and answers. -/
def Operation.isExchange : Operation → Bool
  | .send _ _ _ | .sendResponse _ _ | .closed | .timed _ | .revoke _ => true
  | _ => false

def Body.isExchange : Body → Bool
  | .emplace _ _ _ | .revoke _ | .sweep _ | .abortAll => true
  | _ => false

def Rest.isExchange : Rest κ → Bool
  | .submit _ | .refuse | .notify => true
  | .finish .void | .finish (.scheduled _) => true
  | _ => false

/-- The stages such operations pass through. -/
def Stage.isExchange : Stage κ → Bool
  | .check _ _ _ => true
  | .enter body | .inside body => body.isExchange
  | .leave rest | .outside rest => rest.isExchange

/-- The identifier that an operation is about to emplace. -/
def Stage.target : Stage κ → Option MessageID
  | .check id _ _ | .enter (.emplace id _ _) | .inside (.emplace id _ _) => some id
  | _ => none

/-- The identifier that the next step emplaces. -/
def Stage.emplaces (state : State τ κ) : Stage κ → Option MessageID
  | .inside (.emplace id _ _) => if state.pendingQueue.lookup id = none then some id else none
  | _ => none

/-- The next step empties `_pendingQueue`. -/
def Stage.empties : Stage κ → Bool
  | .inside .abortAll => true
  | _ => false

/-- The operation has emplaced its identifier and still has to submit. -/
def Stage.hasEmplaced : Stage κ → Bool
  | .leave (.submit _) | .outside (.submit _) => true
  | _ => false

/-- The operation has emplaced its identifier. -/
def Phase.hasEmplaced : Phase τ κ → Prop
  | .running _ _ stage => stage.hasEmplaced = true
  | .returned _ _ _ result => result = .status .none
  | .idle | .undefined => False

/-- The same of what comes after a step. -/
def Outcome.hasEmplaced : Outcome κ → Prop
  | .goOn stage => stage.hasEmplaced = true
  | .return result => result = .status .none
  | .undefined => False

end FireboltTransport.Sections

namespace FireboltTransport.Exchange

open Semantics Transport

universe u v w

/-- A client and its transport. -/
structure State (τ : Type u) (ι : Type v) (κ : Type w) where
  client : Client.State ι
  /-- The `Send` of a request is named by the request. -/
  transport : Sections.State τ (ι ⊕ κ)
  /-- How often `Closed` has emptied `_pendingQueue`. -/
  closes : ℕ
  /-- The identifier an operation has emplaced, with the number of closes at that time. -/
  emplaced : ι ⊕ κ → Option (ℕ × MessageID)

inductive Action (τ : Type u) (ι : Type v) (κ : Type w)
  | client (action : Client.Action ι)
  | transport (action : Sections.Action τ (ι ⊕ κ))
  /-- The `Send` of a request has returned to it. -/
  | sent (call : ι)
  deriving DecidableEq

variable {τ : Type u} {ι : Type v} {κ : Type w} [DecidableEq ι] [DecidableEq κ]

/-- The client steps that are not synchronised with `Send`, on the one transport of the run. -/
def isLocal : Client.Action ι → Bool
  | .send _ _ | .setTransport _ => false
  | _ => true

/-- A request enters `Send` once, with its own identifier; everything else is free. -/
def State.admits (state : State τ ι κ) : Sections.Action τ (ι ⊕ κ) → Bool
  | .start (.inl call) _ (.send id _ _) =>
      decide (state.client.phase call = .inserted ∧ (state.client.caller call).id = id)
  | .start (.inl _) _ _ => false
  | .start (.inr _) _ (.send _ _ _) => false
  | .start (.inr _) _ operation => operation.isExchange
  | .suspend _ | .next _ | .expire _ => true

/-- Record what a step at `stage` emplaces, or that it is a close. -/
def State.recordStage (state : State τ ι κ) (op : ι ⊕ κ) (stage : Sections.Stage (ι ⊕ κ)) :
    State τ ι κ :=
  { state with
    emplaced := (stage.emplaces state.transport).elim state.emplaced fun id =>
      Function.update state.emplaced op (some (state.closes, id))
    closes := if stage.empties then state.closes + 1 else state.closes }

@[simp]
theorem State.recordStage_client (state : State τ ι κ) (op : ι ⊕ κ)
    (stage : Sections.Stage (ι ⊕ κ)) : (state.recordStage op stage).client = state.client := rfl

@[simp]
theorem State.recordStage_closes (state : State τ ι κ) (op : ι ⊕ κ)
    (stage : Sections.Stage (ι ⊕ κ)) :
    (state.recordStage op stage).closes =
      if stage.empties then state.closes + 1 else state.closes := rfl

theorem State.emplaced_of_none {state : State τ ι κ} {stage : Sections.Stage (ι ⊕ κ)}
    (hemplaces : stage.emplaces state.transport = none) (op : ι ⊕ κ) :
    (state.recordStage op stage).emplaced = state.emplaced := by
  simp [recordStage, hemplaces]

theorem State.emplaced_of_some {state : State τ ι κ} {stage : Sections.Stage (ι ⊕ κ)}
    {id : MessageID} (hemplaces : stage.emplaces state.transport = some id) (op : ι ⊕ κ) :
    (state.recordStage op stage).emplaced =
      Function.update state.emplaced op (some (state.closes, id)) := by
  simp [recordStage, hemplaces]

/-- Keep the record of what was emplaced and of the closes. -/
def State.record (state : State τ ι κ) : Sections.Action τ (ι ⊕ κ) → State τ ι κ
  | .next op =>
      match state.transport.phase op with
      | .running _ _ stage => state.recordStage op stage
      | _ => state
  | _ => state

variable [DecidableEq τ]

/-- One step, or `none` when the label is not enabled. -/
def step (codes : CoreErrors) (parse : Text → Message) (state : State τ ι κ) :
    Action τ ι κ → Option (State τ ι κ)
  | .client action =>
      if isLocal action then
        (Client.step { state.client with transport := state.transport.channel } action).map
          fun client =>
            { state with
              client := client
              transport := { state.transport with channel := client.transport } }
      else none
  | .transport action =>
      if state.admits action then
        (Sections.step codes parse state.transport action).map fun transport =>
          { state.record action with transport := transport }
      else none
  | .sent call =>
      match state.transport.phase (.inl call) with
      | .returned _ _ _ (.status result) =>
          (Client.step state.client (.send call result)).map fun client =>
            { state with client := client }
      | _ => none

/-- A client over a fresh transport. -/
def initial (clock : Timestamp) : State τ ι κ where
  client := Client.initial (some .new) clock
  transport := Sections.initial
  closes := 0
  emplaced _ := none

/-- The steps of the exchange, as a relation. -/
inductive Step (codes : CoreErrors) (parse : Text → Message) (state : State τ ι κ) :
    Action τ ι κ → State τ ι κ → Prop
  | client (action : Client.Action ι) (client : Client.State ι) (hlocal : isLocal action = true)
      (hstep : Client.Step { state.client with transport := state.transport.channel } action
        client) :
      Step codes parse state (.client action)
        { state with
          client := client
          transport := { state.transport with channel := client.transport } }
  | transport (action : Sections.Action τ (ι ⊕ κ)) (transport : Sections.State τ (ι ⊕ κ))
      (hadmits : state.admits action = true)
      (hstep : Sections.Step codes parse state.transport action transport) :
      Step codes parse state (.transport action) { state.record action with transport := transport }
  | sent (call : ι) (thread : τ) (entered left : ℕ) (result : Error) (client : Client.State ι)
      (hreturned : state.transport.phase (.inl call) =
        .returned thread entered left (.status result))
      (hstep : Client.Step state.client (.send call result) client) :
      Step codes parse state (.sent call) { state with client := client }

variable {codes : CoreErrors} {parse : Text → Message}

theorem step_cases {state next : State τ ι κ} {action : Action τ ι κ}
    (htaken : step codes parse state action = some next) : Step codes parse state action next := by
  cases action with
  | client action =>
      simp only [step] at htaken
      split_ifs at htaken with hlocal
      obtain ⟨client, hclient, rfl⟩ := Option.map_eq_some_iff.mp htaken
      exact .client action client hlocal (Client.step_cases hclient)
  | transport action =>
      simp only [step] at htaken
      split_ifs at htaken with hadmits
      obtain ⟨transport, htransport, rfl⟩ := Option.map_eq_some_iff.mp htaken
      exact .transport action transport hadmits (Sections.step_cases htransport)
  | sent call =>
      simp only [step] at htaken
      split at htaken
      · obtain ⟨client, hclient, rfl⟩ := Option.map_eq_some_iff.mp htaken
        exact .sent call _ _ _ _ client ‹_› (Client.step_cases hclient)
      · cases htaken

end FireboltTransport.Exchange
