/-
# Calls to the peer as one atomic object

A `Client::Request` names a method of the peer.  Its message goes out under an
identifier, the peer handles it at some moment and answers under the same identifier,
and the reply completes the call that drew it.  Messages may be lost, replies may come
in any order and more than once, and the peer may handle the messages it has in any
order; calls overlap, and the watchdog gives some of them up.

For an application this is the peer itself, called at one instant.  The order in which the
peer handles the messages of calls has no call twice and agrees with the order in which
calls ended and began, and what a call returns is what the peer says at the call's place.

Three kinds of calls are apart.  One given up as timed out promises nothing; the peer may
handle it later.  One whose `Send` fails returns the error of `Send`, and the peer never
handles it.  And the peer never answers with an error whose code is that of success, which
a call would return as an empty result.
-/

import FireboltTransport.Gateway.Correlation
import FireboltTransport.Gateway.Identifiers
import FireboltTransport.Semantics.Linearizable
import FireboltTransport.Transport.Operations

namespace FireboltTransport.RemoteCalls

open Semantics

universe u v

/-- What a call asks for: the method, and the text its parameters are written as. -/
structure Request where
  method : Text
  parameters : Text
  deriving DecidableEq

/-- The message `Transport::Send` submits for a request. -/
def Request.message (request : Request) (id : MessageID) : Message :=
  (Transport.Call.send request.method request.parameters).message (fun _ => .empty) id

@[simp]
theorem Request.message_id (request : Request) (id : MessageID) :
    (request.message id).id = ⟨true, id⟩ := rfl

/-- What the peer answers.  The code of an error is not that of success. -/
inductive Answer
  | result (text : Text)
  | error (code : Int32) (hcode : code ≠ 0)

namespace Answer

/-- The reply that carries an answer. -/
def message (id : MessageID) : Answer → Message
  | .result text => .reply id text
  | .error code _ => .errorReply id code

/-- What a call that receives the answer returns. -/
def outcome : Answer → Client.Outcome
  | .result text => .response text
  | .error code _ => .error ⟨code⟩

@[simp]
theorem message_id (answer : Answer) (id : MessageID) : (answer.message id).id = ⟨true, id⟩ := by
  cases answer <;> rfl

/-- No answer is an error reply with the code of success. -/
theorem code_ne_zero {answer : Answer} {id : MessageID}
    (hset : (answer.message id).error.isSet = true) :
    (answer.message id).error.value.code ≠ 0 := by
  cases answer with
  | result text => cases hset
  | error code hcode => exact hcode

theorem outcome_of_result {answer : Answer} {id : MessageID}
    (hset : (answer.message id).error.isSet = false) :
    answer.outcome = .response (answer.message id).result.value := by
  cases answer with
  | result text => rfl
  | error code hcode => cases hset

theorem outcome_of_error {answer : Answer} {id : MessageID}
    (hset : (answer.message id).error.isSet = true) :
    answer.outcome = .error ⟨(answer.message id).error.value.code⟩ := by
  cases answer with
  | result text => cases hset
  | error code hcode => rfl

end Answer

/-- A peer: where it starts, and what a method with parameters does to it and answers. -/
structure Peer (σ : Type v) where
  start : σ
  handle : σ → Text → Field Text → σ × Answer

/-- The peer as an object that is called directly. -/
def Peer.object {σ : Type v} (peer : Peer σ) : SequentialObject σ Request Client.Outcome where
  start := peer.start
  apply value request :=
    let message := request.message 0
    let (next, answer) := peer.handle value message.designator.value message.parameters
    (next, answer.outcome)

/-- The peer handles a message as the object handles the request, whatever its identifier. -/
theorem Peer.object_apply {σ : Type v} (peer : Peer σ) (value : σ) (request : Request)
    (id : MessageID) :
    peer.object.apply value request =
      let message := request.message id
      let (next, answer) := peer.handle value message.designator.value message.parameters
      (next, answer.outcome) := rfl

/-- The message is that of the call, under the identifier the call has drawn. -/
structure IsMessageOf {ι : Type u} (request : ι → Request) (client : Client.State ι) (call : ι)
    (message : Message) : Prop where
  id : client.drawnId call = some message.id.value
  message : message = (request call).message message.id.value

/-- Only the call's identifier is looked at. -/
theorem IsMessageOf.of_drawnId_eq {ι : Type u} {request : ι → Request}
    {client later : Client.State ι} {call : ι} {message : Message}
    (hmessage : IsMessageOf request client call message)
    (hsame : later.drawnId call = client.drawnId call) :
    IsMessageOf request later call message where
  id := hsame.trans hmessage.id
  message := hmessage.message

/-- The client, the messages on their way to the peer, the peer and its replies. -/
structure State (ι : Type u) (σ : Type v) where
  client : Client.State ι
  /-- The calls whose message `Send` has submitted. -/
  submitted : ι → Bool
  requests : List Message
  peer : σ
  replies : List Message

/-- A step of one of them. -/
inductive Action (ι : Type u)
  | client (action : Client.Action ι)
  /-- `Send` submits the message of a call to the channel. -/
  | submit (call : ι)
  /-- A message never reaches the peer. -/
  | lose (message : Message)
  /-- The peer handles a message and replies. -/
  | handle (message : Message)
  /-- A reply that was sent at some time reaches `Client::Response`. -/
  | deliver (message : Message)
  deriving DecidableEq

section Machine

variable {ι : Type u} {σ : Type v}

/-- The steps of the client that are left to its own threads: replies come from the peer only,
the transport stays, and `Send` returns no error if and only if it has submitted the message. -/
def State.allows (state : State ι σ) : Client.Action ι → Bool
  | .setTransport _ | .response _ => false
  | .send call result => decide (result = .none) == state.submitted call
  | _ => true

/-- What `Request` is about to return. -/
def returning (client : Client.State ι) (call : ι) : Option Client.Outcome :=
  match client.phase call with
  | .checked true => some (.response (client.caller call).response)
  | .checked false => some (.error (client.caller call).error)
  | _ => none

/-- The messages a step has the peer handle. -/
def Action.handled : Action ι → List Message
  | .handle message => [message]
  | _ => []

/-- The messages the peer handles in a schedule, in the order it does. -/
def handled (schedule : List (Action ι)) : List Message := schedule.flatMap Action.handled

/-- A call begins with the draw of its identifier and ends when it returns the answer of the
peer.  A call that returns `Timedout` or the error of `Send` has none. -/
def observe (state : State ι σ) : Action ι → List (Event ι Client.Outcome)
  | .client (.draw call) => [.invoke call]
  | .client (.read call) =>
      match returning state.client call with
      | some outcome => if outcome = .error .timedout then [] else [.respond call outcome]
      | none => []
  | _ => []

variable [DecidableEq ι]

/-- One step, or `none` when the label is not enabled. -/
def step (peer : Peer σ) (request : ι → Request) (state : State ι σ) :
    Action ι → Option (State ι σ)
  | .client action =>
      if state.allows action then
        (Client.step state.client action).map fun client => { state with client := client }
      else none
  | .submit call =>
      if state.client.phase call = .inserted ∧ state.submitted call = false then
        some { state with
          submitted := Function.update state.submitted call true
          requests := state.requests ++ [(request call).message (state.client.caller call).id] }
      else none
  | .lose message =>
      if message ∈ state.requests then
        some { state with requests := state.requests.erase message }
      else none
  | .handle message =>
      if message ∈ state.requests then
        let (value, answer) :=
          peer.handle state.peer message.designator.value message.parameters
        some { state with
          requests := state.requests.erase message
          peer := value
          replies := state.replies ++ [answer.message message.id.value] }
      else none
  | .deliver message =>
      if message ∈ state.replies then
        (Client.step state.client (.response message)).map fun client =>
          { state with client := client }
      else none

/-- A client with a fresh transport, and a peer nobody has called. -/
def initial (peer : Peer σ) (clock : Timestamp) : State ι σ where
  client := Client.initial (some .new) clock
  submitted _ := false
  requests := []
  peer := peer.start
  replies := []

/-! ## What one step can do -/

/-- The steps of the composition, as a relation. -/
inductive Step (peer : Peer σ) (request : ι → Request) (state : State ι σ) :
    Action ι → State ι σ → Prop
  | client (action : Client.Action ι) (next : Client.State ι)
      (hallowed : state.allows action = true)
      (hstep : Client.step state.client action = some next) :
      Step peer request state (.client action) { state with client := next }
  | submit (call : ι) (hphase : state.client.phase call = .inserted)
      (hsubmitted : state.submitted call = false) :
      Step peer request state (.submit call)
        { state with
          submitted := Function.update state.submitted call true
          requests := state.requests ++ [(request call).message (state.client.caller call).id] }
  | lose (message : Message) (hmem : message ∈ state.requests) :
      Step peer request state (.lose message)
        { state with requests := state.requests.erase message }
  | handle (message : Message) (hmem : message ∈ state.requests) :
      Step peer request state (.handle message)
        { state with
          requests := state.requests.erase message
          peer := (peer.handle state.peer message.designator.value message.parameters).1
          replies := state.replies ++
            [(peer.handle state.peer message.designator.value message.parameters).2.message
              message.id.value] }
  | deliver (message : Message) (next : Client.State ι) (hmem : message ∈ state.replies)
      (hstep : Client.step state.client (.response message) = some next) :
      Step peer request state (.deliver message) { state with client := next }

/-- Every enabled label is one of the listed steps. -/
theorem step_cases {peer : Peer σ} {request : ι → Request} {state next : State ι σ}
    {action : Action ι} (htaken : step peer request state action = some next) :
    Step peer request state action next := by
  cases action with
  | client action =>
      simp only [step] at htaken
      split_ifs at htaken with hallowed
      obtain ⟨client, hstep, rfl⟩ := Option.map_eq_some_iff.mp htaken
      exact .client action client hallowed hstep
  | submit call =>
      simp only [step] at htaken
      split_ifs at htaken with hguard
      obtain rfl := Option.some.inj htaken
      exact .submit call hguard.1 hguard.2
  | lose message =>
      simp only [step] at htaken
      split_ifs at htaken with hmem
      obtain rfl := Option.some.inj htaken
      exact .lose message hmem
  | handle message =>
      simp only [step] at htaken
      split_ifs at htaken with hmem
      obtain rfl := Option.some.inj htaken
      exact .handle message hmem
  | deliver message =>
      simp only [step] at htaken
      split_ifs at htaken with hmem
      obtain ⟨client, hstep, rfl⟩ := Option.map_eq_some_iff.mp htaken
      exact .deliver message client hmem hstep

/-! ## The client in the composition is the client -/

/-- The client's part of a step. -/
def Action.toClient : Action ι → Option (Client.Action ι)
  | .client action => some action
  | .deliver message => some (.response message)
  | _ => none

/-- How many identifiers a schedule draws. -/
def drawCount (schedule : List (Action ι)) : ℕ :=
  Client.drawCount (schedule.filterMap Action.toClient)

omit [DecidableEq ι] in
theorem drawCount_le_append (schedule more : List (Action ι)) :
    drawCount schedule ≤ drawCount (schedule ++ more) := by
  simp only [drawCount, Client.drawCount, List.filterMap_append, List.countP_append]
  exact Nat.le_add_right _ _

/-- What a schedule leaves behind of its client. -/
structure Past (clock : Timestamp) (schedule : List (Action ι)) (state : State ι σ) : Prop where
  client : exec Client.step (Client.initial (some .new) clock)
    (schedule.filterMap Action.toClient) = some state.client
  kept : ∀ action ∈ schedule.filterMap Action.toClient, action.isSetTransport = false
  delivered : ∀ message, .response message ∈ schedule.filterMap Action.toClient →
    message ∈ state.replies

/-- A step of the client adds itself to the past. -/
theorem Past.moved {clock : Timestamp} {prior : List (Action ι)} {state next : State ι σ}
    (hpast : Past clock prior state) {action : Action ι} {own : Client.Action ι}
    (hown : action.toClient = some own)
    (hstep : Client.step state.client own = some next.client)
    (hset : own.isSetTransport = false) (hreplies : next.replies = state.replies)
    (hreply : ∀ message, own = .response message → message ∈ state.replies) :
    Past clock (prior ++ [action]) next := by
  have hlabels : (prior ++ [action]).filterMap Action.toClient =
      prior.filterMap Action.toClient ++ [own] := by simp [hown]
  refine ⟨?_, ?_, ?_⟩
  · rw [hlabels]
    exact exec_snoc hpast.client hstep
  · rw [hlabels]
    intro other hother
    rcases List.mem_append.mp hother with hbefore | hlast
    · exact hpast.kept other hbefore
    · rw [List.mem_singleton.mp hlast]
      exact hset
  · rw [hlabels, hreplies]
    intro message hmessage
    rcases List.mem_append.mp hmessage with hbefore | hlast
    · exact hpast.delivered message hbefore
    · exact hreply message (List.mem_singleton.mp hlast).symm

/-- A step of the others leaves the past of the client as it is. -/
theorem Past.stood {clock : Timestamp} {prior : List (Action ι)} {state next : State ι σ}
    (hpast : Past clock prior state) {action : Action ι} (hown : action.toClient = none)
    (hclient : next.client = state.client) (hreplies : state.replies ⊆ next.replies) :
    Past clock (prior ++ [action]) next := by
  have hlabels : (prior ++ [action]).filterMap Action.toClient =
      prior.filterMap Action.toClient := by simp [hown]
  refine ⟨?_, ?_, ?_⟩
  · rw [hlabels, hclient]
    exact hpast.client
  · rw [hlabels]
    exact hpast.kept
  · rw [hlabels]
    exact fun message hmessage => hreplies (hpast.delivered message hmessage)

theorem past_of_exec {peer : Peer σ} {request : ι → Request} {clock : Timestamp}
    {schedule : List (Action ι)} {final : State ι σ}
    (hrun : exec (step peer request) (initial peer clock) schedule = some final) :
    Past clock schedule final := by
  refine exec_history (motive := Past clock) ⟨rfl, by simp, by simp⟩ ?_ hrun
  intro prior state action next _ hpast htaken
  cases step_cases htaken with
  | client action client hallowed hstep =>
      refine hpast.moved rfl hstep ?_ rfl ?_
      · cases action <;> simp_all [State.allows, Client.Action.isSetTransport]
      · rintro message rfl
        simp [State.allows] at hallowed
  | deliver message client hmem hstep =>
      refine hpast.moved rfl hstep rfl rfl ?_
      intro other hother
      rwa [← Client.Action.response.inj hother]
  | submit call hphase hsubmitted => exact hpast.stood rfl rfl (List.Subset.refl _)
  | lose message hmem => exact hpast.stood rfl rfl (List.Subset.refl _)
  | handle message hmem => exact hpast.stood rfl rfl (List.subset_append_left _ _)

/-! ## The composition and the atomic object -/

/-- The state of the composition and that of the atomic object it stands for. -/
structure Related (request : ι → Request) (state : State ι σ)
    (atomic : Atomic ι σ Client.Outcome) : Prop where
  connected : state.client.transport ≠ none
  peer : atomic.value = state.peer
  /-- The calls that have begun are those with an identifier. -/
  idle : ∀ call, atomic.status call = .idle ↔ state.client.drawnId call = none
  /-- A message on its way to the peer is that of a call that waits to take effect. -/
  request : ∀ message ∈ state.requests, ∃ call,
    IsMessageOf request state.client call message ∧ atomic.status call = .pending
  requests_nodup : (state.requests.map fun message => message.id.value).Nodup
  /-- Before its message is submitted a call takes no effect. -/
  unsent : ∀ call, state.submitted call = false →
    (atomic.status call = .idle ∨ atomic.status call = .pending) ∧
      ∀ message ∈ state.requests, state.client.drawnId call ≠ some message.id.value
  /-- A reply carries the answer to a call that took effect. -/
  reply : ∀ message ∈ state.replies, ∃ call answer,
    state.client.drawnId call = some message.id.value ∧
    message = Answer.message message.id.value answer ∧
    (atomic.status call = .committed answer.outcome ∨
      atomic.status call = .responded answer.outcome)
  /-- A call that has ended has returned. -/
  responded : ∀ call outcome, atomic.status call = .responded outcome →
    state.client.phase call = .returned outcome

omit [DecidableEq ι] in
theorem related_initial (peer : Peer σ) (request : ι → Request) (clock : Timestamp) :
    Related request (initial peer clock : State ι σ) (.initial peer.object) where
  connected := by simp [initial, Client.initial]
  peer := rfl
  idle := by simp [initial, Client.initial, Atomic.initial, Client.State.drawnId]
  request := by simp [initial]
  requests_nodup := by simp [initial]
  unsent := by simp [initial, Atomic.initial]
  reply := by simp [initial]
  responded := by simp [Atomic.initial]

section Match

variable {request : ι → Request} {state : State ι σ} {atomic : Atomic ι σ Client.Outcome}
  {client : Client.State ι} {call : ι} {message : Message}

omit [DecidableEq ι] in
/-- The client moves, and neither begins a call nor ends one. -/
theorem Related.move (hrelated : Related request state atomic)
    (hconnected : client.transport ≠ none) (hdrawn : client.drawnId = state.client.drawnId)
    (hreturned : ∀ call outcome, state.client.phase call = .returned outcome →
      client.phase call = .returned outcome) :
    Related request { state with client := client } atomic where
  connected := hconnected
  peer := hrelated.peer
  idle call := by
    rw [hdrawn]
    exact hrelated.idle call
  request message hmem := by
    obtain ⟨call, hmessage, hstatus⟩ := hrelated.request message hmem
    exact ⟨call, hmessage.of_drawnId_eq (congrFun hdrawn call), hstatus⟩
  requests_nodup := hrelated.requests_nodup
  unsent call hsubmitted := by
    rw [hdrawn]
    exact hrelated.unsent call hsubmitted
  reply message hmem := by
    rw [hdrawn]
    exact hrelated.reply message hmem
  responded call outcome hstatus := hreturned call outcome (hrelated.responded call outcome hstatus)

/-- A call begins. -/
theorem Related.draw (hrelated : Related request state atomic) {id : MessageID}
    (hbefore : state.client.drawnId call = none) (hown : client.drawnId call = some id)
    (hothers : ∀ other, other ≠ call → client.drawnId other = state.client.drawnId other)
    (hinjective : ∀ other, client.drawnId other = some id → other = call)
    (hconnected : client.transport ≠ none)
    (hreturned : ∀ call outcome, state.client.phase call = .returned outcome →
      client.phase call = .returned outcome) :
    Related request { state with client := client } (atomic.setStatus call .pending) where
  connected := hconnected
  peer := hrelated.peer
  idle other := by
    by_cases hcall : other = call
    · subst hcall
      simp [Atomic.setStatus, hown]
    · simp only [Atomic.setStatus, Function.update_of_ne hcall, hothers other hcall]
      exact hrelated.idle other
  request message hmem := by
    obtain ⟨other, hmessage, hstatus⟩ := hrelated.request message hmem
    have hcall : other ≠ call := by
      rintro rfl
      simpa [hbefore] using hmessage.id
    refine ⟨other, hmessage.of_drawnId_eq (hothers other hcall), ?_⟩
    simpa [Atomic.setStatus, hcall] using hstatus
  requests_nodup := hrelated.requests_nodup
  unsent other hsubmitted := by
    by_cases hcall : other = call
    · subst hcall
      refine ⟨.inr (by simp [Atomic.setStatus]), fun message hmem hsame => ?_⟩
      -- The message is that of a call with the identifier just drawn.
      obtain ⟨sender, hmessage, _⟩ := hrelated.request message hmem
      have hsender : sender ≠ other := by
        rintro rfl
        simpa [hbefore] using hmessage.id
      apply hsender
      apply hinjective
      rw [hothers sender hsender, hmessage.id, ← hsame, hown]
    · simp only [Atomic.setStatus, Function.update_of_ne hcall, hothers other hcall]
      exact hrelated.unsent other hsubmitted
  reply message hmem := by
    obtain ⟨other, answer, hid, hmessage, hstatus⟩ := hrelated.reply message hmem
    have hcall : other ≠ call := by
      rintro rfl
      simp [hbefore] at hid
    refine ⟨other, answer, by rw [hothers other hcall, hid], hmessage, ?_⟩
    simpa [Atomic.setStatus, hcall] using hstatus
  responded other outcome hstatus := by
    by_cases hcall : other = call
    · subst hcall
      simp [Atomic.setStatus] at hstatus
    · simp only [Atomic.setStatus, Function.update_of_ne hcall] at hstatus
      exact hreturned other outcome (hrelated.responded other outcome hstatus)

/-- A call ends with the answer of the peer. -/
theorem Related.read (hrelated : Related request state atomic) {outcome : Client.Outcome}
    (hstatus : atomic.status call = .committed outcome)
    (hphase : client.phase call = .returned outcome) (hconnected : client.transport ≠ none)
    (hdrawn : client.drawnId = state.client.drawnId)
    (hreturned : ∀ call outcome, state.client.phase call = .returned outcome →
      client.phase call = .returned outcome) :
    Related request { state with client := client }
      (atomic.setStatus call (.responded outcome)) where
  connected := hconnected
  peer := hrelated.peer
  idle other := by
    rw [hdrawn]
    by_cases hcall : other = call
    · subst hcall
      rw [← hrelated.idle other, hstatus]
      simp [Atomic.setStatus]
    · simp only [Atomic.setStatus, Function.update_of_ne hcall]
      exact hrelated.idle other
  request message hmem := by
    obtain ⟨other, hmessage, hpending⟩ := hrelated.request message hmem
    have hcall : other ≠ call := by
      rintro rfl
      simp [hpending] at hstatus
    refine ⟨other, hmessage.of_drawnId_eq (congrFun hdrawn other), ?_⟩
    simpa [Atomic.setStatus, hcall] using hpending
  requests_nodup := hrelated.requests_nodup
  unsent other hsubmitted := by
    have hother := hrelated.unsent other hsubmitted
    have hcall : other ≠ call := by
      rintro rfl
      simp [hstatus] at hother
    rw [hdrawn]
    simpa [Atomic.setStatus, hcall] using hother
  reply message hmem := by
    rw [hdrawn]
    obtain ⟨other, answer, hid, hmessage, hother⟩ := hrelated.reply message hmem
    refine ⟨other, answer, hid, hmessage, ?_⟩
    by_cases hcall : other = call
    · subst hcall
      right
      simpa [Atomic.setStatus, hstatus] using hother
    · simpa [Atomic.setStatus, hcall] using hother
  responded other recorded hother := by
    by_cases hcall : other = call
    · subst hcall
      obtain rfl : outcome = recorded := by simpa [Atomic.setStatus] using hother
      exact hphase
    · simp only [Atomic.setStatus, Function.update_of_ne hcall] at hother
      exact hreturned other recorded (hrelated.responded other recorded hother)

/-- The message of a call is submitted. -/
theorem Related.submit (hrelated : Related request state atomic) {id : MessageID}
    (hsubmitted : state.submitted call = false) (hid : state.client.drawnId call = some id)
    (hinjective : ∀ other, state.client.drawnId other = some id → other = call) :
    Related request { state with
      submitted := Function.update state.submitted call true
      requests := state.requests ++ [(request call).message id] } atomic where
  connected := hrelated.connected
  peer := hrelated.peer
  idle := hrelated.idle
  request message hmem := by
    rcases List.mem_append.mp hmem with hbefore | hlast
    · exact hrelated.request message hbefore
    · obtain rfl := List.mem_singleton.mp hlast
      refine ⟨call, ⟨hid, rfl⟩, ?_⟩
      rcases (hrelated.unsent call hsubmitted).1 with hidle | hpending
      · simp [(hrelated.idle call).mp hidle] at hid
      · exact hpending
  requests_nodup := by
    rw [List.map_append]
    refine hrelated.requests_nodup.append (List.nodup_singleton _) ?_
    simp only [List.map_cons, List.map_nil, List.disjoint_singleton, List.mem_map, not_exists,
      not_and]
    intro message hmem hsame
    refine (hrelated.unsent call hsubmitted).2 message hmem ?_
    rw [hid, hsame]
    rfl
  unsent other hother := by
    have hcall : other ≠ call := by
      rintro rfl
      simp at hother
    simp only [Function.update_of_ne hcall] at hother
    refine ⟨(hrelated.unsent other hother).1, fun message hmem hsame => ?_⟩
    rcases List.mem_append.mp hmem with hbefore | hlast
    · exact (hrelated.unsent other hother).2 message hbefore hsame
    · obtain rfl := List.mem_singleton.mp hlast
      exact hcall (hinjective other hsame)
  reply := hrelated.reply
  responded := hrelated.responded

omit [DecidableEq ι] in
/-- A message is lost. -/
theorem Related.lose (hrelated : Related request state atomic) :
    Related request { state with requests := state.requests.erase message } atomic where
  connected := hrelated.connected
  peer := hrelated.peer
  idle := hrelated.idle
  request other hmem := hrelated.request other (List.mem_of_mem_erase hmem)
  requests_nodup := hrelated.requests_nodup.sublist (List.erase_sublist.map _)
  unsent call hsubmitted :=
    ⟨(hrelated.unsent call hsubmitted).1, fun other hmem =>
      (hrelated.unsent call hsubmitted).2 other (List.mem_of_mem_erase hmem)⟩
  reply := hrelated.reply
  responded := hrelated.responded

omit [DecidableEq ι] in
/-- No message left carries the identifier of the one taken out. -/
theorem Related.id_ne_of_mem_erase (hrelated : Related request state atomic)
    (hmem : message ∈ state.requests) {other : Message}
    (hother : other ∈ state.requests.erase message) : other.id.value ≠ message.id.value := by
  intro hsame
  have hperm := (List.perm_cons_erase hmem).map fun message => message.id.value
  have hnodup := hperm.nodup_iff.mp hrelated.requests_nodup
  rw [List.map_cons, List.nodup_cons] at hnodup
  exact hnodup.1 (List.mem_map.mpr ⟨other, hother, hsame⟩)

/-- The peer handles the message of a call, which takes effect. -/
theorem Related.handle (hrelated : Related request state atomic) (hmem : message ∈ state.requests)
    (hid : state.client.drawnId call = some message.id.value)
    (hstatus : atomic.status call = .pending) (value : σ) (answer : Answer) :
    Related request
      { state with
        requests := state.requests.erase message
        peer := value
        replies := state.replies ++ [answer.message message.id.value] }
      ({ atomic with value := value, order := atomic.order ++ [call] }.setStatus call
        (.committed answer.outcome)) where
  connected := hrelated.connected
  peer := rfl
  idle other := by
    by_cases hcall : other = call
    · subst hcall
      simp [Atomic.setStatus, hid]
    · simp only [Atomic.setStatus, Function.update_of_ne hcall]
      exact hrelated.idle other
  request other hother := by
    obtain ⟨sender, hsender, hpending⟩ := hrelated.request other (List.mem_of_mem_erase hother)
    have hcall : sender ≠ call := by
      rintro rfl
      have hsame := hid.symm.trans hsender.id
      exact hrelated.id_ne_of_mem_erase hmem hother (Option.some.inj hsame).symm
    exact ⟨sender, hsender, by simpa [Atomic.setStatus, hcall] using hpending⟩
  requests_nodup := hrelated.requests_nodup.sublist (List.erase_sublist.map _)
  unsent other hother := by
    have hunsent := hrelated.unsent other hother
    have hcall : other ≠ call := by
      rintro rfl
      exact hunsent.2 message hmem hid
    refine ⟨by simpa [Atomic.setStatus, hcall] using hunsent.1, fun later hlater => ?_⟩
    exact hunsent.2 later (List.mem_of_mem_erase hlater)
  reply other hother := by
    rcases List.mem_append.mp hother with hbefore | hlast
    · obtain ⟨sender, earlier, hsender, hsame, hplaced⟩ := hrelated.reply other hbefore
      have hcall : sender ≠ call := by
        rintro rfl
        simp [hstatus] at hplaced
      exact ⟨sender, earlier, hsender, hsame, by simpa [Atomic.setStatus, hcall] using hplaced⟩
    · obtain rfl := List.mem_singleton.mp hlast
      exact ⟨call, answer, by simpa using hid, by simp, by simp [Atomic.setStatus]⟩
  responded other outcome hother := by
    by_cases hcall : other = call
    · subst hcall
      simp [Atomic.setStatus] at hother
    · simp only [Atomic.setStatus, Function.update_of_ne hcall] at hother
      exact hrelated.responded other outcome hother

end Match

/-! ## What a call is about to return -/

section Returning

variable {request : ι → Request} {clock : Timestamp} {schedule : List (Action ι)}
  {state : State ι σ} {atomic : Atomic ι σ Client.Outcome} {call : ι}

/-- Calls on the one channel have distinct identifiers. -/
theorem Past.injective (hpast : Past clock schedule state) (hdraws : drawCount schedule < 2 ^ 32)
    {first second : ι} {id : MessageID} (hfirst : state.client.drawnId first = some id)
    (hsecond : state.client.drawnId second = some id) : first = second := by
  refine Client.drawnId_injective ?_ hpast.kept hdraws hpast.client hfirst hsecond
  exact fun channel hchannel => (Option.some.inj hchannel).symm

/-- A message that was processed while the queue listed the call is a reply of the peer. -/
theorem Past.mem_replies (hpast : Past clock schedule state) {message : Message}
    (hdelivered : Client.Delivered (Client.initial (some .new) clock)
      (schedule.filterMap Action.toClient) call message) : message ∈ state.replies := by
  obtain ⟨action, hmem, _, rfl, _⟩ := hdelivered.exists_mem
  exact hpast.delivered message hmem

/-- The peer sends no error reply with the code of success. -/
theorem Past.errorCodesNonzero (hpast : Past clock schedule state)
    (hrelated : Related request state atomic) :
    Client.ErrorCodesNonzero (schedule.filterMap Action.toClient) := by
  intro action hmem
  cases action with
  | response message =>
      obtain ⟨_, answer, _, hmessage, _⟩ := hrelated.reply message (hpast.delivered message hmem)
      cases hset : message.error.isSet with
      | false => simp [Client.Action.codeNonzero, hset]
      | true =>
          rw [hmessage] at hset ⊢
          simpa [Client.Action.codeNonzero] using .inr (Answer.code_ne_zero hset)
  | _ => rfl

omit [DecidableEq ι] in
/-- A call that has looked at what is recorded has an identifier, and has not ended. -/
theorem Related.of_returning (hrelated : Related request state atomic) {outcome : Client.Outcome}
    (hreturning : returning state.client call = some outcome) :
    state.client.drawnId call = some (state.client.caller call).id ∧
      ∀ recorded, atomic.status call ≠ .responded recorded := by
  have hchecked : ∃ succeeded, state.client.phase call = .checked succeeded := by
    cases hphase : state.client.phase call <;> simp_all [returning]
  obtain ⟨succeeded, hphase⟩ := hchecked
  refine ⟨by simp [Client.State.drawnId, hphase], fun recorded hstatus => ?_⟩
  have hreturned := hrelated.responded call recorded hstatus
  simp [hphase] at hreturned

/-- A reply that completed a call before it ended is the peer's answer to it. -/
theorem Related.committed_of_delivered (hrelated : Related request state atomic)
    (hpast : Past clock schedule state) (hdraws : drawCount schedule < 2 ^ 32)
    {outcome : Client.Outcome} (hreturning : returning state.client call = some outcome)
    {message : Message} (hdelivered : Client.Delivered (Client.initial (some .new) clock)
      (schedule.filterMap Action.toClient) call message)
    (hid : message.id.value = (state.client.caller call).id) :
    ∃ answer, message = Answer.message message.id.value answer ∧
      atomic.status call = .committed answer.outcome := by
  obtain ⟨hdrawn, hopen⟩ := hrelated.of_returning hreturning
  obtain ⟨sender, answer, hsender, hmessage, hplaced⟩ :=
    hrelated.reply message (hpast.mem_replies hdelivered)
  obtain rfl : sender = call := by
    apply hpast.injective hdraws hsender
    rw [hdrawn, hid]
  exact ⟨answer, hmessage, hplaced.resolve_right (hopen answer.outcome)⟩

/-- What a call is about to return, a timeout apart, is what the peer answered to it. -/
theorem Related.committed_of_returning (hrelated : Related request state atomic)
    (hpast : Past clock schedule state) (hdraws : drawCount schedule < 2 ^ 32)
    {outcome : Client.Outcome} (hreturning : returning state.client call = some outcome)
    (htimedout : outcome ≠ .error .timedout) : atomic.status call = .committed outcome := by
  have hhistory := Client.history_of_exec hpast.client (hpast.errorCodesNonzero hrelated)
  have hanswer := fun message (hdelivered : Client.Delivered _ _ call message) =>
    hrelated.committed_of_delivered hpast hdraws hreturning hdelivered
  unfold returning at hreturning
  split at hreturning
  · rename_i hphase
    obtain ⟨message, hdelivered, hid, hset, htext⟩ := hhistory.checkedResponse call hphase
    obtain ⟨answer, hmessage, hstatus⟩ := hanswer message hdelivered hid
    rw [hmessage] at hset htext
    rw [hstatus, Answer.outcome_of_result hset, ← htext]
    exact congrArg _ (Option.some.inj hreturning)
  · rename_i hphase
    have hexplained := hhistory.error call (hhistory.checkedError call hphase)
    rcases hexplained with ⟨hstatus, _⟩ | ⟨message, hdelivered, hid, hset, hcode⟩
    · rw [hstatus] at hreturning
      exact absurd (Option.some.inj hreturning).symm htimedout
    · obtain ⟨answer, hmessage, hstatus⟩ := hanswer message hdelivered hid
      rw [hmessage] at hset hcode
      rw [hstatus, Answer.outcome_of_error hset, ← hcode]
      exact congrArg _ (Option.some.inj hreturning)
  · cases hreturning

end Returning

/-! ## Every step is matched -/

section Matched

variable {client next : Client.State ι} {action : Client.Action ι} {call : ι}

theorem returned_step (hstep : Client.Step client action next) {outcome : Client.Outcome}
    (hreturned : client.phase call = .returned outcome) : next.phase call = .returned outcome := by
  rw [← hreturned]
  apply Client.phase_step hstep
  intro hactor
  cases hstep <;> simp_all [Client.Action.actor]

theorem connected_step (hstep : Client.Step client action next)
    (hset : action.isSetTransport = false) (hconnected : client.transport ≠ none) :
    next.transport ≠ none := by
  cases hstep with
  | setTransport transport => cases hset
  | draw actor channel hphase htransport => simp [Client.State.setPhase]
  | _ => exact hconnected

theorem drawnId_of_not_draw (hstep : Client.Step client action next)
    (hdraw : ∀ call, action ≠ .draw call) : next.drawnId = client.drawnId := by
  funext call
  rcases Client.drawnId_step hstep call with hkept | ⟨channel, haction, _⟩
  · exact hkept
  · exact absurd haction (hdraw call)

variable {peer : Peer σ} {request : ι → Request} {clock : Timestamp} {prior : List (Action ι)}
  {state : State ι σ} {atomic : Atomic ι σ Client.Outcome}

/-- The atomic object takes steps to a state the composition is related to, the observer sees
the same, and the calls that take effect are those whose messages the peer handles. -/
def Matched (peer : Peer σ) (request : ι → Request) (state next : State ι σ) (action : Action ι)
    (atomic : Atomic ι σ Client.Outcome) : Prop :=
  ∃ labels later, exec (Atomic.step peer.object request) atomic labels = some later ∧
    labels.flatMap Label.visible = observe state action ∧ Related request next later ∧
    ∃ effects, later.order = atomic.order ++ effects ∧
      List.Forall₂ (IsMessageOf request state.client) effects action.handled

/-- A step that the observer does not see and that changes nothing for the atomic object. -/
theorem Matched.silent {next : State ι σ} {action : Action ι}
    (hobserve : observe state action = []) (hhandled : action.handled = [])
    (hrelated : Related request next atomic) : Matched peer request state next action atomic := by
  refine ⟨[], atomic, rfl, hobserve.symm, hrelated, [], (List.append_nil _).symm, ?_⟩
  rw [hhandled]
  exact .nil

/-- A draw begins a call. -/
theorem matched_draw (hrelated : Related request state atomic)
    (hpast : Past clock (prior ++ [.client (.draw call)]) { state with client := next })
    (hdraws : drawCount (prior ++ [.client (.draw call)]) < 2 ^ 32)
    (hstep : Client.Step state.client (.draw call) next) :
    Matched peer request state { state with client := next } (.client (.draw call)) atomic := by
  have hconnected := connected_step hstep rfl hrelated.connected
  have hreturned : ∀ call outcome, state.client.phase call = .returned outcome →
      next.phase call = .returned outcome := fun _ _ => returned_step hstep
  cases hstep with
  | refuse _ hphase htransport => exact absurd htransport hrelated.connected
  | draw _ channel hphase htransport =>
      have hbefore : state.client.drawnId call = none := by simp [Client.State.drawnId, hphase]
      have hidle := (hrelated.idle call).mpr hbefore
      refine ⟨[.invoke call], atomic.setStatus call .pending, by simp [Atomic.step, hidle], rfl,
        ?_, [], (List.append_nil _).symm, .nil⟩
      have hown : Client.State.drawnId ({ state.client with
          transport := some channel.sequence.2 }.setPhase call (.drawn channel.sequence.1)) call =
            some channel.sequence.1 := by
        simp [Client.State.drawnId, Client.State.setPhase]
      refine hrelated.draw hbefore hown ?_ ?_ hconnected hreturned
      · intro other hother
        simp [Client.State.drawnId, Client.State.setPhase, hother]
      · intro other hother
        refine hpast.injective hdraws hother ?_
        simp [Client.State.drawnId, Client.State.setPhase]

/-- A call that returns ends, unless it has timed out. -/
theorem matched_read (hrelated : Related request state atomic) (hpast : Past clock prior state)
    (hdraws : drawCount prior < 2 ^ 32) (hstep : Client.Step state.client (.read call) next) :
    Matched peer request state { state with client := next } (.client (.read call)) atomic := by
  have hconnected := connected_step hstep rfl hrelated.connected
  have hdrawn := drawnId_of_not_draw hstep (by simp)
  have hreturned : ∀ call outcome, state.client.phase call = .returned outcome →
      next.phase call = .returned outcome := fun _ _ => returned_step hstep
  obtain ⟨outcome, hreturning, hphase⟩ : ∃ outcome, returning state.client call = some outcome ∧
      next.phase call = .returned outcome := by
    cases hstep with
    | readResponse _ hchecked =>
        exact ⟨.response (state.client.caller call).response, by simp [returning, hchecked],
          by simp [Client.State.setPhase]⟩
    | readError _ hchecked =>
        exact ⟨.error (state.client.caller call).error, by simp [returning, hchecked],
          by simp [Client.State.setPhase]⟩
  by_cases htimedout : outcome = .error .timedout
  · refine Matched.silent ?_ rfl (hrelated.move hconnected hdrawn hreturned)
    simp [observe, hreturning, htimedout]
  · have hstatus := hrelated.committed_of_returning hpast hdraws hreturning htimedout
    refine ⟨[.respond call outcome], atomic.setStatus call (.responded outcome),
      by simp [Atomic.step, hstatus], ?_,
      hrelated.read hstatus hphase hconnected hdrawn hreturned, [], (List.append_nil _).symm, .nil⟩
    simp [observe, hreturning, htimedout, Label.visible]

/-- Any other step of the client is not seen. -/
theorem matched_client (hrelated : Related request state atomic)
    (hset : action.isSetTransport = false) (hdraw : ∀ call, action ≠ .draw call)
    {label : Action ι} (hobserve : observe state label = []) (hhandled : label.handled = [])
    (hstep : Client.Step state.client action next) :
    Matched peer request state { state with client := next } label atomic := by
  apply Matched.silent hobserve hhandled
  exact hrelated.move (connected_step hstep hset hrelated.connected)
    (drawnId_of_not_draw hstep hdraw) fun _ _ => returned_step hstep

/-- When the peer handles a message, its call takes effect. -/
theorem matched_handle (hrelated : Related request state atomic) {message : Message}
    (hmem : message ∈ state.requests) :
    Matched peer request state
      { state with
        requests := state.requests.erase message
        peer := (peer.handle state.peer message.designator.value message.parameters).1
        replies := state.replies ++
          [(peer.handle state.peer message.designator.value message.parameters).2.message
            message.id.value] } (.handle message) atomic := by
  obtain ⟨call, hmessage, hstatus⟩ := hrelated.request message hmem
  refine ⟨[.commit call], _, ?_, rfl, hrelated.handle hmem hmessage.id hstatus _ _,
    [call], rfl, .cons hmessage .nil⟩
  have happly := peer.object_apply atomic.value (request call) message.id.value
  rw [← hmessage.message, hrelated.peer] at happly
  simp [Atomic.step, hstatus, hrelated.peer, happly]

/-- The steps of the composition are steps of the atomic object. -/
theorem matched_step (hrun : exec (step peer request) (initial peer clock) prior = some state)
    {next : State ι σ} {action : Action ι} (htaken : step peer request state action = some next)
    (hdraws : drawCount (prior ++ [action]) < 2 ^ 32) (hrelated : Related request state atomic) :
    Matched peer request state next action atomic := by
  have hpast := past_of_exec hrun
  have hnext := past_of_exec (exec_snoc hrun htaken)
  have hbefore : drawCount prior < 2 ^ 32 := by
    exact Nat.lt_of_le_of_lt (drawCount_le_append _ _) hdraws
  cases step_cases htaken with
  | client action client hallowed hstep =>
      have hstep := Client.step_cases hstep
      cases action with
      | draw call => exact matched_draw hrelated hnext hdraws hstep
      | read call => exact matched_read hrelated hpast hbefore hstep
      | setTransport transport | response message => simp [State.allows] at hallowed
      | _ => exact matched_client hrelated rfl (by simp) rfl rfl hstep
  | submit call hphase hsubmitted =>
      apply Matched.silent rfl rfl
      have hid : state.client.drawnId call = some (state.client.caller call).id := by
        simp [Client.State.drawnId, hphase]
      exact hrelated.submit hsubmitted hid fun other hother => hpast.injective hbefore hother hid
  | lose message hmem => exact Matched.silent rfl rfl hrelated.lose
  | handle message hmem => exact matched_handle hrelated hmem
  | deliver message client hmem hstep =>
      exact matched_client hrelated rfl (by simp) rfl rfl (Client.step_cases hstep)

end Matched

/-! ## The order in which calls take effect -/

section Order

variable {peer : Peer σ} {request : ι → Request} {clock : Timestamp} {schedule : List (Action ι)}
  {state next : State ι σ} {action : Action ι} {call : ι}

/-- The message of a call stays that of the call. -/
theorem IsMessageOf.kept (htaken : step peer request state action = some next) {message : Message}
    (hmessage : IsMessageOf request state.client call message) :
    IsMessageOf request next.client call message where
  id := by
    cases step_cases htaken with
    | client action client hallowed hstep =>
        exact Client.drawnId_kept (Client.step_cases hstep) hmessage.id
    | deliver message client hmem hstep =>
        exact Client.drawnId_kept (Client.step_cases hstep) hmessage.id
    | submit | lose | handle => exact hmessage.id
  message := hmessage.message

/-- Only `Send` makes a call fail. -/
theorem failed_or_send {client later : Client.State ι} {own : Client.Action ι}
    (hstep : Client.Step client own later) {status : Error}
    (hfailed : later.phase call = .failed status) :
    client.phase call = .failed status ∨ own = .send call status ∧ status ≠ .none := by
  by_cases hactor : own.actor = some call
  · right
    cases hstep with
    | sendFailed sender result hphase hresult =>
        obtain rfl : sender = call := Option.some.inj hactor
        obtain rfl : result = status := by simpa [Client.State.setPhase] using hfailed
        exact ⟨rfl, hresult⟩
    | _ => simp_all [Client.Action.actor, Client.State.setPhase]
  · left
    rw [← hfailed, Client.phase_step hstep hactor]

/-- A call whose `Send` has failed has submitted no message. -/
theorem unsubmitted_of_failed
    (hrun : exec (step peer request) (initial peer clock) schedule = some state) {status : Error}
    (hfailed : state.client.phase call = .failed status) : state.submitted call = false := by
  refine exec_invariant (motive := fun state : State ι σ => ∀ status,
    state.client.phase call = .failed status → state.submitted call = false)
    ?_ (by simp [initial, Client.initial]) hrun status hfailed
  intro state action next hbefore htaken status hfailed
  cases step_cases htaken with
  | client action client hallowed hstep =>
      rcases failed_or_send (Client.step_cases hstep) hfailed with hphase | ⟨rfl, hstatus⟩
      · exact hbefore status hphase
      · simpa [State.allows, hstatus] using hallowed
  | deliver message client hmem hstep =>
      rcases failed_or_send (Client.step_cases hstep) hfailed with hphase | ⟨hresponse, _⟩
      · exact hbefore status hphase
      · cases hresponse
  | submit sender hphase hsubmitted =>
      have hcall : call ≠ sender := by
        rintro rfl
        simp [hphase] at hfailed
      simpa [hcall] using hbefore status hfailed
  | lose | handle => exact hbefore status hfailed

end Order

/-- What an application sees of its calls in a schedule. -/
def history (peer : Peer σ) (request : ι → Request) (clock : Timestamp)
    (schedule : List (Action ι)) : List (Event ι Client.Outcome) :=
  trace (step peer request) observe (initial peer clock) schedule

/-- **Calls to the peer are linearizable.**  However calls, messages, replies and sweeps
interleave on one channel, messages lost and replies repeated or out of order: with fewer than
`2 ^ 32` identifiers drawn, the messages the peer has handled are those of calls, each at most
once, and their order agrees with which calls had ended before others began.  Every result or
error that a call receives as its answer, a timeout apart, is what the peer answers at the
call's place.  A call whose `Send` has failed has no place. -/
theorem calls_linearizable {peer : Peer σ} {request : ι → Request} {clock : Timestamp}
    {schedule : List (Action ι)} {final : State ι σ}
    (hrun : exec (step peer request) (initial peer clock) schedule = some final)
    (hdraws : drawCount schedule < 2 ^ 32) :
    ∃ order, Linearization peer.object request (history peer request clock schedule) order ∧
      List.Forall₂ (IsMessageOf request final.client) order (handled schedule) ∧
      ∀ call status, final.client.phase call = .failed status → call ∉ order := by
  obtain ⟨labels, later, hlabels, hseen, hrelated, horder⟩ : ∃ labels later,
      exec (Atomic.step peer.object request) (.initial peer.object) labels = some later ∧
      labels.flatMap Label.visible =
        trace (step peer request) observe (initial peer clock) schedule ∧
      Related request final later ∧
      List.Forall₂ (IsMessageOf request final.client) later.order (handled schedule) := by
    refine exec_refine (fun prior state atomic => Related request state atomic ∧
      List.Forall₂ (IsMessageOf request state.client) atomic.order (handled prior))
      ⟨related_initial peer request clock, .nil⟩ ?_ hrun
    rintro prior action after state next atomic rfl hprior htaken ⟨hrelated, horder⟩
    have hbefore : drawCount (prior ++ [action]) < 2 ^ 32 := by
      refine Nat.lt_of_le_of_lt ?_ hdraws
      simpa using drawCount_le_append (prior ++ [action]) after
    obtain ⟨labels, later, hlabels, hsame, hnext, effects, heffects, hhandled⟩ :=
      matched_step hprior htaken hbefore hrelated
    refine ⟨labels, later, hlabels, hsame, hnext, ?_⟩
    rw [heffects, handled, List.flatMap_append, List.flatMap_singleton]
    exact List.rel_append (horder.imp fun _ _ => IsMessageOf.kept htaken)
      (hhandled.imp fun _ _ => IsMessageOf.kept htaken)
  have haccounted := Atomic.accounted hlabels
  refine ⟨later.order, ?_, horder, fun call status hfailed => ?_⟩
  · rw [history, ← hseen]
    exact haccounted.toLinearization
  · have hunsubmitted := unsubmitted_of_failed hrun hfailed
    rcases (hrelated.unsent call hunsubmitted).1 with hidle | hpending
    · exact (haccounted.idle call hidle).2
    · exact (haccounted.pending call hpending).2

end Machine

/-- A peer that keeps the parameters it was last given and answers with the ones before. -/
def register : Peer Text where
  start := ['0']
  handle value _ parameters := (parameters.value, .result value)

/-- Two calls overlap.  The second is handled first, its reply comes last and twice, the third
begins after the second has ended and is given up, and the `Send` of the fourth fails. -/
def overlappingCalls (first second third fourth : Fin 4) : List (Action (Fin 4)) :=
  [.client (.draw first), .client (.create first), .client (.insert first), .submit first,
    .client (.draw second), .client (.create second), .client (.insert second), .submit second,
    .client (.send second .none),
    .handle ((⟨['s'], ['2']⟩ : Request).message 2), .handle ((⟨['s'], ['1']⟩ : Request).message 1),
    .client (.send first .none), .deliver (.reply 1 ['2']), .deliver (.reply 2 ['0']),
    .client (.wake second), .client (.erase second), .client (.check second),
    .client (.read second), .deliver (.reply 2 ['0']),
    .client (.draw third), .client (.create third), .client (.insert third), .submit third,
    .client (.send third .none), .lose ((⟨['s'], ['3']⟩ : Request).message 3),
    .client (.draw fourth), .client (.create fourth), .client (.insert fourth),
    .client (.send fourth .notConnected),
    .client (.wake first), .client (.erase first), .client (.check first), .client (.read first)]

/-- What the four calls ask for. -/
def overlappingRequests : Fin 4 → Request
  | 0 => ⟨['s'], ['1']⟩
  | 1 => ⟨['s'], ['2']⟩
  | 2 => ⟨['s'], ['3']⟩
  | 3 => ⟨['s'], ['4']⟩

theorem calls_linearizable_overlappingCalls :
    history register overlappingRequests .zero (overlappingCalls 0 1 2 3) =
      [.invoke 0, .invoke 1, .respond 1 (.response ['0']), .invoke 2, .invoke 3,
        .respond 0 (.response ['2'])] ∧
    handled (overlappingCalls 0 1 2 3) =
      [(overlappingRequests 1).message 2, (overlappingRequests 0).message 1] ∧
    ∃ final, exec (step register overlappingRequests) (initial register .zero)
        (overlappingCalls 0 1 2 3) = some final ∧
      final.client.phase 3 = .failed .notConnected ∧
      ∃ order, Linearization register.object overlappingRequests
          (history register overlappingRequests .zero (overlappingCalls 0 1 2 3)) order ∧
        List.Forall₂ (IsMessageOf overlappingRequests final.client) order
          (handled (overlappingCalls 0 1 2 3)) ∧
        ∀ call status, final.client.phase call = .failed status → call ∉ order := by
  obtain ⟨final, hrun, hphase⟩ : ∃ final : State (Fin 4) Text,
      exec (step register overlappingRequests) (initial register .zero)
        (overlappingCalls 0 1 2 3) = some final ∧
      decide (final.client.phase 3 = .failed .notConnected) = true :=
    exists_exec_of_any (by decide)
  exact ⟨by decide, by decide, final, hrun, of_decide_eq_true hphase,
    calls_linearizable hrun (by decide)⟩

end FireboltTransport.RemoteCalls
