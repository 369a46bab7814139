/-
# Several transports on one channel

A channel hands every message it receives to its observers, one after the other,
until one of them accepts it.  `Transport::Submit` accepts every message, so the
first observer gets them all, and a reply reaches the transport that sent the
request exactly when that transport is the first observer.
-/

import FireboltTransport.Transport.PendingIds

namespace FireboltTransport.Observers

open Semantics Transport

universe u v

/-- A request that some transport makes. -/
inductive Request (τ : Type u)
  | idle
  /-- The identifier is drawn from the channel, nothing is sent. -/
  | drawn (transport : τ) (id : MessageID)
  | sent (transport : τ) (id : MessageID)
  /-- The identifier was in `_pendingQueue` already. -/
  | refused (transport : τ) (id : MessageID)
  deriving DecidableEq

/-- The identifier a request has drawn. -/
def Request.id {τ : Type u} : Request τ → Option MessageID
  | .idle => none
  | .drawn _ id | .sent _ id | .refused _ id => some id

/-- A `CommunicationChannel` and the transports that use it. -/
structure State (τ : Type u) (κ : Type v) where
  channel : Channel
  /-- `_observers`. -/
  observers : List τ
  pendingQueue : τ → StdMap MessageID Entry
  request : κ → Request τ
  /-- The messages handed to a transport, each as a job of the worker pool. -/
  jobs : List (τ × Message)

inductive Action (τ : Type u) (κ : Type v)
  | register (transport : τ)
  | unregister (transport : τ)
  /-- `GetNextMessageID` for a request of the transport. -/
  | draw (op : κ) (transport : τ)
  | send (op : κ)
  /-- `CommunicationChannel::Inbound`. -/
  | inbound (message : Message)
  deriving DecidableEq

variable {τ : Type u} {κ : Type v}

/-- `Transport::Submit`: the result and the jobs after it. -/
def submit (jobs : List (τ × Message)) (transport : τ) (inbound : Message) :
    UInt32 × List (τ × Message) :=
  -- `result` is not used: the function returns 0.
  (0, jobs ++ [(transport, inbound)])

/-- The loop of `CommunicationChannel::Inbound`. -/
def inboundLoop (codes : CoreErrors) (inbound : Message) :
    List τ → UInt32 → List (τ × Message) → UInt32 × List (τ × Message)
  | [], result, jobs => (result, jobs)
  | observer :: rest, result, jobs =>
      if result ≠ codes.errorNone then
        let submitted := submit jobs observer inbound
        inboundLoop codes inbound rest submitted.1 submitted.2
      else (result, jobs)

/-- The first observer accepts the message. -/
theorem inboundLoop_unavailable (codes : CoreErrors) (message : Message) (observers : List τ)
    (jobs : List (τ × Message)) :
    (inboundLoop codes message observers codes.errorUnavailable jobs).2 =
      jobs ++ (observers.head?.map fun observer => (observer, message)).toList := by
  have hunavailable : codes.errorUnavailable ≠ codes.errorNone := codes.ne_errorNone (by simp)
  cases observers with
  | nil => simp [inboundLoop]
  | cons observer rest =>
      cases rest with
      | nil => simp [inboundLoop, submit, hunavailable]
      | cons second others =>
          rw [codes.errorNone_eq] at hunavailable
          simp [inboundLoop, submit, hunavailable, codes.errorNone_eq]

variable [DecidableEq τ] [DecidableEq κ]

def State.setRequest (state : State τ κ) (op : κ) (request : Request τ) : State τ κ :=
  { state with request := Function.update state.request op request }

/-- One step, or `none` when the label is not enabled. -/
def step (codes : CoreErrors) (state : State τ κ) : Action τ κ → Option (State τ κ)
  | .register transport => some { state with observers := state.observers ++ [transport] }
  | .unregister transport => some { state with observers := state.observers.erase transport }
  | .draw op transport =>
      match state.request op with
      | .idle => some ({ state with channel := state.channel.sequence.2 }.setRequest op
          (.drawn transport state.channel.sequence.1))
      | _ => none
  | .send op =>
      match state.request op with
      | .drawn transport id =>
          match (state.pendingQueue transport).lookup id with
          | none => some ({ state with
              pendingQueue := Function.update state.pendingQueue transport
                ((state.pendingQueue transport).insert id .new) }.setRequest op
                  (.sent transport id))
          | some _ => some (state.setRequest op (.refused transport id))
      | _ => none
  | .inbound message => some { state with
      jobs := (inboundLoop codes message state.observers codes.errorUnavailable state.jobs).2 }

/-- A channel nobody has drawn from, with any transports registered. -/
def initial (observers : List τ) : State τ κ where
  channel := .new
  observers := observers
  pendingQueue _ := ∅
  request _ := .idle
  jobs := []

/-! ## Who has sent a request -/

section Requests

variable {codes : CoreErrors} {state next : State τ κ} {action : Action τ κ}

/-- What a step does to the identifiers of the requests: one is drawn, or none. -/
theorem id_step (htaken : step codes state action = some next) :
    (next.channel = state.channel ∧ ∀ op, (next.request op).id = (state.request op).id) ∨
      ∃ op transport, action = .draw op transport ∧ next.channel = state.channel.sequence.2 ∧
        (next.request op).id = some state.channel.sequence.1 ∧
        ∀ other, other ≠ op → (next.request other).id = (state.request other).id := by
  cases action with
  | register transport | unregister transport | inbound message =>
      obtain rfl := Option.some.inj htaken
      exact .inl ⟨rfl, fun _ => rfl⟩
  | draw op transport =>
      simp only [step] at htaken
      split at htaken
      · obtain rfl := Option.some.inj htaken
        refine .inr ⟨op, transport, rfl, rfl, by simp [State.setRequest, Request.id], ?_⟩
        intro other hother
        simp [State.setRequest, hother]
      · cases htaken
  | send op =>
      left
      simp only [step] at htaken
      split at htaken
      case h_1 transport id hdrawn =>
          split at htaken <;>
          · obtain rfl := Option.some.inj htaken
            refine ⟨rfl, fun other => ?_⟩
            by_cases hother : other = op
            · subst hother
              simp [State.setRequest, hdrawn, Request.id]
            · simp [State.setRequest, hother]
      case h_2 => cases htaken

/-- The identifiers drawn in a schedule. -/
def drawCount (schedule : List (Action τ κ)) : ℕ :=
  schedule.countP fun action => match action with
    | .draw _ _ => true
    | _ => false

theorem numbered_step {draws : ℕ}
    (hnumbered : Numbered draws (some state.channel) fun op => (state.request op).id)
    (htaken : step codes state action = some next) :
    Numbered (draws + drawCount [action]) (some next.channel) fun op => (next.request op).id := by
  cases action with
  | draw op transport =>
      rcases id_step htaken with ⟨hchannel, hids⟩ | ⟨op, _, _, hchannel, hown, hothers⟩
      · simp only [step] at htaken
        split at htaken
        · obtain rfl := Option.some.inj htaken
          have hcounter := congrArg Channel.counter hchannel
          simp [State.setRequest] at hcounter
        · cases htaken
      · rw [hchannel]
        exact hnumbered.draw op hown hothers
  | register transport | unregister transport | send op | inbound message =>
      rcases id_step htaken with ⟨hchannel, hids⟩ | ⟨_, _, haction, _⟩
      · rw [hchannel, funext hids]
        exact hnumbered
      · cases haction

theorem numbered_of_exec {observers : List τ} {schedule : List (Action τ κ)} {final : State τ κ}
    (hrun : exec (step codes) (initial observers) schedule = some final) :
    Numbered (drawCount schedule) (some final.channel) fun op => (final.request op).id := by
  refine exec_count (motive := fun draws state =>
    Numbered draws (some state.channel) fun op => (state.request op).id) ?_ ?_ hrun
  · apply Numbered.start
    · intro channel hchannel
      exact (Option.some.inj hchannel).symm
    · intro op
      rfl
  · intro draws state action next hnumbered htaken
    exact numbered_step hnumbered htaken

/-- Fewer than `2 ^ 32` draws give every identifier to one transport only. -/
theorem sender_unique {observers : List τ} {schedule : List (Action τ κ)} {final : State τ κ}
    (hdraws : drawCount schedule < 2 ^ 32)
    (hrun : exec (step codes) (initial observers) schedule = some final)
    {first second : κ} {firstSender secondSender : τ} {id : MessageID}
    (hfirst : final.request first = .sent firstSender id)
    (hsecond : final.request second = .sent secondSender id) : firstSender = secondSender := by
  have hfirstId : (final.request first).id = some id := by rw [hfirst]; rfl
  have hsecondId : (final.request second).id = some id := by rw [hsecond]; rfl
  have hsame : first = second := (numbered_of_exec hrun).injective hdraws hfirstId hsecondId
  rw [hsame, hsecond] at hfirst
  exact (Request.sent.inj hfirst).1.symm

end Requests

/-! ## Replies -/

/-- The message is a reply to a request that the transport has sent. -/
def State.IsReplyTo (state : State τ κ) (message : Message) (transport : τ) : Prop :=
  message.designator.isSet = false ∧
    ∃ op, state.request op = .sent transport message.id.value

/-- A reply becomes a job of the transport that sent the request, the only one that did, and
of no other. -/
def RoutedToSender (codes : CoreErrors) (state : State τ κ) : Action τ κ → Prop
  | .inbound message => ∀ transport, state.IsReplyTo message transport →
      (∀ other, state.IsReplyTo message other → other = transport) ∧
      (step codes state (.inbound message)).map (fun next => next.jobs) =
        some (state.jobs ++ [(transport, message)])
  | _ => True

/-- A reply arrives while the transport that sent the request is the first observer. -/
def SenderIsFirst (state : State τ κ) : Action τ κ → Prop
  | .inbound message => ∀ transport, state.IsReplyTo message transport →
      state.observers.head? = some transport
  | _ => True

theorem routedToSender_iff {codes : CoreErrors} {state : State τ κ} {action : Action τ κ}
    (hunique : ∀ message first second, state.IsReplyTo message first →
      state.IsReplyTo message second → first = second) :
    RoutedToSender codes state action ↔ SenderIsFirst state action := by
  cases action with
  | inbound message =>
      simp only [RoutedToSender, SenderIsFirst, step, Option.map_some, Option.some.injEq,
        inboundLoop_unavailable, List.append_cancel_left_eq]
      constructor
      · intro hrouted transport hreply
        have hjobs := (hrouted transport hreply).2
        cases hhead : state.observers.head? with
        | none => simp [hhead] at hjobs
        | some observer => simpa [hhead] using hjobs
      · intro hfirst transport hreply
        refine ⟨fun other hother => hunique message other transport hother hreply, ?_⟩
        rw [hfirst transport hreply]
        rfl
  | _ => exact Iff.rfl

/-- **Replies of several transports.**  In every run with fewer than `2 ^ 32` draws, every
reply is handed to the transport that sent the request and to no other if and only if every
reply arrives while that transport is the first of the channel's observers. -/
theorem replies_routed_iff {codes : CoreErrors} {observers : List τ}
    {schedule : List (Action τ κ)} {final : State τ κ} (hdraws : drawCount schedule < 2 ^ 32)
    (hrun : exec (step codes) (initial observers) schedule = some final) :
    Meets (step codes) (RoutedToSender codes) (initial observers) schedule ↔
      Meets (step codes) SenderIsFirst (initial observers) schedule := by
  rw [meets_iff_forall_split hrun, meets_iff_forall_split hrun]
  have hsteps : ∀ before action after state, schedule = before ++ action :: after →
      exec (step codes) (initial observers) before = some state →
      (RoutedToSender codes state action ↔ SenderIsFirst state action) := by
    rintro before action after state rfl hbefore
    apply routedToSender_iff
    rintro message first second ⟨_, op, hfirst⟩ ⟨_, other, hsecond⟩
    refine sender_unique ?_ hbefore hfirst hsecond
    have hcount : drawCount (before ++ action :: after) =
        drawCount before + drawCount (action :: after) := List.countP_append
    omega
  constructor
  · intro hrouted before action after state hsplit hbefore
    exact (hsteps before action after state hsplit hbefore).mp
      (hrouted before action after state hsplit hbefore)
  · intro hfirst before action after state hsplit hbefore
    exact (hsteps before action after state hsplit hbefore).mpr
      (hfirst before action after state hsplit hbefore)

instance [Fintype κ] (state : State τ κ) (message : Message) (transport : τ) :
    Decidable (state.IsReplyTo message transport) :=
  inferInstanceAs (Decidable (_ ∧ _))

instance [Fintype τ] [Fintype κ] (state : State τ κ) (action : Action τ κ) :
    Decidable (SenderIsFirst state action) := by
  cases action with
  | inbound message =>
      unfold SenderIsFirst
      infer_instance
  | _ => exact isTrue trivial

/-- The first observer sends two requests, and the replies arrive in the other order. -/
def repliesCrossed (first second : κ) (sender : τ) : List (Action τ κ) :=
  [.draw first sender, .draw second sender, .send second, .send first,
    .inbound (.reply 2 ['b']), .inbound (.reply 1 ['a'])]

theorem replies_routed_iff_repliesCrossed :
    Meets (step exampleCodes) (RoutedToSender exampleCodes) (initial [(0 : Fin 2), 1])
      (repliesCrossed (0 : Fin 2) 1 0) := by
  obtain ⟨final, hrun, _⟩ : ∃ final : State (Fin 2) (Fin 2),
      exec (step exampleCodes) (initial [0, 1]) (repliesCrossed 0 1 0) = some final ∧
        decide (final.jobs = [(0, .reply 2 ['b']), (0, .reply 1 ['a'])]) = true :=
    exists_exec_of_any (by decide)
  exact (replies_routed_iff (by decide) hrun).mpr (by decide)

/-- The second observer sends a request, and the reply goes to the first. -/
theorem reply_routed_to_first_observer :
    ¬ Meets (step exampleCodes) (RoutedToSender exampleCodes)
      (initial [(0 : Fin 2), 1] : State (Fin 2) (Fin 1))
      ([.draw 0 1, .send 0] ++ [.inbound (.reply 1 ['a'])]) := by
  intro hrouted
  obtain ⟨state, hbefore, hfacts⟩ : ∃ state : State (Fin 2) (Fin 1),
      exec (step exampleCodes) (initial [0, 1]) [.draw 0 1, .send 0] = some state ∧
        decide (state.request 0 = .sent 1 1 ∧ (step exampleCodes state
          (.inbound (.reply 1 ['a']))).map (fun next => next.jobs) =
            some [(0, .reply 1 ['a'])] ∧ state.jobs = []) = true :=
    exists_exec_of_any (by decide)
  obtain ⟨hsent, hhanded, hnone⟩ := of_decide_eq_true hfacts
  have hlast := ((meets_append hbefore).mp hrouted).2.1
  have hjobs := (hlast 1 ⟨rfl, 0, hsent⟩).2
  rw [hhanded, hnone] at hjobs
  exact absurd hjobs (by decide)

end FireboltTransport.Observers
