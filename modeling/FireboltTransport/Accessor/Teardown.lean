/-
# Inbound messages while a transport is destroyed

Every message a transport receives becomes a job of the worker pool that keeps a
raw pointer to the transport.  The destructor revokes the connection job and
takes the transport off its channel, but leaves these jobs alone, and
`Disconnect` clears the gateway's pointer while they may still be running.

The accessor runs as in `Accessor.step`; the jobs start in any order on any
worker and take their steps between the statements of the accessor.
-/

import FireboltTransport.Accessor.Pointers
import FireboltTransport.Common

namespace FireboltTransport.Teardown

open Semantics Accessor

universe u

/-- Where a `CommunicationJob` is. -/
inductive Phase
  | idle
  | queued (parent : Pointer) (message : Message)
  | running (parent : Pointer) (message : Message)
  /-- In `GatewayImpl::Receive`, before it reads the gateway's pointer. -/
  | receiving (parent : Pointer) (message : Message)
  /-- In the handler of the message. -/
  | handling (parent : Pointer) (message : Message)
  | done
  deriving DecidableEq

/-- The transport a job that has not returned points to. -/
def Phase.parent : Phase → Option Pointer
  | .queued parent _ | .running parent _ | .receiving parent _ | .handling parent _ => some parent
  | .idle | .done => none

/-- The message goes to `Server::Request`. -/
def isRequest (message : Message) : Bool := message.designator.isSet && message.id.isSet

/-- The job carries a request that has not been passed to the server. -/
def Phase.carriesRequest : Phase → Bool
  | .queued _ message | .running _ message | .receiving _ message => isRequest message
  | .idle | .handling _ _ | .done => false

/-- The accessor with the jobs `κ`. -/
structure State (κ : Type u) where
  accessor : Accessor.State
  job : κ → Phase
  /-- The pointers passed to `Server::Request`, with the job that passed them. -/
  passed : List (κ × Pointer)

inductive Action (κ : Type u)
  | accessor (action : Accessor.Action)
  /-- The channel hands a message to the transport at `parent`, which submits a job. -/
  | inbound (job : κ) (parent : Pointer) (message : Message)
  | start (job : κ)
  /-- `Transport::Inbound`. -/
  | dispatch (job : κ)
  /-- `GatewayImpl::Receive`. -/
  | receive (job : κ)
  | finish (job : κ)
  deriving DecidableEq

variable {κ : Type u} [DecidableEq κ]

def State.setJob (state : State κ) (job : κ) (phase : Phase) : State κ :=
  { state with job := Function.update state.job job phase }

/-- One step, or `none` when the label is not enabled. -/
def step (impl : Pointer) (state : State κ) : Action κ → Option (State κ)
  | .accessor action =>
      (Accessor.step impl state.accessor action).map fun accessor =>
        { state with accessor := accessor }
  | .inbound job parent message =>
      match state.job job, state.accessor.heap.lookup parent with
      | .idle, some object =>
          if object.registered then some (state.setJob job (.queued parent message)) else none
      | _, _ => none
  | .start job =>
      match state.job job with
      | .queued parent message => some (state.setJob job (.running parent message))
      | _ => none
  | .dispatch job =>
      match state.job job with
      | .running parent message =>
          match state.accessor.heap.lookup parent with
          -- A dead parent: what follows is undefined.
          | none => none
          | some object =>
              if object.transportReceiver = 0 then
                some (state.setJob job (.handling parent message))
              else if object.transportReceiver = impl then
                some (state.setJob job (.receiving parent message))
              else none
      | _ => none
  | .receive job =>
      match state.job job with
      | .receiving parent message =>
          if isRequest message then
            some ({ state with
              passed := state.passed ++ [(job, state.accessor.gatewayTransport)] }.setJob job
                (.handling parent message))
          else some (state.setJob job (.handling parent message))
      | _ => none
  | .finish job =>
      match state.job job with
      | .handling _ _ => some (state.setJob job .done)
      | _ => none

/-- The constructed accessor, no message received. -/
def initial (gatewayTransport clientTransport : Pointer) : State κ where
  accessor := Accessor.initial gatewayTransport clientTransport
  job _ := .idle
  passed := []

/-- The steps of the model, as a relation. -/
inductive Step (impl : Pointer) (state : State κ) : Action κ → State κ → Prop
  | accessor (action : Accessor.Action) (accessor : Accessor.State)
      (haccessor : Accessor.Step impl state.accessor action accessor) :
      Step impl state (.accessor action) { state with accessor := accessor }
  | inbound (job : κ) (parent : Pointer) (message : Message) (object : TransportObject)
      (hjob : state.job job = .idle) (hparent : state.accessor.heap.lookup parent = some object)
      (hregistered : object.registered = true) :
      Step impl state (.inbound job parent message) (state.setJob job (.queued parent message))
  | start (job : κ) (parent : Pointer) (message : Message)
      (hjob : state.job job = .queued parent message) :
      Step impl state (.start job) (state.setJob job (.running parent message))
  | drop (job : κ) (parent : Pointer) (message : Message) (object : TransportObject)
      (hjob : state.job job = .running parent message)
      (hparent : state.accessor.heap.lookup parent = some object)
      (hreceiver : object.transportReceiver = 0) :
      Step impl state (.dispatch job) (state.setJob job (.handling parent message))
  | dispatch (job : κ) (parent : Pointer) (message : Message) (object : TransportObject)
      (hjob : state.job job = .running parent message)
      (hparent : state.accessor.heap.lookup parent = some object)
      (hreceiver : object.transportReceiver ≠ 0) :
      Step impl state (.dispatch job) (state.setJob job (.receiving parent message))
  | request (job : κ) (parent : Pointer) (message : Message)
      (hjob : state.job job = .receiving parent message) (hrequest : isRequest message = true) :
      Step impl state (.receive job)
        ({ state with
          passed := state.passed ++ [(job, state.accessor.gatewayTransport)] }.setJob job
            (.handling parent message))
  | receive (job : κ) (parent : Pointer) (message : Message)
      (hjob : state.job job = .receiving parent message) (hrequest : isRequest message = false) :
      Step impl state (.receive job) (state.setJob job (.handling parent message))
  | finish (job : κ) (parent : Pointer) (message : Message)
      (hjob : state.job job = .handling parent message) :
      Step impl state (.finish job) (state.setJob job .done)

theorem step_cases {impl : Pointer} {state next : State κ} {action : Action κ}
    (htaken : step impl state action = some next) : Step impl state action next := by
  cases action with
  | accessor action =>
      obtain ⟨accessor, haccessor, rfl⟩ := Option.map_eq_some_iff.mp htaken
      exact .accessor action accessor (Accessor.step_cases haccessor)
  | inbound job parent message =>
      simp only [step] at htaken
      split at htaken
      · split_ifs at htaken with hregistered
        obtain rfl := Option.some.inj htaken
        exact .inbound job parent message _ ‹_› ‹_› hregistered
      · cases htaken
  | start job =>
      simp only [step] at htaken
      split at htaken
      · obtain rfl := Option.some.inj htaken
        exact .start job _ _ ‹_›
      · cases htaken
  | dispatch job =>
      simp only [step] at htaken
      split at htaken
      · split at htaken
        · cases htaken
        · split_ifs at htaken with hnull himpl
          · obtain rfl := Option.some.inj htaken
            exact .drop job _ _ _ ‹_› ‹_› hnull
          · obtain rfl := Option.some.inj htaken
            exact .dispatch job _ _ _ ‹_› ‹_› hnull
      · cases htaken
  | receive job =>
      simp only [step] at htaken
      split at htaken
      · split_ifs at htaken with hrequest
        · obtain rfl := Option.some.inj htaken
          exact .request job _ _ ‹_› hrequest
        · obtain rfl := Option.some.inj htaken
          exact .receive job _ _ ‹_› (Bool.eq_false_iff.mpr hrequest)
      · cases htaken
  | finish job =>
      simp only [step] at htaken
      split at htaken
      · obtain rfl := Option.some.inj htaken
        exact .finish job _ _ ‹_›
      · cases htaken

/-! ## Quiet teardown -/

/-- Every job that has not returned points to a transport that exists, and no null pointer
was passed to the server. -/
structure Safe (state : State κ) : Prop where
  alive : ∀ job parent, (state.job job).parent = some parent →
    (state.accessor.heap.lookup parent).isSome = true
  passed : ∀ entry ∈ state.passed, entry.2 ≠ 0

/-- From the clearing of the gateway's pointer to the end of the transport. -/
def disconnecting : Statement → Bool
  | .disconnectClient | .disconnectDelete | .disconnectFree => true
  | _ => false

/-- A transport is freed only when no job points to it, and the gateway's pointer is cleared
only when no job carries a request; no request arrives between the two.  The receiver of a
new transport happens to be null. -/
def Quiet (state : State κ) : Action κ → Prop
  | .accessor .next =>
      match state.accessor.statement with
      | .connectFree | .disconnectFree =>
          ∀ job, (state.job job).parent ≠ some state.accessor.transport
      | .disconnectGateway => ∀ job, (state.job job).carriesRequest = false
      | _ => True
  | .accessor (.allocate _ receiver) => receiver = 0
  | .inbound _ _ message =>
      isRequest message = true → disconnecting state.accessor.statement = false
  | _ => True

/-! ## The accessor by itself -/

/-- The one transport is the accessor's. -/
structure Owned (state : Accessor.State) : Prop where
  only : ∀ address, (state.heap.lookup address).isSome = true → address = state.transport
  null : state.heap.lookup 0 = none
  freed : state.statement = .connectNew ∨ state.statement = .disconnectClear →
    ∀ address, state.heap.lookup address = none
  transport : state.statement = .connectGateway ∨ state.statement = .connectClient ∨
    state.statement = .connectReceiver → state.transport ≠ 0
  gateway : state.statement = .connectClient ∨ state.statement = .connectReceiver →
    state.gatewayTransport = state.transport

/-- Without a transport of the accessor's there is none. -/
theorem Owned.lookup_eq_none {state : Accessor.State} (howned : Owned state)
    (htransport : state.transport = 0) (address : Pointer) :
    state.heap.lookup address = none := by
  refine Option.not_isSome_iff_eq_none.mp fun hlive => ?_
  rw [howned.only address hlive, htransport, howned.null] at hlive
  cases hlive

section Accessor

variable {impl : Pointer} {state next : Accessor.State} {action : Accessor.Action}

/-- Freeing the accessor's transport leaves none. -/
theorem Owned.lookup_erase (howned : Owned state) (address : Pointer) :
    (state.heap.erase state.transport).lookup address = none := by
  rw [StdMap.lookup_erase_of_eq_or_ne]
  split_ifs with haddress
  · rfl
  · exact Option.not_isSome_iff_eq_none.mp fun hlive => haddress (howned.only address hlive)

theorem lookup_modify_eq_none {heap : StdMap Pointer TransportObject} {address other : Pointer}
    {change : TransportObject → TransportObject} (hnone : heap.lookup other = none) :
    (modify heap address change).lookup other = none := by
  rw [lookup_modify]
  split_ifs with hother
  · rw [← hother, hnone]
    rfl
  · exact hnone

theorem Owned.step (howned : Owned state) (hstep : Accessor.Step impl state action next) :
    Owned next := by
  cases hstep with
  | connect hstatement | disconnectNone hstatement | disconnect hstatement
  | receiverNone hstatement | disconnectGateway hstatement | disconnectClient hstatement
  | disconnectNothing hstatement =>
      exact ⟨howned.only, howned.null, by simp_all, by simp_all, by simp_all⟩
  | connectNothing hstatement htransport =>
      exact ⟨howned.only, howned.null, fun _ => howned.lookup_eq_none htransport, by simp,
        by simp⟩
  | connectGateway hstatement =>
      exact ⟨howned.only, howned.null, by simp, fun _ => howned.transport (.inl hstatement),
        fun _ => rfl⟩
  | connectClient hstatement =>
      exact ⟨howned.only, howned.null, by simp,
        fun _ => howned.transport (.inr (.inl hstatement)),
        fun _ => howned.gateway (.inl hstatement)⟩
  | disconnectClear hstatement =>
      have hempty := howned.freed (.inr hstatement)
      exact ⟨by simp [hempty], hempty 0, by simp, by simp, by simp⟩
  | connectFree hstatement | disconnectFree hstatement =>
      exact ⟨by simp [howned.lookup_erase], howned.lookup_erase 0,
        fun _ => howned.lookup_erase, by simp, by simp⟩
  | connectDelete hstatement htransport | disconnectDelete hstatement htransport
  | connectReceiver hstatement htransport =>
      refine ⟨fun address hlive => ?_, lookup_modify_eq_none howned.null, by simp, by simp,
        by simp⟩
      apply howned.only
      rwa [← isSome_lookup_modify]
  | allocate address receiver hstatement haddress hfresh =>
      have hempty := howned.freed (.inl hstatement)
      refine ⟨fun other hlive => ?_, ?_, by simp, fun _ => haddress, by simp⟩
      · rw [StdMap.lookup_insert_of_eq_or_ne] at hlive
        split_ifs at hlive with hother
        · exact hother
        · rw [hempty] at hlive
          cases hlive
      · rw [StdMap.lookup_insert_of_eq_or_ne, if_neg (Ne.symm haddress)]
        exact hempty 0

/-- A transport goes only when it is freed. -/
theorem live_step (hstep : Accessor.Step impl state action next) {address : Pointer}
    (hlive : (state.heap.lookup address).isSome = true) :
    (next.heap.lookup address).isSome = true ∨
      (action = .next ∧ (state.statement = .connectFree ∨ state.statement = .disconnectFree) ∧
        address = state.transport) := by
  cases hstep with
  | connectFree hstatement | disconnectFree hstatement =>
      by_cases haddress : address = state.transport
      · exact .inr ⟨rfl, by simp [hstatement], haddress⟩
      · left
        rw [StdMap.lookup_erase_of_eq_or_ne, if_neg haddress]
        exact hlive
  | connectDelete | disconnectDelete | connectReceiver =>
      left
      simp only [State.unregister, isSome_lookup_modify]
      exact hlive
  | allocate fresh receiver =>
      left
      rw [StdMap.lookup_insert_of_eq_or_ne]
      split_ifs
      · rfl
      · exact hlive
  | _ => exact .inl hlive

end Accessor

/-! ## Quiet runs -/

/-- The invariant of quiet runs. -/
structure Inv (state : State κ) : Prop where
  safe : Safe state
  owned : Owned state.accessor
  /-- A transport whose messages reach the gateway is published there. -/
  published : ∀ address object, state.accessor.heap.lookup address = some object →
    object.transportReceiver ≠ 0 → disconnecting state.accessor.statement = false →
      state.accessor.gatewayTransport ≠ 0
  quiet : disconnecting state.accessor.statement = true →
    ∀ job, (state.job job).carriesRequest = false
  receiving : ∀ job parent message, state.job job = .receiving parent message →
    isRequest message = true → state.accessor.gatewayTransport ≠ 0

section AccessorStep

omit [DecidableEq κ]

variable {impl : Pointer} {state : State κ}

theorem alive_accessor_step {accessor : Accessor.State} {action : Accessor.Action}
    (hinv : Inv state) (hstep : Accessor.Step impl state.accessor action accessor)
    (hquiet : Quiet state (.accessor action)) (job : κ) (parent : Pointer)
    (hparent : (state.job job).parent = some parent) :
    (accessor.heap.lookup parent).isSome = true := by
  rcases live_step hstep (hinv.safe.alive job parent hparent) with
    hlive | ⟨rfl, hstatement, haddress⟩
  · exact hlive
  · have hnobody : (state.job job).parent ≠ some state.accessor.transport := by
      rcases hstatement with hstatement | hstatement <;>
      · simp only [Quiet, hstatement] at hquiet
        exact hquiet job
    exact absurd (hparent.trans (congrArg some haddress)) hnobody

theorem published_accessor_step {accessor : Accessor.State} {action : Accessor.Action}
    (hinv : Inv state) (hstep : Accessor.Step impl state.accessor action accessor)
    (hquiet : Quiet state (.accessor action)) (address : Pointer) (object : TransportObject)
    (hlookup : accessor.heap.lookup address = some object)
    (hreceiver : object.transportReceiver ≠ 0)
    (hconnected : disconnecting accessor.statement = false) : accessor.gatewayTransport ≠ 0 := by
  have howned := hinv.owned
  have hnext := howned.step hstep
  cases hstep with
  | connectGateway hstatement => exact howned.transport (.inl hstatement)
  | connectReceiver hstatement htransport =>
      exact fun hnull => htransport ((howned.gateway (.inr hstatement)).symm.trans hnull)
  | connectFree hstatement | disconnectFree hstatement =>
      rw [howned.lookup_erase] at hlookup
      cases hlookup
  | disconnectNothing hstatement htransport =>
      rw [howned.lookup_eq_none htransport] at hlookup
      cases hlookup
  | disconnectClear hstatement =>
      rw [howned.freed (.inr hstatement)] at hlookup
      cases hlookup
  | allocate fresh receiver hstatement =>
      rw [StdMap.lookup_insert_of_eq_or_ne] at hlookup
      split_ifs at hlookup
      · obtain rfl := Option.some.inj hlookup
        exact absurd hquiet hreceiver
      · rw [howned.freed (.inl hstatement)] at hlookup
        cases hlookup
  | connectDelete hstatement =>
      simp only [State.unregister, lookup_modify] at hlookup
      have hbefore := hinv.published
      split_ifs at hlookup
      · obtain ⟨before, hfound, rfl⟩ := Option.map_eq_some_iff.mp hlookup
        exact hbefore _ before hfound hreceiver (by rw [hstatement]; rfl)
      · exact hbefore address object hlookup hreceiver (by rw [hstatement]; rfl)
  | disconnectGateway | disconnectClient | disconnectDelete => cases hconnected
  | connect hstatement | disconnectNone hstatement | disconnect hstatement
  | connectNothing hstatement | connectClient hstatement | receiverNone hstatement =>
      exact hinv.published address object hlookup hreceiver (by rw [hstatement]; rfl)

theorem quiet_accessor_step {accessor : Accessor.State} {action : Accessor.Action}
    (hinv : Inv state) (hstep : Accessor.Step impl state.accessor action accessor)
    (hquiet : Quiet state (.accessor action))
    (hdisconnecting : disconnecting accessor.statement = true) (job : κ) :
    (state.job job).carriesRequest = false := by
  cases hstep with
  | disconnectGateway hstatement =>
      simp only [Quiet, hstatement] at hquiet
      exact hquiet job
  | disconnectClient hstatement | disconnectDelete hstatement =>
      exact hinv.quiet (by rw [hstatement]; rfl) job
  | disconnectNone hstatement => exact hinv.quiet hdisconnecting job
  | connect | disconnect | allocate | connectDelete | connectNothing | connectFree
  | connectGateway | connectClient | connectReceiver | receiverNone | disconnectNothing
  | disconnectFree | disconnectClear => cases hdisconnecting

theorem receiving_accessor_step {accessor : Accessor.State} {action : Accessor.Action}
    (hinv : Inv state) (hstep : Accessor.Step impl state.accessor action accessor)
    (hquiet : Quiet state (.accessor action)) (job : κ) (parent : Pointer) (message : Message)
    (hjob : state.job job = .receiving parent message) (hrequest : isRequest message = true) :
    accessor.gatewayTransport ≠ 0 := by
  cases hstep with
  | connectGateway hstatement => exact hinv.owned.transport (.inl hstatement)
  | disconnectGateway hstatement =>
      simp only [Quiet, hstatement] at hquiet
      have hnone := hquiet job
      rw [hjob, Phase.carriesRequest, hrequest] at hnone
      cases hnone
  | _ => exact hinv.receiving job parent message hjob hrequest

theorem Inv.accessor_step {accessor : Accessor.State} {action : Accessor.Action}
    (hinv : Inv state) (hstep : Accessor.Step impl state.accessor action accessor)
    (hquiet : Quiet state (.accessor action)) : Inv { state with accessor := accessor } := by
  have halive := alive_accessor_step hinv hstep hquiet
  have hpublished := published_accessor_step hinv hstep hquiet
  have hcarries := quiet_accessor_step hinv hstep hquiet
  have hreceiving := receiving_accessor_step hinv hstep hquiet
  exact ⟨⟨halive, hinv.safe.passed⟩, hinv.owned.step hstep, hpublished, hcarries, hreceiving⟩

end AccessorStep

section Step

variable {impl : Pointer} {state next : State κ} {action : Action κ}

/-- The invariant after one job has changed its phase. -/
theorem Inv.setJob {job : κ} {phase : Phase} (hinv : Inv state)
    (halive : ∀ parent, phase.parent = some parent →
      (state.accessor.heap.lookup parent).isSome = true)
    (hcarries : disconnecting state.accessor.statement = true → phase.carriesRequest = false)
    (hreceiving : ∀ parent message, phase = .receiving parent message →
      isRequest message = true → state.accessor.gatewayTransport ≠ 0) :
    Inv (state.setJob job phase) where
  safe := by
    refine ⟨fun other parent hparent => ?_, hinv.safe.passed⟩
    by_cases hother : other = job
    · subst hother
      exact halive parent (by simpa [State.setJob] using hparent)
    · exact hinv.safe.alive other parent (by simpa [State.setJob, hother] using hparent)
  owned := hinv.owned
  published := hinv.published
  quiet := by
    intro hdisconnecting other
    by_cases hother : other = job
    · subst hother
      simpa [State.setJob] using hcarries hdisconnecting
    · simpa [State.setJob, hother] using hinv.quiet hdisconnecting other
  receiving := by
    intro other parent message hphase hrequest
    by_cases hother : other = job
    · subst hother
      exact hreceiving parent message (by simpa [State.setJob] using hphase) hrequest
    · exact hinv.receiving other parent message (by simpa [State.setJob, hother] using hphase)
        hrequest

theorem Inv.step (hinv : Inv state) (hstep : Step impl state action next)
    (hquiet : Quiet state action) : Inv next := by
  cases hstep with
  | accessor taken accessor haccessor => exact hinv.accessor_step haccessor hquiet
  | inbound job parent message object hjob hparent hregistered =>
      refine hinv.setJob ?_ ?_ (by simp)
      · intro other hother
        rw [← Option.some.inj hother, hparent]
        rfl
      · intro hdisconnecting
        rw [Phase.carriesRequest, Bool.eq_false_iff]
        intro hrequest
        rw [hquiet hrequest] at hdisconnecting
        cases hdisconnecting
  | start job parent message hjob =>
      refine hinv.setJob (fun other hother => ?_) (fun hdisconnecting => ?_) (by simp)
      · exact hinv.safe.alive job other (by rw [hjob]; exact hother)
      · have hcarries := hinv.quiet hdisconnecting job
        rwa [hjob] at hcarries
  | drop job parent message object hjob hparent hreceiver =>
      refine hinv.setJob (fun other hother => ?_) (fun _ => rfl) (by simp)
      exact hinv.safe.alive job other (by rw [hjob]; exact hother)
  | dispatch job parent message object hjob hparent hreceiver =>
      have hcarries : disconnecting state.accessor.statement = true → isRequest message = false :=
        fun hdisconnecting => by
          have hnone := hinv.quiet hdisconnecting job
          rwa [hjob] at hnone
      refine hinv.setJob (fun other hother => ?_) hcarries ?_
      · exact hinv.safe.alive job other (by rw [hjob]; exact hother)
      · intro other received hphase hrequest
        obtain ⟨rfl, rfl⟩ := Phase.receiving.inj hphase
        apply hinv.published parent object hparent hreceiver
        rw [Bool.eq_false_iff]
        intro hdisconnecting
        rw [hcarries hdisconnecting] at hrequest
        cases hrequest
  | request job parent message hjob hrequest =>
      have hgateway := hinv.receiving job parent message hjob hrequest
      have hrecorded : Inv { state with
          passed := state.passed ++ [(job, state.accessor.gatewayTransport)] } := by
        refine ⟨⟨hinv.safe.alive, fun entry hmem => ?_⟩, hinv.owned, hinv.published, hinv.quiet,
          hinv.receiving⟩
        rcases List.mem_append.mp hmem with hbefore | hnew
        · exact hinv.safe.passed entry hbefore
        · obtain rfl := List.mem_singleton.mp hnew
          exact hgateway
      refine hrecorded.setJob (fun other hother => ?_) (fun _ => rfl) (by simp)
      exact hinv.safe.alive job other (by rw [hjob]; exact hother)
  | receive job parent message hjob hrequest =>
      refine hinv.setJob (fun other hother => ?_) (fun _ => rfl) (by simp)
      exact hinv.safe.alive job other (by rw [hjob]; exact hother)
  | finish job parent message hjob =>
      exact hinv.setJob (by simp [Phase.parent]) (fun _ => rfl) (by simp)

end Step

instance [Fintype κ] (state : State κ) : ∀ action : Action κ, Decidable (Quiet state action)
  | .accessor .next =>
      match hstatement : state.accessor.statement with
      | .connectFree | .disconnectFree =>
          decidable_of_iff (∀ job, (state.job job).parent ≠ some state.accessor.transport)
            (by simp only [Quiet, hstatement])
      | .disconnectGateway => decidable_of_iff (∀ job, (state.job job).carriesRequest = false)
          (by simp only [Quiet, hstatement])
      | .idle | .connectDelete | .connectNew | .connectGateway | .connectClient | .connectReceiver
      | .disconnectClient | .disconnectDelete | .disconnectClear =>
          isTrue (by simp only [Quiet, hstatement])
  | .accessor (.allocate _ receiver) => inferInstanceAs (Decidable (receiver = 0))
  | .inbound _ _ message => inferInstanceAs (Decidable
      (isRequest message = true → disconnecting state.accessor.statement = false))
  | .accessor .connect | .accessor .disconnect | .start _ | .dispatch _ | .receive _ | .finish _ =>
      isTrue trivial

/-- `Connect` gives the accessor a transport at `address`. -/
def connects (address : Pointer) : List (Action κ) :=
  (Accessor.connects address).map .accessor

end FireboltTransport.Teardown
