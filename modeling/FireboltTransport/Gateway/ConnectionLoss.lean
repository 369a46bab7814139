/-
# Losing the connection

When the channel reports that it has closed, `Transport::Closed` aborts and erases
every entry of `_pendingQueue`.  No request waits on these entries: it waits on its
`Caller`, which is filed in the client's queue, and the transport does not know the
client.
-/

import FireboltTransport.Gateway.Exchange

namespace FireboltTransport.Client

/-- The call has drawn an identifier and has not returned. -/
def Phase.isInProgress : Phase → Bool
  | .drawn _ | .created | .inserted | .waiting | .woken | .erased | .checked _ => true
  | .idle | .notConnected | .failed _ | .returned _ => false

end FireboltTransport.Client

namespace FireboltTransport.Sections

open Semantics Transport

universe u v

variable {τ : Type u} {κ : Type v} [DecidableEq τ] [DecidableEq κ] {codes : CoreErrors}
  {parse : Text → Message} {state next final : State τ κ} {op : κ} {thread : τ}

/-- A `Closed` that runs without interruption leaves nothing pending. -/
theorem pendingQueue_closed
    (hrun : exec (step codes parse) state (runs op thread .closed 4) = some final) :
    final.pendingQueue = ∅ := by
  obtain ⟨begun, hbegun, hrun⟩ := exec_cons_eq_some.mp hrun
  obtain ⟨locked, hlocked, hrun⟩ := exec_cons_eq_some.mp hrun
  obtain ⟨emptied, hemptied, hrun⟩ := exec_cons_eq_some.mp hrun
  obtain ⟨unlocked, hunlocked, hrun⟩ := exec_cons_eq_some.mp hrun
  obtain ⟨returned, hreturned, hnil⟩ := exec_cons_eq_some.mp hrun
  obtain rfl : returned = final := by simpa using hnil
  have hphase : begun.phase op = .running thread (state.adminLock.count thread)
      (.enter .abortAll) := by
    cases step_cases hbegun with
    | start _ _ _ stage channel hidle hbusy hfirst =>
        cases hfirst
        simp
    | startUndefined _ _ _ hidle hbusy hfirst => cases hfirst
  obtain ⟨_, _, henter, rfl⟩ := next_of_running hphase hlocked
  obtain ⟨held, hlock, hpair⟩ := Option.map_eq_some_iff.mp henter
  cases hpair
  obtain ⟨_, _, hinside, rfl⟩ := next_of_running (State.setPhase_phase _ _ _) hemptied
  cases hinside
  obtain ⟨_, _, hleave, rfl⟩ := next_of_running (State.setPhase_phase _ _ _) hunlocked
  cases hleave
  obtain ⟨_, _, houtside, rfl⟩ := next_of_running (State.setPhase_phase _ _ _) hreturned
  cases houtside
  exact closedLoop_keys _

end FireboltTransport.Sections

namespace FireboltTransport.Exchange

open Semantics Transport

universe u v w

variable {τ : Type u} {ι : Type v} {κ : Type w}

/-- The request has sent its message and has not returned. -/
def State.InFlight (state : State τ ι κ) (call : ι) : Prop :=
  (∃ thread entered left,
    state.transport.phase (.inl call) = .returned thread entered left (.status .none)) ∧
    (state.client.phase call).isInProgress = true

/-- The call's `Caller` is ready with an error. -/
def State.HasFailed (state : State τ ι κ) (call : ι) : Prop :=
  (state.client.caller call).ready = true ∧ (state.client.caller call).error ≠ .none

/-- Between the two states, nothing pending has survived and every call in flight has failed. -/
def FailsInFlight (before after : State τ ι κ) : Prop :=
  after.transport.pendingQueue = ∅ ∧ ∀ call, before.InFlight call → after.HasFailed call

/-- The channel reports a close on `thread`: `Closed` runs from its call to its return. -/
def closed (op : κ) (thread : τ) : List (Action τ ι κ) :=
  (Sections.runs (.inr op) thread .closed 4).map .transport

variable [DecidableEq ι] [DecidableEq κ] [DecidableEq τ] {codes : CoreErrors}
  {parse : Text → Message} {state next final : State τ ι κ}

/-- Steps of the transport are steps of the transport alone, and leave the client as it was. -/
theorem transport_step {action : Sections.Action τ (ι ⊕ κ)}
    (htaken : step codes parse state (.transport action) = some next) :
    Sections.step codes parse state.transport action = some next.transport ∧
      next.client = state.client := by
  simp only [step] at htaken
  split_ifs at htaken
  obtain ⟨transport, htransport, rfl⟩ := Option.map_eq_some_iff.mp htaken
  refine ⟨htransport, ?_⟩
  show (state.record action).client = state.client
  unfold State.record
  split
  · split <;> rfl
  · rfl

theorem transport_exec {actions : List (Sections.Action τ (ι ⊕ κ))}
    (hrun : exec (step codes parse) state (actions.map .transport) = some final) :
    exec (Sections.step codes parse) state.transport actions = some final.transport ∧
      final.client = state.client := by
  induction actions generalizing state with
  | nil =>
      obtain rfl : state = final := by simpa using hrun
      exact ⟨rfl, rfl⟩
  | cons action rest ih =>
      obtain ⟨next, htaken, hrest⟩ := exec_cons_eq_some.mp hrun
      obtain ⟨hstep, hclient⟩ := transport_step htaken
      obtain ⟨hexec, hclients⟩ := ih hrest
      exact ⟨exec_cons_eq_some.mpr ⟨next.transport, hstep, hexec⟩, hclients.trans hclient⟩

/-- **Connection loss.**  When `Closed` has run, `_pendingQueue` is empty and every call in flight
has failed if and only if every call in flight had failed before: `Closed` completes none of
them, and each of the others waits on for its reply or for the watchdog. -/
theorem failsInFlight_closed_iff {op : κ} {thread : τ}
    (hrun : exec (step codes parse) state (closed op thread) = some final) :
    FailsInFlight state final ↔ ∀ call, state.InFlight call → state.HasFailed call := by
  obtain ⟨htransport, hclient⟩ := transport_exec hrun
  have hpending := Sections.pendingQueue_closed htransport
  simp only [FailsInFlight, State.HasFailed, hclient]
  exact and_iff_right hpending

/-- A request that has sent its message under identifier `id` and waits. -/
def sends (call : ι) (thread : τ) (id : MessageID) : List (Action τ ι κ) :=
  [.client (.draw call), .client (.create call), .client (.insert call)] ++
    (Sections.runs (.inl call) thread (.send id ['m'] []) 5).map .transport ++ [.sent call]

/-- The peer has refused the request before the connection closes. -/
theorem failsInFlight_closed_iff_refused :
    ∃ state final : State Bool Unit Unit,
      exec (step exampleCodes fun _ => .empty) (initial .zero)
        (sends () false 1 ++ [.client (.response (.errorReply 1 5))]) = some state ∧
      exec (step exampleCodes fun _ => .empty) state (closed () true) = some final ∧
      state.InFlight () ∧ FailsInFlight state final := by
  obtain ⟨state, hstate, hfacts⟩ : ∃ state : State Bool Unit Unit,
      exec (step exampleCodes fun _ => .empty) (initial .zero)
        (sends () false 1 ++ [.client (.response (.errorReply 1 5))]) = some state ∧
      (decide (state.transport.phase (.inl ()) = .returned false 0 0 (.status .none) ∧
        state.client.phase () = .waiting ∧ (state.client.caller ()).ready = true ∧
        (state.client.caller ()).error ≠ .none) &&
        ((exec (step exampleCodes fun _ => .empty) state (closed () true)).any fun final =>
          decide (final.closes = 1))) = true :=
    exists_exec_of_any (by decide)
  obtain ⟨hstateFacts, hclosed⟩ := (Bool.and_eq_true _ _).mp hfacts
  obtain ⟨hsent, hwaiting, hready, herror⟩ := of_decide_eq_true hstateFacts
  obtain ⟨final, hrun, _⟩ := exists_exec_of_any hclosed
  refine ⟨state, final, hstate, hrun, ⟨⟨_, _, _, hsent⟩, by rw [hwaiting]; rfl⟩, ?_⟩
  exact (failsInFlight_closed_iff hrun).mpr fun _ _ => ⟨hready, herror⟩

/-- A request waits for its reply, the connection closes, and the request waits on. -/
theorem waiting_after_closed :
    ∃ state final : State Bool Unit Unit,
      exec (step exampleCodes fun _ => .empty) (initial .zero) (sends () false 1) = some state ∧
      exec (step exampleCodes fun _ => .empty) state (closed () true) = some final ∧
      state.InFlight () ∧ final.client.phase () = .waiting ∧ ¬ FailsInFlight state final := by
  obtain ⟨state, hstate, hfacts⟩ : ∃ state : State Bool Unit Unit,
      exec (step exampleCodes fun _ => .empty) (initial .zero) (sends () false 1) = some state ∧
      (decide (state.transport.phase (.inl ()) = .returned false 0 0 (.status .none) ∧
        state.client.phase () = .waiting) &&
        ((exec (step exampleCodes fun _ => .empty) state (closed () true)).any fun final =>
          decide (final.client.phase () = .waiting ∧
            (final.client.caller ()).ready = false))) = true :=
    exists_exec_of_any (by decide)
  obtain ⟨hstateFacts, hclosed⟩ := (Bool.and_eq_true _ _).mp hfacts
  obtain ⟨hsent, hwaiting⟩ := of_decide_eq_true hstateFacts
  obtain ⟨final, hrun, hfinal⟩ := exists_exec_of_any hclosed
  obtain ⟨hstill, hunready⟩ := of_decide_eq_true hfinal
  have hflight : state.InFlight () := ⟨⟨_, _, _, hsent⟩, by rw [hwaiting]; rfl⟩
  refine ⟨state, final, hstate, hrun, hflight, hstill, fun hfails => ?_⟩
  have hready := (hfails.2 () hflight).1
  rw [hunready] at hready
  cases hready

end FireboltTransport.Exchange
