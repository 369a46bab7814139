/-
# The identifiers calls draw

A call has one identifier from its draw on.  As long as the transport is not
replaced, the identifiers are the successive values of one counter, so calls
that drew fewer than `2 ^ 32` of them have distinct ones.  A replaced transport
counts from one again; nothing here applies to it.
-/

import FireboltTransport.Gateway.ClientInvariant

namespace FireboltTransport.Client

open Semantics

universe u

variable {ι : Type u}

/-- The identifier of a call, once it has drawn one. -/
def State.drawnId (state : State ι) (call : ι) : Option MessageID :=
  match state.phase call with
  | .idle | .notConnected => none
  | .drawn id => some id
  | _ => some (state.caller call).id

/-- A call whose `Caller` is inserted has drawn the identifier the `Caller` carries. -/
theorem State.drawnId_of_not_isBefore {state : State ι} {call : ι}
    (hpast : (state.phase call).isBefore = false) :
    state.drawnId call = some (state.caller call).id := by
  cases hphase : state.phase call <;> simp_all [drawnId, Phase.isBefore]

theorem State.drawnId_of_created {state : State ι} {call : ι}
    (hphase : state.phase call = .created) :
    state.drawnId call = some (state.caller call).id := by
  simp [drawnId, hphase]

/-- A step that draws an identifier. -/
def Action.isDraw : Action ι → Bool
  | .draw _ => true
  | _ => false

/-- A step that replaces the transport. -/
def Action.isSetTransport : Action ι → Bool
  | .setTransport _ => true
  | _ => false

/-- How many identifiers a schedule draws. -/
def drawCount (schedule : List (Action ι)) : ℕ := schedule.countP Action.isDraw

section Step

variable [DecidableEq ι]

variable {state next : State ι} {action : Action ι}

/-- Only its own draw gives a call an identifier, and no step takes it back. -/
theorem drawnId_step (hstep : Step state action next) (call : ι) :
    next.drawnId call = state.drawnId call ∨
      ∃ channel, action = .draw call ∧ state.phase call = .idle ∧
        state.transport = some channel ∧ next.drawnId call = some channel.sequence.1 := by
  cases hstep with
  | refuse actor hphase | send actor hphase | sendFailed actor result hphase
  | wake actor hphase | check actor hphase | readResponse actor hphase
  | readError actor hphase | insert actor hphase | erase actor hphase =>
      left
      by_cases hcall : call = actor
      · subst hcall
        simp [State.drawnId, State.setPhase, hphase]
      · simp [State.drawnId, State.setPhase, hcall]
  | draw actor channel hphase htransport =>
      by_cases hcall : call = actor
      · subst hcall
        right
        exact ⟨channel, rfl, hphase, htransport, by simp [State.drawnId, State.setPhase]⟩
      · left
        simp [State.drawnId, State.setPhase, hcall]
  | create actor id hphase =>
      left
      by_cases hcall : call = actor
      · subst hcall
        simp [State.drawnId, State.setPhase, State.setCaller, Caller.new, hphase]
      · simp [State.drawnId, State.setPhase, State.setCaller, hcall]
  | response message receiver hqueue hphase =>
      left
      simp only [State.drawnId, State.setCaller_complete_id]
      rfl
  | mark marked rest hwatchdog hphase =>
      left
      simp only [State.drawnId, State.setCaller_timeOut_id]
      rfl
  | _ => exact .inl rfl

/-- A call keeps the identifier it has drawn. -/
theorem drawnId_kept (hstep : Step state action next) {call : ι} {id : MessageID}
    (hdrawn : state.drawnId call = some id) : next.drawnId call = some id := by
  rcases drawnId_step hstep call with hkept | ⟨_, _, hphase, _⟩
  · rw [hkept, hdrawn]
  · simp [State.drawnId, hphase] at hdrawn

end Step

variable [DecidableEq ι]

/-- A step that keeps the transport keeps the calls numbered. -/
theorem numbered_step {state next : State ι} {action : Action ι} {draws : ℕ}
    (hnumbered : Numbered draws state.transport state.drawnId) (hstep : Step state action next)
    (hset : action.isSetTransport = false) :
    Numbered (draws + drawCount [action]) next.transport next.drawnId := by
  have hsame : next.transport = state.transport → (∀ call, action ≠ .draw call) →
      Numbered (draws + drawCount [action]) next.transport next.drawnId := by
    intro htransport hdraw
    have hcount : drawCount [action] = 0 := by
      cases action with
      | draw call => exact absurd rfl (hdraw call)
      | _ => rfl
    have hdrawn : next.drawnId = state.drawnId := by
      funext call
      rcases drawnId_step hstep call with hkept | ⟨_, haction, _⟩
      · exact hkept
      · exact absurd haction (hdraw call)
    rwa [hcount, htransport, hdrawn]
  cases hstep with
  | setTransport transport => cases hset
  | refuse actor hphase htransport =>
      have hdrawn : (state.setPhase actor .notConnected).drawnId = state.drawnId := by
        funext call
        by_cases hcall : call = actor
        · subst hcall
          simp [State.drawnId, State.setPhase, hphase]
        · simp [State.drawnId, State.setPhase, hcall]
      rw [htransport] at hnumbered
      show Numbered (draws + 1) state.transport (state.setPhase actor .notConnected).drawnId
      rw [hdrawn, htransport]
      exact hnumbered.miss
  | draw actor channel hphase htransport =>
      rw [htransport] at hnumbered
      show Numbered (draws + 1) (some channel.sequence.2) _
      apply hnumbered.draw actor
      · simp [State.drawnId, State.setPhase]
      · intro other hother
        simp [State.drawnId, State.setPhase, hother]
  | _ => exact hsame rfl (by simp)

/-- The calls of a schedule that never replaces its fresh transport are numbered. -/
theorem numbered_of_exec {transport : Option Channel} {clock : Timestamp} {state : State ι}
    {schedule : List (Action ι)} (htransport : ∀ channel, transport = some channel → channel = .new)
    (hset : ∀ action ∈ schedule, action.isSetTransport = false)
    (hrun : exec step (initial transport clock) schedule = some state) :
    Numbered (drawCount schedule) state.transport state.drawnId := by
  refine exec_history (motive := fun prior state =>
    (∀ action ∈ prior, action.isSetTransport = false) →
      Numbered (drawCount prior) state.transport state.drawnId) ?_ ?_ hrun hset
  · intro _
    exact Numbered.start htransport fun call => rfl
  · intro prior state action next _ hprior htaken hset
    have hcount : drawCount (prior ++ [action]) = drawCount prior + drawCount [action] :=
      List.countP_append
    rw [hcount]
    apply numbered_step _ (step_cases htaken) (hset action (by simp))
    exact hprior fun other hother => hset other (List.mem_append_left _ hother)

/-- **Distinct identifiers.**  On one channel, fewer than `2 ^ 32` draws give any two
calls different identifiers. -/
theorem drawnId_injective {transport : Option Channel} {clock : Timestamp} {state : State ι}
    {schedule : List (Action ι)} (htransport : ∀ channel, transport = some channel → channel = .new)
    (hset : ∀ action ∈ schedule, action.isSetTransport = false)
    (hdraws : drawCount schedule < 2 ^ 32)
    (hrun : exec step (initial transport clock) schedule = some state) {first second : ι}
    {id : MessageID} (hfirst : state.drawnId first = some id)
    (hsecond : state.drawnId second = some id) : first = second :=
  (numbered_of_exec htransport hset hrun).injective hdraws hfirst hsecond

end FireboltTransport.Client
