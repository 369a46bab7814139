/-
# When callbacks may use the SDK

A callback that asks for the mutex its server holds waits for itself.  The other
mutexes can be taken in an order as long as the callbacks keep to one of two
disciplines: event callbacks register and unregister providers and provider
callbacks do nothing, or provider callbacks subscribe and unsubscribe and event
callbacks do nothing.  Operations that return without asking for a mutex are
harmless anywhere.
-/

import FireboltTransport.Helpers.Operations
import FireboltTransport.Semantics.Run

namespace FireboltTransport.Helpers

open Semantics Server GatewayImpl

universe u v w x

variable {η : Type u} {β : Type v} {ρ : Type w} {τ : Type x}

/-- The mutexes an operation is about. -/
inductive Side
  /-- `eventMap_mtx` and the mutexes of the helpers. -/
  | subscriptions
  /-- `providers_mtx`. -/
  | providers
  deriving DecidableEq

/-- The mutexes that an operation may still ask for, if any. -/
def Stage.side : Stage η β ρ → Option Side
  | .ready => none
  | .settle (.unsubscribeAll _ _) _ => some .subscriptions
  | .settle _ _ => none
  | .registerProvider _ _ _ | .unregisterProvider _ _ _ | .serve _ => some .providers
  | .helperSubscribe _ _ _ | .helperUnsubscribe _ _ | .check _ _ _ | .insert _ _ _
  | .request _ _ _ | .rollback _ _ _ | .remove _ _ | .notify _ => some .subscriptions

def Mutex.side : Mutex η → Side
  | .eventMapMtx | .helperMtx _ => .subscriptions
  | .providersMtx => .providers

/-- Which callbacks use the SDK. -/
inductive Discipline
  /-- Event callbacks register and unregister providers. -/
  | eventsFirst
  /-- Provider callbacks subscribe and unsubscribe. -/
  | providersFirst
  deriving DecidableEq

/-- What the discipline lets a thread do. -/
def Discipline.permits (discipline : Discipline) : Context β ρ → Side → Bool
  | .application, _ => true
  | .event _, side => discipline = .eventsFirst && side = .providers
  | .provider _, side => discipline = .providersFirst && side = .subscriptions

/-- The order in which mutexes are taken. -/
def Discipline.level (discipline : Discipline) : Mutex η → ℕ
  | .helperMtx _ => 1
  | .eventMapMtx => 2
  | .providersMtx => match discipline with
    | .eventsFirst => 3
    | .providersFirst => 0

variable [DecidableEq η]

/-- An operation that begins keeps to the discipline, or asks for no mutex. -/
def BeginsInOrder (discipline : Discipline) (state : State τ η β ρ) : Action τ η β ρ → Prop
  | .move thread (.begin op) => ∀ side ∈ (state.data.begin op).1.side,
      discipline.permits (state.point thread).context side = true
  | _ => True

/-! ## Keeping to the discipline -/

/-- The operations in progress keep to the discipline. -/
def InOrder (discipline : Discipline) (point : Point η β ρ) : Prop :=
  ∀ side, point.stage.side = some side → discipline.permits point.context side = true

omit [DecidableEq η] in
/-- An operation asks for no other mutexes than it is about. -/
theorem side_of_wants {stage : Stage η β ρ} {mutex : Mutex η} (hwants : stage.wants = some mutex) :
    stage.side = some mutex.side := by
  cases stage with
  | ready | check | request | settle => cases hwants
  | helperSubscribe | helperUnsubscribe | insert | rollback | remove | notify
  | registerProvider | unregisterProvider | serve =>
      obtain rfl := Option.some.inj hwants
      rfl

omit [DecidableEq η] in
theorem side_settle {caller : Caller η} {status : Error} {side : Side}
    (hside : (Stage.settle caller status : Stage η β ρ).side = some side) :
    side = .subscriptions := by
  cases caller with
  | unsubscribeAll => exact (Option.some.inj hside).symm
  | user | subscribe | unsubscribe => cases hside

omit [DecidableEq η] in
theorem side_check {data : Data η β ρ} {caller : Caller η} {event : Text}
    {callbackData : CallbackDataEvent (Dispatch β)} {side : Side}
    (hside : (data.check caller event callbackData).side = some side) : side = .subscriptions := by
  unfold Data.check at hside
  split_ifs at hside
  · exact (Option.some.inj hside).symm
  · exact side_settle hside

theorem side_turn {data : Data η β ρ} {helper : η} {start : ℕ} {side : Side}
    (hside : (data.turn helper start).1.side = some side) : side = .subscriptions := by
  unfold Data.turn at hside
  split at hside
  · exact (Option.some.inj hside).symm
  · cases hside

/-- A move keeps to the discipline unless an operation begins that does not. -/
theorem InOrder.move {discipline : Discipline} {data : Data η β ρ} {context : Context β ρ}
    {stage : Stage η β ρ} {input : Input η β ρ} {move : Move η β ρ}
    (hinOrder : InOrder discipline ⟨context, stage⟩)
    (hmoves : Moves data context stage input move)
    (hbegin : ∀ op, input = .begin op → ∀ side ∈ (data.begin op).1.side,
      discipline.permits context side = true) : InOrder discipline move.next := by
  intro side hside
  cases hmoves with
  | begin op => exact hbegin op rfl side hside
  | beginNotify _ hcontext | beginServe _ hcontext =>
      subst hcontext
      rfl
  | ignore | leaveEvent | leaveProvider | unknown | registerProvider | unregisterProvider
  | unheard | notify | unserved | serve => cases hside
  | store | find | insert | fail =>
      obtain rfl := Option.some.inj hside
      exact hinOrder .subscriptions rfl
  | rollback | refuse | succeed | answer =>
      obtain rfl := side_settle hside
      exact hinOrder .subscriptions rfl
  | check =>
      obtain rfl := side_check hside
      exact hinOrder .subscriptions rfl
  | remove caller event next hnext =>
      obtain rfl : side = .subscriptions := by
        rcases hnext with rfl | rfl
        · exact (Option.some.inj hside).symm
        · exact side_settle hside
      exact hinOrder .subscriptions rfl
  | settle caller status =>
      cases caller with
      | user | unsubscribe => cases hside
      | subscribe helper =>
          simp only [Data.settle] at hside
          split_ifs at hside <;> cases hside
      | unsubscribeAll helper id =>
          obtain rfl := side_turn hside
          exact hinOrder .subscriptions rfl

variable [DecidableEq τ]

section Threads

variable {discipline : Discipline} {state next : State τ η β ρ} {action : Action τ η β ρ}

theorem inOrder_step (hinOrder : ∀ thread, InOrder discipline (state.point thread))
    (hbegins : BeginsInOrder discipline state action) (hstep : Step state action next)
    (thread : τ) : InOrder discipline (next.point thread) := by
  cases hstep with
  | setTransport connected => exact hinOrder thread
  | move mover input move locks hfree hmove hlocks =>
      by_cases hthread : thread = mover
      · subst hthread
        rw [State.point, Locks.point_move_self hlocks]
        refine (hinOrder thread).move hmove ?_
        rintro op rfl
        exact hbegins
      · rw [State.point, Locks.point_move_of_ne hlocks hthread]
        exact hinOrder thread

omit [DecidableEq η] [DecidableEq τ] in
/-- What a thread asks for comes after what it holds. -/
theorem level_lt (hconsistent : Consistent state)
    (hinOrder : ∀ thread, InOrder discipline (state.point thread)) (thread : τ)
    (held wanted : Mutex η) (hholder : state.locks.holder held = some thread)
    (hwants : state.wants thread = some wanted) :
    discipline.level held < discipline.level wanted := by
  have hholds : (state.point thread).holds held := (hconsistent.agrees held thread).mp hholder
  have hpermits := hinOrder thread wanted.side (side_of_wants hwants)
  cases held with
  | eventMapMtx =>
      obtain ⟨callbackData, hcontext⟩ := hholds
      rw [hcontext] at hpermits
      cases wanted with
      | providersMtx =>
          cases discipline with
          | eventsFirst => exact Nat.lt_succ_self 2
          | providersFirst => cases hpermits
      | eventMapMtx | helperMtx => cases discipline <;> cases hpermits
  | providersMtx =>
      obtain ⟨method, hcontext⟩ := hholds
      rw [hcontext] at hpermits
      cases wanted with
      | providersMtx => cases discipline <;> cases hpermits
      | eventMapMtx | helperMtx =>
          cases discipline with
          | eventsFirst => cases hpermits
          | providersFirst => exact Nat.succ_pos _
  | helperMtx helper =>
      -- Only calls of the server are made with a helper's mutex held.
      simp only [Point.holds] at hholds
      simp only [State.wants] at hwants
      cases hstage : (state.point thread).stage with
      | insert | rollback | remove =>
          rw [hstage] at hwants
          obtain rfl := Option.some.inj hwants
          exact Nat.lt_succ_self 1
      | check | request | settle | ready =>
          rw [hstage] at hwants
          cases hwants
      | helperSubscribe | helperUnsubscribe | registerProvider | unregisterProvider | notify
      | serve =>
          rw [hstage] at hholds
          cases hholds

/-- **Callbacks and the SDK.**  In every run in which the operations that callbacks begin keep to
one of the disciplines, or ask for no mutex, no threads wait for each other in a cycle, and none
waits for itself. -/
theorem not_deadlocked_of_beginsInOrder {connected : Bool} {schedule : List (Action τ η β ρ)}
    {final : State τ η β ρ} (discipline : Discipline)
    (hbegins : Meets step (BeginsInOrder discipline) (initial connected) schedule)
    (hrun : exec step (initial connected) schedule = some final) :
    ¬ Deadlocked final.wants final.locks.holder := by
  have hinvariant : Consistent final ∧ ∀ thread, InOrder discipline (final.point thread) := by
    refine exec_invariant_of_meets (motive := fun state => Consistent state ∧
      ∀ thread, InOrder discipline (state.point thread)) ?_ ?_ hbegins hrun
    · rintro state action next ⟨hconsistent, hinOrder⟩ hbegins htaken
      have hstep := step_cases htaken
      exact ⟨hconsistent.step hstep, inOrder_step hinOrder hbegins hstep⟩
    · refine ⟨consistent_initial connected, ?_⟩
      intro thread side hside
      cases hside
  exact not_deadlocked_of_order discipline.level (level_lt hinvariant.1 hinvariant.2)

end Threads

instance (discipline : Discipline) (state : State τ η β ρ) (action : Action τ η β ρ) :
    Decidable (BeginsInOrder discipline state action) := by
  unfold BeginsInOrder
  split <;> infer_instance

/-- A subscription of the user that the peer confirms. -/
def subscribed (thread : τ) (event : Text) (callback : β) : List (Action τ η β ρ) :=
  [.move thread (.begin (.subscribe event callback 5 0)), .move thread .go,
    .move thread (.answer ⟨.none, ⟨true, true⟩⟩), .move thread .go]

/-- The callback of the event is running. -/
def notified (thread : τ) (event : Text) : List (Action τ η β ρ) :=
  [.move thread (.notify event), .move thread .go]

/-- The callback registers a provider, and another thread asks for the event map meanwhile. -/
theorem not_deadlocked_of_beginsInOrder_registers :
    ∃ final : State (Fin 2) (Fin 1) Unit Unit,
      exec step (initial true) (subscribed 0 ['A', '.', 'b'] () ++ notified 0 ['A', '.', 'b'] ++
        [.move 0 (.begin (.registerProvider ['A', '.', 'c'] () 6)),
          .move 1 (.begin (.unsubscribe ['A', '.', 'b']))]) = some final ∧
      WaitsFor final.wants final.locks.holder 1 0 ∧
      ¬ Deadlocked final.wants final.locks.holder := by
  obtain ⟨final, hrun, hfacts⟩ : ∃ final : State (Fin 2) (Fin 1) Unit Unit,
      exec step (initial true) (subscribed 0 ['A', '.', 'b'] () ++ notified 0 ['A', '.', 'b'] ++
        [.move 0 (.begin (.registerProvider ['A', '.', 'c'] () 6)),
          .move 1 (.begin (.unsubscribe ['A', '.', 'b']))]) = some final ∧
        decide (final.wants 1 = some .eventMapMtx ∧
          final.locks.holder .eventMapMtx = some 0) = true :=
    exists_exec_of_any (by decide)
  exact ⟨final, hrun, ⟨.eventMapMtx, of_decide_eq_true hfacts⟩,
    not_deadlocked_of_beginsInOrder .eventsFirst (by decide) hrun⟩

/-- The callback of an event unsubscribes it. -/
theorem deadlocked_unsubscribing_in_callback :
    ∃ final : State (Fin 1) (Fin 1) Unit Unit,
      exec step (initial true) (subscribed 0 ['A', '.', 'b'] () ++ notified 0 ['A', '.', 'b'] ++
        [.move 0 (.begin (.unsubscribe ['A', '.', 'b']))]) = some final ∧
      Deadlocked final.wants final.locks.holder := by
  obtain ⟨final, hrun, hfacts⟩ : ∃ final : State (Fin 1) (Fin 1) Unit Unit,
      exec step (initial true) (subscribed 0 ['A', '.', 'b'] () ++ notified 0 ['A', '.', 'b'] ++
        [.move 0 (.begin (.unsubscribe ['A', '.', 'b']))]) = some final ∧
        decide (final.wants 0 = some .eventMapMtx ∧
          final.locks.holder .eventMapMtx = some 0) = true :=
    exists_exec_of_any (by decide)
  obtain ⟨hwants, hholder⟩ := of_decide_eq_true hfacts
  exact ⟨final, hrun, deadlocked_of_self hwants hholder⟩

end FireboltTransport.Helpers
