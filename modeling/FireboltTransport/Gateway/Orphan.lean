/-
# Waiting calls can be completed

A call that waits is completed by a reply that finds it in the queue or by the
watchdog that has taken it out.  Insertion overwrites and the late erase of a
finished call goes by identifier, so both rely on no two calls using one
identifier between insertion and erasure.  One channel provides this; a replaced
transport starts to count again and does not.

Steps are whole critical sections here, and a call can be completed when some sequence of
them completes it.  Threads that wait for each other's mutex inside their sections are the
subject of `ClientLocks`.
-/

import FireboltTransport.Gateway.Identifiers
import Mathlib.Data.Fintype.Basic

namespace FireboltTransport.Client

open Semantics

universe u

variable {ι : Type u}

/-- The call is inserted and will still erase the queue entry under its identifier. -/
def Phase.isRegistered : Phase → Bool
  | .inserted | .waiting | .woken => true
  | _ => false

/-- The call is inserted and nothing is recorded for it. -/
def State.isUnanswered (state : State ι) (call : ι) : Bool :=
  match state.phase call with
  | .inserted | .waiting => !(state.caller call).ready
  | _ => false

/-- The call is the one stored under its own identifier, or the watchdog is about to
mark it. -/
def State.IsHeld (state : State ι) (call : ι) : Prop :=
  state.queue.lookup (state.caller call).id = some call ∨ call ∈ state.watchdog.outdated

/-- No call waits outside of the queue and of the watchdog's list. -/
def NoOrphan (state : State ι) : Prop :=
  ∀ call, state.phase call = .waiting → (state.caller call).ready = false → state.IsHeld call

/-- An inserted call does not use the identifier of another call that is registered. -/
def InsertsUnusedId (state : State ι) : Action ι → Prop
  | .insert call => ∀ other, (state.phase other).isRegistered = true →
      (state.caller other).id ≠ (state.caller call).id
  | _ => True

instance [Fintype ι] (state : State ι) (action : Action ι) :
    Decidable (InsertsUnusedId state action) := by
  cases action <;> unfold InsertsUnusedId <;> infer_instance

theorem Phase.isBefore_of_isRegistered {phase : Phase} (hregistered : phase.isRegistered = true) :
    phase.isBefore = false := by
  cases phase <;> simp_all [isRegistered, isBefore]

theorem State.isRegistered_of_isUnanswered {state : State ι} {call : ι}
    (hunanswered : state.isUnanswered call = true) :
    (state.phase call).isRegistered = true := by
  cases hphase : state.phase call <;> simp_all [isUnanswered, Phase.isRegistered]

theorem State.ready_of_isUnanswered {state : State ι} {call : ι}
    (hunanswered : state.isUnanswered call = true) : (state.caller call).ready = false := by
  cases hphase : state.phase call <;> simp_all [isUnanswered]

/-- What a run keeps that never inserts under an identifier in use. -/
structure Separated (state : State ι) : Prop where
  held : ∀ call, state.isUnanswered call = true → state.IsHeld call
  id_injective : ∀ first second, (state.phase first).isRegistered = true →
    (state.phase second).isRegistered = true →
    (state.caller first).id = (state.caller second).id → first = second

theorem separated_initial (transport : Option Channel) (clock : Timestamp) :
    Separated (initial transport clock : State ι) where
  held := by simp [initial, State.isUnanswered]
  id_injective := by simp [initial, Phase.isRegistered]

/-- Nobody is orphaned in a separated state. -/
theorem Separated.noOrphan {state : State ι} (hseparated : Separated state) : NoOrphan state := by
  intro call hwaiting hready
  apply hseparated.held
  simp [State.isUnanswered, hwaiting, hready]

variable [DecidableEq ι]

section Step

variable {state next : State ι} {action : Action ι} {call : ι}

/-- A call is registered by its own insertion only, and keeps its identifier. -/
theorem isRegistered_step (hstep : Step state action next)
    (hregistered : (next.phase call).isRegistered = true) :
    (next.caller call).id = (state.caller call).id ∧
      ((state.phase call).isRegistered = true ∨ action = .insert call) := by
  cases hstep with
  | refuse actor hphase | draw actor channel hphase | check actor hphase
  | readResponse actor hphase | readError actor hphase | sendFailed actor result hphase
  | erase actor hphase | create actor id hphase =>
      have hne : call ≠ actor := by
        rintro rfl
        simp [State.setPhase, Phase.isRegistered] at hregistered
      simpa [State.setPhase, State.setCaller, hne] using hregistered
  | insert actor hphase =>
      by_cases hcall : call = actor
      · exact ⟨rfl, .inr (by rw [hcall])⟩
      · simp only [State.setPhase, Function.update_of_ne hcall] at hregistered
        exact ⟨rfl, .inl hregistered⟩
  | send actor hphase | wake actor hphase =>
      refine ⟨rfl, .inl ?_⟩
      by_cases hcall : call = actor
      · rw [hcall, hphase]
        rfl
      · simpa [State.setPhase, hcall] using hregistered
  | response message receiver hqueue hphase =>
      exact ⟨State.setCaller_complete_id _ _ _ _, .inl hregistered⟩
  | mark marked rest hwatchdog hphase =>
      exact ⟨State.setCaller_timeOut_id _ _ _, .inl hregistered⟩
  | _ => exact ⟨rfl, .inl hregistered⟩

/-- An unanswered call was unanswered before or is inserted by this step. -/
theorem isUnanswered_step (hstep : Step state action next)
    (hunanswered : next.isUnanswered call = true) :
    state.isUnanswered call = true ∨ action = .insert call := by
  cases hstep with
  | refuse actor hphase | draw actor channel hphase | check actor hphase
  | readResponse actor hphase | readError actor hphase | sendFailed actor result hphase
  | erase actor hphase | create actor id hphase | wake actor hphase =>
      have hne : call ≠ actor := by
        rintro rfl
        simp [State.setPhase, State.isUnanswered] at hunanswered
      left
      simpa [State.isUnanswered, State.setPhase, State.setCaller, hne] using hunanswered
  | insert actor hphase =>
      by_cases hcall : call = actor
      · exact .inr (by rw [hcall])
      · left
        simpa [State.isUnanswered, State.setPhase, hcall] using hunanswered
  | send actor hphase =>
      left
      by_cases hcall : call = actor
      · subst hcall
        simpa [State.isUnanswered, State.setPhase, hphase] using hunanswered
      · simpa [State.isUnanswered, State.setPhase, hcall] using hunanswered
  | response message receiver hqueue hphase =>
      left
      have hne : call ≠ receiver := by
        rintro rfl
        have hready := State.ready_of_isUnanswered hunanswered
        simp [State.setCaller] at hready
      simpa [State.isUnanswered, State.setCaller, hne] using hunanswered
  | mark marked rest hwatchdog hphase =>
      left
      have hne : call ≠ marked := by
        rintro rfl
        have hready := State.ready_of_isUnanswered hunanswered
        simp [State.setCaller] at hready
      simpa [State.isUnanswered, State.setCaller, hne] using hunanswered
  | _ => exact .inl hunanswered

/-- An unanswered call stays in the queue or moves to the watchdog's list. -/
theorem isHeld_step (hseparated : Separated state) (hstep : Step state action next)
    (hunused : InsertsUnusedId state action) (hunanswered : next.isUnanswered call = true) :
    next.IsHeld call := by
  rcases isUnanswered_step hstep hunanswered with hbefore | rfl
  · have hregistered := State.isRegistered_of_isUnanswered hbefore
    have hheld : _ ∨ _ := hseparated.held call hbefore
    rw [State.IsHeld, (isRegistered_step hstep
      (State.isRegistered_of_isUnanswered hunanswered)).1]
    cases hstep with
    | insert actor hphase =>
        have hne : (state.caller call).id ≠ (state.caller actor).id := hunused call hregistered
        simpa [State.setPhase, StdMap.lookup_insert_of_eq_or_ne, hne] using hheld
    | erase actor hphase =>
        have hne : (state.caller call).id ≠ (state.caller actor).id := by
          intro hid
          obtain rfl := hseparated.id_injective call actor hregistered (by rw [hphase]; rfl) hid
          simp [State.isUnanswered, hphase] at hbefore
        simpa [State.setPhase, StdMap.lookup_erase_of_eq_or_ne, hne] using hheld
    | sample hwatchdog | sleep hwatchdog =>
        left
        simpa [hwatchdog, Watchdog.outdated] using hheld
    | collect now hwatchdog =>
        have hlookup : state.queue.lookup (state.caller call).id = some call := by
          simpa [hwatchdog, Watchdog.outdated] using hheld
        cases hexpired : state.expired now call with
        | true =>
            have hselected : call ∈ state.queue.select fun _ call => state.expired now call :=
              StdMap.mem_select.mpr ⟨(state.caller call).id, hlookup, hexpired⟩
            exact .inr hselected
        | false =>
            left
            exact StdMap.lookup_filter_eq_some.mpr ⟨hlookup, by simp [hexpired]⟩
    | mark marked rest hwatchdog hphase =>
        have hne : call ≠ marked := by
          rintro rfl
          have hready := State.ready_of_isUnanswered hunanswered
          simp [State.setCaller] at hready
        simpa [State.setCaller, hwatchdog, Watchdog.outdated, hne] using hheld
    | _ => exact hheld
  · cases hstep with
    | insert actor hphase =>
        left
        simp [State.setPhase]

theorem Separated.step (hseparated : Separated state) (hstep : Step state action next)
    (hunused : InsertsUnusedId state action) : Separated next where
  held _ := isHeld_step hseparated hstep hunused
  id_injective := by
    intro first second hfirst hsecond hid
    obtain ⟨hfirstId, hfirst⟩ := isRegistered_step hstep hfirst
    obtain ⟨hsecondId, hsecond⟩ := isRegistered_step hstep hsecond
    rw [hfirstId, hsecondId] at hid
    rcases hfirst with hfirst | rfl
    · rcases hsecond with hsecond | rfl
      · exact hseparated.id_injective first second hfirst hsecond hid
      · exact absurd hid (hunused first hfirst)
    · rcases hsecond with hsecond | hinsert
      · exact absurd hid.symm (hunused second hsecond)
      · exact Action.insert.inj hinsert

end Step

/-! ## Completion -/

/-- Some continuation of the run, critical section after critical section, sets the `ready` flag
of the call. -/
def Completable (state : State ι) (call : ι) : Prop :=
  ∃ more later, exec step state more = some later ∧ (later.caller call).ready = true

/-- A reply completes a waiting call that the queue lists. -/
theorem completable_of_lookup {state : State ι} {call : ι} (hwaiting : state.phase call = .waiting)
    (hlookup : state.queue.lookup (state.caller call).id = some call) : Completable state call := by
  have hreply : Step state (.response (.reply (state.caller call).id [])) _ :=
    .response _ call hlookup (by simp [hwaiting])
  exact ⟨_, _, exec_single (step_of_cases hreply), by simp [State.setCaller]⟩

/-- The watchdog gets past a woken caller once that caller has erased its entry. -/
theorem exists_markable (state : State ι) (head : ι) :
    ∃ more later, exec step state more = some later ∧ later.watchdog = state.watchdog ∧
      later.phase head ≠ .woken := by
  by_cases hwoken : state.phase head = .woken
  · have herase := step_of_cases (Step.erase head hwoken)
    exact ⟨_, _, exec_single herase, rfl, by simp [State.setPhase]⟩
  · exact ⟨[], state, rfl, rfl, hwoken⟩

/-- The watchdog completes every call of its list. -/
theorem completable_of_mem {state : State ι} {call : ι} {outdated : List ι}
    (hwatchdog : state.watchdog = .marking outdated) (hmem : call ∈ outdated) :
    Completable state call := by
  induction outdated generalizing state with
  | nil => cases hmem
  | cons head rest ih =>
      obtain ⟨freeing, free, hfree, hfreeWatchdog, hphase⟩ := exists_markable state head
      rw [hwatchdog] at hfreeWatchdog
      have hmark := step_of_cases (Step.mark head rest hfreeWatchdog hphase)
      have hmarked := exec_snoc hfree hmark
      rcases List.mem_cons.mp hmem with rfl | hrest
      · exact ⟨_, _, hmarked, by simp [State.setCaller]⟩
      · have htail : Completable { free.setCaller head (free.caller head).timeOut with
            watchdog := .marking rest } call := ih rfl hrest
        obtain ⟨more, later, hmore, hready⟩ := htail
        exact ⟨_, _, exec_trans hmarked hmore, hready⟩

theorem completable_of_isHeld {state : State ι} {call : ι} (hwaiting : state.phase call = .waiting)
    (hheld : state.IsHeld call) : Completable state call := by
  rcases hheld with hlookup | hmem
  · exact completable_of_lookup hwaiting hlookup
  · cases hwatchdog : state.watchdog with
    | marking outdated =>
        rw [hwatchdog] at hmem
        exact completable_of_mem hwatchdog hmem
    | sleeping => simp [hwatchdog, Watchdog.outdated] at hmem
    | sampled now => simp [hwatchdog, Watchdog.outdated] at hmem

/-- One channel with fewer than `2 ^ 32` draws never inserts under an identifier in use. -/
theorem meets_insertsUnusedId {transport : Option Channel} {clock : Timestamp}
    {schedule : List (Action ι)} {final : State ι}
    (htransport : ∀ channel, transport = some channel → channel = .new)
    (hset : ∀ action ∈ schedule, action.isSetTransport = false)
    (hdraws : drawCount schedule < 2 ^ 32)
    (hrun : exec step (initial transport clock) schedule = some final) :
    Meets step InsertsUnusedId (initial transport clock) schedule := by
  apply meets_of_forall_taken hrun
  rintro before action after state next rfl hbefore htaken
  cases step_cases htaken with
  | insert call hphase =>
      intro other hother hid
      have hcount : drawCount before < 2 ^ 32 := by
        rw [drawCount, List.countP_append] at hdraws
        exact Nat.lt_of_le_of_lt (Nat.le_add_right _ _) hdraws
      have hsame : other = call := by
        have hotherId :=
          State.drawnId_of_not_isBefore (Phase.isBefore_of_isRegistered hother)
        rw [hid] at hotherId
        refine drawnId_injective htransport (fun other hmem => ?_) hcount hbefore hotherId
          (State.drawnId_of_created hphase)
        exact hset other (List.mem_append_left _ hmem)
      rw [hsame, hphase] at hother
      cases hother
  | _ => trivial

/-- **No caller is orphaned while identifiers are not reused.**  In every run, transports
replaced at any point, in which no call is inserted under the identifier of another
registered call, a call that waits is the one stored under its identifier or is about
to be marked, and can be completed. -/
theorem no_orphan_of_unused {transport : Option Channel} {clock : Timestamp}
    {schedule : List (Action ι)} {final : State ι}
    (hunused : Meets step InsertsUnusedId (initial transport clock) schedule)
    (hrun : exec step (initial transport clock) schedule = some final) :
    NoOrphan final ∧ ∀ call, final.phase call = .waiting → Completable final call := by
  have hseparated : Separated final :=
    exec_invariant_of_meets
      (fun _ _ _ hprior hunused htaken => hprior.step (step_cases htaken) hunused)
      (separated_initial transport clock) hunused hrun
  refine ⟨hseparated.noOrphan, fun call hwaiting => ?_⟩
  cases hready : (final.caller call).ready with
  | true => exact ⟨[], final, rfl, hready⟩
  | false => exact completable_of_isHeld hwaiting (hseparated.noOrphan call hwaiting hready)

/-- The transport is replaced after the first call has returned. -/
def reconnectIdle (first second : ι) : List (Action ι) :=
  [.draw first, .create first, .insert first, .send first .none, .response (.reply 1 ['a']),
    .wake first, .erase first, .setTransport (some .new),
    .draw second, .create second, .insert second, .send second .none]

theorem no_orphan_of_unused_reconnectIdle :
    ∃ final, exec step (initial (some .new) .zero) (reconnectIdle (0 : Fin 2) 1) = some final ∧
      final.phase 1 = .waiting ∧ NoOrphan final := by
  obtain ⟨final, hrun, hphase⟩ : ∃ final : State (Fin 2),
      exec step (initial (some .new) .zero) (reconnectIdle (0 : Fin 2) 1) = some final ∧
        decide (final.phase 1 = .waiting) = true :=
    exists_exec_of_any (by decide)
  exact ⟨final, hrun, of_decide_eq_true hphase, (no_orphan_of_unused (by decide) hrun).1⟩

/-- The transport is replaced while the first call waits. -/
def reconnectWaiting (first second : ι) : List (Action ι) :=
  [.draw first, .create first, .insert first, .send first .none, .setTransport (some .new),
    .draw second, .create second, .insert second]

/-- The second call takes the queue entry of the first, which nobody holds any more. -/
theorem orphan_after_reconnect :
    ∃ final, exec step (initial (some .new) .zero) (reconnectWaiting (0 : Fin 2) 1) = some final ∧
      final.phase 0 = .waiting ∧ (final.caller 0).ready = false ∧ ¬ final.IsHeld 0 ∧
      ¬ NoOrphan final := by
  obtain ⟨final, hrun, hfacts⟩ : ∃ final : State (Fin 2),
      exec step (initial (some .new) .zero) (reconnectWaiting (0 : Fin 2) 1) = some final ∧
        decide (final.phase 0 = .waiting ∧ (final.caller 0).ready = false ∧
          final.queue.lookup (final.caller 0).id = some 1 ∧ final.watchdog = .sleeping) = true :=
    exists_exec_of_any (by decide)
  obtain ⟨hwaiting, hready, hlookup, hwatchdog⟩ := of_decide_eq_true hfacts
  have hlost : ¬ final.IsHeld 0 := by
    rw [State.IsHeld, hlookup, hwatchdog]
    simp [Watchdog.outdated]
  exact ⟨final, hrun, hwaiting, hready, hlost, fun hall => hlost (hall 0 hwaiting hready)⟩

end FireboltTransport.Client
