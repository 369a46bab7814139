/-
# Calls and sweeps come to their ends

A call of `Request` that has sent its message waits without a bound of its own: it is
the peer or the watchdog that ends the wait.  Here the critical sections are steps, and a
step that is possible is one that can be taken: if the watchdog and the calls take their
steps whenever these stay possible, a call that waits returns once the clock has passed its
threshold, as long as no call is inserted under the identifier of another.

Whether the threads get to their critical sections is a question about the mutexes, which
these steps leave out: a woken call may have to wait for `queue_mtx`, and the `Response` that
holds it meanwhile may be waiting for the mutex of that very call.
-/

import FireboltTransport.Gateway.Timeouts
import FireboltTransport.Semantics.Fairness

namespace FireboltTransport.Client

open Semantics

universe u

variable {ι : Type u}

/-! ## The statements a call has left -/

/-- The call has sent its message. -/
def Phase.hasSent : Phase → Bool
  | .waiting | .woken | .erased | .checked _ | .returned _ => true
  | _ => false

/-- The call has left the critical section that ends its wait. -/
def Phase.hasErased : Phase → Bool
  | .erased | .checked _ | .returned _ => true
  | _ => false

/-- How many steps the call takes until it returns, when nothing holds it up. -/
def Phase.remaining : Phase → ℕ
  | .waiting => 4
  | .woken => 3
  | .erased => 2
  | .checked _ => 1
  | _ => 0

/-- The call whose thread takes a step after its message is sent. -/
def Action.ending : Action ι → Option ι
  | .wake call | .erase call | .check call | .read call => some call
  | _ => none

theorem actor_of_ending {action : Action ι} {call : ι} (hending : action.ending = some call) :
    action.actor = some call := by
  cases action with
  | wake | erase | check | read => exact hending
  | setTransport | tick | draw | create | insert | send | response | sample | collect | mark
  | sleep => cases hending

theorem isBefore_of_hasSent {phase : Phase} (hsent : phase.hasSent = true) :
    phase.isBefore = false := by
  cases phase <;> first | rfl | cases hsent

variable [DecidableEq ι]

section Step

variable {state next : State ι} {action : Action ι} {call : ι} {now : Timestamp}

/-- A step of its own brings a call that has sent its message closer to its return. -/
theorem remaining_step (hstep : Step state action next) (hactor : action.actor = some call)
    (hsent : (state.phase call).hasSent = true) :
    (next.phase call).hasSent = true ∧ next.phase call ≠ .waiting ∧
      (next.phase call).remaining < (state.phase call).remaining := by
  cases hstep with
  | refuse actor hphase | draw actor channel hphase | create actor id hphase
  | insert actor hphase | send actor hphase | sendFailed actor result hphase =>
      obtain rfl : actor = call := Option.some.inj hactor
      simp [hphase, Phase.hasSent] at hsent
  | wake actor hphase | erase actor hphase | check actor hphase | readResponse actor hphase
  | readError actor hphase =>
      obtain rfl : actor = call := Option.some.inj hactor
      simp [State.setPhase, hphase, Phase.hasSent, Phase.remaining]
  | setTransport | tick | ignore | response | sample | collect | mark | sleep => cases hactor

/-- Its own steps are the ones that bring it there. -/
theorem ending_of_actor (hstep : Step state action next) (hactor : action.actor = some call)
    (hsent : (state.phase call).hasSent = true) : action.ending = some call := by
  cases hstep with
  | refuse actor hphase | draw actor channel hphase | create actor id hphase
  | insert actor hphase | send actor hphase | sendFailed actor result hphase =>
      obtain rfl : actor = call := Option.some.inj hactor
      simp [hphase, Phase.hasSent] at hsent
  | wake | erase | check | readResponse | readError => exact hactor
  | setTransport | tick | ignore | response | sample | collect | mark | sleep => cases hactor

theorem hasSent_step (hstep : Step state action next) (hsent : (state.phase call).hasSent = true) :
    (next.phase call).hasSent = true := by
  by_cases hactor : action.actor = some call
  · exact (remaining_step hstep hactor hsent).1
  · rw [phase_step hstep hactor]
    exact hsent

theorem hasErased_step (hstep : Step state action next)
    (herased : (state.phase call).hasErased = true) : (next.phase call).hasErased = true := by
  by_cases hactor : action.actor = some call
  · cases hstep with
    | refuse actor hphase | draw actor channel hphase | create actor id hphase
    | insert actor hphase | send actor hphase | sendFailed actor result hphase
    | wake actor hphase | erase actor hphase =>
        obtain rfl : actor = call := Option.some.inj hactor
        simp [hphase, Phase.hasErased] at herased
    | check actor hphase | readResponse actor hphase | readError actor hphase =>
        obtain rfl : actor = call := Option.some.inj hactor
        simp [State.setPhase, Phase.hasErased]
    | setTransport | tick | ignore | response | sample | collect | mark | sleep => cases hactor
  · rw [phase_step hstep hactor]
    exact herased

/-- A call that has sent its message and is not waiting for an answer can go on. -/
theorem exists_step_of_hasSent (hsent : (state.phase call).hasSent = true)
    (hready : state.phase call = .waiting → (state.caller call).ready = true)
    (hreturned : ∀ outcome, state.phase call ≠ .returned outcome) :
    ∃ action : Action ι, action.ending = some call ∧ (step state action).isSome = true := by
  cases hphase : state.phase call with
  | waiting => exact ⟨.wake call, rfl, by simp [step, hphase, hready hphase]⟩
  | woken => exact ⟨.erase call, rfl, by simp [step, hphase]⟩
  | erased => exact ⟨.check call, rfl, by simp [step, hphase]⟩
  | checked succeeded =>
      refine ⟨.read call, rfl, ?_⟩
      cases succeeded <;> simp [step, hphase]
  | returned outcome => exact absurd hphase (hreturned outcome)
  | idle | drawn | created | inserted | notConnected | failed =>
      simp [hphase, Phase.hasSent] at hsent

/-- The clock does not go back. -/
theorem clock_step (hstep : Step state action next) :
    state.clock.ticks.toInt ≤ next.clock.ticks.toInt := by
  cases hstep with
  | tick later hclock => exact Int64.le_iff_toInt_le.mp hclock
  | _ => exact Int.le_refl _

/-- A call that is overdue stays so. -/
theorem isOverdue_step (hstep : Step state action next)
    (hpast : (state.phase call).isBefore = false) (hoverdue : state.IsOverdue state.clock call) :
    next.IsOverdue next.clock call := by
  have hclock := clock_step hstep
  rw [State.IsOverdue, State.age, timestamp_step hstep hpast]
  refine Int.lt_of_lt_of_le hoverdue ?_
  rw [State.age, Timestamp.wholeMilliseconds, Timestamp.wholeMilliseconds]
  exact Int.tdiv_le_tdiv (by decide) (Int.sub_le_sub_right hclock _)

/-- While the watchdog sleeps, it can only read the clock. -/
theorem sleeping_step (hstep : Step state action next) (hsleeping : state.watchdog = .sleeping) :
    (next.watchdog = .sleeping ∧ action.isWatchdog = false) ∨
      (action = .sample ∧ next = { state with watchdog := .sampled state.clock }) := by
  cases hstep with
  | sample => exact .inr ⟨rfl, rfl⟩
  | collect now hsampled => simp [hsleeping] at hsampled
  | mark marked rest hmarking => simp [hsleeping] at hmarking
  | sleep hmarking => simp [hsleeping] at hmarking
  | _ => exact .inl ⟨hsleeping, rfl⟩

/-- A sweep that has read the clock can only collect. -/
theorem sampled_cases (hstep : Step state action next) (hsampled : state.watchdog = .sampled now) :
    (next.watchdog = .sampled now ∧ action.isWatchdog = false) ∨
      ∃ outdated, next.watchdog = .marking outdated := by
  cases hstep with
  | sample hsleeping => simp [hsampled] at hsleeping
  | collect => exact .inr ⟨_, rfl⟩
  | mark marked rest hmarking => simp [hsampled] at hmarking
  | sleep hmarking => simp [hsampled] at hmarking
  | _ => exact .inl ⟨hsampled, rfl⟩

/-- A sweep that has callers to mark can only mark the first, unless that holds its mutex. -/
theorem marking_cons_cases {head : ι} {rest : List ι} (hstep : Step state action next)
    (hmarking : state.watchdog = .marking (head :: rest)) :
    (next.watchdog = .marking (head :: rest) ∧ action.isWatchdog = false) ∨
      (next.watchdog = .marking rest ∧ state.phase head ≠ .woken) := by
  cases hstep with
  | sample hsleeping => simp [hmarking] at hsleeping
  | collect now hsampled => simp [hmarking] at hsampled
  | sleep hempty => simp [hmarking] at hempty
  | mark marked others hmarked hphase =>
      obtain ⟨rfl, rfl⟩ : head = marked ∧ rest = others := by simpa [hmarking] using hmarked
      exact .inr ⟨rfl, hphase⟩
  | _ => exact .inl ⟨hmarking, rfl⟩

/-- A sweep that has marked all goes to sleep. -/
theorem marking_nil_cases (hstep : Step state action next)
    (hmarking : state.watchdog = .marking []) :
    (next.watchdog = .marking [] ∧ action.isWatchdog = false) ∨ next.watchdog = .sleeping := by
  cases hstep with
  | sample hsleeping => simp [hmarking] at hsleeping
  | collect now hsampled => simp [hmarking] at hsampled
  | mark marked rest hmarked => simp [hmarking] at hmarked
  | sleep => exact .inr rfl
  | _ => exact .inl ⟨hmarking, rfl⟩

/-- A call that holds its mutex gives it back with its next step. -/
theorem hasErased_of_woken (hstep : Step state action next) (hactor : action.actor = some call)
    (hwoken : state.phase call = .woken) : (next.phase call).hasErased = true := by
  cases hstep with
  | erase actor hphase =>
      obtain rfl : actor = call := Option.some.inj hactor
      simp [State.setPhase, Phase.hasErased]
  | refuse actor hphase | draw actor channel hphase | create actor id hphase
  | insert actor hphase | send actor hphase | sendFailed actor result hphase
  | wake actor hphase | check actor hphase | readResponse actor hphase | readError actor hphase =>
      obtain rfl : actor = call := Option.some.inj hactor
      simp [hphase] at hwoken
  | setTransport | tick | ignore | response | sample | collect | mark | sleep => cases hactor

end Step

/-! ## The watchdog comes round -/

section Runs

variable {run : Endless (step (ι := ι))} {call : ι}

/-- A step that the run takes. -/
theorem step_of_action {moment : ℕ} {action : Action ι}
    (haction : run.action moment = some action) :
    Step (run.state moment) action (run.state (moment + 1)) :=
  step_cases (run.taken haction)

theorem sampled_leadsTo_marking (hwatchdog : run.Fair fun action => action.isWatchdog = true) :
    run.LeadsTo (fun state => ∃ now, state.watchdog = .sampled now)
      (fun state => ∃ outdated, state.watchdog = .marking outdated) := by
  refine .of_fair_once hwatchdog ?_ ?_
  · rintro moment ⟨now, hsampled⟩ _
    exact ⟨.collect, rfl, by simp [step, hsampled]⟩
  · rintro moment action haction ⟨now, hsampled⟩
    rcases sampled_cases (step_of_action haction) hsampled with ⟨hkept, hother⟩ | hmarking
    · exact .inr ⟨⟨now, hkept⟩, by simp [hother]⟩
    · exact .inl hmarking

/-- A caller that does not hold its mutex is marked, unless it is woken first. -/
theorem marking_leadsTo_marked_or_woken (head : ι) (rest : List ι)
    (hwatchdog : run.Fair fun action => action.isWatchdog = true) :
    run.LeadsTo (fun state => state.watchdog = .marking (head :: rest) ∧ state.phase head ≠ .woken)
      (fun state => state.watchdog = .marking rest ∨
        (state.watchdog = .marking (head :: rest) ∧ state.phase head = .woken)) := by
  refine .of_fair_once hwatchdog ?_ ?_
  · rintro moment ⟨hmarking, hphase⟩ _
    exact ⟨.mark, rfl, by simp [step, hmarking, hphase]⟩
  · rintro moment action haction ⟨hmarking, hphase⟩
    rcases marking_cons_cases (step_of_action haction) hmarking with ⟨hkept, hother⟩ | ⟨hmarked, _⟩
    · by_cases hwoken : (run.state (moment + 1)).phase head = .woken
      · exact .inl (.inr ⟨hkept, hwoken⟩)
      · exact .inr ⟨⟨hkept, hwoken⟩, by simp [hother]⟩
    · exact .inl (.inl hmarked)

/-- A caller that holds its mutex gives it back. -/
theorem woken_leadsTo_erased (head : ι) (rest : List ι)
    (hcalls : ∀ call, run.Fair fun action => action.ending = some call) :
    run.LeadsTo (fun state => state.watchdog = .marking (head :: rest) ∧ state.phase head = .woken)
      (fun state => state.watchdog = .marking (head :: rest) ∧
        (state.phase head).hasErased = true) := by
  refine .of_fair_once (hcalls head) ?_ ?_
  · rintro moment ⟨_, hwoken⟩ _
    exact ⟨.erase head, rfl, by simp [step, hwoken]⟩
  · rintro moment action haction ⟨hmarking, hwoken⟩
    have hstep := step_of_action haction
    rcases marking_cons_cases hstep hmarking with ⟨hkept, _⟩ | ⟨_, hphase⟩
    · by_cases hactor : action.actor = some head
      · exact .inl ⟨hkept, hasErased_of_woken hstep hactor hwoken⟩
      · refine .inr ⟨⟨hkept, ?_⟩, fun hhelpful => absurd (actor_of_ending hhelpful) hactor⟩
        rw [phase_step hstep hactor]
        exact hwoken
    · exact absurd hwoken hphase

/-- Once it has, it is marked. -/
theorem erased_leadsTo_marked (head : ι) (rest : List ι)
    (hwatchdog : run.Fair fun action => action.isWatchdog = true) :
    run.LeadsTo
      (fun state => state.watchdog = .marking (head :: rest) ∧
        (state.phase head).hasErased = true)
      (fun state => state.watchdog = .marking rest) := by
  refine .of_fair_once hwatchdog ?_ ?_
  · rintro moment ⟨hmarking, herased⟩ _
    have hphase : (run.state moment).phase head ≠ .woken := by
      intro hwoken
      simp [hwoken, Phase.hasErased] at herased
    exact ⟨.mark, rfl, by simp [step, hmarking, hphase]⟩
  · rintro moment action haction ⟨hmarking, herased⟩
    have hstep := step_of_action haction
    rcases marking_cons_cases hstep hmarking with ⟨hkept, hother⟩ | ⟨hmarked, _⟩
    · exact .inr ⟨⟨hkept, hasErased_step hstep herased⟩, by simp [hother]⟩
    · exact .inl hmarked

/-- The induction is on the callers that are still to be marked. -/
theorem marking_leadsTo_sleeping (hwatchdog : run.Fair fun action => action.isWatchdog = true)
    (hcalls : ∀ call, run.Fair fun action => action.ending = some call) (outdated : List ι) :
    run.LeadsTo (fun state => state.watchdog = .marking outdated)
      (fun state => state.watchdog = .sleeping) := by
  induction outdated with
  | nil =>
      refine .of_fair_once hwatchdog ?_ ?_
      · intro moment hmarking _
        exact ⟨.sleep, rfl, by simp [step, hmarking]⟩
      · intro moment action haction hmarking
        rcases marking_nil_cases (step_of_action haction) hmarking with ⟨hkept, hother⟩ | hdone
        · exact .inr ⟨hkept, by simp [hother]⟩
        · exact .inl hdone
  | cons head rest ih =>
      have hwoken := (woken_leadsTo_erased head rest hcalls).trans
        (erased_leadsTo_marked head rest hwatchdog)
      have hunwoken := (marking_leadsTo_marked_or_woken head rest hwatchdog).trans
        (.or (.of_imp fun _ => id) hwoken)
      intro moment hmarking
      by_cases hphase : (run.state moment).phase head = .woken
      · exact (hwoken.trans ih) moment ⟨hmarking, hphase⟩
      · exact (hunwoken.trans ih) moment ⟨hmarking, hphase⟩

/-- The watchdog always gets to the end of its round. -/
theorem leadsTo_sleeping (hwatchdog : run.Fair fun action => action.isWatchdog = true)
    (hcalls : ∀ call, run.Fair fun action => action.ending = some call) :
    run.LeadsTo (fun _ => True) (fun state => state.watchdog = .sleeping) := by
  have hmarking : run.LeadsTo (fun state => ∃ outdated, state.watchdog = .marking outdated)
      (fun state => state.watchdog = .sleeping) := by
    rintro moment ⟨outdated, hmarking⟩
    exact marking_leadsTo_sleeping hwatchdog hcalls outdated moment hmarking
  intro moment _
  cases hwhere : (run.state moment).watchdog with
  | sleeping => exact ⟨moment, Nat.le_refl moment, hwhere⟩
  | sampled now =>
      exact ((sampled_leadsTo_marking hwatchdog).trans hmarking) moment ⟨now, hwhere⟩
  | marking outdated => exact hmarking moment ⟨outdated, hwhere⟩

/-! ## A call comes to its end -/

/-- The call waits, and is overdue by the clock. -/
def State.IsLate (state : State ι) (call : ι) : Prop :=
  state.phase call = .waiting ∧ state.IsOverdue state.clock call

/-- The next reading of the clock finds a late call overdue. -/
theorem late_leadsTo_due (hwatchdog : run.Fair fun action => action.isWatchdog = true)
    (hseparated : ∀ moment, Separated (run.state moment)) :
    run.LeadsTo (fun state => state.watchdog = .sleeping ∧ state.IsLate call)
      (fun state => ∃ now, Due now call state) := by
  refine .of_fair_once hwatchdog ?_ ?_
  · rintro moment ⟨hsleeping, _⟩ _
    exact ⟨.sample, rfl, by simp [step, hsleeping]⟩
  · rintro moment action haction ⟨hsleeping, hwaiting, hoverdue⟩
    have hstep := step_of_action haction
    have hpast : ((run.state moment).phase call).isBefore = false := by
      simp [hwaiting, Phase.isBefore]
    cases hready : ((run.state moment).caller call).ready with
    | true =>
        refine .inl ⟨(run.state moment).clock, .answered (ready_step hstep ?_ hready)
          (isBefore_step hstep hpast)⟩
        simp [hwaiting]
    | false =>
        rcases sleeping_step hstep hsleeping with ⟨hkept, hother⟩ | ⟨rfl, hsampled⟩
        · refine .inr ⟨⟨hkept, waiting_step hstep hwaiting hready,
            isOverdue_step hstep hpast hoverdue⟩, by simp [hother]⟩
        · rw [hsampled]
          refine .inl ⟨(run.state moment).clock, .queued rfl hwaiting ?_ hoverdue⟩
          refine ((hseparated moment).noOrphan call hwaiting hready).resolve_right ?_
          simp [hsleeping, Watchdog.outdated]

/-- A call that has been answered returns: each of its steps brings it closer. -/
theorem answered_leadsTo_returned (hcall : run.Fair fun action => action.ending = some call) :
    run.LeadsTo
      (fun state => (state.phase call).hasSent = true ∧
        (state.phase call = .waiting → (state.caller call).ready = true))
      (fun state => ∃ outcome, state.phase call = .returned outcome) := by
  refine .of_fair hcall (fun state => (state.phase call).remaining) ?_ ?_
  · rintro moment ⟨hsent, hready⟩ hunreturned
    exact exists_step_of_hasSent hsent hready fun outcome hreturned =>
      hunreturned ⟨outcome, hreturned⟩
  · rintro moment action haction ⟨hsent, hready⟩
    have hstep := step_of_action haction
    by_cases hactor : action.actor = some call
    · obtain ⟨hlater, hphase, hless⟩ := remaining_step hstep hactor hsent
      exact .inr ⟨⟨hlater, fun hwaiting => absurd hwaiting hphase⟩, Nat.le_of_lt hless,
        fun _ => hless⟩
    · have hphase := phase_step hstep hactor
      refine .inr ⟨⟨by rw [hphase]; exact hsent, ?_⟩, by rw [hphase],
        fun hhelpful => absurd (actor_of_ending hhelpful) hactor⟩
      rw [hphase]
      intro hwaiting
      exact ready_step hstep (by simp [hwaiting]) (hready hwaiting)

/-- A call that waits returns, when the clock gets to where it is overdue: the round of the
watchdog that reads the clock after that answers it, if nobody did before. -/
theorem exists_returned
    (hsound : ∀ moment, WellFormed (run.state moment) ∧ Separated (run.state moment))
    (hunused : ∀ moment action, run.action moment = some action →
      InsertsUnusedId (run.state moment) action)
    (hwatchdog : run.Fair fun action => action.isWatchdog = true)
    (hcalls : ∀ call, run.Fair fun action => action.ending = some call) {start later : ℕ}
    (hwaiting : (run.state start).phase call = .waiting) (hlater : start ≤ later)
    (hoverdue : (run.state later).IsOverdue (run.state later).clock call) :
    ∃ moment ≥ start, ∃ outcome, (run.state moment).phase call = .returned outcome := by
  have hsent : ∀ moment ≥ start, ((run.state moment).phase call).hasSent = true := by
    apply run.always_of_step (motive := fun state => (state.phase call).hasSent = true)
    · rw [hwaiting]
      rfl
    · exact fun moment _ action haction => hasSent_step (step_of_action haction)
  have hlate : ∀ moment ≥ later, (run.state moment).IsOverdue (run.state moment).clock call := by
    intro moment hmoment
    refine (run.always_of_step (motive := fun state => (state.phase call).hasSent = true ∧
      state.IsOverdue state.clock call) ⟨hsent later hlater, hoverdue⟩ ?_ moment hmoment).2
    rintro moment _ action haction ⟨hprior, hoverdue⟩
    have hstep := step_of_action haction
    exact ⟨hasSent_step hstep hprior, isOverdue_step hstep (isBefore_of_hasSent hprior) hoverdue⟩
  have hreturns := answered_leadsTo_returned (hcalls call)
  obtain ⟨first, hfirst, hsleeping⟩ := leadsTo_sleeping hwatchdog hcalls later trivial
  have hafter : start ≤ first := hlater.trans hfirst
  by_cases hphase : (run.state first).phase call = .waiting
  · obtain ⟨second, hsecond, now, hdue⟩ :=
      late_leadsTo_due hwatchdog (fun moment => (hsound moment).2) first
        ⟨hsleeping, hphase, hlate first hfirst⟩
    have hkept : ∀ moment ≥ second, Due now call (run.state moment) := by
      apply run.always_of_step (motive := Due now call) hdue
      intro moment _ action haction hprior
      obtain ⟨hwf, hseparated⟩ := hsound moment
      exact hprior.step hwf hseparated (step_of_action haction) (hunused moment action haction)
    obtain ⟨third, hthird, hagain⟩ := leadsTo_sleeping hwatchdog hcalls second trivial
    have hready := (hkept third hthird).ready_of_sleeping hagain
    have hthen : start ≤ third := (hafter.trans hsecond).trans hthird
    obtain ⟨last, hlast, hreturned⟩ := hreturns third ⟨hsent third hthen, fun _ => hready⟩
    exact ⟨last, hthen.trans hlast, hreturned⟩
  · obtain ⟨last, hlast, hreturned⟩ :=
      hreturns first ⟨hsent first hafter, fun hwaiting => absurd hwaiting hphase⟩
    exact ⟨last, hafter.trans hlast, hreturned⟩

/-- A run that never inserts under an identifier in use stays sound. -/
theorem sound_of_insertsUnusedId {transport : Option Channel} {clock : Timestamp}
    (hstart : run.state 0 = initial transport clock)
    (hunused : ∀ moment action, run.action moment = some action →
      InsertsUnusedId (run.state moment) action) (moment : ℕ) :
    WellFormed (run.state moment) ∧ Separated (run.state moment) := by
  refine run.always_of_step (motive := fun state => WellFormed state ∧ Separated state)
    ?_ ?_ moment (Nat.zero_le moment)
  · rw [hstart]
    exact ⟨wellFormed_initial transport clock, separated_initial transport clock⟩
  · rintro moment _ action haction ⟨hwf, hseparated⟩
    have hstep := step_of_action haction
    exact ⟨hwf.step hstep, hseparated.step hstep (hunused moment action haction)⟩

end Runs

/-- A call that is the only one shares its identifier with none. -/
theorem insertsUnusedId_of_subsingleton [Subsingleton ι] {state next : State ι} {action : Action ι}
    (hstep : Step state action next) : InsertsUnusedId state action := by
  cases hstep with
  | insert call hcreated =>
      intro other hother
      simp [Subsingleton.elim other call, hcreated, Phase.isRegistered] at hother
  | _ => trivial

end FireboltTransport.Client
