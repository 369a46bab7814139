/-
# No call outwaits a sweep

The watchdog reads the clock, takes the overdue calls out of the queue and marks them.
A call may be answered at any time meanwhile, other calls begin and end, and the call
itself is looked up under an identifier.  As long as no call is inserted under the
identifier of another, a call that is overdue when a sweep reads the clock is answered by
the time the watchdog sleeps again: an application waits at most the threshold and the
rest of one round of the watchdog after it.
-/

import FireboltTransport.Gateway.Orphan
import FireboltTransport.Gateway.Watchdog

namespace FireboltTransport.Client

open Semantics

universe u

variable {ι : Type u} [DecidableEq ι]

/-- Where a call is that was overdue when the running sweep read `now`: answered, in the
queue for the sweep to find, or on the watchdog's list. -/
inductive Due (now : Timestamp) (call : ι) (state : State ι) : Prop
  | answered (hready : (state.caller call).ready = true)
      (hpast : (state.phase call).isBefore = false)
  | queued (hwatchdog : state.watchdog = .sampled now) (hwaiting : state.phase call = .waiting)
      (hlookup : state.queue.lookup (state.caller call).id = some call)
      (hoverdue : state.IsOverdue now call)
  | listed (hmem : call ∈ state.watchdog.outdated)

section Step

variable {state next : State ι} {action : Action ι} {now : Timestamp} {call : ι}

omit [DecidableEq ι] in
/-- A call that a sweep found overdue is answered when the watchdog sleeps. -/
theorem Due.ready_of_sleeping (hdue : Due now call state) (hsleeping : state.watchdog = .sleeping) :
    (state.caller call).ready = true := by
  cases hdue with
  | answered hready _ => exact hready
  | queued hsampled _ _ _ => simp [hsleeping] at hsampled
  | listed hmem => simp [hsleeping, Watchdog.outdated] at hmem

/-- The time a call was constructed stays what it is. -/
theorem timestamp_step (hstep : Step state action next)
    (hpast : (state.phase call).isBefore = false) :
    (next.caller call).timestamp = (state.caller call).timestamp := by
  cases hstep with
  | create created id hphase =>
      have hne : call ≠ created := by
        rintro rfl
        simp [hphase, Phase.isBefore] at hpast
      simp [State.setPhase, State.setCaller, hne]
  | response message receiver hqueue hphase =>
      by_cases hcall : call = receiver
      · subst hcall
        simp only [State.setCaller, Function.update_self, Caller.complete]
        split_ifs <;> rfl
      · simp [State.setCaller, hcall]
  | mark marked rest hwatchdog hphase =>
      by_cases hcall : call = marked
      · subst hcall
        simp [State.setCaller, Caller.timeOut]
      · simp [State.setCaller, hcall]
  | _ => rfl

/-- A call that waits without an answer keeps waiting. -/
theorem waiting_step (hstep : Step state action next) (hwaiting : state.phase call = .waiting)
    (hready : (state.caller call).ready = false) : next.phase call = .waiting := by
  by_cases hactor : action.actor = some call
  · cases hstep with
    | wake actor hphase hwoken =>
        obtain rfl : actor = call := by simpa [Action.actor] using hactor
        simp [hready] at hwoken
    | _ => simp_all [Action.actor]
  · rw [phase_step hstep hactor, hwaiting]

/-- The sweep that has read the clock is about to collect. -/
theorem sampled_step (hstep : Step state action next) (hwatchdog : state.watchdog = .sampled now) :
    next.watchdog = .sampled now ∨ action = .collect := by
  cases hstep with
  | sample hsleeping => simp [hwatchdog] at hsleeping
  | collect sampled hsampled => exact .inr rfl
  | mark marked rest hmarking hphase => simp [hwatchdog] at hmarking
  | sleep hmarking => simp [hwatchdog] at hmarking
  | _ => exact .inl hwatchdog

/-- An overdue call in the queue is answered, stays there, or is collected. -/
theorem due_of_queued (hseparated : Separated state) (hstep : Step state action next)
    (hunused : InsertsUnusedId state action) (hwatchdog : state.watchdog = .sampled now)
    (hwaiting : state.phase call = .waiting) (hready : (state.caller call).ready = false)
    (hoverdue : state.IsOverdue now call) : Due now call next := by
  have hpast : (state.phase call).isBefore = false := by simp [hwaiting, Phase.isBefore]
  have hstays := waiting_step hstep hwaiting hready
  cases hanswered : (next.caller call).ready with
  | true => exact .answered hanswered (isBefore_step hstep hpast)
  | false =>
      have hunanswered : next.isUnanswered call = true := by
        simp [State.isUnanswered, hstays, hanswered]
      have hlate : next.IsOverdue now call := by
        rw [State.IsOverdue, State.age, timestamp_step hstep hpast]
        exact hoverdue
      rcases isHeld_step hseparated hstep hunused hunanswered with hlookup | hmem
      · rcases sampled_step hstep hwatchdog with hsampled | rfl
        · exact .queued hsampled hstays hlookup hlate
        · -- A sweep that finds the call takes it out.
          cases hstep with
          | collect sampled hsampled =>
              obtain rfl : sampled = now := by simpa [hsampled] using hwatchdog
              have hkept := (StdMap.lookup_filter_eq_some.mp hlookup).2
              have hage : 0 ≤ state.age sampled call :=
                Int.le_trans (Int.natCast_nonneg _) (Int.le_of_lt hoverdue)
              rw [(expired_iff_isOverdue hage).mpr hoverdue] at hkept
              cases hkept
      · exact .listed hmem

/-- A call on the watchdog's list is marked or stays on it. -/
theorem due_of_listed (hwf : WellFormed state) (hstep : Step state action next)
    (hmem : call ∈ state.watchdog.outdated) : Due now call next := by
  cases hwatchdog : state.watchdog with
  | sleeping => simp [hwatchdog, Watchdog.outdated] at hmem
  | sampled sampled => simp [hwatchdog, Watchdog.outdated] at hmem
  | marking outdated =>
      have hpast := isBefore_step hstep (hwf.outdated_phase call hmem)
      have hlisted : call ∈ outdated := by simpa [hwatchdog, Watchdog.outdated] using hmem
      have hsleep : action ≠ .sleep := by
        rintro rfl
        cases hstep with
        | sleep hmarking =>
            obtain rfl : outdated = [] := by simpa [hwatchdog] using hmarking
            simp at hlisted
      rcases marking_step hstep hwatchdog hsleep with ⟨hsame, _⟩ | ⟨head, rest, rfl, rfl, hrest⟩
      · exact .listed (by simpa [hsame, Watchdog.outdated] using hlisted)
      · rcases List.mem_cons.mp hlisted with rfl | htail
        · refine .answered ?_ hpast
          cases hstep with
          | mark marked others hmarking hphase =>
              obtain ⟨rfl, _⟩ : call = marked ∧ rest = others := by
                simpa [hwatchdog] using hmarking
              simp [State.setCaller]
        · exact .listed (by simpa [hrest, Watchdog.outdated] using htail)

theorem Due.step (hdue : Due now call state) (hwf : WellFormed state)
    (hseparated : Separated state) (hstep : Step state action next)
    (hunused : InsertsUnusedId state action) : Due now call next := by
  cases hdue with
  | answered hready hpast =>
      refine .answered (ready_step hstep (fun id hdrawn => ?_) hready) (isBefore_step hstep hpast)
      simp [hdrawn, Phase.isBefore] at hpast
  | queued hwatchdog hwaiting hlookup hoverdue =>
      cases hready : (state.caller call).ready with
      | true =>
          have hpast : (state.phase call).isBefore = false := by simp [hwaiting, Phase.isBefore]
          refine .answered (ready_step hstep (fun id hdrawn => ?_) hready)
            (isBefore_step hstep hpast)
          simp [hwaiting] at hdrawn
      | false => exact due_of_queued hseparated hstep hunused hwatchdog hwaiting hready hoverdue
  | listed hmem => exact due_of_listed hwf hstep hmem

end Step

/-- **No call outwaits a sweep.**  In every run, transports replaced at any point, in which no
call is inserted under the identifier of another registered call: a call that waits when a
sweep has read the clock, and is older than the threshold by that reading, is answered when
the watchdog sleeps again, whatever the other threads and the peer do meanwhile. -/
theorem answered_by_sweep {transport : Option Channel} {clock now : Timestamp}
    {before during : List (Action ι)} {swept later : State ι} {call : ι}
    (hunused : Meets step InsertsUnusedId (initial transport clock) (before ++ during))
    (hbefore : exec step (initial transport clock) before = some swept)
    (hsampled : swept.watchdog = .sampled now) (hwaiting : swept.phase call = .waiting)
    (hoverdue : swept.IsOverdue now call) (hduring : exec step swept during = some later)
    (hdone : later.watchdog = .sleeping) : (later.caller call).ready = true := by
  have hmeets := (meets_append hbefore).mp hunused
  have hwf : WellFormed swept := (wellFormed_initial transport clock).exec hbefore
  have hseparated : Separated swept :=
    exec_invariant_of_meets
      (fun _ _ _ hprior hunused htaken => hprior.step (step_cases htaken) hunused)
      (separated_initial transport clock) hmeets.1 hbefore
  have hstart : Due now call swept := by
    cases hready : (swept.caller call).ready with
    | true => exact .answered hready (by simp [hwaiting, Phase.isBefore])
    | false =>
        rcases hseparated.noOrphan call hwaiting hready with hlookup | hmem
        · exact .queued hsampled hwaiting hlookup hoverdue
        · exact .listed hmem
  have hend : WellFormed later ∧ Separated later ∧ Due now call later := by
    refine exec_invariant_of_meets (motive := fun state =>
      WellFormed state ∧ Separated state ∧ Due now call state) ?_
      ⟨hwf, hseparated, hstart⟩ hmeets.2 hduring
    rintro state action next ⟨hwf, hseparated, hdue⟩ hunused htaken
    have hstep := step_cases htaken
    exact ⟨hwf.step hstep, hseparated.step hstep hunused, hdue.step hwf hseparated hstep hunused⟩
  exact hend.2.2.ready_of_sleeping hdone

/-- A call is overdue when the sweep reads the clock; another begins before the sweep takes
the mutex, and is answered. -/
def lateSweep (first second : ι) : List (Action ι) × List (Action ι) :=
  ([.draw first, .create first, .insert first, .send first .none, .tick ⟨3002000000, by decide⟩,
      .sample],
    [.draw second, .create second, .insert second, .collect, .send second .none,
      .response (.reply 2 ['b']), .mark, .sleep])

theorem answered_by_sweep_lateSweep :
    ∃ swept later : State (Fin 2),
      exec step (initial (some .new) .zero) (lateSweep 0 1).1 = some swept ∧
      exec step swept (lateSweep 0 1).2 = some later ∧ (later.caller 0).ready = true := by
  obtain ⟨later, hrun, hdone⟩ : ∃ later : State (Fin 2),
      exec step (initial (some .new) .zero) ((lateSweep 0 1).1 ++ (lateSweep 0 1).2) =
        some later ∧ decide (later.watchdog = .sleeping) = true :=
    exists_exec_of_any (by decide)
  obtain ⟨swept, hbefore, hduring⟩ := exec_append_eq_some.mp hrun
  have hsampled : (exec step (initial (some .new) .zero) (lateSweep 0 1).1).any
      (fun state : State (Fin 2) => decide (
        state.watchdog = .sampled ⟨3002000000, by decide⟩ ∧ state.phase 0 = .waiting ∧
          state.age ⟨3002000000, by decide⟩ 0 = 3002)) = true := by
    decide
  have hfound := check_of_exec hsampled hbefore
  simp only [decide_eq_true_eq] at hfound
  refine ⟨swept, later, hbefore, hduring,
    answered_by_sweep (by decide) hbefore hfound.1 hfound.2.1 ?_ hduring
      (of_decide_eq_true hdone)⟩
  rw [State.IsOverdue, hfound.2.2]
  decide

end FireboltTransport.Client
