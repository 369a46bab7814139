/-
# What one sweep of the watchdog times out

A sweep reads the clock, later takes `queue_mtx`, erases the entries it finds
too old and marks their callers afterwards.  The age of an entry is a signed
number of milliseconds; the comparison with the unsigned threshold converts it.
An entry that was constructed a millisecond or more after the sweep read the
clock has a negative age, which the conversion turns into a huge one.

A sweep is therefore exact when, and only when, it meets no such entry.
-/

import FireboltTransport.Gateway.ClientInvariant

namespace FireboltTransport.Client

open Semantics

universe u

variable {ι : Type u}

/-- The age of a call, in whole milliseconds, when the sweep read `now`. -/
def State.age (state : State ι) (now : Timestamp) (call : ι) : ℤ :=
  now.wholeMilliseconds (state.caller call).timestamp

/-- The call is older than the watchdog's threshold. -/
def State.IsOverdue (state : State ι) (now : Timestamp) (call : ι) : Prop :=
  (Config.watchdogThreshold_ms.toNat : ℤ) < state.age now call

/-- The sweep's test is the intended one on every age that is not negative. -/
theorem expired_iff_isOverdue {state : State ι} {now : Timestamp} {call : ι}
    (hage : 0 ≤ state.age now call) :
    state.expired now call = true ↔ state.IsOverdue now call := by
  have hcount := now.toInt_ageCount (state.caller call).timestamp
  rw [State.expired, Config.exceedsThreshold_of_nonneg (by rwa [hcount]), hcount]
  rfl

/-- On a negative age the test succeeds although the call is not overdue. -/
theorem expired_of_age_neg {state : State ι} {now : Timestamp} {call : ι}
    (hage : state.age now call < 0) :
    state.expired now call = true ∧ ¬ state.IsOverdue now call := by
  have hcount := now.toInt_ageCount (state.caller call).timestamp
  refine ⟨Config.exceedsThreshold_of_neg (by rwa [hcount]), ?_⟩
  rw [State.IsOverdue]
  omega

variable [DecidableEq ι]

/-- The watchdog marked `call` in the schedule. -/
def Marked (start : State ι) (schedule : List (Action ι)) (call : ι) : Prop :=
  Happened step start schedule fun state action =>
    action = .mark ∧ state.watchdog.outdated.head? = some call

/-- The sweep that read `now`, found `swept` under `queue_mtx` and left `after` erases
and later marks exactly the overdue calls; `marks` are the steps until all are marked. -/
structure SweepExact (now : Timestamp) (swept after : State ι) (marks : List (Action ι))
    (later : State ι) : Prop where
  erased : ∀ id call, after.queue.lookup id = some call ↔
    swept.queue.lookup id = some call ∧ ¬ swept.IsOverdue now call
  untouched : after.caller = swept.caller
  marked : ∀ call, Marked after marks call ↔
    ∃ id, swept.queue.lookup id = some call ∧ swept.IsOverdue now call
  timedOut : ∀ call, Marked after marks call →
    (later.caller call).ready = true ∧ (later.caller call).error = .timedout

/-! ## The list of outdated callers is marked from its head to its end -/

section Marking

variable {state next later : State ι} {action : Action ι} {marks : List (Action ι)} {call : ι}

/-- While a sweep marks its callers, a step removes at most the head of the list. -/
theorem marking_step (hstep : Step state action next) {outdated : List ι}
    (hwatchdog : state.watchdog = .marking outdated) (hsleep : action ≠ .sleep) :
    (next.watchdog = .marking outdated ∧ action ≠ .mark) ∨
      ∃ head rest, outdated = head :: rest ∧ action = .mark ∧ next.watchdog = .marking rest := by
  cases hstep with
  | sample hsleeping => simp [hwatchdog] at hsleeping
  | collect now hsampled => simp [hwatchdog] at hsampled
  | mark head rest hmarking hphase =>
      obtain rfl : outdated = head :: rest := by simpa [hwatchdog] using hmarking
      exact .inr ⟨head, rest, rfl, rfl, rfl⟩
  | sleep hmarking => exact absurd rfl hsleep
  | _ => exact .inl ⟨hwatchdog, by simp⟩

theorem marked_cons (htaken : step state action = some next) :
    Marked state (action :: marks) call ↔
      (action = .mark ∧ state.watchdog.outdated.head? = some call) ∨ Marked next marks call :=
  happened_cons htaken

/-- By the time the list is empty exactly its members are marked. -/
theorem marked_iff_mem {outdated : List ι} (hwatchdog : state.watchdog = .marking outdated)
    (hsleep : Action.sleep ∉ marks) (hrun : exec step state marks = some later)
    (hdone : later.watchdog = .marking []) : Marked state marks call ↔ call ∈ outdated := by
  induction marks generalizing state outdated with
  | nil =>
      obtain rfl : state = later := by simpa using hrun
      obtain rfl : outdated = [] := by simpa [hwatchdog] using hdone
      simp [Marked, happened_nil]
  | cons action rest ih =>
      obtain ⟨next, htaken, hrest⟩ := exec_cons_eq_some.mp hrun
      simp only [List.mem_cons, not_or] at hsleep
      rw [marked_cons htaken, hwatchdog]
      rcases marking_step (step_cases htaken) hwatchdog (Ne.symm hsleep.1) with
        ⟨hnext, hmark⟩ | ⟨head, tail, rfl, rfl, hnext⟩
      · rw [ih hnext hsleep.2 hrest]
        simp [hmark]
      · rw [ih hnext hsleep.2 hrest]
        simp [Watchdog.outdated, eq_comm]

/-- A call the watchdog has marked: out of reach of replies, and timed out. -/
structure IsTimedOut (state : State ι) (call : ι) : Prop where
  ready : (state.caller call).ready = true
  error : (state.caller call).error = .timedout
  not_queued : ∀ id, state.queue.lookup id ≠ some call
  past : (state.phase call).isBefore = false

theorem IsTimedOut.step (htimedOut : IsTimedOut state call) (hstep : Step state action next) :
    IsTimedOut next call where
  ready := by
    refine ready_step hstep (fun id hdrawn => ?_) htimedOut.ready
    have hpast := htimedOut.past
    simp [hdrawn, Phase.isBefore] at hpast
  error := by
    cases hstep with
    | create created id hphase =>
        have hne : call ≠ created := by
          rintro rfl
          have hpast := htimedOut.past
          simp [hphase, Phase.isBefore] at hpast
        simpa [State.setPhase, State.setCaller, hne] using htimedOut.error
    | response message receiver hqueue hphase =>
        have hne : call ≠ receiver := by
          rintro rfl
          exact htimedOut.not_queued _ hqueue
        simpa [State.setCaller, hne] using htimedOut.error
    | mark marked rest hwatchdog hphase =>
        by_cases hcall : call = marked
        · subst hcall
          simp [State.setCaller]
        · simpa [State.setCaller, hcall] using htimedOut.error
    | _ => exact htimedOut.error
  not_queued := by
    intro id hlookup
    rcases lookup_step hstep hlookup with hbefore | rfl
    · exact htimedOut.not_queued id hbefore
    · cases hstep with
      | insert actor hphase =>
          have hpast := htimedOut.past
          simp [hphase, Phase.isBefore] at hpast
  past := isBefore_step hstep htimedOut.past

/-- Once a sweep has marked its callers, each of them is timed out. -/
theorem isTimedOut_of_mem {outdated : List ι} (hwf : WellFormed state)
    (hwatchdog : state.watchdog = .marking outdated) (hsleep : Action.sleep ∉ marks)
    (hrun : exec step state marks = some later) (hdone : later.watchdog = .marking [])
    (hmem : call ∈ outdated ∨ IsTimedOut state call) : IsTimedOut later call := by
  induction marks generalizing state outdated with
  | nil =>
      obtain rfl : state = later := by simpa using hrun
      obtain rfl : outdated = [] := by simpa [hwatchdog] using hdone
      simpa using hmem
  | cons action rest ih =>
      obtain ⟨next, htaken, hrest⟩ := exec_cons_eq_some.mp hrun
      simp only [List.mem_cons, not_or] at hsleep
      have hstep := step_cases htaken
      rcases marking_step hstep hwatchdog (Ne.symm hsleep.1) with
        ⟨hnext, _⟩ | ⟨head, tail, rfl, rfl, hnext⟩
      · exact ih (hwf.step hstep) hnext hsleep.2 hrest
          (hmem.imp id fun htimedOut => htimedOut.step hstep)
      · refine ih (hwf.step hstep) hnext hsleep.2 hrest ?_
        rcases hmem with hmem | htimedOut
        · rcases List.mem_cons.mp hmem with rfl | htail
          · have hhead : call ∈ state.watchdog.outdated := by simp [hwatchdog, Watchdog.outdated]
            right
            cases hstep with
            | mark marked others hmarking hphase =>
                obtain ⟨rfl, rfl⟩ : call = marked ∧ tail = others := by
                  simpa [hwatchdog] using hmarking
                exact ⟨by simp [State.setCaller], by simp [State.setCaller],
                  hwf.outdated_not_queued call hhead, hwf.outdated_phase call hhead⟩
          · exact .inl htail
        · exact .inr (htimedOut.step hstep)

end Marking

/-- **A sweep is exact exactly when it meets no entry of negative age.**  For every
interleaving before and after the sweep takes `queue_mtx`: it erases and later times
out the calls older than the threshold and no others, if and only if no entry it found
was constructed a millisecond or more after it read the clock. -/
theorem sweep_exact_iff {transport : Option Channel} {clock now : Timestamp}
    {before marks : List (Action ι)} {swept after later : State ι}
    (hbefore : exec step (initial transport clock) before = some swept)
    (hsampled : swept.watchdog = .sampled now) (hcollect : step swept .collect = some after)
    (hsleep : Action.sleep ∉ marks) (hmarks : exec step after marks = some later)
    (hdone : later.watchdog = .marking []) :
    SweepExact now swept after marks later ↔
      ∀ id call, swept.queue.lookup id = some call → 0 ≤ swept.age now call := by
  have hwf : WellFormed swept := (wellFormed_initial transport clock).exec hbefore
  have hafterWf : WellFormed after := hwf.step (step_cases hcollect)
  obtain rfl : after = { swept with
      queue := swept.queue.filter fun _ call => !swept.expired now call
      watchdog := .marking (swept.queue.select fun _ call => swept.expired now call) } := by
    simpa [step, hsampled] using hcollect.symm
  have hmarked : ∀ call, Marked _ marks call ↔ call ∈ swept.queue.select _ := fun call =>
    marked_iff_mem rfl hsleep hmarks hdone
  constructor
  · intro hexact id call hlookup
    by_contra hnegative
    -- The entry is erased although the call is not overdue.
    obtain ⟨hexpired, hfresh⟩ := expired_of_age_neg (Int.not_le.mp hnegative)
    have hkept := (hexact.erased id call).mpr ⟨hlookup, hfresh⟩
    rw [StdMap.lookup_filter_eq_some] at hkept
    simp [hexpired] at hkept
  · intro hage
    have hexpired : ∀ id call, swept.queue.lookup id = some call →
        (swept.expired now call = true ↔ swept.IsOverdue now call) := fun id call hlookup =>
      expired_iff_isOverdue (hage id call hlookup)
    refine ⟨fun id call => ?_, rfl, fun call => ?_, fun call hcall => ?_⟩
    · rw [StdMap.lookup_filter_eq_some]
      refine and_congr_right fun hlookup => ?_
      rw [← hexpired id call hlookup, Bool.not_eq_true', Bool.not_eq_true]
    · rw [hmarked, StdMap.mem_select]
      exact exists_congr fun id => and_congr_right fun hlookup => hexpired id call hlookup
    · have htimedOut := isTimedOut_of_mem hafterWf rfl hsleep hmarks hdone
        (.inl ((hmarked call).mp hcall))
      exact ⟨htimedOut.ready, htimedOut.error⟩

/-- The sweep finds one call that is overdue and one that is not. -/
def ordinarySweep (first second : ι) : List (Action ι) :=
  [.draw first, .create first, .insert first, .send first .none, .tick ⟨3001000000, by decide⟩,
    .draw second, .create second, .insert second, .send second .none, .sample]

theorem sweep_exact_iff_ordinarySweep :
    ∃ now, ∃ swept after later : State (Fin 2),
      exec step (initial (some .new) .zero) (ordinarySweep 0 1) = some swept ∧
      SweepExact now swept after [.mark] later := by
  obtain ⟨later, hrun, hdone⟩ : ∃ later : State (Fin 2),
      exec step (initial (some .new) .zero) (ordinarySweep 0 1 ++ [.collect] ++ [.mark]) =
        some later ∧ decide (later.watchdog = .marking []) = true :=
    exists_exec_of_any (by decide)
  obtain ⟨after, hafter, hmarks⟩ := exec_append_eq_some.mp hrun
  obtain ⟨swept, hbefore, hcollect⟩ := exec_append_eq_some.mp hafter
  have hsampled : (exec step (initial (some .new) .zero) (ordinarySweep 0 1)).any
      (fun state : State (Fin 2) => decide (
        state.watchdog = .sampled ⟨3001000000, by decide⟩ ∧
          state.queue.entries.map (fun entry => entry.2) = [1, 0] ∧
          0 ≤ state.age ⟨3001000000, by decide⟩ 0 ∧
          0 ≤ state.age ⟨3001000000, by decide⟩ 1)) = true := by
    decide
  have hfound := check_of_exec hsampled hbefore
  simp only [decide_eq_true_eq] at hfound
  refine ⟨_, swept, after, later, hbefore,
    (sweep_exact_iff hbefore hfound.1 (by simpa using hcollect) (by decide) hmarks
      (of_decide_eq_true hdone)).mpr ?_⟩
  intro id call hlookup
  match call with
  | 0 => exact hfound.2.2.1
  | 1 => exact hfound.2.2.2

/-- The sweep reads the clock before a call is constructed and takes the mutex after
the call is inserted, two milliseconds later. -/
def preemptedSweep (call : ι) : List (Action ι) :=
  [.sample, .tick ⟨2000000, by decide⟩, .draw call, .create call, .insert call,
    .send call .none]

/-- The sweep times out a call that is younger than the sweep itself. -/
theorem fresh_call_timed_out :
    ∃ swept after later : State (Fin 1),
      exec step (initial (some .new) .zero) (preemptedSweep 0) = some swept ∧
      swept.watchdog = .sampled .zero ∧ step swept .collect = some after ∧
      exec step after [.mark] = some later ∧ later.watchdog = .marking [] ∧
      swept.age .zero 0 = -2 ∧ (later.caller 0).error = .timedout ∧
      ¬ SweepExact .zero swept after [.mark] later := by
  obtain ⟨later, hrun, hlater⟩ : ∃ later : State (Fin 1),
      exec step (initial (some .new) .zero) (preemptedSweep 0 ++ [.collect] ++ [.mark]) =
        some later ∧
      decide (later.watchdog = .marking [] ∧ (later.caller 0).error = .timedout ∧
        later.queue.lookup 1 = none) = true :=
    exists_exec_of_any (by decide)
  obtain ⟨after, hafter, hmarks⟩ := exec_append_eq_some.mp hrun
  obtain ⟨swept, hbefore, hcollect⟩ := exec_append_eq_some.mp hafter
  have hsampled : (exec step (initial (some .new) .zero) (preemptedSweep 0)).any
      (fun state : State (Fin 1) => decide (state.watchdog = .sampled .zero ∧
        state.queue.lookup 1 = some 0 ∧ state.age .zero 0 = -2)) = true := by
    decide
  have hfound := check_of_exec hsampled hbefore
  simp only [decide_eq_true_eq] at hfound
  have hcollected : (exec step (initial (some .new) .zero) (preemptedSweep 0 ++ [.collect])).any
      (fun state : State (Fin 1) => decide (state.queue.lookup 1 = none)) = true := by
    decide
  have hgone := check_of_exec hcollected hafter
  simp only [decide_eq_true_eq] at hgone
  obtain ⟨hdone, herror, _⟩ := of_decide_eq_true hlater
  refine ⟨swept, after, later, hbefore, hfound.1, by simpa using hcollect, hmarks, hdone,
    hfound.2.2, herror, fun hexact => ?_⟩
  have hfresh : ¬ swept.IsOverdue .zero 0 := by
    rw [State.IsOverdue, hfound.2.2]
    decide
  rw [(hexact.erased 1 0).mpr ⟨hfound.2.1, hfresh⟩] at hgone
  cases hgone

end FireboltTransport.Client
