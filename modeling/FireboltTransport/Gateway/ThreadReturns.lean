/-
# Every call returns, mutexes included

A call of `Request` that has sent its message waits without a bound of its own: it is the
peer or the watchdog that ends the wait.  Both may themselves have to wait for a mutex, and
a reply that finds a call which is answered already stops them all.  In a run without end in
which no reply does, and no call is inserted under the identifier of another, a call that
waits returns once the clock has passed its threshold, whether or not the peer ever answers.

The critical sections of such a run are a run without end of the coarse client.  What is
shown here is that this run treats the watchdog and the calls fairly; the rest has been shown
of the coarse client.
-/

import FireboltTransport.Gateway.CriticalSections
import FireboltTransport.Gateway.Returns
import FireboltTransport.Gateway.ThreadProgress

namespace FireboltTransport.ClientLocks

open Semantics Client

variable {ι ρ : Type}

/-! ## From one change of the data to the next -/

/-- How many moves a call takes at most before its data change, once it waits. -/
def RequestPoint.untilData : RequestPoint → ℕ
  | .eraseDone => 6
  | .eraseReleased | .insertDone => 5
  | .outside | .blocked => 4
  | .waitWants | .eraseWants => 3
  | .waitHolds | .eraseHolds => 2
  | .insertWants => 1
  | .insertHolds => 0

/-- How many moves the watchdog takes at most before it changes the data. -/
def WatchdogPoint.untilData : WatchdogPoint ι → ℕ
  | .sweepDone | .markDone _ => 3
  | .outside => 2
  | .sweepWants | .markWants _ => 1
  | .sweepHolds | .markHolds _ => 0

/-- A step takes at most one step of the coarse client. -/
theorem coarse_eq_toList (state : State ι ρ) (action : Action ι ρ) :
    coarse state action = (coarse state action).head?.toList := by
  cases action with
  | outside | start => rfl
  | move thread =>
      simp only [coarse]
      generalize state.locks.point thread = point
      cases thread <;> cases point <;> simp only [coarseMove] <;>
        first | rfl | (split_ifs <;> rfl)

/-- A watchdog with nothing to lock is at the end of its round or asleep. -/
theorem watchdog_cases_of_not_busy {client : Client.State ι} {point : WatchdogPoint ι}
    (hidle : ¬ IsBusy client (.watchdog : Thread ι ρ) point) :
    point = .outside ∧ (client.watchdog = .sleeping ∨ client.watchdog = .marking []) := by
  simp only [IsBusy, Classical.not_imp, not_or, not_exists] at hidle
  obtain ⟨hpoint, hsampled, hmarking⟩ := hidle
  refine ⟨hpoint, ?_⟩
  cases hwatchdog : client.watchdog with
  | sleeping => exact .inl rfl
  | sampled now => exact absurd hwatchdog (hsampled now)
  | marking outdated =>
      cases outdated with
      | nil => exact .inr rfl
      | cons head rest => exact absurd hwatchdog (hmarking head rest)

variable [DecidableEq ι] {client : Client.State ι}

theorem untilData_watchdog_lt {point : WatchdogPoint ι} {move : Move ι (WatchdogPoint ι)}
    (hmove : watchdogMove client point = some move) :
    (∃ seen, (coarseMove client (.watchdog : Thread ι ρ) point).head? = some seen ∧
      seen.isWatchdog = true) ∨ move.next.untilData < point.untilData := by
  cases watchdogMove_cases hmove with
  | collect | mark => exact .inl ⟨_, rfl, rfl⟩
  | beginSweep | beginMark | lockSweep | unlockSweep | lockMark | unlockMark =>
      exact .inr (by simp [WatchdogPoint.untilData])

/-- The call has been answered, and has not read its outcome yet. -/
def CanEnd (client : Client.State ι) (call : ι) : Prop :=
  client.phase call = .waiting ∧ (client.caller call).ready = true ∨
    client.phase call = .woken ∨ client.phase call = .erased ∨
      ∃ succeeded, client.phase call = .checked succeeded

theorem canEnd_of_isSome {call : ι} {seen : Client.Action ι} (hending : seen.ending = some call)
    (hpossible : (Client.step client seen).isSome = true) : CanEnd client call := by
  obtain ⟨later, hstep⟩ := Option.isSome_iff_exists.mp hpossible
  cases Client.step_cases hstep with
  | wake own hphase hready =>
      cases hending
      exact .inl ⟨hphase, hready⟩
  | erase own hphase =>
      cases hending
      exact .inr (.inl hphase)
  | check own hphase =>
      cases hending
      exact .inr (.inr (.inl hphase))
  | readResponse own hphase | readError own hphase =>
      cases hending
      exact .inr (.inr (.inr ⟨_, hphase⟩))
  | setTransport | tick | refuse | draw | create | insert | send | sendFailed | ignore | response
  | sample | collect | mark | sleep => cases hending

theorem untilData_request_lt {call : ι} {point : RequestPoint} {move : Move ι RequestPoint}
    (hcanEnd : CanEnd client call) (hfact : Fact client (.request call : Thread ι ρ) point)
    (hmove : requestMove client call point = some move) :
    (∃ seen, (coarseMove client (.request call : Thread ι ρ) point).head? = some seen ∧
      seen.ending = some call) ∨ move.next.untilData < point.untilData := by
  cases requestMove_cases hmove with
  | wake hready => exact .inl ⟨.wake call, by simp [coarseMove, hready], rfl⟩
  | erase => exact .inl ⟨.erase call, rfl, rfl⟩
  | beginInsert hphase => simp [CanEnd, hphase] at hcanEnd
  | lockInsert | insert =>
      have hphase := hfact.1
      simp [CanEnd, hphase] at hcanEnd
  | block hready =>
      have hphase := hfact.1
      simp [CanEnd, hphase, hready] at hcanEnd
  | beginWait | unlockInsert | lockWait | notified | lockErase | unlockErase | unlockWait =>
      exact .inr (by simp [RequestPoint.untilData])

end FireboltTransport.ClientLocks

namespace FireboltTransport.Wakeups

open Semantics ClientLocks

variable {ι ρ : Type} [DecidableEq ι] [DecidableEq ρ]

/-! ## The critical sections of a run without end -/

/-- The step of the coarse client that a step takes, if any. -/
def coarse (state : State ι ρ) (action : Action ι ρ) : Option (Client.Action ι) :=
  action.base.bind fun below => (ClientLocks.coarse state.base below).head?

section Step

variable {state next : State ι ρ} {action : Action ι ρ}

theorem exec_coarse_base (hattended : Attended state) (htaken : step state action = some next)
    {below : ClientLocks.Action ι ρ} (hbase : action.base = some below) :
    exec Client.step state.base.client (coarse state action).toList = some next.base.client := by
  rw [coarse, hbase, Option.bind_some, ← coarse_eq_toList]
  exact ClientLocks.exec_coarse hattended.consistent (step_of_base htaken hbase)

theorem step_of_coarse (hattended : Attended state) (htaken : step state action = some next)
    {seen : Client.Action ι} (hseen : coarse state action = some seen) :
    Client.step state.base.client seen = some next.base.client := by
  obtain ⟨below, hbase, _⟩ := Option.bind_eq_some_iff.mp hseen
  have hexec := exec_coarse_base hattended htaken hbase
  rw [hseen] at hexec
  obtain ⟨later, hstep, hrest⟩ := exec_cons_eq_some.mp hexec
  rw [hstep]
  exact hrest

theorem client_of_coarse (hattended : Attended state) (htaken : step state action = some next)
    (hunseen : coarse state action = none) : next.base.client = state.base.client := by
  cases hbase : action.base with
  | none => rw [base_of_step htaken hbase]
  | some below =>
      have hexec := exec_coarse_base hattended htaken hbase
      rw [hunseen] at hexec
      exact (Option.some.inj hexec).symm

end Step

/-- The run of the coarse client. -/
def coarseRun (run : Endless (step (ι := ι) (ρ := ρ)))
    (hsound : ∀ moment, Sound (run.state moment)) : Endless (Client.step (ι := ι)) :=
  run.project (fun state => state.base.client) coarse
    (fun moment _ _ haction hseen =>
      step_of_coarse (hsound moment).attended (run.taken haction) hseen)
    (fun moment _ haction hunseen =>
      client_of_coarse (hsound moment).attended (run.taken haction) hunseen)

section Runs

variable {run : Endless (step (ι := ι) (ρ := ρ))} {hsound : ∀ moment, Sound (run.state moment)}
  {start : ℕ}

theorem coarseRun_action {moment : ℕ} {action : Action ι ρ} {seen : Client.Action ι}
    (haction : run.action moment = some action)
    (hseen : coarse (run.state moment) action = some seen) :
    (coarseRun run hsound).action moment = some seen :=
  Option.bind_eq_some_iff.mpr ⟨action, haction, hseen⟩

/-- A thread between its critical sections, where `motive` holds until a `wanted` step of the
client, gets to such a step when it is treated fairly. -/
theorem exists_outside {thread : Thread ι ρ} {here : thread.Point}
    {motive : Client.State ι → Prop} {helpful : Action ι ρ → Prop}
    {wanted : Client.Action ι → Prop} (hfair : run.Fair helpful)
    (hvisitor : ∀ visitor, thread ≠ .visitor visitor)
    (hpoint : (run.state start).base.locks.point thread = here)
    (hmotive : motive (run.state start).base.client)
    (hidle : ∀ client, motive client → moveAt client thread here = none)
    (hkeeps : ∀ client seen next, motive client → Client.Step client seen next → ¬ wanted seen →
      motive next)
    (henabled : ∀ state : State ι ρ, state.base.locks.point thread = here →
      motive state.base.client → ∃ action, helpful action ∧ (step state action).isSome = true)
    (hhelpful : ∀ state action, helpful action → ∃ seen, coarse state action = some seen ∧
      wanted seen) :
    ∃ moment ≥ start, ∃ seen, (coarseRun run hsound).action moment = some seen ∧ wanted seen := by
  by_contra hnever
  push Not at hnever
  have hkept : ∀ moment ≥ start, (run.state moment).base.locks.point thread = here ∧
      motive (run.state moment).base.client := by
    apply run.always_of_step (motive := fun state => state.base.locks.point thread = here ∧
      motive state.base.client) ⟨hpoint, hmotive⟩
    rintro moment hmoment action haction ⟨hpoint, hmotive⟩
    have htaken := run.taken haction
    constructor
    · refine (point_step htaken ?_ hvisitor).trans hpoint
      rintro rfl
      rw [step_eq_none_of_idle (hpoint.symm ▸ hidle _ hmotive)] at htaken
      cases htaken
    · cases hseen : coarse (run.state moment) action with
      | none =>
          rw [client_of_coarse (hsound moment).attended htaken hseen]
          exact hmotive
      | some seen =>
          have hstep := Client.step_cases (step_of_coarse (hsound moment).attended htaken hseen)
          exact hkeeps _ _ _ hmotive hstep
            (hnever moment hmoment seen (coarseRun_action haction hseen))
  obtain ⟨moment, hmoment, action, haction, htaken⟩ := hfair start fun moment hmoment =>
    henabled _ (hkept moment hmoment).1 (hkept moment hmoment).2
  obtain ⟨seen, hseen, hwanted⟩ := hhelpful (run.state moment) action htaken
  exact hnever moment hmoment seen (coarseRun_action haction hseen) hwanted

/-! ## The watchdog is treated fairly -/

/-- It then reads the clock or goes to sleep. -/
theorem exists_outside_watchdog (hfair : TreatedFairly run)
    (hpoint : (run.state start).base.watchdogPoint = .outside)
    (hidle : (run.state start).base.client.watchdog = .sleeping ∨
      (run.state start).base.client.watchdog = .marking []) :
    ∃ moment ≥ start, ∃ seen, (coarseRun run hsound).action moment = some seen ∧
      seen.isWatchdog = true := by
  refine exists_outside (motive := fun client =>
    client.watchdog = .sleeping ∨ client.watchdog = .marking []) hfair.watchdog (by simp) hpoint
    hidle ?_ ?_ ?_ ?_
  · rintro client (hwatchdog | hwatchdog) <;> simp [moveAt, watchdogMove, hwatchdog]
  · intro client seen next hidle hstep hwanted
    rwa [Client.watchdog_step hstep (Bool.eq_false_iff.mpr hwanted)]
  · intro state hpoint hidle
    have houtside : state.base.watchdogPoint = .outside := hpoint
    rcases hidle with hwatchdog | hwatchdog
    · exact ⟨_, .inl rfl, by simp [step, ClientLocks.step, ClientLocks.State.isOutside, houtside,
        Client.step, hwatchdog]⟩
    · exact ⟨_, .inr rfl, by simp [step, ClientLocks.step, ClientLocks.State.isOutside, houtside,
        Client.step, hwatchdog]⟩
  · rintro state action (rfl | rfl)
    · exact ⟨.sample, rfl, rfl⟩
    · exact ⟨.sleep, rfl, rfl⟩

/-- The watchdog takes its next step: the induction is on the moves until then. -/
theorem exists_watchdog (hfair : TreatedFairly run) (start : ℕ) :
    ∃ moment ≥ start, ∃ seen, (coarseRun run hsound).action moment = some seen ∧
      seen.isWatchdog = true := by
  induction hcount : (run.state start).base.watchdogPoint.untilData using
    Nat.strong_induction_on generalizing start with
  | _ count ih =>
      by_cases hbusy : IsBusy (run.state start).base.client (.watchdog : Thread ι ρ)
          (run.state start).base.watchdogPoint
      · obtain ⟨first, hfirst, haction, hpoint⟩ :=
          exists_move hsound hfair
            (show IsActive (run.state start) .watchdog from ⟨hbusy, by simp⟩)
        have hsame : (run.state first).base.watchdogPoint =
            (run.state start).base.watchdogPoint := hpoint
        obtain ⟨move, hmove, _, hnext⟩ := exists_moveAt (step_of_base (run.taken haction) rfl)
        rcases untilData_watchdog_lt hmove with ⟨seen, hseen, hwatchdog⟩ | hless
        · exact ⟨first, hfirst, seen, coarseRun_action haction hseen, hwatchdog⟩
        · rw [← hnext] at hless
          obtain ⟨moment, hmoment, htaken⟩ := ih _ (hcount ▸ hsame ▸ hless) (first + 1) rfl
          exact ⟨moment, (Nat.le_succ_of_le hfirst).trans hmoment, htaken⟩
      · obtain ⟨hpoint, hidle⟩ := watchdog_cases_of_not_busy hbusy
        exact exists_outside_watchdog hfair hpoint hidle

/-! ## The calls are treated fairly -/

variable {call : ι}

/-- A call that is asleep does not move. -/
theorem ne_move_of_asleep {state next : State ι ρ} {action : Action ι ρ}
    (hattended : Attended state) (hasleep : state.asleep call = true)
    (htaken : step state action = some next) : action ≠ .move (.request call) := by
  rintro rfl
  simp only [step] at htaken
  split_ifs at htaken with hmay
  rw [awake_of_mayMove hmay (hattended.blocked call hasleep)] at hasleep
  cases hasleep

/-- The notification of a sleeper that is due wakes it, unless it wakes up before. -/
theorem exists_awake (hsound : ∀ moment, Sound (run.state moment)) (hfair : TreatedFairly run)
    (hasleep : (run.state start).asleep call = true)
    (hready : ((run.state start).base.client.caller call).ready = true) :
    ∃ later ≥ start, (run.state later).asleep call = false := by
  by_contra hnever
  push Not at hnever
  obtain ⟨thread, hnotifies, hfresh⟩ := (hsound start).attended.attended call hasleep hready
  have hkept : ∀ moment ≥ start, (run.state moment).notifies thread = some call ∧
      (run.state moment).notified thread = false := by
    apply run.always_of_step (motive := fun state => state.notifies thread = some call ∧
      state.notified thread = false) ⟨hnotifies, hfresh⟩
    rintro moment hmoment action haction ⟨hnotifies, hfresh⟩
    have htaken := run.taken haction
    have hmove : action ≠ .move thread := by
      rintro rfl
      simp only [step] at htaken
      split_ifs at htaken with hmay
      rw [notified_of_mayMove hmay hnotifies] at hfresh
      cases hfresh
    have hnotify : action ≠ .notify thread := by
      rintro rfl
      simp only [step, hnotifies, Option.some.injEq] at htaken
      apply hnever (moment + 1) (Nat.le_succ_of_le hmoment)
      rw [← htaken]
      exact Function.update_self ..
    rw [notified_step htaken hmove hnotify]
    exact ⟨notifies_step (hsound moment).attended htaken hmove hnotifies, hfresh⟩
  obtain ⟨moment, hmoment, _, haction, rfl⟩ := hfair.notifies thread start fun moment hmoment =>
    ⟨_, rfl, by simp [step, (hkept moment hmoment).1]⟩
  have htaken := run.taken haction
  simp only [step, (hkept moment hmoment).1, Option.some.injEq] at htaken
  apply hnever (moment + 1) (Nat.le_succ_of_le hmoment)
  rw [← htaken]
  exact Function.update_self ..

/-- It is then where it fell asleep. -/
theorem exists_awake_blocked (hsound : ∀ moment, Sound (run.state moment))
    (hfair : TreatedFairly run) (hasleep : (run.state start).asleep call = true)
    (hready : ((run.state start).base.client.caller call).ready = true) :
    ∃ later ≥ start, (run.state later).asleep call = false ∧
      (run.state later).base.requestPoint call = .blocked := by
  obtain ⟨later, hlater, hawake, hstill⟩ :=
    Endless.exists_first (exists_awake hsound hfair hasleep hready)
  refine ⟨later, hlater, hawake, ?_⟩
  refine run.kept_before (motive := fun state => state.base.requestPoint call = .blocked) hlater
    ((hsound start).attended.blocked call hasleep) ?_
  intro between hbetween hless hpoint
  have hsleeps : (run.state between).asleep call = true := by
    simpa using hstill between hbetween hless
  cases haction : run.action between with
  | none =>
      rw [run.idle haction]
      exact hpoint
  | some action =>
      have htaken := run.taken haction
      have hmove := ne_move_of_asleep (hsound between).attended hsleeps htaken
      exact (point_step htaken hmove (by simp)).trans hpoint

omit [DecidableEq ι] [DecidableEq ρ] in
/-- A sleeper that can come to its end has been answered. -/
theorem ready_of_asleep {state : State ι ρ} (hattended : Attended state)
    (hasleep : state.asleep call = true) (hcanEnd : CanEnd state.base.client call) :
    (state.base.client.caller call).ready = true := by
  have hfact := hattended.consistent.fact (.request call)
  rw [show state.base.locks.point (.request call) = .blocked from
    hattended.blocked call hasleep] at hfact
  rcases hcanEnd with ⟨_, hready⟩ | hother
  · exact hready
  · simp [hfact.1] at hother

omit [DecidableEq ι] [DecidableEq ρ] in
/-- A call that can come to its end and has no move to make has left its critical sections. -/
theorem outside_of_not_busy {state : State ι ρ} (hattended : Attended state)
    (hcanEnd : CanEnd state.base.client call)
    (hidle : ¬ IsBusy state.base.client (.request call : Thread ι ρ)
      (state.base.requestPoint call)) :
    state.base.requestPoint call = .outside ∧ (state.base.client.phase call = .erased ∨
      ∃ succeeded, state.base.client.phase call = .checked succeeded) := by
  simp only [IsBusy, Classical.not_imp, not_or] at hidle
  obtain ⟨houtside, _, hwaiting⟩ := hidle
  refine ⟨houtside, ?_⟩
  rcases hcanEnd with ⟨hphase, _⟩ | hwoken | hread
  · exact absurd hphase hwaiting
  · have hfact := hattended.consistent.fact (.request call)
    rw [show state.base.locks.point (.request call) = .outside from houtside] at hfact
    exact absurd hwoken hfact
  · exact hread

/-- A call that has left its critical sections reads its outcome. -/
theorem exists_outside_call (hfair : TreatedFairly run)
    (hpoint : (run.state start).base.requestPoint call = .outside)
    (hphase : (run.state start).base.client.phase call = .erased ∨
      ∃ succeeded, (run.state start).base.client.phase call = .checked succeeded) :
    ∃ moment ≥ start, ∃ seen, (coarseRun run hsound).action moment = some seen ∧
      seen.ending = some call := by
  refine exists_outside (motive := fun client =>
    client.phase call = .erased ∨ ∃ succeeded, client.phase call = .checked succeeded)
    (hfair.calls call) (by simp) hpoint hphase ?_ ?_ ?_ ?_
  · rintro client (hphase | ⟨succeeded, hphase⟩) <;> simp [moveAt, requestMove, hphase]
  · intro client seen next hphase hstep hwanted
    rw [Client.phase_step hstep]
    · exact hphase
    · intro hactor
      apply hwanted
      refine Client.ending_of_actor hstep hactor ?_
      rcases hphase with hphase | ⟨succeeded, hphase⟩ <;> simp [hphase, Client.Phase.hasSent]
  · intro state hpoint hphase
    have houtside : state.base.requestPoint call = .outside := hpoint
    rcases hphase with hphase | ⟨succeeded, hphase⟩
    · exact ⟨_, .inl rfl, by simp [step, ClientLocks.step, ClientLocks.State.isOutside, houtside,
        Client.step, hphase]⟩
    · refine ⟨_, .inr rfl, ?_⟩
      cases succeeded <;> simp [step, ClientLocks.step, ClientLocks.State.isOutside, houtside,
        Client.step, hphase]
  · rintro state action (rfl | rfl)
    · exact ⟨.check call, rfl, rfl⟩
    · exact ⟨.read call, rfl, rfl⟩

/-- A call that has been answered takes its next step: the induction is on the moves until
then. -/
theorem exists_ending (hfair : TreatedFairly run)
    (hcanEnd : ∀ moment ≥ start, CanEnd (run.state moment).base.client call) :
    ∃ moment ≥ start, ∃ seen, (coarseRun run hsound).action moment = some seen ∧
      seen.ending = some call := by
  induction hcount : ((run.state start).base.requestPoint call).untilData using
    Nat.strong_induction_on generalizing start with
  | _ count ih =>
      -- From a moment at which the call is awake, where it is at the start.
      have hawake : ∀ moment ≥ start, (run.state moment).asleep call = false →
          (run.state moment).base.requestPoint call = (run.state start).base.requestPoint call →
          ∃ later ≥ moment, ∃ seen, (coarseRun run hsound).action later = some seen ∧
            seen.ending = some call := by
        intro moment hmoment hnot hpoint
        rw [← hpoint] at hcount
        by_cases hbusy : IsBusy (run.state moment).base.client (.request call : Thread ι ρ)
            ((run.state moment).base.requestPoint call)
        · obtain ⟨first, hfirst, haction, hsame⟩ :=
            exists_move hsound hfair (show IsActive (run.state moment) (.request call) from
              ⟨hbusy, fun own hown => by cases hown; exact hnot⟩)
          have hafter := hmoment.trans hfirst
          obtain ⟨move, hmove, _, hnext⟩ := exists_moveAt (step_of_base (run.taken haction) rfl)
          rcases untilData_request_lt (hcanEnd first hafter)
            ((hsound first).attended.consistent.fact (.request call)) hmove with
            ⟨seen, hseen, hending⟩ | hless
          · exact ⟨first, hfirst, seen, coarseRun_action haction hseen, hending⟩
          · rw [← hnext, hsame] at hless
            obtain ⟨later, hlater, htaken⟩ := ih _ (hcount ▸ hless)
              (fun other hother => hcanEnd other (hafter.trans ((Nat.le_succ _).trans hother))) rfl
            exact ⟨later, hfirst.trans ((Nat.le_succ _).trans hlater), htaken⟩
        · obtain ⟨houtside, hphase⟩ :=
            outside_of_not_busy (hsound moment).attended (hcanEnd moment hmoment) hbusy
          exact exists_outside_call hfair houtside hphase
      cases hasleep : (run.state start).asleep call with
      | false => exact hawake start (Nat.le_refl start) hasleep rfl
      | true =>
          have hattended := (hsound start).attended
          obtain ⟨later, hlater, hnot, hpoint⟩ := exists_awake_blocked hsound hfair hasleep
            (ready_of_asleep hattended hasleep (hcanEnd start (Nat.le_refl start)))
          have hsame := hpoint.trans (hattended.blocked call hasleep).symm
          obtain ⟨moment, hmoment, htaken⟩ := hawake later hlater hnot hsame
          exact ⟨moment, hlater.trans hmoment, htaken⟩

end Runs

/-! ## Every call returns -/

/-- A call is inserted under an identifier that no other registered call has. -/
def InsertsUnusedId (state : State ι ρ) (action : Action ι ρ) : Prop :=
  ∀ seen, coarse state action = some seen → Client.InsertsUnusedId state.base.client seen

/-- **Every call returns.**  In every run without end of the client with its mutexes and its
condition variables in which the threads are treated fairly, no reply is looked up while the
call it finds is already answered and has still to erase its entry, and no call is inserted
under the identifier of another registered call: a call that waits returns, when the clock gets
to where the call is overdue.  The peer need not answer, and transports may be replaced. -/
theorem returned_of_findsUnanswered {transport : Option Channel} {clock : Timestamp}
    {run : Endless (step (ι := ι) (ρ := ρ))} (hstart : run.state 0 = initial transport clock)
    (hfinds : ∀ moment action, run.action moment = some action →
      FindsUnanswered (run.state moment) action)
    (hunused : ∀ moment action, run.action moment = some action →
      InsertsUnusedId (run.state moment) action)
    (hfair : TreatedFairly run) {call : ι} {start later : ℕ}
    (hwaiting : (run.state start).base.client.phase call = .waiting) (hlater : start ≤ later)
    (hoverdue : (run.state later).base.client.IsOverdue
      (run.state later).base.client.clock call) :
    ∃ moment ≥ start, ∃ outcome,
      (run.state moment).base.client.phase call = .returned outcome := by
  have hsound := sound_of_findsUnanswered hstart hfinds
  have hfirst : (coarseRun run hsound).state 0 = Client.initial transport clock := by
    change (run.state 0).base.client = _
    rw [hstart]
    rfl
  have hcoarseUnused : ∀ moment seen, (coarseRun run hsound).action moment = some seen →
      Client.InsertsUnusedId ((coarseRun run hsound).state moment) seen := by
    intro moment seen htaken
    obtain ⟨action, haction, hseen⟩ := Option.bind_eq_some_iff.mp htaken
    exact hunused moment action haction seen hseen
  have hcalls : ∀ call, (coarseRun run hsound).Fair fun seen => seen.ending = some call := by
    intro call start henabled
    apply exists_ending hfair
    intro moment hmoment
    obtain ⟨seen, hending, hpossible⟩ := henabled moment hmoment
    exact canEnd_of_isSome hending hpossible
  have hwatchdog : (coarseRun run hsound).Fair fun seen => seen.isWatchdog = true :=
    fun start _ => exists_watchdog hfair start
  exact Client.exists_returned (Client.sound_of_insertsUnusedId hfirst hcoarseUnused)
    hcoarseUnused hwatchdog hcalls hwaiting hlater hoverdue

/-- A call that the peer does not answer in time, the sweep that ends it, and its reply. -/
def answeredLate (call : ι) (visitor : ρ) : List (Action ι ρ) :=
  List.flatten [[.outside (.draw call), .outside (.create call)],
    .replicate 4 (.move (.request call)), [.outside (.send call .none)],
    .replicate 3 (.move (.request call)),
    [.outside (.tick ⟨3003000000, by decide⟩), .outside .sample],
    .replicate 7 (.move .watchdog), [.notify .watchdog, .move .watchdog, .outside .sleep],
    .replicate 7 (.move (.request call)), [.outside (.check call), .outside (.read call)],
    [.start visitor (.response (.reply 1 ['a']))], .replicate 3 (.move (.visitor visitor))]

/-- A round of the watchdog that collects nothing. -/
def watchdogRound : List (Action ι ρ) :=
  .outside .sample :: .replicate 4 (.move .watchdog) ++ [.outside .sleep]

/-- It leaves everything as it was. -/
theorem exec_watchdogRound {state : State ι ρ} (hqueue : state.base.client.queue.entries = [])
    (hwatchdog : state.base.client.watchdog = .sleeping)
    (hpoint : state.base.watchdogPoint = .outside)
    (hholder : state.base.locks.holder .queueMtx = none)
    (hnotified : state.notified .watchdog = false) :
    exec step state watchdogRound = some state := by
  obtain ⟨⟨⟨transport, queue, caller, phase, clock, watchdog⟩, ⟨point, holder⟩⟩, asleep,
    notified⟩ := state
  simp only [ClientLocks.State.watchdogPoint] at hqueue hwatchdog hpoint hholder hnotified
  obtain rfl : queue = ∅ := AList.ext hqueue
  subst hwatchdog
  have hhere : Function.update point .watchdog .outside = point := by
    rw [← hpoint, Function.update_eq_self]
  have hfree : Function.update holder .queueMtx none = holder := by
    rw [← hholder, Function.update_eq_self]
  have hstill : Function.update notified .watchdog false = notified := by
    rw [← hnotified, Function.update_eq_self]
  simp only [watchdogRound, List.replicate, List.cons_append, List.nil_append, exec_cons,
    exec_nil, step, State.mayMove, State.notifies, notifies, State.asleepAfter, ClientLocks.step,
    ClientLocks.State.isOutside, ClientLocks.State.watchdogPoint, hpoint, Client.step, moveAt,
    watchdogMove, Locks.move, hholder, Function.update_self, Function.update_idem, hhere, hfree,
    hstill, decide_true, if_true, Option.map_some, Option.bind_some, Option.isNone_none,
    Bool.true_or, Bool.and_self]
  rfl

omit [DecidableEq ι] [DecidableEq ρ] in
theorem mem_watchdogRound {action : Action ι ρ} (hmem : action ∈ watchdogRound) :
    action = .outside .sample ∨ action = .move .watchdog ∨ action = .outside .sleep := by
  simpa [watchdogRound] using hmem

/-- The round is the watchdog's alone. -/
theorem step_of_watchdogRound {state next : State ι ρ} {action : Action ι ρ}
    (hmem : action ∈ watchdogRound) (htaken : step state action = some next) :
    (∀ thread, thread ≠ .watchdog →
      next.base.locks.point thread = state.base.locks.point thread) ∧
        next.base.client.phase = state.base.client.phase := by
  rcases mem_watchdogRound hmem with rfl | rfl | rfl
  · obtain ⟨base, hbase, rfl⟩ := Option.map_eq_some_iff.mp htaken
    cases ClientLocks.step_cases hbase with
    | outside _ client _ hclient =>
        cases hclient
        exact ⟨fun _ _ => rfl, rfl⟩
  · have hstep := step_of_base htaken rfl
    obtain ⟨move, hmove, hclient, _⟩ := exists_moveAt hstep
    constructor
    · exact fun thread hthread =>
        ClientLocks.point_step hstep (by simpa using Ne.symm hthread) (by simp)
    · rw [hclient]
      generalize state.base.locks.point .watchdog = point at hmove
      cases watchdogMove_cases hmove <;> rfl
  · obtain ⟨base, hbase, rfl⟩ := Option.map_eq_some_iff.mp htaken
    cases ClientLocks.step_cases hbase with
    | outside _ client _ hclient =>
        cases hclient
        exact ⟨fun _ _ => rfl, rfl⟩

/-- The call, and the watchdog's rounds from then on. -/
def answeredLateRun : Endless (step (ι := Unit) (ρ := Unit)) :=
  .follow step (initial (some .new) .zero)
    (Endless.cycle (answeredLate () ()) watchdogRound (.outside .sample))

/-- Every thread but the watchdog is done, and the watchdog is asleep. -/
structure AllDone (state : State Unit Unit) : Prop where
  queue : state.base.client.queue.entries = []
  watchdog : state.base.client.watchdog = .sleeping
  watchdogPoint : state.base.watchdogPoint = .outside
  queueMtx : state.base.locks.holder .queueMtx = none
  notified : state.notified .watchdog = false
  requestPoint : state.base.requestPoint () = .outside
  visitorPoint : state.base.visitorPoint () = .outside
  phase : state.base.client.phase () = .returned (.error .timedout)

theorem exists_allDone : ∃ middle : State Unit Unit,
    exec step (initial (some .new) .zero) (answeredLate () ()) = some middle ∧ AllDone middle := by
  obtain ⟨middle, hbefore, hfacts⟩ : ∃ middle : State Unit Unit,
      exec step (initial (some .new) .zero) (answeredLate () ()) = some middle ∧
        decide (middle.base.client.queue.entries.length = 0 ∧
          middle.base.client.watchdog = .sleeping ∧ middle.base.watchdogPoint = .outside ∧
          middle.base.locks.holder .queueMtx = none ∧ middle.notified .watchdog = false ∧
          middle.base.requestPoint () = .outside ∧ middle.base.visitorPoint () = .outside ∧
          middle.base.client.phase () = .returned (.error .timedout)) = true :=
    exists_exec_of_any (by decide)
  obtain ⟨hqueue, hwatchdog, hpoint, hholder, hnotified, hcall, hvisitor, hphase⟩ :=
    of_decide_eq_true hfacts
  exact ⟨middle, hbefore, List.length_eq_zero_iff.mp hqueue, hwatchdog, hpoint, hholder, hnotified,
    hcall, hvisitor, hphase⟩

theorem AllDone.round {state : State Unit Unit} (hdone : AllDone state) :
    exec step state watchdogRound = some state :=
  exec_watchdogRound hdone.queue hdone.watchdog hdone.watchdogPoint hdone.queueMtx hdone.notified

theorem AllDone.notifies {state : State Unit Unit} (hdone : AllDone state)
    (thread : Thread Unit Unit) : state.notifies thread = none := by
  cases thread with
  | request call => rfl
  | visitor visitor =>
      rw [State.notifies, show state.base.locks.point (.visitor visitor) = .outside from
        hdone.visitorPoint]
      rfl
  | watchdog =>
      rw [State.notifies, show state.base.locks.point .watchdog = .outside from hdone.watchdogPoint]
      rfl

/-- After the call has returned only the watchdog moves. -/
theorem answeredLateRun_idle : ∀ moment ≥ (answeredLate () ()).length,
    (answeredLateRun.state moment).base.requestPoint () = .outside ∧
      (answeredLateRun.state moment).base.visitorPoint () = .outside ∧
      (answeredLateRun.state moment).base.client.phase () = .returned (.error .timedout) := by
  obtain ⟨middle, hbefore, hdone⟩ := exists_allDone
  refine Endless.always_of_round (motive := fun state => state.base.requestPoint () = .outside ∧
    state.base.visitorPoint () = .outside ∧
    state.base.client.phase () = .returned (.error .timedout)) (.outside .sample) hbefore
    hdone.round (by decide) ⟨hdone.requestPoint, hdone.visitorPoint, hdone.phase⟩ ?_
  rintro action hmem state next ⟨hcall, hvisitor, hphase⟩ htaken
  obtain ⟨hpoints, hphases⟩ := step_of_watchdogRound hmem htaken
  exact ⟨(hpoints _ (by simp)).trans hcall, (hpoints _ (by simp)).trans hvisitor,
    (congrFun hphases ()).trans hphase⟩

theorem answeredLateRun_treatedFairly : TreatedFairly answeredLateRun := by
  obtain ⟨middle, hbefore, hdone⟩ := exists_allDone
  have hround := hdone.round
  constructor
  · intro thread
    cases thread with
    | watchdog =>
        exact Endless.stronglyFair_of_round hbefore hround (by simp [watchdogRound]) rfl
    | request call =>
        refine Endless.stronglyFair_of_never
          fun moment (hmoment : moment ≥ (answeredLate () ()).length) _ hmove => ?_
        obtain ⟨hcall, _, hphase⟩ := answeredLateRun_idle moment hmoment
        rw [hmove]
        apply step_eq_none_of_idle
        rw [show (answeredLateRun.state moment).base.locks.point (.request call) = .outside from
          hcall]
        simp [moveAt, requestMove, hphase]
    | visitor visitor =>
        refine Endless.stronglyFair_of_never
          fun moment (hmoment : moment ≥ (answeredLate () ()).length) _ hmove => ?_
        obtain ⟨_, hvisitor, _⟩ := answeredLateRun_idle moment hmoment
        rw [hmove]
        apply step_eq_none_of_idle
        rw [show (answeredLateRun.state moment).base.locks.point (.visitor visitor) = .outside from
          hvisitor]
        rfl
  · intro thread
    apply Endless.fair_of_disabled hbefore hround (by decide)
    rintro _ rfl
    simp [step, hdone.notifies]
  · exact Endless.fair_of_round hbefore hround (by simp [watchdogRound]) (.inl rfl)
  · intro call
    apply Endless.fair_of_disabled hbefore hround (by decide)
    rintro _ (rfl | rfl) <;>
      simp [step, ClientLocks.step, Client.step, hdone.phase]

theorem answeredLateRun_findsUnanswered (moment : ℕ) (action : Action Unit Unit)
    (haction : answeredLateRun.action moment = some action) :
    FindsUnanswered (answeredLateRun.state moment) action := by
  obtain ⟨middle, hbefore, hdone⟩ := exists_allDone
  have hmeets : Meets step FindsUnanswered (initial (some .new) .zero : State Unit Unit)
      (answeredLate () () ++ watchdogRound) := by decide
  rw [← Endless.scheduled_of_action haction]
  exact Endless.meets_of_round hbefore hdone.round (by decide) hmeets moment

theorem returned_of_findsUnanswered_answeredLateRun :
    ∃ moment ≥ 7, ∃ outcome,
      (answeredLateRun.state moment).base.client.phase () = .returned outcome := by
  have hsound := sound_of_findsUnanswered rfl answeredLateRun_findsUnanswered
  have hunused : ∀ moment action, answeredLateRun.action moment = some action →
      InsertsUnusedId (answeredLateRun.state moment) action := by
    intro moment action haction seen hseen
    exact Client.insertsUnusedId_of_subsingleton (Client.step_cases
      (step_of_coarse (hsound moment).attended (answeredLateRun.taken haction) hseen))
  have hwaiting : (answeredLateRun.state 7).base.client.phase () = .waiting := rfl
  have hlate : (answeredLateRun.state 11).base.client.IsOverdue
      (answeredLateRun.state 11).base.client.clock () := by
    have hclock : (answeredLateRun.state 11).base.client.clock = ⟨3003000000, by decide⟩ := rfl
    have hsent : ((answeredLateRun.state 11).base.client.caller ()).timestamp = .zero := rfl
    rw [Client.State.IsOverdue, Client.State.age, hclock, hsent]
    decide
  exact returned_of_findsUnanswered rfl answeredLateRun_findsUnanswered hunused
    answeredLateRun_treatedFairly hwaiting (by decide) hlate

end FireboltTransport.Wakeups
