/-
# A clash locks the other threads out

A `Send` that finds its identifier in `_pendingQueue` returns between the lock and
the unlock.  No later unlock makes up for it: an unlock gives back the hold its
own operation took, so the holds a thread had when an operation began are there
when the operation ends, and the one left behind is there for ever.

What that means for the other threads is stated for every run.  From the clash on
none of them is inside a critical section, and what they begin is refused before
the lock or waits at the lock in every later state: no message is sent, no reply
is waited for, and neither `Timed` nor `Closed` takes anything out of
`_pendingQueue`.
-/

import FireboltTransport.Transport.AdminLock

namespace FireboltTransport.Transport.CriticalSection

universe u

variable {τ : Type u} [DecidableEq τ] {mutex : CriticalSection τ} {thread other : τ}

/-- Two threads do not hold the mutex together. -/
theorem count_eq_zero_of_ne (hheld : 0 < mutex.count thread) (hother : other ≠ thread) :
    mutex.count other = 0 := by
  cases mutex with
  | free => rfl
  | held owner again =>
      have howner : owner = thread := by
        by_contra hne
        simp [count, hne] at hheld
      simp [count, howner, Ne.symm hother]

/-- A mutex another thread holds is not to be had. -/
theorem lock_eq_none_of_ne (hheld : 0 < mutex.count thread) (hother : other ≠ thread) :
    mutex.lock other = none := by
  cases hlock : mutex.lock other with
  | none => rfl
  | some held =>
      have hcount := count_lock hlock
      have hself : held.count other = 1 := by
        rw [hcount other, count_eq_zero_of_ne hheld hother, if_pos rfl]
      have hboth : 0 < held.count thread := by
        rw [hcount thread]
        exact Nat.add_pos_left hheld _
      rw [count_eq_zero_of_ne hboth hother] at hself
      cases hself

end FireboltTransport.Transport.CriticalSection

namespace FireboltTransport.Sections

open Semantics Transport

universe u v

variable {τ : Type u} {κ : Type v}

/-- The operation is in front of a critical section. -/
def Stage.AtLock : Stage κ → Prop
  | .check _ _ _ | .enter _ => True
  | .inside _ | .leave _ | .outside _ => False

/-- The result of an operation that found the channel unusable. -/
def Result.Refused (codes : CoreErrors) (result : Result) : Prop :=
  result = .status (codes.fireboltErrorValue codes.errorUnavailable) ∨
    result = .status (codes.fireboltErrorValue codes.errorAsyncFailed)

/-- The operation has come no further than its lock, unless `thread` executes it.  It is undefined
for `thread`, or because there was no channel to draw an identifier from.

A `SendResponse` whose identifier is pending has a refused result too, from inside its section.
That an operation was refused before the lock is what `Barred` says of all the states up to its
return, in none of which it is past its lock. -/
def Barred (codes : CoreErrors) (state : State τ κ) (thread : τ) (op : κ) : Prop :=
  match state.phase op with
  | .idle => True
  | .running other _ stage => other ≠ thread → stage.AtLock
  | .returned other _ _ result => other ≠ thread → result.Refused codes
  | .undefined => state.busy thread = some op ∨ state.channel = none

/-- The holds of a thread are those its operation began with and the operation's own. -/
structure Accounted [DecidableEq τ] (state : State τ κ) : Prop where
  busy : ∀ op thread entered stage, state.phase op = .running thread entered stage →
    state.busy thread = some op
  holds : ∀ op thread entered stage, state.phase op = .running thread entered stage →
    state.adminLock.count thread = entered + stage.nesting

theorem accounted_of_idle [DecidableEq τ] {start : State τ κ}
    (hidle : ∀ op, start.phase op = .idle) : Accounted start where
  busy := by simp [hidle]
  holds := by simp [hidle]

/-- A thread executes one operation at a time. -/
theorem Accounted.ne_of_running [DecidableEq τ] {state : State τ κ}
    (haccounted : Accounted state) {op other : κ} {thread which : τ} {entered times : ℕ}
    {stage later : Stage κ} (hphase : state.phase op = .running thread entered stage)
    (hother : state.phase other = .running which times later) (hop : other ≠ op) :
    which ≠ thread := by
  rintro rfl
  have hbusy := haccounted.busy op which entered stage hphase
  rw [haccounted.busy other which times later hother] at hbusy
  exact hop (Option.some.inj hbusy)

/-- The thread holds the lock, and its operation found it held. -/
structure HeldOver [DecidableEq τ] (state : State τ κ) (thread : τ) : Prop where
  holds : 0 < state.adminLock.count thread
  entered : ∀ op entered stage, state.phase op = .running thread entered stage → 0 < entered

/-- No other thread is inside a section. -/
theorem HeldOver.nesting [DecidableEq τ] {state : State τ κ} {thread other : τ}
    (hheld : HeldOver state thread) (haccounted : Accounted state) (hother : other ≠ thread)
    {op : κ} {entered : ℕ} {stage : Stage κ}
    (hphase : state.phase op = .running other entered stage) : stage.nesting = 0 := by
  have hholds := haccounted.holds op other entered stage hphase
  rw [CriticalSection.count_eq_zero_of_ne hheld.holds hother] at hholds
  exact (Nat.add_eq_zero_iff.mp hholds.symm).2

/-! ## Steps -/

section Run

variable {codes : CoreErrors} {parse : Text → Message} {operation : Operation}
  {channel later : Option Channel} {first : Stage κ}

/-- An operation begins in front of its section. -/
theorem first_atLock (hfirst : operation.first parse channel = some (first, later)) :
    first.AtLock := by
  cases operation with
  | invokeAsync method parameters =>
      obtain ⟨current, _, hpair⟩ := Option.map_eq_some_iff.mp hfirst
      cases hpair
      trivial
  | _ =>
      cases hfirst
      trivial

/-- Drawing an identifier makes no channel. -/
theorem first_channel
    (hfirst : operation.first parse (none : Option Channel) = some (first, later)) :
    later = none := by
  cases operation with
  | invokeAsync method parameters => cases hfirst
  | _ =>
      cases hfirst
      rfl

/-- Only the drawing of an identifier asks for more than the lock. -/
theorem channel_of_first
    (hfirst : (operation.first parse channel : Option (Stage κ × Option Channel)) = none) :
    channel = none := by
  cases operation with
  | invokeAsync method parameters => exact Option.map_eq_none_iff.mp hfirst
  | _ => cases hfirst

variable [DecidableEq κ] [DecidableEq τ] {state after : State τ κ} {op : κ} {thread : τ}
  {stage : Stage κ} {outcome : Outcome κ} {entered : ℕ}

/-- The steps of an operation leave the channel in place. -/
theorem run_channel (hrun : stage.run codes state op thread = some (after, outcome)) :
    after.channel = state.channel := by
  cases stage with
  | check id message answer =>
      simp only [Stage.run] at hrun
      split_ifs at hrun <;> cases hrun <;> rfl
  | enter body =>
      obtain ⟨held, _, hpair⟩ := Option.map_eq_some_iff.mp hrun
      cases hpair
      rfl
  | inside body =>
      have hpair := Option.some.inj hrun
      have hafter : after = (body.run codes state op).1 := by rw [hpair]
      subst hafter
      cases body with
      | emplace id message answer =>
          simp only [Body.run]
          split
          · rfl
          · split_ifs <;> rfl
      | find id use =>
          simp only [Body.run]
          split <;> rfl
      | _ => rfl
  | leave rest =>
      cases hrun
      rfl
  | outside rest =>
      cases rest with
      | wait id owner =>
          simp only [Stage.run, Rest.run] at hrun
          split at hrun
          · split_ifs at hrun
            cases hrun
            rfl
          · cases hrun
            rfl
      | read id owner | abort id owner =>
          simp only [Stage.run, Rest.run] at hrun
          split at hrun <;> cases hrun <;> rfl
      | _ =>
          cases hrun
          rfl

/-- No step gives back a hold the operation began with. -/
theorem entered_le_of_run (hcount : state.adminLock.count thread = entered + stage.nesting)
    (hrun : stage.run codes state op thread = some (after, outcome)) :
    entered ≤ after.adminLock.count thread := by
  have hsame : after.adminLock = state.adminLock → entered ≤ after.adminLock.count thread := by
    intro hlock
    rw [hlock, hcount]
    exact Nat.le_add_right _ _
  cases stage with
  | check id message answer =>
      apply hsame
      simp only [Stage.run] at hrun
      split_ifs at hrun <;> cases hrun <;> rfl
  | enter body =>
      obtain ⟨held, hlock, hpair⟩ := Option.map_eq_some_iff.mp hrun
      cases hpair
      rw [(run_count hcount hrun).2.1 _ rfl]
      exact Nat.le_add_right _ _
  | inside body =>
      apply hsame
      have hpair := Option.some.inj hrun
      have hafter : after = (body.run codes state op).1 := by rw [hpair]
      rw [hafter, body_adminLock]
  | leave rest =>
      have houtcome : outcome = .goOn (.outside rest) := by
        cases hrun
        rfl
      rw [(run_count hcount hrun).2.1 _ houtcome]
      exact Nat.le_add_right _ _
  | outside rest => exact hsame (rest_run hrun).1

/-- In front of a lock another thread holds, an operation is refused or comes to the lock. -/
theorem outcome_of_atLock {holder : τ} (hatLock : stage.AtLock)
    (hheld : 0 < state.adminLock.count holder) (hother : thread ≠ holder)
    (hrun : stage.run codes state op thread = some (after, outcome)) :
    (∃ body, outcome = .goOn (.enter body)) ∨
      ∃ result, outcome = .return result ∧ result.Refused codes := by
  cases stage with
  | check id message answer =>
      simp only [Stage.run] at hrun
      split_ifs at hrun <;> cases hrun
      · exact .inr ⟨_, rfl, .inl rfl⟩
      · exact .inr ⟨_, rfl, .inr rfl⟩
      · exact .inl ⟨_, rfl⟩
  | enter body =>
      have hnone := CriticalSection.lock_eq_none_of_ne hheld hother
      simp [Stage.run, hnone] at hrun
  | _ => cases hatLock

end Run

section Step

variable [DecidableEq τ] [DecidableEq κ] {codes : CoreErrors} {parse : Text → Message}
  {state next : State τ κ} {action : Action τ κ} {holder : τ} {watched : κ}

omit [DecidableEq τ] in
/-- An operation that is running is the one that was moved, or it was running before. -/
theorem setPhase_running {op other : κ} {phase : Phase τ κ} {which : τ} {times : ℕ}
    {later : Stage κ}
    (hother : (state.setPhase op phase).phase other = .running which times later) :
    (other = op ∧ phase = .running which times later) ∨
      (other ≠ op ∧ state.phase other = .running which times later) := by
  by_cases hop : other = op
  · subst hop
    rw [State.setPhase_phase] at hother
    exact .inl ⟨rfl, hother⟩
  · rw [State.setPhase_phase_of_ne _ hop] at hother
    exact .inr ⟨hop, hother⟩

/-- The same for the step of an operation. -/
theorem proceed_running {op other : κ} {thread which : τ} {entered times : ℕ} {later : Stage κ}
    {outcome : Outcome κ}
    (hother : (state.proceed op thread entered outcome).phase other = .running which times later) :
    (other = op ∧ which = thread ∧ times = entered ∧ outcome = .goOn later) ∨
      (other ≠ op ∧ state.phase other = .running which times later) := by
  cases outcome with
  | goOn stage =>
      rcases setPhase_running hother with ⟨rfl, hmoved⟩ | hkept
      · cases hmoved
        exact .inl ⟨rfl, rfl, rfl, rfl⟩
      · exact .inr hkept
  | «return» result =>
      rcases setPhase_running hother with ⟨_, hmoved⟩ | hkept
      · cases hmoved
      · exact .inr hkept
  | undefined =>
      rcases setPhase_running hother with ⟨_, hmoved⟩ | hkept
      · cases hmoved
      · exact .inr hkept

@[simp]
theorem proceed_adminLock (op : κ) (thread : τ) (entered : ℕ) (outcome : Outcome κ) :
    (state.proceed op thread entered outcome).adminLock = state.adminLock := by
  cases outcome <;> rfl

@[simp]
theorem proceed_channel (op : κ) (thread : τ) (entered : ℕ) (outcome : Outcome κ) :
    (state.proceed op thread entered outcome).channel = state.channel := by
  cases outcome <;> rfl

/-- Only a return frees the thread of the operation. -/
theorem proceed_busy {op : κ} {thread : τ} {entered : ℕ} {outcome : Outcome κ}
    (hgoes : (∀ result, outcome ≠ .return result) ∨ holder ≠ thread) :
    (state.proceed op thread entered outcome).busy holder = state.busy holder := by
  cases outcome with
  | «return» result =>
      rcases hgoes with hgoes | hne
      · exact absurd rfl (hgoes result)
      · exact Function.update_of_ne hne _ _
  | _ => rfl

/-- Every step keeps the accounts, a clash included. -/
theorem Accounted.step (haccounted : Accounted state)
    (hstep : Step codes parse state action next) : Accounted next := by
  cases hstep with
  | suspend suspended => exact ⟨haccounted.busy, haccounted.holds⟩
  | start op thread operation stage channel hphase hbusy hfirst =>
      constructor
      · intro other which times later hother
        rcases setPhase_running hother with ⟨rfl, hmoved⟩ | ⟨_, hkept⟩
        · cases hmoved
          exact Function.update_self _ _ _
        · exact busy_update_of_free hbusy (haccounted.busy other which times later hkept)
      · intro other which times later hother
        rcases setPhase_running hother with ⟨rfl, hmoved⟩ | ⟨_, hkept⟩
        · cases hmoved
          rw [first_nesting hfirst]
          rfl
        · exact haccounted.holds other which times later hkept
  | startUndefined op thread operation hphase hbusy hfirst =>
      constructor
      · intro other which times later hother
        rcases setPhase_running hother with ⟨_, hmoved⟩ | ⟨_, hkept⟩
        · cases hmoved
        · exact busy_update_of_free hbusy (haccounted.busy other which times later hkept)
      · intro other which times later hother
        rcases setPhase_running hother with ⟨_, hmoved⟩ | ⟨_, hkept⟩
        · cases hmoved
        · exact haccounted.holds other which times later hkept
  | next op thread entered stage after outcome hphase hrun =>
      have hbusy := haccounted.busy op thread entered stage hphase
      obtain ⟨hsame, hthreads⟩ := run_frame hrun
      obtain ⟨hothers, hgoOn, _⟩ :=
        run_count (haccounted.holds op thread entered stage hphase) hrun
      constructor
      · intro other which times later hother
        rcases proceed_running hother with ⟨rfl, rfl, rfl, rfl⟩ | ⟨hop, hkept⟩
        · rw [proceed_busy (.inl (by simp)), hthreads]
          exact hbusy
        · rw [hsame] at hkept
          rw [proceed_busy (.inr (haccounted.ne_of_running hphase hkept hop)), hthreads]
          exact haccounted.busy other which times later hkept
      · intro other which times later hother
        rw [proceed_adminLock]
        rcases proceed_running hother with ⟨rfl, rfl, rfl, rfl⟩ | ⟨hop, hkept⟩
        · exact hgoOn later rfl
        · rw [hsame] at hkept
          rw [hothers which (haccounted.ne_of_running hphase hkept hop)]
          exact haccounted.holds other which times later hkept
  | expire op thread entered id owner signalled response hphase hentry =>
      constructor
      · intro other which times later hother
        rcases setPhase_running hother with ⟨rfl, hmoved⟩ | ⟨_, hkept⟩
        · cases hmoved
          exact haccounted.busy other _ _ _ hphase
        · exact haccounted.busy other which times later hkept
      · intro other which times later hother
        rcases setPhase_running hother with ⟨rfl, hmoved⟩ | ⟨_, hkept⟩
        · cases hmoved
          have hholds : state.adminLock.count thread = entered :=
            haccounted.holds other _ _ _ hphase
          exact hholds
        · exact haccounted.holds other which times later hkept

/-- A hold left behind stays. -/
theorem HeldOver.step (hheld : HeldOver state holder) (haccounted : Accounted state)
    (hstep : Step codes parse state action next) : HeldOver next holder := by
  cases hstep with
  | suspend suspended => exact ⟨hheld.holds, hheld.entered⟩
  | start op thread operation stage channel hphase hbusy hfirst =>
      refine ⟨hheld.holds, ?_⟩
      intro other times later hother
      rcases setPhase_running hother with ⟨_, hmoved⟩ | ⟨_, hkept⟩
      · cases hmoved
        exact hheld.holds
      · exact hheld.entered other times later hkept
  | startUndefined op thread operation hphase hbusy hfirst =>
      refine ⟨hheld.holds, ?_⟩
      intro other times later hother
      rcases setPhase_running hother with ⟨_, hmoved⟩ | ⟨_, hkept⟩
      · cases hmoved
      · exact hheld.entered other times later hkept
  | next op thread entered stage after outcome hphase hrun =>
      have hcount := haccounted.holds op thread entered stage hphase
      constructor
      · rw [proceed_adminLock]
        by_cases hthread : holder = thread
        · subst hthread
          exact Nat.lt_of_lt_of_le (hheld.entered op entered stage hphase)
            (entered_le_of_run hcount hrun)
        · rw [(run_count hcount hrun).1 holder hthread]
          exact hheld.holds
      · intro other times later hother
        rcases proceed_running hother with ⟨rfl, rfl, rfl, rfl⟩ | ⟨_, hkept⟩
        · exact hheld.entered other times stage hphase
        · rw [(run_frame hrun).1] at hkept
          exact hheld.entered other times later hkept
  | expire op thread entered id owner signalled response hphase hentry =>
      refine ⟨hheld.holds, ?_⟩
      intro other times later hother
      rcases setPhase_running hother with ⟨rfl, hmoved⟩ | ⟨_, hkept⟩
      · cases hmoved
        exact hheld.entered other _ _ hphase
      · exact hheld.entered other times later hkept

/-- A clash leaves a hold behind. -/
theorem heldOver_of_clashes {op : κ} {thread : τ} {entered : ℕ} {stage : Stage κ}
    (haccounted : Accounted state) (hphase : state.phase op = .running thread entered stage)
    (hclash : stage.Clashes state) (htaken : step codes parse state (.next op) = some next) :
    HeldOver next thread := by
  obtain ⟨body, rfl⟩ := inside_of_clashes hclash
  obtain ⟨after, outcome, hrun, rfl⟩ := next_of_running hphase htaken
  have hpair := Option.some.inj hrun
  obtain ⟨result, hreturn⟩ := body_of_clashes codes op hclash
  obtain rfl : outcome = .return result := by rw [← hreturn, hpair]
  have hlock : after.adminLock = state.adminLock := by
    have hafter : after = (body.run codes state op).1 := by rw [hpair]
    rw [hafter, body_adminLock]
  constructor
  · rw [proceed_adminLock, hlock, haccounted.holds op thread entered _ hphase]
    exact Nat.succ_pos entered
  · intro other times later hother
    exfalso
    rcases proceed_running hother with ⟨_, _, _, hgoes⟩ | ⟨hop, hkept⟩
    · cases hgoes
    · rw [(run_frame hrun).1] at hkept
      exact haccounted.ne_of_running hphase hkept hop rfl

omit [DecidableEq τ] [DecidableEq κ] in
/-- What is seen of an operation that does not move. -/
theorem Barred.of_same (hbarred : Barred codes state holder watched)
    (hphase : next.phase watched = state.phase watched)
    (hbusy : state.phase watched = .undefined → state.busy holder = some watched →
      next.busy holder = some watched)
    (hchannel : state.channel = none → next.channel = none) :
    Barred codes next holder watched := by
  unfold Barred at hbarred ⊢
  rw [hphase]
  cases hcourse : state.phase watched with
  | undefined =>
      rw [hcourse] at hbarred
      exact hbarred.imp (hbusy hcourse) hchannel
  | _ =>
      rw [hcourse] at hbarred
      exact hbarred

/-- While a hold is left behind, no step of another thread gets past the lock. -/
theorem Barred.step (hbarred : Barred codes state holder watched)
    (haccounted : Accounted state) (hheld : HeldOver state holder)
    (hstep : Step codes parse state action next) : Barred codes next holder watched := by
  cases hstep with
  | suspend suspended => exact hbarred
  | start op thread operation stage channel hphase hbusy hfirst =>
      by_cases hop : watched = op
      · subst hop
        unfold Barred
        rw [State.setPhase_phase]
        exact fun _ => first_atLock hfirst
      · apply hbarred.of_same
        · exact State.setPhase_phase_of_ne _ hop _
        · exact fun _ hholder => busy_update_of_free hbusy hholder
        · intro hnone
          rw [hnone] at hfirst
          exact first_channel hfirst
  | startUndefined op thread operation hphase hbusy hfirst =>
      by_cases hop : watched = op
      · subst hop
        unfold Barred
        rw [State.setPhase_phase]
        exact .inr (channel_of_first hfirst)
      · apply hbarred.of_same
        · exact State.setPhase_phase_of_ne _ hop _
        · exact fun _ hholder => busy_update_of_free hbusy hholder
        · exact id
  | next op thread entered stage after outcome hphase hrun =>
      have hbusy := haccounted.busy op thread entered stage hphase
      obtain ⟨hsame, hthreads⟩ := run_frame hrun
      by_cases hop : watched = op
      · subst hop
        by_cases hthread : thread = holder
        · subst hthread
          unfold Barred
          cases outcome with
          | undefined =>
              rw [State.proceed, State.setPhase_phase]
              exact .inl (by rw [← hbusy, ← hthreads]; rfl)
          | _ =>
              rw [State.proceed, State.setPhase_phase]
              exact fun hne => absurd rfl hne
        · have hatLock : stage.AtLock := by
            unfold Barred at hbarred
            rw [hphase] at hbarred
            exact hbarred hthread
          unfold Barred
          rcases outcome_of_atLock hatLock hheld.holds hthread hrun with
            ⟨body, rfl⟩ | ⟨result, rfl, hrefused⟩
          · rw [State.proceed, State.setPhase_phase]
            exact fun _ => trivial
          · rw [State.proceed, State.setPhase_phase]
            exact fun _ => hrefused
      · apply hbarred.of_same
        · rw [State.proceed_phase_of_ne _ hop, hsame]
        · intro hundefined hholder
          have hne : holder ≠ thread := by
            rintro rfl
            rw [hbusy] at hholder
            exact hop (Option.some.inj hholder).symm
          rw [proceed_busy (.inr hne), hthreads]
          exact hholder
        · rw [proceed_channel, run_channel hrun]
          exact id
  | expire op thread entered id owner signalled response hphase hentry =>
      by_cases hop : watched = op
      · subst hop
        unfold Barred
        rw [State.setPhase_phase]
        exact fun _ => trivial
      · apply hbarred.of_same
        · exact State.setPhase_phase_of_ne _ hop _
        · exact fun _ hholder => hholder
        · exact fun hnone => hnone

end Step

/-- **Locked out for ever.**  Let a `Send` of a thread find its identifier in `_pendingQueue`, in
any run from a state in which no operation is under way.  In every continuation, and so in each
state of one, the thread holds `_adminLock`, no operation of another thread is inside a critical
section, and every operation another thread begins is refused before the lock or is still in
front of it. -/
theorem lockedOut_of_clash [DecidableEq τ] [DecidableEq κ] {codes : CoreErrors}
    {parse : Text → Message} {start state final : State τ κ} {before after : List (Action τ κ)}
    {culprit : κ} {thread : τ} {entered : ℕ} {stage : Stage κ}
    (hidle : ∀ op, start.phase op = .idle)
    (hbefore : exec (step codes parse) start before = some state)
    (hphase : state.phase culprit = .running thread entered stage)
    (hclash : stage.Clashes state)
    (hafter : exec (step codes parse) state (.next culprit :: after) = some final) :
    0 < final.adminLock.count thread ∧
      (∀ op other times later, other ≠ thread → final.phase op = .running other times later →
        later.nesting = 0) ∧
      ∀ op, state.phase op = .idle → Barred codes final thread op := by
  have haccounted : Accounted state :=
    exec_invariant (fun _ _ _ hstate htaken => hstate.step (step_cases htaken))
      (accounted_of_idle hidle) hbefore
  obtain ⟨kept, htaken, hrest⟩ := exec_cons_eq_some.mp hafter
  have hkept : HeldOver kept thread := heldOver_of_clashes haccounted hphase hclash htaken
  obtain ⟨hfinal, hheld, hbarred⟩ : Accounted final ∧ HeldOver final thread ∧
      ∀ op, state.phase op = .idle → Barred codes final thread op := by
    apply exec_invariant (motive := fun reached => Accounted reached ∧ HeldOver reached thread ∧
      ∀ op, state.phase op = .idle → Barred codes reached thread op) _ _ hrest
    · rintro reached action next ⟨haccounted, hheld, hbarred⟩ hnext
      have hstep := step_cases hnext
      exact ⟨haccounted.step hstep, hheld.step haccounted hstep,
        fun op hop => (hbarred op hop).step haccounted hheld hstep⟩
    · refine ⟨haccounted.step (step_cases htaken), hkept, ?_⟩
      intro op hop
      have hne : op ≠ culprit := by
        rintro rfl
        rw [hop] at hphase
        cases hphase
      obtain ⟨reached, outcome, hrun, rfl⟩ := next_of_running hphase htaken
      unfold Barred
      rw [State.proceed_phase_of_ne _ hne, (run_frame hrun).1, hop]
      trivial
  exact ⟨hheld.holds, fun op other times later hother => hheld.nesting hfinal hother, hbarred⟩

/-- A second `Send` under a pending identifier, and what the first thread begins after it. -/
theorem lockedOut_of_clash_waitAfter :
    ∃ final : State Bool ℕ,
      exec (step exampleCodes fun _ => .empty) initial
          ((runs 0 false (.send 7 [] []) 5 ++ runs 1 true (.send 7 [] []) 2) ++
            .next 1 :: (runs 2 false (.send 8 [] []) 1 ++ runs 3 true .closed 4)) = some final ∧
        0 < final.adminLock.count true ∧ Barred exampleCodes final true 2 := by
  obtain ⟨state, hbefore, hfacts⟩ : ∃ state : State Bool ℕ,
      exec (step exampleCodes fun _ => .empty) initial
          (runs 0 false (.send 7 [] []) 5 ++ runs 1 true (.send 7 [] []) 2) = some state ∧
        decide (state.phase 1 = .running true 0
          (.inside (.emplace 7 ((Call.send [] []).message (fun _ => .empty) 7) false)) ∧
          state.pendingQueue.lookup 7 = some ⟨0, .new⟩ ∧ state.phase 2 = .idle) = true :=
    exists_exec_of_any (by decide)
  obtain ⟨hphase, hlookup, htwo⟩ := of_decide_eq_true hfacts
  obtain ⟨final, hrun, _⟩ : ∃ final : State Bool ℕ,
      exec (step exampleCodes fun _ => .empty) initial
          ((runs 0 false (.send 7 [] []) 5 ++ runs 1 true (.send 7 [] []) 2) ++
            .next 1 :: (runs 2 false (.send 8 [] []) 1 ++ runs 3 true .closed 4)) = some final ∧
        decide (final.phase 3 = .returned true 1 1 .void) = true :=
    exists_exec_of_any (by decide)
  have hafter : exec (step exampleCodes fun _ => .empty) state
      (.next 1 :: (runs 2 false (.send 8 [] []) 1 ++ runs 3 true .closed 4)) = some final := by
    obtain ⟨middle, hmiddle, hrest⟩ := exec_append_eq_some.mp hrun
    obtain rfl : middle = state := Option.some.inj (hmiddle.symm.trans hbefore)
    exact hrest
  obtain ⟨hheld, _, hbarred⟩ := lockedOut_of_clash (fun _ => rfl) hbefore hphase
    ⟨7, _, ⟨0, .new⟩, rfl, hlookup⟩ hafter
  exact ⟨final, hrun, hheld, hbarred 2 htwo⟩

end FireboltTransport.Sections
