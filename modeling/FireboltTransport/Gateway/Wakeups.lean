/-
# No wake-up is lost

`Client::Request` blocks in `waiter.wait`, which releases the caller's mutex and goes to
sleep at once, and looks at the `ready` flag again only when somebody calls `notify_one`
or the wait ends without a reason.  `Client::Response` and the watchdog write the flag and
notify before they release that mutex.

The client with its mutexes is extended by who is asleep and by `notify_one` as a step of
its own between the writing and the release.  A call that is asleep although its flag is
set then always has a thread that is about to notify it, so no call relies on a wake-up
without a reason.
-/

import FireboltTransport.Gateway.ClientLocks

namespace FireboltTransport.Wakeups

open Semantics ClientLocks

variable {ι ρ : Type}

/-- The call whose `waiter` a thread notifies before it releases the caller's mutex. -/
def notifies : (thread : Thread ι ρ) → thread.Point → Option ι
  | .visitor _, .replyDone call => some call
  | .watchdog, .markDone call => some call
  | _, _ => none

/-- The client with its mutexes, and its condition variables. -/
structure State (ι ρ : Type) where
  base : ClientLocks.State ι ρ
  /-- The calls that sleep in `wait` and have not been notified. -/
  asleep : ι → Bool
  /-- The threads that have called `notify_one` since they wrote an outcome. -/
  notified : Thread ι ρ → Bool

inductive Action (ι ρ : Type)
  /-- A step that needs no mutex. -/
  | outside (action : Client.Action ι)
  | start (visitor : ρ) (job : Job)
  | move (thread : Thread ι ρ)
  /-- `c->waiter.notify_one()`. -/
  | notify (thread : Thread ι ρ)
  /-- A wait ends without a reason. -/
  | spurious (call : ι)
  deriving DecidableEq

section Machine

variable [DecidableEq ι] [DecidableEq ρ]

namespace State

/-- What the thread is about to notify. -/
def notifies (state : State ι ρ) (thread : Thread ι ρ) : Option ι :=
  Wakeups.notifies thread (state.base.locks.point thread)

/-- A sleeping thread does not move, and an outcome is notified before the mutex is released. -/
def mayMove (state : State ι ρ) (thread : Thread ι ρ) : Bool :=
  (match thread with
    | .request call => state.base.requestPoint call != .blocked || !state.asleep call
    | _ => true) &&
  ((state.notifies thread).isNone || state.notified thread)

/-- Who is asleep after a move: the call that found its flag not set goes to sleep as it releases
its mutex. -/
def asleepAfter (state : State ι ρ) : Thread ι ρ → ι → Bool
  | .request call =>
      if state.base.requestPoint call = .waitHolds ∧ (state.base.client.caller call).ready = false
      then Function.update state.asleep call true
      else state.asleep
  | _ => state.asleep

end State

/-- One step, or `none` when the label is not enabled. -/
def step (state : State ι ρ) : Action ι ρ → Option (State ι ρ)
  | .outside action =>
      (ClientLocks.step state.base (.outside action)).map fun base => { state with base := base }
  | .start visitor job =>
      (ClientLocks.step state.base (.start visitor job)).map fun base =>
        { state with base := base }
  | .move thread =>
      if state.mayMove thread then
        (ClientLocks.step state.base (.move thread)).map fun base =>
          { base := base
            asleep := state.asleepAfter thread
            notified := Function.update state.notified thread false }
      else none
  | .notify thread =>
      match state.notifies thread with
      | some call =>
          some { state with
            asleep := Function.update state.asleep call false
            notified := Function.update state.notified thread true }
      | none => none
  | .spurious call =>
      if state.asleep call then
        some { state with asleep := Function.update state.asleep call false }
      else none

/-- Every thread outside, nobody asleep. -/
def initial (transport : Option Channel) (clock : Timestamp) : State ι ρ where
  base := ClientLocks.initial transport clock
  asleep _ := false
  notified _ := false

end Machine

/-! ## What a move does to the flags -/

section Moves

variable [DecidableEq ι] {client : Client.State ι} {thread : Thread ι ρ} {point : thread.Point}
  {move : Move ι thread.Point} {call : ι}

/-- Who writes an outcome is about to notify. -/
theorem ready_of_move (hmove : moveAt client thread point = some move)
    (hready : (move.client.caller call).ready = true) :
    (client.caller call).ready = true ∨ notifies thread move.next = some call := by
  cases thread with
  | request own => cases requestMove_cases hmove <;> exact .inl hready
  | visitor visitor =>
      cases visitorMove_cases hmove with
      | complete message receiver =>
          by_cases hcall : call = receiver
          · subst hcall
            exact .inr rfl
          · left
            simpa [Client.State.setCaller, hcall] using hready
      | _ => exact .inl hready
  | watchdog =>
      cases watchdogMove_cases hmove with
      | mark marked head rest hwatchdog =>
          by_cases hcall : call = marked
          · subst hcall
            exact .inr rfl
          · left
            simpa [Client.State.setCaller, hcall] using hready
      | _ => exact .inl hready

omit [DecidableEq ι] in
/-- Whoever is about to notify holds the mutex of the caller. -/
theorem holds_of_notifies (hnotifies : notifies thread point = some call) :
    holds thread point (.mtx call) := by
  cases thread with
  | request own => cases hnotifies
  | visitor visitor =>
      cases point with
      | replyDone receiver =>
          obtain rfl : receiver = call := by simpa [notifies] using hnotifies
          exact .inr rfl
      | _ => cases hnotifies
  | watchdog =>
      cases point with
      | markDone marked =>
          obtain rfl : marked = call := by simpa [notifies] using hnotifies
          exact rfl
      | _ => cases hnotifies

/-- A thread comes to its notification from a point without one. -/
theorem notifies_of_move (hmove : moveAt client thread point = some move)
    (hnotifies : notifies thread move.next = some call) : notifies thread point = none := by
  cases thread with
  | request own => rfl
  | visitor visitor => cases visitorMove_cases hmove <;> simp_all [notifies]
  | watchdog => cases watchdogMove_cases hmove <;> simp_all [notifies]

/-- A step that needs no mutex sets no flag. -/
theorem ready_of_outside [DecidableEq ρ] {state : ClientLocks.State ι ρ}
    {action : Client.Action ι} {later : Client.State ι} (houtside : state.isOutside action = true)
    (hstep : Client.Step state.client action later)
    (hready : (later.caller call).ready = true) : (state.client.caller call).ready = true := by
  cases hstep with
  | create actor id hphase =>
      by_cases hcall : call = actor
      · subst hcall
        simp [Client.State.setPhase, Client.State.setCaller, Client.Caller.new] at hready
      · simpa [Client.State.setPhase, Client.State.setCaller, hcall] using hready
  | response message receiver hqueue hphase => simp [State.isOutside] at houtside
  | mark marked rest hwatchdog hphase => simp [State.isOutside] at houtside
  | _ => exact hready

end Moves

/-! ## Every sleeper is attended to -/

section Invariant

variable [DecidableEq ι] [DecidableEq ρ]

/-- The invariant of the model. -/
structure Attended (state : State ι ρ) : Prop where
  consistent : Consistent state.base
  /-- Who is asleep is blocked in its wait. -/
  blocked : ∀ call, state.asleep call = true → state.base.requestPoint call = .blocked
  /-- Who sleeps although its flag is set is about to be notified. -/
  attended : ∀ call, state.asleep call = true → (state.base.client.caller call).ready = true →
    ∃ thread, state.notifies thread = some call ∧ state.notified thread = false
  /-- Who has been notified is not asleep while its mutex is held. -/
  awake : ∀ thread call, state.notifies thread = some call → state.notified thread = true →
    state.asleep call = false
  fresh : ∀ thread, state.notifies thread = none → state.notified thread = false

omit [DecidableEq ι] [DecidableEq ρ] in
theorem attended_initial (transport : Option Channel) (clock : Timestamp) :
    Attended (initial transport clock : State ι ρ) where
  consistent := consistent_initial transport clock
  blocked := by simp [initial]
  attended := by simp [initial]
  awake := by simp [initial]
  fresh := by simp [initial]

variable {state next : State ι ρ}

omit [DecidableEq ι] [DecidableEq ρ] in
/-- The threads stay where they are, or go where nothing is notified, and no flag is set. -/
theorem Attended.frame (hattended : Attended state) {base : ClientLocks.State ι ρ}
    (hconsistent : Consistent base)
    (hrequest : ∀ call, base.requestPoint call = state.base.requestPoint call)
    (hnotifies : ∀ thread, notifies thread (base.locks.point thread) = state.notifies thread)
    (hready : ∀ call, (base.client.caller call).ready = true →
      (state.base.client.caller call).ready = true) :
    Attended { state with base := base } where
  consistent := hconsistent
  blocked call hasleep := (hrequest call).trans (hattended.blocked call hasleep)
  attended call hasleep hset := by
    obtain ⟨thread, hthread, hnotified⟩ := hattended.attended call hasleep (hready call hset)
    exact ⟨thread, (hnotifies thread).trans hthread, hnotified⟩
  awake thread call hthread := hattended.awake thread call ((hnotifies thread).symm.trans hthread)
  fresh thread hthread := hattended.fresh thread ((hnotifies thread).symm.trans hthread)

omit [DecidableEq ρ] in
/-- A sleeper is woken, with or without a reason. -/
theorem Attended.wake (hattended : Attended state) (call : ι) (notified : Thread ι ρ → Bool)
    (hnotified : ∀ thread, notified thread = state.notified thread ∨
      (notified thread = true ∧ state.notifies thread = some call)) :
    Attended { state with
      asleep := Function.update state.asleep call false
      notified := notified } where
  consistent := hattended.consistent
  blocked other hasleep := by
    have hcall : other ≠ call := by
      rintro rfl
      simp at hasleep
    exact hattended.blocked other (by simpa [hcall] using hasleep)
  attended other hasleep hset := by
    have hcall : other ≠ call := by
      rintro rfl
      simp at hasleep
    obtain ⟨thread, hthread, hfresh⟩ :=
      hattended.attended other (by simpa [hcall] using hasleep) hset
    refine ⟨thread, hthread, ?_⟩
    rcases hnotified thread with hsame | ⟨_, hown⟩
    · exact hsame.trans hfresh
    · exact absurd (Option.some.inj (hthread.symm.trans hown)) hcall
  awake thread other hthread hdone := by
    by_cases hcall : other = call
    · simp [hcall]
    · simp only [Function.update_of_ne hcall]
      rcases hnotified thread with hsame | ⟨_, hown⟩
      · exact hattended.awake thread other hthread (hsame.symm.trans hdone)
      · exact absurd (Option.some.inj (hthread.symm.trans hown)) hcall
  fresh thread hthread := by
    rcases hnotified thread with hsame | ⟨_, hown⟩
    · exact hsame.trans (hattended.fresh thread hthread)
    · exact absurd (hthread.symm.trans hown) (by simp)

section Move

variable {thread : Thread ι ρ} {base : ClientLocks.State ι ρ}

/-- Only the call that blocks goes to sleep, and its flag is not set. -/
theorem asleep_of_step (hstep : ClientLocks.Step state.base (.move thread) base) {call : ι}
    (hasleep : state.asleepAfter thread call = true) :
    state.asleep call = true ∨
      (thread = .request call ∧ state.base.requestPoint call = .waitHolds ∧
        base.requestPoint call = .blocked ∧ (base.client.caller call).ready = false) := by
  cases thread with
  | request own =>
      simp only [State.asleepAfter] at hasleep
      split_ifs at hasleep with hblocks
      · by_cases hcall : call = own
        · subst hcall
          right
          cases hstep with
          | move _ move locks hmove hlocks =>
              have hcases := requestMove_cases hmove
              rw [show state.base.locks.point (.request call) = .waitHolds from hblocks.1] at hcases
              cases hcases with
              | wake hready => simp [hblocks.2] at hready
              | block hready => exact ⟨rfl, hblocks.1, Locks.point_move_self hlocks, hblocks.2⟩
        · exact .inl (by simpa [hcall] using hasleep)
      · exact .inl hasleep
  | visitor visitor => exact .inl hasleep
  | watchdog => exact .inl hasleep

omit [DecidableEq ι] [DecidableEq ρ] in
/-- A thread that may move and stands before a notification has made it. -/
theorem notified_of_mayMove (hmay : state.mayMove thread = true) {call : ι}
    (hthread : state.notifies thread = some call) : state.notified thread = true := by
  simp only [State.mayMove, hthread, Bool.and_eq_true] at hmay
  simpa using hmay.2

omit [DecidableEq ι] [DecidableEq ρ] in
theorem awake_of_mayMove {call : ι} (hmay : state.mayMove (.request call) = true)
    (hblocked : state.base.requestPoint call = .blocked) : state.asleep call = false := by
  simp only [State.mayMove, hblocked, Bool.and_eq_true] at hmay
  simpa using hmay.1

theorem Attended.move (hattended : Attended state) (hmay : state.mayMove thread = true)
    (hstep : ClientLocks.Step state.base (.move thread) base) :
    Attended
      { base := base
        asleep := state.asleepAfter thread
        notified := Function.update state.notified thread false } := by
  have hconsistent := hattended.consistent.step hstep
  have hothers : ∀ other, other ≠ thread →
      base.locks.point other = state.base.locks.point other := by
    cases hstep with
    | move _ move locks hmove hlocks => exact fun other => Locks.point_move_of_ne hlocks
  have hready : ∀ call, (base.client.caller call).ready = true →
      (state.base.client.caller call).ready = true ∨
        notifies thread (base.locks.point thread) = some call := by
    cases hstep with
    | move _ move locks hmove hlocks =>
        rw [Locks.point_move_self hlocks]
        exact fun call => ready_of_move hmove
  have harrives : ∀ call, notifies thread (base.locks.point thread) = some call →
      state.notifies thread = none := by
    cases hstep with
    | move _ move locks hmove hlocks =>
        rw [Locks.point_move_self hlocks]
        exact fun call => notifies_of_move hmove
  refine ⟨hconsistent, ?_, ?_, ?_, ?_⟩
  · intro call hcall
    rcases asleep_of_step hstep hcall with hbefore | ⟨_, _, hblocked, _⟩
    · have hblocked := hattended.blocked call hbefore
      have hne : Thread.request call ≠ thread := by
        rintro rfl
        simp [awake_of_mayMove hmay hblocked] at hbefore
      exact (hothers _ hne).trans hblocked
    · exact hblocked
  · intro call hcall hset
    rcases asleep_of_step hstep hcall with hbefore | ⟨_, _, _, hunset⟩
    · rcases hready call hset with hbeforeSet | harrived
      · obtain ⟨other, hother, hfresh⟩ := hattended.attended call hbefore hbeforeSet
        have hne : other ≠ thread := by
          rintro rfl
          simp [notified_of_mayMove hmay hother] at hfresh
        refine ⟨other, ?_, by simpa [hne] using hfresh⟩
        rw [State.notifies, hothers other hne]
        exact hother
      · exact ⟨thread, harrived, by simp⟩
    · simp [hunset] at hset
  · intro other call hother hdone
    have hne : other ≠ thread := by
      rintro rfl
      simp at hdone
    have hbefore : state.notifies other = some call := by
      rw [State.notifies, ← hothers other hne]
      exact hother
    have hawake := hattended.awake other call hbefore (by simpa [hne] using hdone)
    rw [Bool.eq_false_iff]
    intro hcall
    rcases asleep_of_step hstep hcall with hslept | ⟨rfl, hpoint, _, _⟩
    · simp [hawake] at hslept
    · -- Both would hold the mutex of the call.
      apply hne
      refine hattended.consistent.agrees.exclusive (holds_of_notifies hbefore) ?_
      rw [show state.base.locks.point (.request call) = .waitHolds from hpoint]
      rfl
  · intro other hother
    by_cases hne : other = thread
    · simp [hne]
    · rw [State.notifies, hothers other hne] at hother
      simpa [hne] using hattended.fresh other hother

end Move

/-- A step that needs no mutex, and the start of a visit, change nothing that matters. -/
theorem Attended.base_step (hattended : Attended state) {action : ClientLocks.Action ι ρ}
    {base : ClientLocks.State ι ρ} (hmove : ∀ thread, action ≠ .move thread)
    (hstep : ClientLocks.Step state.base action base) : Attended { state with base := base } := by
  have hconsistent := hattended.consistent.step hstep
  cases hstep with
  | outside coarse client houtside hclient =>
      exact hattended.frame hconsistent (fun _ => rfl) (fun _ => rfl)
        fun call => ready_of_outside houtside hclient
  | start visitor job locks hpoint hlocks =>
      have hothers : ∀ other, other ≠ .visitor visitor →
          locks.point other = state.base.locks.point other :=
        fun _ => Locks.point_move_of_ne hlocks
      refine hattended.frame hconsistent (fun call => hothers (.request call) (by simp)) ?_
        fun _ => id
      intro thread
      by_cases hthread : thread = .visitor visitor
      · subst hthread
        have hstart : state.base.locks.point (.visitor visitor) = .outside := hpoint
        rw [State.notifies, hstart, Locks.point_move_self hlocks]
        cases job <;> rfl
      · rw [State.notifies, hothers thread hthread]
  | move thread move locks _ _ => exact absurd rfl (hmove thread)

theorem Attended.step (hattended : Attended state) {action : Action ι ρ}
    (htaken : step state action = some next) : Attended next := by
  cases action with
  | outside action =>
      obtain ⟨base, hbase, rfl⟩ := Option.map_eq_some_iff.mp htaken
      exact hattended.base_step (by simp) (ClientLocks.step_cases hbase)
  | start visitor job =>
      obtain ⟨base, hbase, rfl⟩ := Option.map_eq_some_iff.mp htaken
      exact hattended.base_step (by simp) (ClientLocks.step_cases hbase)
  | move thread =>
      simp only [Wakeups.step] at htaken
      split_ifs at htaken with hmay
      obtain ⟨base, hbase, rfl⟩ := Option.map_eq_some_iff.mp htaken
      exact hattended.move hmay (ClientLocks.step_cases hbase)
  | notify thread =>
      simp only [Wakeups.step] at htaken
      split at htaken
      · obtain rfl := Option.some.inj htaken
        refine hattended.wake _ _ fun other => ?_
        by_cases hother : other = thread
        · subst hother
          exact .inr ⟨by simp, ‹_›⟩
        · exact .inl (by simp [hother])
      · cases htaken
  | spurious call =>
      simp only [Wakeups.step] at htaken
      split_ifs at htaken
      obtain rfl := Option.some.inj htaken
      exact hattended.wake call state.notified fun _ => .inl rfl

/-- **No wake-up is lost.**  In every reachable state, for any number of calls, replies and
sweeps and however their threads interleave: a call that is asleep although its `ready` flag is
set has a thread that wrote the flag, still holds the mutex of the call and wakes it with the
notification it is about to make. -/
theorem no_lost_wakeup {transport : Option Channel} {clock : Timestamp}
    {schedule : List (Action ι ρ)} {final : State ι ρ}
    (hrun : exec step (initial transport clock) schedule = some final) {call : ι}
    (hasleep : final.asleep call = true)
    (hready : (final.base.client.caller call).ready = true) :
    ∃ thread, final.base.locks.holder (.mtx call) = some thread ∧
      final.notified thread = false ∧
      ∃ next, step final (.notify thread) = some next ∧ next.asleep call = false := by
  have hattended : Attended final :=
    exec_invariant (fun _ _ _ hprior htaken => hprior.step htaken)
      (attended_initial transport clock) hrun
  obtain ⟨thread, hthread, hfresh⟩ := hattended.attended call hasleep hready
  have hholder := (hattended.consistent.agrees (.mtx call) thread).mpr (holds_of_notifies hthread)
  refine ⟨thread, hholder, hfresh, { final with
    asleep := Function.update final.asleep call false
    notified := Function.update final.notified thread true }, ?_, ?_⟩
  · simp [step, hthread]
  · simp

/-- A call sleeps, and a reply has set its flag. -/
def answeredAsleep (call : ι) (visitor : ρ) : List (Action ι ρ) :=
  [.outside (.draw call), .outside (.create call),
    .move (.request call), .move (.request call), .move (.request call), .move (.request call),
    .outside (.send call .none),
    .move (.request call), .move (.request call), .move (.request call),
    .start visitor (.response (.reply 1 ['a'])),
    .move (.visitor visitor), .move (.visitor visitor), .move (.visitor visitor),
    .move (.visitor visitor)]

end Invariant

theorem no_lost_wakeup_answeredAsleep :
    ∃ final : State (Fin 1) (Fin 1),
      exec step (initial (some .new) .zero) (answeredAsleep 0 0) = some final ∧
      final.asleep 0 = true ∧ ∃ thread next, step final (.notify thread) = some next ∧
        next.asleep 0 = false := by
  obtain ⟨final, hrun, hfacts⟩ : ∃ final : State (Fin 1) (Fin 1),
      exec step (initial (some .new) .zero) (answeredAsleep 0 0) = some final ∧
        decide (final.asleep 0 = true ∧ (final.base.client.caller 0).ready = true) = true :=
    exists_exec_of_any (by decide)
  obtain ⟨hasleep, hready⟩ := of_decide_eq_true hfacts
  obtain ⟨thread, _, _, next, hnext, hawake⟩ := no_lost_wakeup hrun hasleep hready
  exact ⟨final, hrun, hasleep, thread, next, hnext, hawake⟩

end FireboltTransport.Wakeups
