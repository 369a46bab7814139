/-
# Every thread of the client moves on

That the threads of the client never wait in a cycle says only that one of them can move.
Here it is carried to each: in a run without end in which no reply finds a call that is
answered already, a thread that can go on, waits for a mutex or is about to notify moves
sooner or later.  Two things are asked of the mutexes and of the scheduler: whoever can take
a mutex again and again takes it, and a notification that is due is made.

A thread that holds a mutex gives it back after a bounded number of moves, and while it
holds `queue_mtx` it waits at most for the mutex of a call that is asleep or about to sleep.
-/

import FireboltTransport.Gateway.Deadlock
import FireboltTransport.Gateway.Wakeups
import FireboltTransport.Semantics.LockProgress

namespace FireboltTransport.ClientLocks

open Semantics Client

variable {ι ρ : Type}

/-! ## A thread that has something to do -/

/-- The thread is inside one of its critical sections or about to enter it. -/
def IsBusy (client : Client.State ι) : (thread : Thread ι ρ) → thread.Point → Prop
  | .request call, point =>
      point = .outside → client.phase call = .created ∨ client.phase call = .waiting
  | .visitor _, point => point ≠ .outside
  | .watchdog, point =>
      point = .outside → (∃ now, client.watchdog = .sampled now) ∨
        ∃ call rest, client.watchdog = .marking (call :: rest)

/-- How many moves a thread takes at most until it holds no mutex any more. -/
def movesLeft : (thread : Thread ι ρ) → thread.Point → ℕ
  | .request _, point =>
      match point with
      | .waitHolds => 5
      | .eraseWants => 4
      | .eraseHolds => 3
      | .eraseDone | .insertHolds => 2
      | .eraseReleased | .insertDone => 1
      | _ => 0
  | .visitor _, point =>
      match point with
      | .replyHolds _ => 5
      | .replyFound _ _ => 4
      | .replyOwns _ _ => 3
      | .replyDone _ | .idHolds _ => 2
      | .leaves => 1
      | _ => 0
  | .watchdog, point =>
      match point with
      | .sweepHolds | .markHolds _ => 2
      | .sweepDone | .markDone _ => 1
      | _ => 0

/-- The mutex that the move from a point takes. -/
def asksFor : (thread : Thread ι ρ) → thread.Point → Option (Mutex ι)
  | .request call, point =>
      match point with
      | .insertWants | .eraseWants => some .queueMtx
      | .waitWants => some (.mtx call)
      | _ => none
  | .visitor _, point =>
      match point with
      | .replyWants _ | .idWants _ => some .queueMtx
      | .replyFound _ call => some (.mtx call)
      | _ => none
  | .watchdog, point =>
      match point with
      | .sweepWants => some .queueMtx
      | .markWants call => some (.mtx call)
      | _ => none

/-- Whoever holds a mutex is busy. -/
theorem isBusy_of_holds {client : Client.State ι} {thread : Thread ι ρ} {point : thread.Point}
    {mutex : Mutex ι} (hholds : holds thread point mutex) : IsBusy client thread point := by
  cases thread with
  | request call | visitor visitor | watchdog =>
      rintro rfl
      cases hholds

section Moves

variable [DecidableEq ι] {client : Client.State ι} {thread : Thread ι ρ} {point : thread.Point}
  {move : Move ι thread.Point} {mutex : Mutex ι}

/-- A busy thread has a next move. -/
theorem isSome_moveAt (hfact : Fact client thread point) (hbusy : IsBusy client thread point) :
    (moveAt client thread point).isSome = true := by
  cases thread with
  | request call =>
      cases point with
      | outside => rcases hbusy rfl with hphase | hphase <;> simp [moveAt, requestMove, hphase]
      | waitHolds =>
          simp only [moveAt, requestMove]
          split_ifs <;> rfl
      | _ => rfl
  | visitor visitor =>
      cases point with
      | outside => exact absurd rfl hbusy
      | replyHolds message =>
          simp only [moveAt, visitorMove]
          split <;> rfl
      | _ => rfl
  | watchdog =>
      cases point with
      | outside =>
          rcases hbusy rfl with ⟨now, hsampled⟩ | ⟨call, rest, hmarking⟩
          · simp [moveAt, watchdogMove, hsampled]
          · simp [moveAt, watchdogMove, hmarking]
      | sweepHolds =>
          obtain ⟨now, hsampled⟩ := hfact
          simp [moveAt, watchdogMove, hsampled]
      | markHolds call =>
          obtain ⟨rest, hmarking⟩ := hfact
          simp [moveAt, watchdogMove, hmarking]
      | _ => rfl

theorem wanted_of_move (hmove : moveAt client thread point = some move) :
    move.op.wanted = asksFor thread point := by
  cases thread with
  | request call => cases requestMove_cases hmove <;> rfl
  | visitor visitor => cases visitorMove_cases hmove <;> rfl
  | watchdog => cases watchdogMove_cases hmove <;> rfl

/-- What a busy thread asks for depends on its point alone. -/
theorem wants_of_isBusy {state : State ι ρ}
    (hfact : Fact state.client thread (state.locks.point thread))
    (hbusy : IsBusy state.client thread (state.locks.point thread)) :
    state.wants thread = asksFor thread (state.locks.point thread) := by
  obtain ⟨move, hmove⟩ := Option.isSome_iff_exists.mp (isSome_moveAt hfact hbusy)
  rw [State.wants, hmove, Option.bind_some]
  exact wanted_of_move hmove

/-- A thread that keeps a mutex with its move comes closer to giving it back. -/
theorem movesLeft_lt (hmove : moveAt client thread point = some move)
    (hholds : holds thread point mutex) (hstill : holds thread move.next mutex) :
    movesLeft thread move.next < movesLeft thread point := by
  cases thread with
  | request call => cases requestMove_cases hmove <;> simp_all [holds, movesLeft]
  | visitor visitor => cases visitorMove_cases hmove <;> simp_all [holds, movesLeft]
  | watchdog => cases watchdogMove_cases hmove <;> simp_all [holds, movesLeft]

end Moves

/-! ## What the steps of the others leave alone -/

section Step

variable [DecidableEq ι] [DecidableEq ρ] {state next : State ι ρ} {action : Action ι ρ}
  {thread : Thread ι ρ}

/-- A thread is where it was, unless it moves or starts a visit. -/
theorem point_step (hstep : Step state action next) (hmove : action ≠ .move thread)
    (hstart : ∀ visitor job, action = .start visitor job → thread ≠ .visitor visitor) :
    next.locks.point thread = state.locks.point thread := by
  cases hstep with
  | outside coarse client houtside hclient => rfl
  | start visitor job locks hpoint hlocks =>
      exact Locks.point_move_of_ne hlocks (hstart visitor job rfl)
  | move other move locks hother hlocks =>
      refine Locks.point_move_of_ne hlocks ?_
      rintro rfl
      exact hmove rfl

/-- What a move does, without its mutexes. -/
theorem exists_moveAt (hstep : Step state (.move thread) next) :
    ∃ move, moveAt state.client thread (state.locks.point thread) = some move ∧
      next.client = move.client ∧ next.locks.point thread = move.next := by
  cases hstep with
  | move _ move locks hmove hlocks => exact ⟨move, hmove, rfl, Locks.point_move_self hlocks⟩

variable {call : ι}

/-- A call that is about to enter a critical section does so with a move of its own. -/
theorem phase_kept (hconsistent : Consistent state) (hstep : Step state action next)
    (haction : action ≠ .move (.request call))
    (hphase : state.client.phase call = .created ∨ state.client.phase call = .waiting) :
    next.client.phase call = state.client.phase call := by
  cases hstep with
  | outside coarse client houtside hclient =>
      apply phase_step hclient
      intro hactor
      cases hclient with
      | refuse own hown | draw own channel hown | create own id hown | send own hown
      | sendFailed own result hown | check own hown | readResponse own hown
      | readError own hown =>
          obtain rfl : own = call := Option.some.inj hactor
          simp [hown] at hphase
      | insert own | wake own | erase own => cases houtside
      | setTransport | tick | ignore | response | sample | collect | mark | sleep => cases hactor
  | start visitor job locks hpoint hlocks => rfl
  | move other move locks hmove hlocks =>
      rcases hconsistent.client_of_move hmove with hsame | ⟨coarse, hdata, hcoarse⟩
      · rw [hsame]
      · apply phase_step hcoarse
        intro hactor
        obtain rfl := actor_of_dataStep hdata hactor
        exact haction rfl

/-- And so does the watchdog. -/
theorem watchdog_kept (hconsistent : Consistent state) (hstep : Step state action next)
    (haction : action ≠ .move .watchdog)
    (hwatchdog : (∃ now, state.client.watchdog = .sampled now) ∨
      ∃ call rest, state.client.watchdog = .marking (call :: rest)) :
    next.client.watchdog = state.client.watchdog := by
  cases hstep with
  | outside coarse client houtside hclient =>
      cases hclient with
      | sample hsleeping => simp [hsleeping] at hwatchdog
      | sleep hmarking => simp [hmarking] at hwatchdog
      | collect | mark => cases houtside
      | _ => rfl
  | start visitor job locks hpoint hlocks => rfl
  | move other move locks hmove hlocks =>
      rcases hconsistent.client_of_move hmove with hsame | ⟨coarse, hdata, hcoarse⟩
      · rw [hsame]
      · refine watchdog_step hcoarse (Bool.eq_false_iff.mpr fun hown => ?_)
        obtain rfl := isWatchdog_of_dataStep hdata hown
        exact haction rfl

/-- A busy thread stays where it is, and busy, until it moves. -/
theorem isBusy_step (hconsistent : Consistent state) (hstep : Step state action next)
    (haction : action ≠ .move thread)
    (hbusy : IsBusy state.client thread (state.locks.point thread)) :
    next.locks.point thread = state.locks.point thread ∧
      IsBusy next.client thread (next.locks.point thread) := by
  have hpoint : next.locks.point thread = state.locks.point thread := by
    refine point_step hstep haction ?_
    rintro visitor job rfl rfl
    cases hstep with
    | start _ _ locks hpoint hlocks => exact hbusy hpoint
  refine ⟨hpoint, ?_⟩
  rw [hpoint]
  cases thread with
  | request call =>
      intro houtside
      rw [phase_kept hconsistent hstep haction (hbusy houtside)]
      exact hbusy houtside
  | visitor visitor => exact hbusy
  | watchdog =>
      intro houtside
      rw [watchdog_kept hconsistent hstep haction (hbusy houtside)]
      exact hbusy houtside

/-- A thread that holds a mutex gives it back with its move or comes closer to it. -/
theorem released_or_closer (hconsistent : Consistent state)
    (hstep : Step state (.move thread) next) {mutex : Mutex ι}
    (hholder : state.locks.holder mutex = some thread) :
    next.locks.holder mutex = none ∨
      (next.locks.holder mutex = some thread ∧
        movesLeft thread (next.locks.point thread) <
          movesLeft thread (state.locks.point thread)) := by
  have hholds := (hconsistent.agrees mutex thread).mp hholder
  have hagrees := (hconsistent.step hstep).agrees
  cases hstep with
  | move _ move locks hmove hlocks =>
      by_cases hstill : holds thread move.next mutex
      · right
        rw [Locks.point_move_self hlocks]
        refine ⟨(hagrees mutex thread).mpr ?_, movesLeft_lt hmove hholds hstill⟩
        rw [Locks.point_move_self hlocks]
        exact hstill
      · left
        have heffect := effect_of_move hmove
        obtain ⟨op, point, client⟩ := move
        cases op with
        | keep => exact absurd ((heffect mutex).mpr hholds) hstill
        | lock taken => exact absurd ((heffect mutex).mpr (.inr hholds)) hstill
        | unlock released =>
            obtain rfl : mutex = released := by
              by_contra hother
              exact hstill ((heffect.2 mutex).mpr ⟨hother, hholds⟩)
            cases hlocks
            exact Function.update_self ..

end Step

end FireboltTransport.ClientLocks

namespace FireboltTransport.Wakeups

open Semantics ClientLocks

variable {ι ρ : Type}

/-! ## One step, seen without the condition variables -/

/-- The step of the client with its mutexes. -/
def Action.base : Action ι ρ → Option (ClientLocks.Action ι ρ)
  | .outside action => some (.outside action)
  | .start visitor job => some (.start visitor job)
  | .move thread => some (.move thread)
  | .notify _ | .spurious _ => none

theorem move_of_base {action : Action ι ρ} {thread : Thread ι ρ}
    (hbase : action.base = some (.move thread)) : action = .move thread := by
  cases action with
  | move other =>
      cases hbase
      rfl
  | outside | start | notify | spurious => cases hbase

/-- Who is about to notify asks for no mutex. -/
theorem asksFor_of_notifies {thread : Thread ι ρ} {point : thread.Point} {call : ι}
    (hnotifies : notifies thread point = some call) : asksFor thread point = none := by
  cases thread with
  | request own => cases hnotifies
  | visitor visitor | watchdog => cases point <;> first | rfl | cases hnotifies

variable [DecidableEq ι] [DecidableEq ρ]

section Step

variable {state next : State ι ρ} {action : Action ι ρ} {thread : Thread ι ρ} {call : ι}

theorem step_of_base (htaken : step state action = some next) {below : ClientLocks.Action ι ρ}
    (hbase : action.base = some below) : ClientLocks.Step state.base below next.base := by
  cases action with
  | outside | start =>
      cases hbase
      obtain ⟨base, hstep, rfl⟩ := Option.map_eq_some_iff.mp htaken
      exact ClientLocks.step_cases hstep
  | move thread =>
      cases hbase
      simp only [step] at htaken
      split_ifs at htaken
      obtain ⟨base, hstep, rfl⟩ := Option.map_eq_some_iff.mp htaken
      exact ClientLocks.step_cases hstep
  | notify | spurious => cases hbase

theorem base_of_step (htaken : step state action = some next) (hbase : action.base = none) :
    next.base = state.base := by
  cases action with
  | outside | start | move => cases hbase
  | notify thread =>
      simp only [step] at htaken
      split at htaken
      · obtain rfl := Option.some.inj htaken
        rfl
      · cases htaken
  | spurious call =>
      simp only [step] at htaken
      split_ifs at htaken
      obtain rfl := Option.some.inj htaken
      rfl

/-- A thread that visits nobody is where it was, unless it moves. -/
theorem point_step (htaken : step state action = some next) (hmove : action ≠ .move thread)
    (hvisitor : ∀ visitor, thread ≠ .visitor visitor) :
    next.base.locks.point thread = state.base.locks.point thread := by
  cases hbase : action.base with
  | none => rw [base_of_step htaken hbase]
  | some below =>
      refine ClientLocks.point_step (step_of_base htaken hbase) ?_ fun visitor _ _ =>
        hvisitor visitor
      rintro rfl
      exact hmove (move_of_base hbase)

/-- A call falls asleep with a move of its own. -/
theorem asleep_step (htaken : step state action = some next)
    (haction : action ≠ .move (.request call)) (hawake : state.asleep call = false) :
    next.asleep call = false := by
  cases action with
  | outside | start =>
      obtain ⟨base, _, rfl⟩ := Option.map_eq_some_iff.mp htaken
      exact hawake
  | move thread =>
      simp only [step] at htaken
      split_ifs at htaken
      obtain ⟨base, _, rfl⟩ := Option.map_eq_some_iff.mp htaken
      cases thread with
      | request own =>
          have hcall : call ≠ own := by
            rintro rfl
            exact haction rfl
          simp only [State.asleepAfter]
          split_ifs
          · rw [Function.update_of_ne hcall]
            exact hawake
          · exact hawake
      | visitor | watchdog => exact hawake
  | notify thread =>
      simp only [step] at htaken
      split at htaken
      · obtain rfl := Option.some.inj htaken
        simp [Function.update_apply, hawake]
      · cases htaken
  | spurious other =>
      simp only [step] at htaken
      split_ifs at htaken
      obtain rfl := Option.some.inj htaken
      simp [Function.update_apply, hawake]

/-- Whether a thread has notified changes when it notifies or moves. -/
theorem notified_step (htaken : step state action = some next) (hmove : action ≠ .move thread)
    (hnotify : action ≠ .notify thread) : next.notified thread = state.notified thread := by
  cases action with
  | outside | start =>
      obtain ⟨base, _, rfl⟩ := Option.map_eq_some_iff.mp htaken
      rfl
  | move other =>
      simp only [step] at htaken
      split_ifs at htaken
      obtain ⟨base, _, rfl⟩ := Option.map_eq_some_iff.mp htaken
      refine Function.update_of_ne ?_ _ _
      rintro rfl
      exact hmove rfl
  | notify other =>
      simp only [step] at htaken
      split at htaken
      · obtain rfl := Option.some.inj htaken
        refine Function.update_of_ne ?_ _ _
        rintro rfl
        exact hnotify rfl
      · cases htaken
  | spurious other =>
      simp only [step] at htaken
      split_ifs at htaken
      obtain rfl := Option.some.inj htaken
      rfl

/-- A thread without a next move does not move. -/
theorem step_eq_none_of_idle
    (hidle : moveAt state.base.client thread (state.base.locks.point thread) = none) :
    step state (.move thread) = none := by
  simp [step, ClientLocks.step, hidle]

/-- A thread about to notify stays so until it moves. -/
theorem notifies_step (hattended : Attended state) (htaken : step state action = some next)
    (haction : action ≠ .move thread) (hnotifies : state.notifies thread = some call) :
    next.notifies thread = some call := by
  cases hbase : action.base with
  | none =>
      rw [State.notifies, base_of_step htaken hbase]
      exact hnotifies
  | some below =>
      have hbusy : IsBusy state.base.client thread (state.base.locks.point thread) :=
        isBusy_of_holds (holds_of_notifies hnotifies)
      have hbelow : below ≠ .move thread := by
        rintro rfl
        exact haction (move_of_base hbase)
      rw [State.notifies, (isBusy_step hattended.consistent (step_of_base htaken hbase) hbelow
        hbusy).1]
      exact hnotifies

end Step

/-! ## A thread that is awake -/

/-- The thread has something to do and does not sleep. -/
def IsActive (state : State ι ρ) (thread : Thread ι ρ) : Prop :=
  IsBusy state.base.client thread (state.base.locks.point thread) ∧
    ∀ call, thread = .request call → state.asleep call = false

section Active

variable {state next : State ι ρ} {action : Action ι ρ} {thread : Thread ι ρ} {mutex : Mutex ι}

omit [DecidableEq ι] [DecidableEq ρ] in
/-- Whoever holds a mutex is awake. -/
theorem isActive_of_holds (hattended : Attended state)
    (hholds : holds thread (state.base.locks.point thread) mutex) : IsActive state thread := by
  refine ⟨isBusy_of_holds hholds, ?_⟩
  rintro call rfl
  rw [Bool.eq_false_iff]
  intro hasleep
  rw [show state.base.locks.point (.request call) = .blocked from
    hattended.blocked call hasleep] at hholds
  cases hholds

/-- An active thread stays as it is until it moves. -/
theorem isActive_step (hattended : Attended state) (htaken : step state action = some next)
    (haction : action ≠ .move thread) (hactive : IsActive state thread) :
    next.base.locks.point thread = state.base.locks.point thread ∧ IsActive next thread := by
  have hawake : ∀ call, thread = .request call → next.asleep call = false := by
    rintro call rfl
    exact asleep_step htaken haction (hactive.2 call rfl)
  cases hbase : action.base with
  | none =>
      rw [IsActive, base_of_step htaken hbase]
      exact ⟨rfl, hactive.1, hawake⟩
  | some below =>
      have hbelow : below ≠ .move thread := by
        rintro rfl
        exact haction (move_of_base hbase)
      obtain ⟨hpoint, hbusy⟩ :=
        isBusy_step hattended.consistent (step_of_base htaken hbase) hbelow hactive.1
      exact ⟨hpoint, hbusy, hawake⟩

omit [DecidableEq ι] [DecidableEq ρ] in
/-- An active thread may move once it has made the notification that is due. -/
theorem mayMove_of_isActive (hactive : IsActive state thread)
    (hnotified : ∀ call, state.notifies thread = some call → state.notified thread = true) :
    state.mayMove thread = true := by
  unfold State.mayMove
  rw [Bool.and_eq_true]
  constructor
  · cases thread with
    | request call => simp [hactive.2 call rfl]
    | visitor | watchdog => rfl
  · cases hnotifies : state.notifies thread with
    | none => rfl
    | some call => simp [hnotified call hnotifies]

/-- It then moves, unless the mutex it asks for is held. -/
theorem isSome_step (hattended : Attended state) (hactive : IsActive state thread)
    (hnotified : ∀ call, state.notifies thread = some call → state.notified thread = true)
    (hfree : ∀ mutex, state.base.wants thread = some mutex →
      state.base.locks.holder mutex = none) :
    (step state (.move thread)).isSome = true := by
  obtain ⟨⟨op, point, client⟩, hmove⟩ := Option.isSome_iff_exists.mp
    (isSome_moveAt (hattended.consistent.fact thread) hactive.1)
  have hwants : state.base.wants thread = op.wanted := by
    rw [ClientLocks.State.wants, hmove, Option.bind_some]
  have hlocks : (state.base.locks.move thread op point).isSome = true := by
    cases op with
    | keep | unlock => rfl
    | lock mutex => simp [Locks.move, hfree mutex hwants]
  obtain ⟨locks, hlocks⟩ := Option.isSome_iff_exists.mp hlocks
  simp [step, mayMove_of_isActive hactive hnotified, ClientLocks.step, hmove, hlocks]

end Active

/-! ## Runs without end -/

/-- What is asked of the mutexes and of the scheduler. -/
structure TreatedFairly (run : Endless (step (ι := ι) (ρ := ρ))) : Prop where
  /-- A thread that can move again and again, as the mutex it asks for is free again and again,
  moves. -/
  moves : ∀ thread, run.StronglyFair fun action => action = .move thread
  notifies : ∀ thread, run.Fair fun action => action = .notify thread
  /-- The watchdog reads the clock and goes to sleep. -/
  watchdog : run.Fair fun action => action = .outside .sample ∨ action = .outside .sleep
  /-- A call reads what it returns. -/
  calls : ∀ call, run.Fair fun action =>
    action = .outside (.check call) ∨ action = .outside (.read call)

/-- A reply that is looked up finds no call that is answered already. -/
def FindsUnanswered (state : State ι ρ) (action : Action ι ρ) : Prop :=
  ∀ below ∈ action.base, ClientLocks.FindsUnanswered state.base below

instance (state : State ι ρ) (action : Action ι ρ) : Decidable (FindsUnanswered state action) := by
  unfold FindsUnanswered
  infer_instance

/-- What holds at every moment when no reply finds an answered call. -/
structure Sound (state : State ι ρ) : Prop where
  attended : Attended state
  uncrossed : Uncrossed state.base

omit [DecidableEq ι] [DecidableEq ρ] in
theorem sound_initial (transport : Option Channel) (clock : Timestamp) :
    Sound (initial transport clock : State ι ρ) where
  attended := attended_initial transport clock
  uncrossed := by
    rintro visitor message call hfound
    cases hfound

theorem Sound.step {state next : State ι ρ} {action : Action ι ρ} (hsound : Sound state)
    (hfinds : FindsUnanswered state action) (htaken : Wakeups.step state action = some next) :
    Sound next where
  attended := hsound.attended.step htaken
  uncrossed := by
    cases hbase : action.base with
    | none =>
        rw [base_of_step htaken hbase]
        exact hsound.uncrossed
    | some below =>
        exact uncrossed_step hsound.attended.consistent hsound.uncrossed (hfinds below hbase)
          (step_of_base htaken hbase)

section Runs

variable {run : Endless (step (ι := ι) (ρ := ρ))} {thread : Thread ι ρ} {call : ι} {start : ℕ}

theorem sound_of_findsUnanswered {transport : Option Channel} {clock : Timestamp}
    (hstart : run.state 0 = initial transport clock)
    (hfinds : ∀ moment action, run.action moment = some action →
      FindsUnanswered (run.state moment) action) (moment : ℕ) : Sound (run.state moment) := by
  refine run.always_of_step (motive := Sound) ?_ ?_ moment (Nat.zero_le moment)
  · rw [hstart]
    exact sound_initial transport clock
  · intro moment _ action haction hprior
    exact hprior.step (hfinds moment action haction) (run.taken haction)

/-- An active thread stays as it is as long as it does not move. -/
theorem isActive_succ {moment : ℕ} (hsound : Sound (run.state moment))
    (hactive : IsActive (run.state moment) thread)
    (haction : run.action moment ≠ some (.move thread)) :
    (run.state (moment + 1)).base.locks.point thread =
        (run.state moment).base.locks.point thread ∧
      IsActive (run.state (moment + 1)) thread := by
  cases htaken : run.action moment with
  | none =>
      rw [run.idle htaken]
      exact ⟨rfl, hactive⟩
  | some action =>
      refine isActive_step hsound.attended (run.taken htaken) ?_ hactive
      rintro rfl
      exact haction htaken

/-- A notification that is due is made. -/
theorem exists_notified (hsound : ∀ moment, Sound (run.state moment)) (hfair : TreatedFairly run)
    (hnotifies : (run.state start).notifies thread = some call) :
    ∃ later ≥ start, run.action later = some (.move thread) ∨
      ((run.state later).notifies thread = some call ∧
        (run.state later).notified thread = true) := by
  by_contra hnever
  push Not at hnever
  have hkept : ∀ moment ≥ start, (run.state moment).notifies thread = some call := by
    apply run.always_of_step (motive := fun state => state.notifies thread = some call) hnotifies
    intro moment hmoment action haction hprior
    refine notifies_step (hsound moment).attended (run.taken haction) ?_ hprior
    rintro rfl
    exact (hnever moment hmoment).1 haction
  obtain ⟨moment, hmoment, _, haction, rfl⟩ := hfair.notifies thread start fun moment hmoment =>
    ⟨_, rfl, by simp [step, hkept moment hmoment]⟩
  have hnext := Nat.le_succ_of_le hmoment
  refine (hnever (moment + 1) hnext).2 (hkept (moment + 1) hnext) ?_
  have htaken := run.taken haction
  simp only [step, hkept moment hmoment, Option.some.injEq] at htaken
  rw [← htaken]
  exact Function.update_self ..

/-- **The threads keep to the order of their mutexes.** -/
theorem orderly_of_sound (hsound : ∀ moment, Sound (run.state moment))
    (hfair : TreatedFairly run) :
    Orderly run Action.move IsActive (fun state => state.base.wants)
      (fun state => state.base.locks.holder) (fun state => state.base.rank)
      (fun state thread => movesLeft thread (state.base.locks.point thread)) where
  fair := hfair.moves
  stays := by
    intro moment thread hactive haction
    obtain ⟨hpoint, hnext⟩ := isActive_succ (hsound moment) hactive haction
    have hwants : (run.state (moment + 1)).base.wants thread =
        (run.state moment).base.wants thread := by
      rw [wants_of_isBusy ((hsound moment).attended.consistent.fact thread) hactive.1,
        wants_of_isBusy ((hsound (moment + 1)).attended.consistent.fact thread) hnext.1, hpoint]
    exact ⟨hnext, hwants, by simp only [ClientLocks.State.rank, hwants], by rw [hpoint]⟩
  takes := by
    intro moment thread mutex hactive hwants hfree
    refine isSome_step (hsound moment).attended hactive ?_ ?_
    · intro call hnotifies
      rw [wants_of_isBusy ((hsound moment).attended.consistent.fact thread) hactive.1,
        asksFor_of_notifies hnotifies] at hwants
      cases hwants
    · intro other hother
      obtain rfl : mutex = other := Option.some.inj (hwants.symm.trans hother)
      exact hfree
  goesOn := by
    intro moment thread hactive hwants
    cases hnotifies : (run.state moment).notifies thread with
    | none =>
        refine ⟨moment, Nat.le_refl moment, .inr ?_⟩
        refine isSome_step (hsound moment).attended hactive ?_ ?_
        · simp [hnotifies]
        · simp [hwants]
    | some call =>
        obtain ⟨later, hlater, hmoved | ⟨hstill, hdone⟩⟩ :=
          exists_notified hsound hfair hnotifies
        · exact ⟨later, hlater, .inl hmoved⟩
        · refine ⟨later, hlater, .inr ?_⟩
          have hattended := (hsound later).attended
          have hagain := isActive_of_holds hattended (holds_of_notifies hstill)
          refine isSome_step hattended hagain (fun _ _ => hdone) ?_
          rw [wants_of_isBusy (hattended.consistent.fact thread) hagain.1,
            asksFor_of_notifies hstill]
          simp
  owner := by
    intro moment thread mutex hholder
    have hattended := (hsound moment).attended
    exact isActive_of_holds hattended ((hattended.consistent.agrees mutex thread).mp hholder)
  keeps := by
    intro moment thread mutex hholder haction
    have hattended := (hsound moment).attended
    have hholds := (hattended.consistent.agrees mutex thread).mp hholder
    refine ((hsound (moment + 1)).attended.consistent.agrees mutex thread).mpr ?_
    rw [(isActive_succ (hsound moment) (isActive_of_holds hattended hholds) haction).1]
    exact hholds
  closer := by
    intro moment thread mutex hholder haction
    exact released_or_closer (hsound moment).attended.consistent
      (step_of_base (run.taken haction) rfl) hholder
  falls := fun hwaits => rank_lt (hsound _).attended.consistent (hsound _).uncrossed hwaits

/-- **Every thread moves on**, from the point at which it is. -/
theorem exists_move (hsound : ∀ moment, Sound (run.state moment)) (hfair : TreatedFairly run)
    (hactive : IsActive (run.state start) thread) :
    ∃ first ≥ start, run.action first = some (.move thread) ∧
      (run.state first).base.locks.point thread = (run.state start).base.locks.point thread := by
  obtain ⟨first, hfirst, haction, hstill⟩ :=
    (orderly_of_sound hsound hfair).exists_first_move hactive
  refine ⟨first, hfirst, haction, ?_⟩
  refine (run.kept_before (motive := fun state => state.base.locks.point thread =
    (run.state start).base.locks.point thread ∧ IsActive state thread) hfirst
    ⟨rfl, hactive⟩ ?_).1
  rintro between hbetween hless ⟨hpoint, hprior⟩
  obtain ⟨hsame, hnext⟩ := isActive_succ (hsound between) hprior (hstill between hbetween hless)
  exact ⟨hsame.trans hpoint, hnext⟩

end Runs

end FireboltTransport.Wakeups
