/-
# Waiting for a job with the lock held

`RemoveEntry` and `Clear` call `IWorkerPool::Revoke` while they hold `_adminLock`.
`Revoke` takes a queued job from the queue, and waits for the end of a job that a
worker has started, unless it is called by that job.  A started job comes to
`_adminLock` twice: for `IsActive` when its request has succeeded, and for
`RemoveEntry` when its callback has returned.

Here each lock, each body of a section, each unlock and each wait is a step of one
thread; a worker thread is named by the job it runs.
-/

import FireboltTransport.Async.MethodMap
import FireboltTransport.Semantics.Run
import FireboltTransport.Transport.Operations

namespace FireboltTransport.Async.Revoking

open Semantics Transport

universe u v

/-- A thread of the application, or the worker that runs a job. -/
inductive Thread (τ : Type u) (ι : Type v)
  | application (thread : τ)
  | worker (job : ι)
  deriving DecidableEq

/-- What `_adminLock` is taken for. -/
inductive Section (ι : Type v)
  | invoke (job : ι) (call : Call)
  /-- `RemoveEntry`, from `Abort` or from a job. -/
  | removeEntry (call : Call)
  | isActive (call : Call)
  | clear
  deriving DecidableEq

/-- Where a thread is. -/
inductive Point (ι : Type v)
  | idle
  /-- At `_adminLock.Lock()`. -/
  | enter (body : Section ι)
  | inside (body : Section ι)
  /-- In `Revoke` of a started job, that of the entry of the call. -/
  | revoking (body : Section ι) (call : Call) (job : ι)
  /-- At `_adminLock.Unlock()`, with the result of `IsActive`. -/
  | leave (body : Section ι) (active : Bool)
  /-- `Invoke` is about to submit its job. -/
  | submit (job : ι) (call : Call)
  /-- A job is in `Gateway::Request`. -/
  | requesting (call : Call)
  /-- A job is in its callback. -/
  | calling (call : Call)
  deriving DecidableEq

/-- What the pool knows of a job. -/
inductive Status
  | unused
  | created
  | queued (call : Call)
  | started
  | finished
  | revoked
  deriving DecidableEq

structure State (τ : Type u) (ι : Type v) where
  methodMap : MethodMap ι
  adminLock : CriticalSection (Thread τ ι)
  point : Thread τ ι → Point ι
  status : ι → Status

/-- Nothing was called. -/
def initial {τ : Type u} {ι : Type v} : State τ ι where
  methodMap := ∅
  adminLock := .free
  point _ := .idle
  status _ := .unused

inductive Action (τ : Type u) (ι : Type v)
  /-- An application thread calls `Invoke`, for which a new job is created. -/
  | invoke (thread : τ) (job : ι) (call : Call)
  | abort (thread : τ) (call : Call)
  /-- `Dispose` calls `Clear`. -/
  | dispose (thread : τ)
  | next (thread : Thread τ ι)
  /-- The loops of `Clear` come to this entry; no order is assumed. -/
  | clearEntry (thread : Thread τ ι) (call : Call)
  /-- A worker starts the job. -/
  | start (job : ι)
  /-- `Gateway::Request` returns. -/
  | answer (job : ι) (status : Error)
  /-- The callback of the job returns. -/
  | callbackReturns (job : ι)
  deriving DecidableEq

variable {τ : Type u} {ι : Type v} [DecidableEq τ] [DecidableEq ι]

def State.setPoint (state : State τ ι) (thread : Thread τ ι) (point : Point ι) : State τ ι :=
  { state with point := Function.update state.point thread point }

def State.setStatus (state : State τ ι) (job : ι) (status : Status) : State τ ι :=
  { state with status := Function.update state.status job status }

/-- The thread is done; a worker has finished its job. -/
def State.finish (state : State τ ι) : Thread τ ι → State τ ι
  | .application thread => state.setPoint (.application thread) .idle
  | .worker job => (state.setStatus job .finished).setPoint (.worker job) .idle

/-- Where the section goes on behind an entry. -/
def Section.afterEntry : Section ι → Point ι
  | .clear => .inside .clear
  | body => .leave body false

/-- The entry is erased, and the section goes on. -/
def State.eraseEntry (state : State τ ι) (thread : Thread τ ι) (body : Section ι) (call : Call) :
    State τ ι :=
  { state with methodMap := (removeEntry state.methodMap call).2 }.setPoint thread body.afterEntry

/-- Revoke the job of the entry and erase the entry, or wait for the job. -/
def State.revokeEntry (state : State τ ι) (thread : Thread τ ι) (body : Section ι) (call : Call) :
    State τ ι :=
  match (removeEntry state.methodMap call).1 with
  | none => state.eraseEntry thread body call
  | some job =>
      match state.status job with
      | .queued _ => (state.setStatus job .revoked).eraseEntry thread body call
      | .started =>
          if thread = .worker job then state.eraseEntry thread body call
          else state.setPoint thread (.revoking body call job)
      | .unused | .created | .finished | .revoked => state.eraseEntry thread body call

/-- One step of a thread, or `none` while it has to wait. -/
def State.run (state : State τ ι) (thread : Thread τ ι) : Point ι → Option (State τ ι)
  | .enter body =>
      (state.adminLock.lock thread).map fun held =>
        { state with adminLock := held }.setPoint thread (.inside body)
  | .inside (.invoke job call) =>
      some ({ state with methodMap := record state.methodMap call ⟨some job⟩ }.setPoint thread
        (.leave (.invoke job call) false))
  | .inside (.removeEntry call) => some (state.revokeEntry thread (.removeEntry call) call)
  | .inside (.isActive call) =>
      some (state.setPoint thread (.leave (.isActive call) (isActive state.methodMap call)))
  | .inside .clear =>
      if state.methodMap.keys = [] then some (state.setPoint thread (.leave .clear false)) else none
  | .revoking body call job =>
      if state.status job = .finished then some (state.eraseEntry thread body call) else none
  | .leave body active =>
      let unlocked := { state with adminLock := state.adminLock.unlock }
      match body with
      | .invoke job call => some (unlocked.setPoint thread (.submit job call))
      | .isActive call =>
          if active then some (unlocked.setPoint thread (.calling call))
          else some (unlocked.finish thread)
      | .removeEntry _ | .clear => some (unlocked.finish thread)
  | .submit job call => some ((state.setStatus job (.queued call)).setPoint thread .idle)
  | .idle | .requesting _ | .calling _ => none

/-- One step, or `none` when the label is not enabled. -/
def step (state : State τ ι) : Action τ ι → Option (State τ ι)
  | .invoke thread job call =>
      match state.point (.application thread), state.status job with
      | .idle, .unused => some ((state.setStatus job .created).setPoint (.application thread)
          (.enter (.invoke job call)))
      | _, _ => none
  | .abort thread call =>
      match state.point (.application thread) with
      | .idle => some (state.setPoint (.application thread) (.enter (.removeEntry call)))
      | _ => none
  | .dispose thread =>
      match state.point (.application thread) with
      | .idle => some (state.setPoint (.application thread) (.enter .clear))
      | _ => none
  | .next thread => state.run thread (state.point thread)
  | .clearEntry thread call =>
      match state.point thread, entry state.methodMap call with
      | .inside .clear, some _ => some (state.revokeEntry thread .clear call)
      | _, _ => none
  | .start job =>
      match state.status job, state.point (.worker job) with
      | .queued call, .idle => some ((state.setStatus job .started).setPoint (.worker job)
          (.requesting call))
      | _, _ => none
  | .answer job status =>
      match state.point (.worker job) with
      | .requesting call =>
          if status = .none then some (state.setPoint (.worker job) (.enter (.isActive call)))
          else some (state.finish (.worker job))
      | _ => none
  | .callbackReturns job =>
      match state.point (.worker job) with
      | .calling call => some (state.setPoint (.worker job) (.enter (.removeEntry call)))
      | _ => none

/-! ## The two waits -/

/-- The thread waits for `_adminLock`, or would wait if another thread held it. -/
def Point.atLock : Point ι → Bool
  | .enter _ => true
  | .idle | .inside _ | .revoking _ _ _ | .leave _ _ | .submit _ _ | .requesting _
  | .calling _ => false

/-- The job that the holder of `_adminLock` waits for. -/
def State.awaited (state : State τ ι) : Option ι :=
  match state.adminLock with
  | .held holder _ =>
      match state.point holder with
      | .revoking _ _ job => some job
      | _ => none
  | .free => none

/-- No job waits for the lock of a thread that waits for the job. -/
def NoDeadlock (state : State τ ι) : Prop :=
  ∀ job, state.awaited = some job → (state.point (.worker job)).atLock = false

/-- The job that would be waited for is not at the lock. -/
def RevokesAway (state : State τ ι) (thread : Thread τ ι) (call : Call) : Prop :=
  ∀ job ∈ (removeEntry state.methodMap call).1, state.status job = .started →
    thread ≠ .worker job → (state.point (.worker job)).atLock = false

/-- The step does not let the two waits meet: no `Revoke` begins for a started job that is at the
lock, and no job comes to the lock while the holder waits for it. -/
def WaitsApart (state : State τ ι) : Action τ ι → Prop
  | .next thread =>
      match state.point thread with
      | .inside (.removeEntry call) => RevokesAway state thread call
      | _ => True
  | .clearEntry thread call => RevokesAway state thread call
  | .answer job status => status = .none → state.awaited ≠ some job
  | .callbackReturns job => state.awaited ≠ some job
  | .invoke _ _ _ | .abort _ _ | .dispose _ | .start _ => True

instance (state : State τ ι) (thread : Thread τ ι) (call : Call) :
    Decidable (RevokesAway state thread call) :=
  match hjob : (removeEntry state.methodMap call).1 with
  | none => isTrue (by simp [RevokesAway, hjob])
  | some job =>
      decidable_of_iff (state.status job = .started → thread ≠ .worker job →
        (state.point (.worker job)).atLock = false) (by simp [RevokesAway, hjob])

instance (state : State τ ι) : ∀ action, Decidable (WaitsApart state action)
  | .next thread =>
      match hpoint : state.point thread with
      | .inside (.removeEntry call) =>
          decidable_of_iff (RevokesAway state thread call) (by simp only [WaitsApart, hpoint])
      | .inside (.invoke _ _) | .inside (.isActive _) | .inside .clear | .idle | .enter _
      | .revoking _ _ _ | .leave _ _ | .submit _ _ | .requesting _ | .calling _ =>
          isTrue (by simp only [WaitsApart, hpoint])
  | .clearEntry thread call => inferInstanceAs (Decidable (RevokesAway state thread call))
  | .answer job status => inferInstanceAs (Decidable (status = .none → state.awaited ≠ some job))
  | .callbackReturns job => inferInstanceAs (Decidable (state.awaited ≠ some job))
  | .invoke _ _ _ | .abort _ _ | .dispose _ | .start _ => isTrue trivial

/-! ## Who holds the lock -/

/-- The thread is between the lock and the unlock. -/
def Point.inSection : Point ι → Bool
  | .inside _ | .revoking _ _ _ | .leave _ _ => true
  | .idle | .enter _ | .submit _ _ | .requesting _ | .calling _ => false

/-- What a step of a thread does to the lock. -/
inductive LockMove (thread : Thread τ ι) (before : Point ι)
    (mutex : CriticalSection (Thread τ ι)) : Point ι → CriticalSection (Thread τ ι) → Prop
  | keep (after : Point ι) (hsame : after.inSection = before.inSection) :
      LockMove thread before mutex after mutex
  | lock (after : Point ι) (held : CriticalSection (Thread τ ι))
      (hlock : mutex.lock thread = some held) (hbefore : before.inSection = false)
      (hafter : after.inSection = true) : LockMove thread before mutex after held
  | unlock (after : Point ι) (hbefore : before.inSection = true)
      (hafter : after.inSection = false) : LockMove thread before mutex after mutex.unlock

/-- The lock is held by the thread that is in a section. -/
structure Owned (mutex : CriticalSection (Thread τ ι)) (points : Thread τ ι → Point ι) : Prop where
  holder : ∀ thread, (points thread).inSection = true → mutex = .held thread 0
  inSection : ∀ thread again, mutex = .held thread again → (points thread).inSection = true

/-- A thread that takes the lock from outside finds it free. -/
theorem Owned.eq_of_lock {mutex held : CriticalSection (Thread τ ι)}
    {points : Thread τ ι → Point ι} {thread : Thread τ ι} (howned : Owned mutex points)
    (hlock : mutex.lock thread = some held) (houtside : (points thread).inSection = false) :
    mutex = .free ∧ held = .held thread 0 := by
  cases mutex with
  | free =>
      cases hlock
      exact ⟨rfl, rfl⟩
  | held owner again =>
      simp only [CriticalSection.lock] at hlock
      split_ifs at hlock with howner
      subst howner
      rw [howned.inSection owner again rfl] at houtside
      cases houtside

/-- The ownership follows the steps of the threads. -/
theorem Owned.move {mutex held : CriticalSection (Thread τ ι)} {points : Thread τ ι → Point ι}
    {thread : Thread τ ι} {point : Point ι} (howned : Owned mutex points)
    (hmove : LockMove thread (points thread) mutex point held) :
    Owned held (Function.update points thread point) := by
  cases hmove with
  | keep hsame =>
      have hkept : ∀ other,
          (Function.update points thread point other).inSection = (points other).inSection := by
        intro other
        by_cases hother : other = thread
        · subst hother
          rw [Function.update_self, hsame]
        · rw [Function.update_of_ne hother]
      constructor
      · exact fun other hinside => howned.holder other (by rw [← hkept, hinside])
      · exact fun other again hmutex => by rw [hkept, howned.inSection other again hmutex]
  | lock held hlock hbefore hafter =>
      obtain ⟨rfl, rfl⟩ := howned.eq_of_lock hlock hbefore
      constructor
      · intro other hinside
        by_cases hother : other = thread
        · rw [hother]
        · rw [Function.update_of_ne hother] at hinside
          cases howned.holder other hinside
      · rintro _ _ ⟨⟩
        rw [Function.update_self, hafter]
  | unlock hbefore hafter =>
      obtain rfl := howned.holder thread hbefore
      constructor
      · intro other hinside
        by_cases hother : other = thread
        · rw [hother, Function.update_self, hafter] at hinside
          cases hinside
        · rw [Function.update_of_ne hother] at hinside
          cases howned.holder other hinside
          exact absurd rfl hother
      · rintro _ _ ⟨⟩

/-- The lock is held by the thread that is in a section, and the waits are apart. -/
structure Orderly (state : State τ ι) : Prop where
  owned : Owned state.adminLock state.point
  apart : NoDeadlock state

omit [DecidableEq τ] [DecidableEq ι] in
theorem awaited_eq_some_iff {state : State τ ι} {job : ι} :
    state.awaited = some job ↔ ∃ holder again body call,
      state.adminLock = .held holder again ∧ state.point holder = .revoking body call job := by
  unfold State.awaited
  constructor
  · intro hawaited
    split at hawaited
    · next holder again hlock =>
        split at hawaited
        · next body call revoked hpoint =>
            obtain rfl := Option.some.inj hawaited
            exact ⟨holder, again, body, call, hlock, hpoint⟩
        · cases hawaited
    · cases hawaited
  · rintro ⟨holder, again, body, call, hlock, hpoint⟩
    simp [hlock, hpoint]

omit [DecidableEq τ] [DecidableEq ι] in
theorem orderly_initial : Orderly (initial : State τ ι) where
  owned := ⟨by simp [initial, Point.inSection], by simp [initial]⟩
  apart := by simp [NoDeadlock, initial, State.awaited]

section Step

variable {state after next : State τ ι} {thread : Thread τ ι} {point : Point ι}
  {action : Action τ ι}

/-- A step of one thread keeps the order, unless it begins to wait for a job at the lock or is a
job that is waited for and comes there. -/
theorem Orderly.move (horderly : Orderly state) (hpoint : after.point = state.point)
    (hmove : LockMove thread (state.point thread) state.adminLock point after.adminLock)
    (hrevokes : ∀ body call job, point = .revoking body call job →
      thread ≠ .worker job ∧ (state.point (.worker job)).atLock = false)
    (harrives : ∀ job, thread = .worker job → point.atLock = true → state.awaited ≠ some job) :
    Orderly (after.setPoint thread point) where
  owned := by
    have hmoved := horderly.owned.move hmove
    rw [← hpoint] at hmoved
    exact hmoved
  apart := by
    intro job hawaited
    obtain ⟨holder, again, body, call, hlock, hholder⟩ := awaited_eq_some_iff.mp hawaited
    by_cases hsame : holder = thread
    · subst hsame
      simp only [State.setPoint, Function.update_self] at hholder
      obtain ⟨hne, haway⟩ := hrevokes body call job hholder
      simp only [State.setPoint, hpoint, Function.update_of_ne (Ne.symm hne)]
      exact haway
    · simp only [State.setPoint, hpoint, Function.update_of_ne hsame] at hholder
      have hbefore : state.awaited = some job :=
        awaited_eq_some_iff.mpr ⟨holder, 0, body, call,
          horderly.owned.holder holder (by rw [hholder]; rfl), hholder⟩
      by_cases hworker : thread = .worker job
      · subst hworker
        simp only [State.setPoint, Function.update_self]
        by_contra hat
        exact harrives job rfl (by simpa using hat) hbefore
      · simp only [State.setPoint, hpoint, Function.update_of_ne (Ne.symm hworker)]
        exact horderly.apart job hbefore

/-- A step that neither touches the lock nor comes to it or waits for a job. -/
theorem Orderly.stay (horderly : Orderly state) (hpoint : after.point = state.point)
    (hlock : after.adminLock = state.adminLock)
    (hsame : point.inSection = (state.point thread).inSection)
    (hrevoking : ∀ body call job, point ≠ .revoking body call job)
    (hat : point.atLock = false) : Orderly (after.setPoint thread point) := by
  apply horderly.move hpoint
  · rw [hlock]
    exact .keep point hsame
  · exact fun body call job hrevokes => absurd hrevokes (hrevoking body call job)
  · intro job _ hlocked
    rw [hat] at hlocked
    cases hlocked

theorem Orderly.finish (horderly : Orderly state) (hpoint : after.point = state.point)
    (hmove : LockMove thread (state.point thread) state.adminLock .idle after.adminLock) :
    Orderly (after.finish thread) := by
  cases thread with
  | application thread => exact horderly.move hpoint hmove (by simp) (by simp)
  | worker job =>
      apply horderly.move
      · exact hpoint
      · exact hmove
      · simp
      · simp [Point.atLock]

omit [DecidableEq ι] in
theorem afterEntry_cases (body : Section ι) :
    body.afterEntry = .inside .clear ∨ body.afterEntry = .leave body false := by
  cases body with
  | clear => exact .inl rfl
  | _ => exact .inr rfl

theorem Orderly.eraseEntry (horderly : Orderly state) (hpoint : after.point = state.point)
    (hlock : after.adminLock = state.adminLock)
    (hinside : (state.point thread).inSection = true) (body : Section ι) (call : Call) :
    Orderly (after.eraseEntry thread body call) := by
  obtain hafter | hafter := afterEntry_cases body
  · rw [State.eraseEntry, hafter]
    exact horderly.stay hpoint hlock hinside.symm (by simp) rfl
  · rw [State.eraseEntry, hafter]
    exact horderly.stay hpoint hlock hinside.symm (by simp) rfl

/-- Revoking keeps the order when the job that is waited for is not at the lock. -/
theorem Orderly.revokeEntry (horderly : Orderly state)
    (hinside : (state.point thread).inSection = true) {call : Call}
    (haway : RevokesAway state thread call) (body : Section ι) :
    Orderly (state.revokeEntry thread body call) := by
  unfold State.revokeEntry
  split
  · exact horderly.eraseEntry (by rfl) (by rfl) hinside body call
  · next job hjob =>
      split
      · exact horderly.eraseEntry (by rfl) (by rfl) hinside body call
      · next hstarted =>
          split_ifs with hown
          · exact horderly.eraseEntry (by rfl) (by rfl) hinside body call
          · apply horderly.move
            · rfl
            · exact .keep _ hinside.symm
            · rintro _ _ _ ⟨⟩
              exact ⟨hown, haway job hjob hstarted hown⟩
            · simp [Point.atLock]
      · exact horderly.eraseEntry (by rfl) (by rfl) hinside body call
      · exact horderly.eraseEntry (by rfl) (by rfl) hinside body call
      · exact horderly.eraseEntry (by rfl) (by rfl) hinside body call
      · exact horderly.eraseEntry (by rfl) (by rfl) hinside body call

/-- A step of a thread that meets the condition. -/
theorem Orderly.run (horderly : Orderly state) {before : Point ι}
    (hbefore : state.point thread = before)
    (haway : ∀ call, before = .inside (.removeEntry call) → RevokesAway state thread call)
    (hrun : state.run thread before = some next) : Orderly next := by
  cases before with
  | idle | requesting call | calling call => cases hrun
  | enter body =>
      obtain ⟨held, hlock, rfl⟩ := Option.map_eq_some_iff.mp hrun
      apply horderly.move
      · rfl
      · rw [hbefore]
        exact .lock _ held hlock rfl rfl
      · simp
      · simp [Point.atLock]
  | inside body =>
      have hinside : (state.point thread).inSection = true := by
        rw [hbefore]
        rfl
      cases body with
      | invoke job call =>
          cases hrun
          exact horderly.stay (by rfl) (by rfl) hinside.symm (by simp) rfl
      | removeEntry call =>
          cases hrun
          exact horderly.revokeEntry hinside (haway call rfl) _
      | isActive call =>
          cases hrun
          exact horderly.stay (by rfl) (by rfl) hinside.symm (by simp) rfl
      | clear =>
          simp only [State.run] at hrun
          split_ifs at hrun
          cases hrun
          exact horderly.stay (by rfl) (by rfl) hinside.symm (by simp) rfl
  | revoking body call job =>
      simp only [State.run] at hrun
      split_ifs at hrun
      cases hrun
      exact horderly.eraseEntry (by rfl) (by rfl) (by rw [hbefore]; rfl) body call
  | leave body active =>
      have hinside : (state.point thread).inSection = true := by
        rw [hbefore]
        rfl
      have hdone : Orderly (State.finish { state with adminLock := state.adminLock.unlock }
          thread) := horderly.finish (by rfl) (.unlock _ hinside rfl)
      cases body with
      | invoke job call =>
          cases hrun
          exact horderly.move (by rfl) (.unlock _ hinside rfl) (by simp) (by simp [Point.atLock])
      | removeEntry call | clear =>
          cases hrun
          exact hdone
      | isActive call =>
          simp only [State.run] at hrun
          split_ifs at hrun
          · cases hrun
            exact horderly.move (by rfl) (.unlock _ hinside rfl) (by simp) (by simp [Point.atLock])
          · cases hrun
            exact hdone
  | submit job call =>
      cases hrun
      exact horderly.stay (by rfl) (by rfl) (by rw [hbefore]; rfl) (by simp) rfl

/-- A job comes to the lock. -/
theorem Orderly.arrive (horderly : Orderly state) {job : ι} (body : Section ι)
    (houtside : (state.point (.worker job)).inSection = false) (hfree : state.awaited ≠ some job) :
    Orderly (state.setPoint (.worker job) (.enter body)) := by
  apply horderly.move
  · rfl
  · exact .keep _ houtside.symm
  · simp
  · rintro _ ⟨⟩ _
    exact hfree

/-- A thread of the application comes to the lock. -/
theorem Orderly.call (horderly : Orderly state) (hpoint : after.point = state.point)
    (hlock : after.adminLock = state.adminLock) {caller : τ}
    (hidle : state.point (.application caller) = .idle) (body : Section ι) :
    Orderly (after.setPoint (.application caller) (.enter body)) := by
  apply horderly.move hpoint
  · rw [hlock, hidle]
    exact .keep _ rfl
  · simp
  · simp

/-- A step that meets the condition keeps the order. -/
theorem Orderly.step (horderly : Orderly state) (hapart : WaitsApart state action)
    (htaken : Revoking.step state action = some next) : Orderly next := by
  cases action with
  | invoke caller job call =>
      simp only [Revoking.step] at htaken
      split at htaken
      · next hidle _ =>
          cases htaken
          exact horderly.call (by rfl) (by rfl) hidle _
      · cases htaken
  | abort caller call | dispose caller =>
      simp only [Revoking.step] at htaken
      split at htaken
      · next hidle =>
          cases htaken
          exact horderly.call (by rfl) (by rfl) hidle _
      · cases htaken
  | next thread =>
      apply horderly.run rfl _ htaken
      intro call hinside
      simpa only [WaitsApart, hinside] using hapart
  | clearEntry thread call =>
      simp only [Revoking.step] at htaken
      split at htaken
      · next hinside _ =>
          cases htaken
          exact horderly.revokeEntry (by rw [hinside]; rfl) hapart _
      · cases htaken
  | start job =>
      simp only [Revoking.step] at htaken
      split at htaken
      · next hidle =>
          cases htaken
          exact horderly.stay (by rfl) (by rfl) (by rw [hidle]; rfl) (by simp) rfl
      · cases htaken
  | answer job status =>
      simp only [Revoking.step] at htaken
      split at htaken
      · next call hpoint =>
          split_ifs at htaken with hstatus
          · cases htaken
            exact horderly.arrive _ (by rw [hpoint]; rfl) (hapart hstatus)
          · cases htaken
            apply horderly.finish
            · rfl
            · rw [hpoint]
              exact .keep _ rfl
      · cases htaken
  | callbackReturns job =>
      simp only [Revoking.step] at htaken
      split at htaken
      · next call hpoint =>
          cases htaken
          exact horderly.arrive _ (by rw [hpoint]; rfl) hapart
      · cases htaken

/-- Revoking a started job that is at the lock is a deadlock. -/
theorem Orderly.revokesAway (horderly : Orderly state)
    (hinside : (state.point thread).inSection = true) {body : Section ι} {call : Call}
    (hnext : NoDeadlock (state.revokeEntry thread body call)) : RevokesAway state thread call := by
  intro job hjob hstarted hne
  have hwaits : state.revokeEntry thread body call =
      state.setPoint thread (.revoking body call job) := by
    simp [State.revokeEntry, Option.mem_def.mp hjob, hstarted, hne]
  rw [hwaits] at hnext
  have hawaited : (state.setPoint thread (.revoking body call job)).awaited = some job :=
    awaited_eq_some_iff.mpr ⟨thread, 0, body, call, horderly.owned.holder thread hinside,
      by simp [State.setPoint]⟩
  have haway := hnext job hawaited
  simpa only [State.setPoint, Function.update_of_ne (Ne.symm hne)] using haway

/-- So is a job that comes to the lock of a thread that waits for it. -/
theorem awaited_ne_of_noDeadlock {job : ι} {body : Section ι}
    (hpoint : ∀ own call other, state.point (.worker job) ≠ .revoking own call other)
    (hnext : NoDeadlock (state.setPoint (.worker job) (.enter body))) :
    state.awaited ≠ some job := by
  intro hawaited
  obtain ⟨holder, again, own, call, hlock, hholder⟩ := awaited_eq_some_iff.mp hawaited
  have hne : holder ≠ .worker job := by
    rintro rfl
    exact hpoint own call job hholder
  have hstill : (state.setPoint (.worker job) (.enter body)).awaited = some job :=
    awaited_eq_some_iff.mpr ⟨holder, again, own, call, hlock, by
      simpa only [State.setPoint, Function.update_of_ne hne] using hholder⟩
  have haway := hnext job hstill
  simp [State.setPoint, Point.atLock] at haway

/-- A step that does not meet the condition makes the two waits meet. -/
theorem Orderly.waitsApart (horderly : Orderly state)
    (htaken : Revoking.step state action = some next) (hnext : NoDeadlock next) :
    WaitsApart state action := by
  cases action with
  | next thread =>
      simp only [WaitsApart]
      split
      · next call hinside =>
          simp only [Revoking.step, hinside, State.run] at htaken
          cases htaken
          exact horderly.revokesAway (by rw [hinside]; rfl) hnext
      · trivial
  | clearEntry thread call =>
      simp only [Revoking.step] at htaken
      split at htaken
      · next hinside _ =>
          cases htaken
          exact horderly.revokesAway (by rw [hinside]; rfl) hnext
      · cases htaken
  | answer job status =>
      intro hstatus
      simp only [Revoking.step] at htaken
      split at htaken
      · next call hpoint =>
          rw [if_pos hstatus] at htaken
          cases htaken
          exact awaited_ne_of_noDeadlock (by simp [hpoint]) hnext
      · cases htaken
  | callbackReturns job =>
      simp only [Revoking.step] at htaken
      split at htaken
      · next call hpoint =>
          cases htaken
          exact awaited_ne_of_noDeadlock (by simp [hpoint]) hnext
      · cases htaken
  | invoke | abort | dispose | start => trivial

end Step

/-- **When aborting cannot deadlock.**  In every run of `Invoke`, `Abort` and `Clear` on any
threads with the jobs on their workers, no state has a thread that holds `_adminLock` and waits
for the end of a job that is at `_adminLock` itself, if and only if no revocation begins of a
started job that is at the lock, and no job comes to the lock while the holder waits for it. -/
theorem noDeadlock_throughout_iff {schedule : List (Action τ ι)} {final : State τ ι}
    (hrun : exec step initial schedule = some final) :
    Throughout step initial schedule NoDeadlock ↔ Meets step WaitsApart initial schedule :=
  throughout_iff_meets orderly_initial (fun _ horderly => horderly.apart)
    (fun _ _ _ horderly hapart htaken => horderly.step hapart htaken)
    (fun _ _ _ horderly htaken hnext => horderly.waitsApart htaken hnext) hrun

/-- A call whose job a worker has started. -/
def started : List (Action Unit ℕ) :=
  [.invoke () 0 ⟨[], 7⟩, .next (.application ()), .next (.application ()),
    .next (.application ()), .next (.application ()), .start 0]

/-- An `Abort` up to the call of `Revoke`. -/
def abortStarted : List (Action Unit ℕ) :=
  [.abort () ⟨[], 7⟩, .next (.application ()), .next (.application ())]

/-- The request of an aborted job fails, and the `Abort` goes on. -/
theorem noDeadlock_throughout_failed :
    Throughout step initial (started ++ abortStarted ++ [.answer 0 .general,
      .next (.application ()), .next (.application ())]) (NoDeadlock (τ := Unit) (ι := ℕ)) := by
  obtain ⟨final, hrun, _⟩ : ∃ final : State Unit ℕ,
      exec step initial (started ++ abortStarted ++ [.answer 0 .general,
        .next (.application ()), .next (.application ())]) = some final ∧
        decide (final.point (.application ()) = .idle) = true :=
    exists_exec_of_any (by decide)
  exact (noDeadlock_throughout_iff hrun).mpr (by decide)

/-- The request of an aborted job succeeds, and the job waits for the thread that waits for it. -/
theorem deadlock_of_answer :
    ¬ Throughout step initial (started ++ abortStarted ++ [.answer 0 .none])
      (NoDeadlock (τ := Unit) (ι := ℕ)) := by
  intro hapart
  obtain ⟨final, hrun, hfinal⟩ : ∃ final : State Unit ℕ,
      exec step initial (started ++ abortStarted ++ [.answer 0 .none]) = some final ∧
        decide (final.awaited = some 0 ∧ (final.point (.worker 0)).atLock = true) = true :=
    exists_exec_of_any (by decide)
  obtain ⟨hawaited, hat⟩ := of_decide_eq_true hfinal
  have haway := hapart.last hrun 0 hawaited
  rw [hat] at haway
  cases haway

end FireboltTransport.Async.Revoking
