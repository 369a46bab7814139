/-
# The life of a transport on its channel

Any number of transports come and go on one channel.  A constructor registers with the
channel, which reports the link at once if it is open, and submits a job that waits for
the link.  `StateChange` walks the observers under the channel's lock and reads the
socket's state anew for each.  A destructor revokes the job, which waits for it when it
runs, and unregisters under the same lock.

A listener hears each change of what its transport was told, once and in order, and of a
lost connection without an error.  Beyond that it hears of a timeout at most once, and never
while the socket has not been open.  Once a transport is deleted, neither `StateChange` nor
the transport's connection job comes to it.

Listeners here do not call back: the channel's lock is recursive, so that one that makes or
deletes a transport does so inside the walk.  The messages a transport has received are left
out too; each is a job of its own in the worker pool, and such a job runs even after the
transport is deleted (`Accessor.Teardown`).
-/

import FireboltTransport.Semantics.Run
import FireboltTransport.Transport.Link
import Mathlib.Data.List.Destutter

namespace FireboltTransport.Life

open Semantics Transport

universe u

/-- Where the job of a transport is: in `ConnectionJob::Dispatch`, or not. -/
inductive JobPoint
  /-- The constructor has not submitted it. -/
  | unsubmitted
  | queued
  /-- Before the loop condition of `WaitForLinkReady`, with this much left to wait. -/
  | waiting (left : UInt32)
  /-- `IsOpen()` was false, `_status` is not read yet. -/
  | reading (left : UInt32)
  /-- Before the `return` statement. -/
  | deciding (left : UInt32)
  /-- The wait failed; `NotifyStatus` is not called yet. -/
  | failed
  | finished
  | revoked
  deriving DecidableEq

/-- Nothing will run it any more. -/
def JobPoint.isOver : JobPoint → Bool
  | .finished | .revoked => true
  | _ => false

/-- Between the constructor and the destructor. -/
inductive Phase
  | absent
  /-- Registered with the channel. -/
  | registered
  /-- In the destructor, with the job revoked. -/
  | revoked
  /-- In the destructor, unregistered. -/
  | unregistered
  | destroyed
  deriving DecidableEq

/-- A transport, with what its channel told it and what its listener heard. -/
structure Transport where
  phase : Phase
  link : Link
  job : JobPoint
  told : List Bool
  heard : List Notification
  deriving DecidableEq

namespace Transport

/-- No transport yet. -/
def absent : Transport := ⟨.absent, .new, .unsubmitted, [], []⟩

/-- The channel calls `Opened` or `Closed`. -/
def tell (transport : Transport) (isOpen : Bool) : Transport :=
  let change := if isOpen then transport.link.opened else transport.link.closed
  { transport with
    link := change.1
    told := transport.told ++ [isOpen]
    heard := transport.heard ++ change.2 }

/-- `Register` of the channel, for a transport under construction. -/
def register (isOpen : Bool) : Transport :=
  let transport := { absent with phase := .registered }
  if isOpen then transport.tell true else transport

/-- The next step of the job, when it is submitted and not over. -/
def jobStep (transport : Transport) (waitTime : UInt32) (isOpen : Bool) : Option Transport :=
  match transport.job with
  | .queued => some { transport with job := .waiting waitTime }
  | .waiting left =>
      if left > 0 then
        if isOpen = false then some { transport with job := .reading left }
        else some { transport with job := .deciding left }
      else some { transport with job := .deciding left }
  | .reading left =>
      if transport.link.status = .notConnected then
        let sleepSlot := if left > sleepSlotTime then sleepSlotTime else left
        some { transport with job := .waiting (left - (if left = infinite then 0 else sleepSlot)) }
      else some { transport with job := .deciding left }
  | .deciding left =>
      if left = 0 then some { transport with job := .finished }
      else if isOpen then some { transport with job := .finished }
      else some { transport with job := .failed }
  | .failed =>
      some { transport with
        job := .finished
        heard := transport.heard ++ notifyStatus .timedout }
  | _ => none

end Transport

variable {κ : Type u}

/-- A channel and the transports that use it. -/
structure State (κ : Type u) where
  /-- `_channel.IsOpen()`. -/
  isOpen : Bool
  observers : List κ
  /-- The observers `StateChange` has still to tell; it holds the channel's lock meanwhile. -/
  walk : Option (List κ)
  transport : κ → Transport

inductive Action (κ : Type u)
  /-- The socket opens or closes. -/
  | socket (isOpen : Bool)
  /-- The constructor, up to the end of `Register`. -/
  | construct (name : κ)
  /-- The constructor submits the job. -/
  | submit (name : κ)
  /-- `StateChange` takes the lock. -/
  | beginWalk
  /-- `StateChange` comes to the next observer. -/
  | tell
  | endWalk
  /-- The job of a transport takes a step. -/
  | job (name : κ)
  /-- `Revoke(_job)` returns. -/
  | revoke (name : κ)
  | unregister (name : κ)
  | destroy (name : κ)
  deriving DecidableEq

variable [DecidableEq κ]

def State.setTransport (state : State κ) (name : κ) (transport : Transport) : State κ :=
  { state with transport := Function.update state.transport name transport }

/-- One step, or `none` when the label is not enabled. -/
def step (waitTime : κ → UInt32) (state : State κ) : Action κ → Option (State κ)
  | .socket isOpen => some { state with isOpen := isOpen }
  | .construct name =>
      if (state.transport name).phase = .absent ∧ state.walk = none then
        some ({ state with observers := state.observers ++ [name] }.setTransport name
          (.register state.isOpen))
      else none
  | .submit name =>
      if (state.transport name).phase = .registered ∧
          (state.transport name).job = .unsubmitted then
        some (state.setTransport name { state.transport name with job := .queued })
      else none
  | .beginWalk =>
      if state.walk = none then some { state with walk := some state.observers } else none
  | .tell =>
      match state.walk with
      | some (name :: rest) =>
          some ({ state with walk := some rest }.setTransport name
            ((state.transport name).tell state.isOpen))
      | _ => none
  | .endWalk =>
      match state.walk with
      | some [] => some { state with walk := none }
      | _ => none
  | .job name =>
      ((state.transport name).jobStep (waitTime name) state.isOpen).map (state.setTransport name)
  | .revoke name =>
      if (state.transport name).phase = .registered then
        match (state.transport name).job with
        | .queued =>
            some (state.setTransport name
              { state.transport name with phase := .revoked, job := .revoked })
        -- A job that runs is waited for.
        | .finished => some (state.setTransport name { state.transport name with phase := .revoked })
        | _ => none
      else none
  | .unregister name =>
      if (state.transport name).phase = .revoked ∧ state.walk = none then
        some ({ state with observers := state.observers.erase name }.setTransport name
          { state.transport name with phase := .unregistered })
      else none
  | .destroy name =>
      if (state.transport name).phase = .unregistered then
        some (state.setTransport name { state.transport name with phase := .destroyed })
      else none

/-- A channel nobody uses, its socket closed. -/
def initial : State κ where
  isOpen := false
  observers := []
  walk := none
  transport _ := .absent

/-! ## What one step can do -/

/-- The steps of the channel and its transports, as a relation. -/
inductive Step (waitTime : κ → UInt32) (state : State κ) : Action κ → State κ → Prop
  | socket (isOpen : Bool) : Step waitTime state (.socket isOpen) { state with isOpen := isOpen }
  | construct (name : κ) (hphase : (state.transport name).phase = .absent)
      (hwalk : state.walk = none) :
      Step waitTime state (.construct name)
        ({ state with observers := state.observers ++ [name] }.setTransport name
          (.register state.isOpen))
  | submit (name : κ) (hphase : (state.transport name).phase = .registered)
      (hjob : (state.transport name).job = .unsubmitted) :
      Step waitTime state (.submit name)
        (state.setTransport name { state.transport name with job := .queued })
  | beginWalk (hwalk : state.walk = none) :
      Step waitTime state .beginWalk { state with walk := some state.observers }
  | tell (name : κ) (rest : List κ) (hwalk : state.walk = some (name :: rest)) :
      Step waitTime state .tell
        ({ state with walk := some rest }.setTransport name
          ((state.transport name).tell state.isOpen))
  | endWalk (hwalk : state.walk = some []) :
      Step waitTime state .endWalk { state with walk := none }
  | job (name : κ) (later : Transport)
      (hjob : (state.transport name).jobStep (waitTime name) state.isOpen = some later) :
      Step waitTime state (.job name) (state.setTransport name later)
  | revokeQueued (name : κ) (hphase : (state.transport name).phase = .registered)
      (hjob : (state.transport name).job = .queued) :
      Step waitTime state (.revoke name)
        (state.setTransport name { state.transport name with phase := .revoked, job := .revoked })
  | revokeFinished (name : κ) (hphase : (state.transport name).phase = .registered)
      (hjob : (state.transport name).job = .finished) :
      Step waitTime state (.revoke name)
        (state.setTransport name { state.transport name with phase := .revoked })
  | unregister (name : κ) (hphase : (state.transport name).phase = .revoked)
      (hwalk : state.walk = none) :
      Step waitTime state (.unregister name)
        ({ state with observers := state.observers.erase name }.setTransport name
          { state.transport name with phase := .unregistered })
  | destroy (name : κ) (hphase : (state.transport name).phase = .unregistered) :
      Step waitTime state (.destroy name)
        (state.setTransport name { state.transport name with phase := .destroyed })

/-- Every enabled label is one of the listed steps. -/
theorem step_cases {waitTime : κ → UInt32} {state next : State κ} {action : Action κ}
    (htaken : step waitTime state action = some next) : Step waitTime state action next := by
  cases action with
  | socket isOpen =>
      obtain rfl := Option.some.inj htaken
      exact .socket isOpen
  | construct name =>
      simp only [step] at htaken
      split_ifs at htaken with hguard
      obtain rfl := Option.some.inj htaken
      exact .construct name hguard.1 hguard.2
  | submit name =>
      simp only [step] at htaken
      split_ifs at htaken with hguard
      obtain rfl := Option.some.inj htaken
      exact .submit name hguard.1 hguard.2
  | beginWalk =>
      simp only [step] at htaken
      split_ifs at htaken with hwalk
      obtain rfl := Option.some.inj htaken
      exact .beginWalk hwalk
  | tell =>
      simp only [step] at htaken
      split at htaken
      · obtain rfl := Option.some.inj htaken
        exact .tell _ _ ‹_›
      · cases htaken
  | endWalk =>
      simp only [step] at htaken
      split at htaken
      · obtain rfl := Option.some.inj htaken
        exact .endWalk ‹_›
      · cases htaken
  | job name =>
      obtain ⟨later, hjob, rfl⟩ := Option.map_eq_some_iff.mp htaken
      exact .job name later hjob
  | revoke name =>
      simp only [step] at htaken
      split_ifs at htaken with hphase
      split at htaken
      · obtain rfl := Option.some.inj htaken
        exact .revokeQueued name hphase ‹_›
      · obtain rfl := Option.some.inj htaken
        exact .revokeFinished name hphase ‹_›
      · cases htaken
  | unregister name =>
      simp only [step] at htaken
      split_ifs at htaken with hguard
      obtain rfl := Option.some.inj htaken
      exact .unregister name hguard.1 hguard.2
  | destroy name =>
      simp only [step] at htaken
      split_ifs at htaken with hphase
      obtain rfl := Option.some.inj htaken
      exact .destroy name hphase

/-- The transport a step moves, if any. -/
def moved (state : State κ) : Action κ → Option κ
  | .construct name | .submit name | .job name | .revoke name | .unregister name
  | .destroy name => some name
  | .tell => state.walk.bind List.head?
  | _ => none

/-- Every other transport stays as it is. -/
theorem transport_step {waitTime : κ → UInt32} {state next : State κ} {action : Action κ}
    (hstep : Step waitTime state action next) {name : κ} (hmoved : moved state action ≠ some name) :
    next.transport name = state.transport name := by
  cases hstep with
  | tell actor rest hwalk =>
      have hname : name ≠ actor := by
        rintro rfl
        simp [moved, hwalk] at hmoved
      simp [State.setTransport, hname]
  | construct actor | submit actor | job actor | revokeQueued actor | revokeFinished actor
  | unregister actor | destroy actor =>
      have hname : name ≠ actor := by
        rintro rfl
        exact hmoved rfl
      simp [State.setTransport, hname]
  | _ => rfl

/-! ## What a listener hears -/

/-- What is left of repetitions when one more value comes. -/
theorem destutter'_snoc {α : Type u} [DecidableEq α] (first : α) (values : List α) (last : α) :
    (values ++ [last]).destutter' (· ≠ ·) first =
      values.destutter' (· ≠ ·) first ++
        if values.getLastD first = last then [] else [last] := by
  induction values generalizing first with
  | nil => by_cases hsame : first = last <;> simp [hsame]
  | cons next rest ih =>
      rw [List.cons_append, List.getLastD_cons]
      by_cases hsame : first = next
      · subst hsame
        rw [List.destutter'_cons_neg _ (by simp), List.destutter'_cons_neg _ (by simp)]
        exact ih first
      · rw [List.destutter'_cons_pos _ hsame, List.destutter'_cons_pos _ hsame, ih next]
        rfl

theorem tail_destutter'_snoc {α : Type u} [DecidableEq α] (first : α) (values : List α)
    (last : α) :
    ((values ++ [last]).destutter' (· ≠ ·) first).tail =
      (values.destutter' (· ≠ ·) first).tail ++
        if values.getLastD first = last then [] else [last] := by
  rw [destutter'_snoc, List.tail_append_of_ne_nil (List.destutter'_ne_nil _ _)]

/-- The changes a listener heard of: the notifications without an error. -/
def Transport.changes (transport : Transport) : List Bool :=
  (transport.heard.filter fun notification => notification.error = .none).map
    fun notification => notification.connected

/-- What a listener has heard, and why; `wasOpen` says that the socket was open. -/
structure Hears (wasOpen : Prop) (transport : Transport) : Prop where
  /-- Each change of what the transport was told, once and in order. -/
  changes : transport.changes = (transport.told.destutter' (· ≠ ·) false).tail
  /-- Nothing else but a timeout. -/
  known : ∀ notification ∈ transport.heard,
    notification.error = .none ∨ notification = ⟨false, .timedout⟩
  once : transport.heard.count ⟨false, .timedout⟩ ≤ if transport.job = .finished then 1 else 0
  connected : transport.link.connected = transport.told.getLastD false
  status : transport.link.connected = true → transport.link.status = .none
  changed : transport.link.status ≠ .notConnected → wasOpen
  deciding : ∀ left, transport.job = .deciding left → left ≠ 0 → wasOpen
  failed : transport.job = .failed → wasOpen
  timedout : ⟨false, .timedout⟩ ∈ transport.heard → wasOpen

section Hears

variable {wasOpen : Prop} {transport later : Transport}

theorem hears_absent : Hears wasOpen .absent where
  changes := rfl
  known := by simp [Transport.absent]
  once := by simp [Transport.absent]
  connected := rfl
  status := by simp [Transport.absent, Link.new]
  changed := by simp [Transport.absent, Link.new]
  deciding := by simp [Transport.absent]
  failed := by simp [Transport.absent]
  timedout := by simp [Transport.absent]

/-- The channel reports an open link. -/
theorem Hears.opened (hhears : Hears wasOpen transport) (hopen : wasOpen) :
    Hears wasOpen (transport.tell true) where
  changes := by
    have hlast := hhears.connected
    simp only [Transport.tell, Transport.changes, if_true, List.filter_append, List.map_append,
      tail_destutter'_snoc, ← hlast]
    rw [← hhears.changes]
    cases hconnected : transport.link.connected <;>
      simp [Link.opened, hconnected, Transport.changes]
  known notification hmem := by
    simp only [Transport.tell, if_true, List.mem_append] at hmem
    rcases hmem with hbefore | hlast
    · exact hhears.known notification hbefore
    · left
      cases hconnected : transport.link.connected <;>
        simp_all [Link.opened]
  once := by
    have honce := hhears.once
    simp only [Transport.tell, if_true, List.count_append]
    have hnone : transport.link.opened.2.count ⟨false, .timedout⟩ = 0 := by
      cases hconnected : transport.link.connected <;> simp [Link.opened, hconnected]
    rw [hnone]
    exact honce
  connected := by simp [Transport.tell]
  status _ := by
    cases hconnected : transport.link.connected <;> simp [Transport.tell, Link.opened, hconnected]
  changed _ := hopen
  deciding _ _ _ := hopen
  failed _ := hopen
  timedout _ := hopen

/-- The channel reports a closed link. -/
theorem Hears.closed (hhears : Hears wasOpen transport) : Hears wasOpen (transport.tell false) where
  changes := by
    have hlast := hhears.connected
    simp only [Transport.tell, Transport.changes, Bool.false_eq_true, if_false, List.filter_append,
      List.map_append, tail_destutter'_snoc, ← hlast]
    rw [← hhears.changes]
    cases hconnected : transport.link.connected with
    | true => simp [Link.closed, hconnected, hhears.status hconnected, Transport.changes]
    | false => simp [Link.closed, hconnected, Transport.changes]
  known notification hmem := by
    simp only [Transport.tell, Bool.false_eq_true, if_false, List.mem_append] at hmem
    rcases hmem with hbefore | hlast
    · exact hhears.known notification hbefore
    · left
      cases hconnected : transport.link.connected with
      | true => simp_all [Link.closed, hhears.status hconnected]
      | false => simp_all [Link.closed]
  once := by
    have hnone : transport.link.closed.2.count ⟨false, .timedout⟩ = 0 := by
      cases hconnected : transport.link.connected with
      | true => simp [Link.closed, hconnected, hhears.status hconnected, Error.none, Error.timedout]
      | false => simp [Link.closed, hconnected]
    simp only [Transport.tell, Bool.false_eq_true, if_false, List.count_append, hnone]
    exact hhears.once
  connected := by simp [Transport.tell]
  status hconnected := by simp [Transport.tell] at hconnected
  changed hstatus := by
    apply hhears.changed
    cases hconnected : transport.link.connected <;>
      simpa [Transport.tell, Link.closed, hconnected] using hstatus
  deciding := hhears.deciding
  failed := hhears.failed
  timedout hmem := by
    apply hhears.timedout
    simp only [Transport.tell, Bool.false_eq_true, if_false, List.mem_append] at hmem
    rcases hmem with hbefore | hlast
    · exact hbefore
    · cases hconnected : transport.link.connected with
      | true => simp [Link.closed, hconnected, hhears.status hconnected, Error.none,
          Error.timedout] at hlast
      | false => simp [Link.closed, hconnected] at hlast

theorem Hears.mono {later : Prop} (hhears : Hears wasOpen transport) (hlater : wasOpen → later) :
    Hears later transport :=
  { hhears with
    changed := fun hstatus => hlater (hhears.changed hstatus)
    deciding := fun left hjob hleft => hlater (hhears.deciding left hjob hleft)
    failed := fun hjob => hlater (hhears.failed hjob)
    timedout := fun hmem => hlater (hhears.timedout hmem) }

/-- The job goes on, or the destructor does, and nobody is told anything. -/
theorem Hears.quiet (hhears : Hears wasOpen transport) {phase : Phase} {job : JobPoint}
    (hjob : transport.job = .finished → job = .finished)
    (hdeciding : ∀ left, job = .deciding left → left ≠ 0 → wasOpen)
    (hfailed : job = .failed → wasOpen) :
    Hears wasOpen { transport with phase := phase, job := job } where
  changes := hhears.changes
  known := hhears.known
  once := by
    refine hhears.once.trans ?_
    split_ifs with hbefore hafter hafter
    · exact le_rfl
    · exact absurd (hjob hbefore) hafter
    · exact Nat.zero_le _
    · exact le_rfl
  connected := hhears.connected
  status := hhears.status
  changed := hhears.changed
  deciding := hdeciding
  failed := hfailed
  timedout := hhears.timedout

/-- The job reports a timeout. -/
theorem Hears.notified (hhears : Hears wasOpen transport) (hfailed : transport.job = .failed) :
    Hears wasOpen { transport with
      job := .finished
      heard := transport.heard ++ notifyStatus .timedout } where
  changes := by
    have hsilent : (notifyStatus .timedout).filter (fun notification =>
        notification.error = .none) = [] := by simp [notifyStatus]
    simp only [Transport.changes, List.filter_append, hsilent, List.append_nil]
    exact hhears.changes
  known notification hmem := by
    rcases List.mem_append.mp hmem with hbefore | hlast
    · exact hhears.known notification hbefore
    · exact .inr (List.mem_singleton.mp hlast)
  once := by
    have honce := hhears.once
    simp only [hfailed, reduceCtorEq, if_false] at honce
    simp only [List.count_append, if_true]
    have hlast : (notifyStatus .timedout).count ⟨false, .timedout⟩ = 1 := by
      simp [notifyStatus]
    omega
  connected := hhears.connected
  status := hhears.status
  changed := hhears.changed
  deciding := by simp
  failed := by simp
  timedout _ := hhears.failed hfailed

/-- Every step of the job. -/
theorem Hears.jobStep (hhears : Hears wasOpen transport) {waitTime : UInt32} {isOpen : Bool}
    (hopen : isOpen = true → wasOpen)
    (hjob : transport.jobStep waitTime isOpen = some later) : Hears wasOpen later := by
  cases hpoint : transport.job with
  | unsubmitted | finished | revoked => simp [Transport.jobStep, hpoint] at hjob
  | queued =>
      simp only [Transport.jobStep, hpoint] at hjob
      obtain rfl := Option.some.inj hjob
      exact hhears.quiet (by simp [hpoint]) (by simp) (by simp)
  | waiting left =>
      simp only [Transport.jobStep, hpoint] at hjob
      split_ifs at hjob with hleft hclosed
      · obtain rfl := Option.some.inj hjob
        exact hhears.quiet (by simp [hpoint]) (by simp) (by simp)
      · -- The loop ends since the socket is open.
        obtain rfl := Option.some.inj hjob
        exact hhears.quiet (by simp [hpoint]) (fun _ _ _ => hopen (by simpa using hclosed))
          (by simp)
      · obtain rfl := Option.some.inj hjob
        refine hhears.quiet (by simp [hpoint]) (fun other hother hnonzero => ?_) (by simp)
        obtain rfl := JobPoint.deciding.inj hother
        exact absurd (by simpa using hleft) hnonzero
  | reading left =>
      by_cases hstatus : transport.link.status = .notConnected
      · simp only [Transport.jobStep, hpoint, if_pos hstatus] at hjob
        obtain rfl := Option.some.inj hjob
        exact hhears.quiet (by simp [hpoint]) (by simp) (by simp)
      · simp only [Transport.jobStep, hpoint, if_neg hstatus] at hjob
        obtain rfl := Option.some.inj hjob
        exact hhears.quiet (by simp [hpoint]) (fun _ _ _ => hhears.changed hstatus) (by simp)
  | deciding left =>
      simp only [Transport.jobStep, hpoint] at hjob
      split_ifs at hjob with hleft hopened
      · obtain rfl := Option.some.inj hjob
        exact hhears.quiet (by simp) (by simp) (by simp)
      · obtain rfl := Option.some.inj hjob
        exact hhears.quiet (by simp) (by simp) (by simp)
      · obtain rfl := Option.some.inj hjob
        exact hhears.quiet (by simp [hpoint]) (by simp) fun _ => hhears.deciding left hpoint hleft
  | failed =>
      simp only [Transport.jobStep, hpoint] at hjob
      obtain rfl := Option.some.inj hjob
      exact hhears.notified hpoint

/-- Every step of the channel and its transports. -/
theorem Hears.step {waitTime : κ → UInt32} {state next : State κ} {action : Action κ} {name : κ}
    (hhears : Hears wasOpen (state.transport name)) (hopen : state.isOpen = true → wasOpen)
    (hstep : Step waitTime state action next) : Hears wasOpen (next.transport name) := by
  by_cases hmoved : moved state action = some name
  swap
  · rw [transport_step hstep hmoved]
    exact hhears
  cases hstep with
  | socket isOpen | beginWalk hwalk | endWalk hwalk => cases hmoved
  | construct actor hphase hwalk =>
      obtain rfl : actor = name := by simpa [moved] using hmoved
      have hregistered : Hears wasOpen { Transport.absent with phase := .registered } :=
        hears_absent.quiet (by simp [Transport.absent]) (by simp [Transport.absent])
          (by simp [Transport.absent])
      simp only [State.setTransport, Function.update_self, Transport.register]
      split_ifs with hisOpen
      · exact hregistered.opened (hopen hisOpen)
      · exact hregistered
  | submit actor hphase hjob | revokeQueued actor hphase hjob =>
      obtain rfl : actor = name := by simpa [moved] using hmoved
      simp only [State.setTransport, Function.update_self]
      exact hhears.quiet (by simp [hjob]) (by simp) (by simp)
  | tell actor rest hwalk =>
      obtain rfl : actor = name := by simpa [moved, hwalk] using hmoved
      simp only [State.setTransport, Function.update_self]
      cases hisOpen : state.isOpen with
      | true => exact hhears.opened (hopen hisOpen)
      | false => exact hhears.closed
  | job actor later hjob =>
      obtain rfl : actor = name := by simpa [moved] using hmoved
      simp only [State.setTransport, Function.update_self]
      exact hhears.jobStep hopen hjob
  | revokeFinished actor hphase hjob | unregister actor hphase hwalk | destroy actor hphase =>
      obtain rfl : actor = name := by simpa [moved] using hmoved
      simp only [State.setTransport, Function.update_self]
      exact hhears.quiet id hhears.deciding hhears.failed

end Hears

theorem isOpen_step {waitTime : κ → UInt32} {state next : State κ} {action : Action κ}
    (hstep : Step waitTime state action next) (hopen : next.isOpen = true) :
    state.isOpen = true ∨ action = .socket true := by
  cases hstep with
  | socket isOpen =>
      obtain rfl : isOpen = true := hopen
      exact .inr rfl
  | _ => exact .inl hopen

/-- **A listener hears every change once.**  For any number of transports on a channel, and any
interleaving of their constructors, destructors and connection jobs with the socket and with
`StateChange`, where listeners do not call back into the channel: what a listener hears without
an error is what its transport was told, without repetitions and starting from a closed link; a
lost connection is not reported as an error.  The rest is at most one timeout, which is reported
only if the socket has been open. -/
theorem listener_hears {waitTime : κ → UInt32} {schedule : List (Action κ)} {final : State κ}
    (hrun : exec (step waitTime) initial schedule = some final) (name : κ) :
    (final.transport name).changes =
      ((final.transport name).told.destutter' (· ≠ ·) false).tail ∧
    (∀ notification ∈ (final.transport name).heard,
      notification.error = .none ∨ notification = ⟨false, .timedout⟩) ∧
    (final.transport name).heard.count ⟨false, .timedout⟩ ≤ 1 ∧
    (⟨false, .timedout⟩ ∈ (final.transport name).heard → .socket true ∈ schedule) := by
  obtain ⟨_, hhears⟩ : (final.isOpen = true → .socket true ∈ schedule) ∧
      Hears (.socket true ∈ schedule) (final.transport name) := by
    refine exec_history (motive := fun prior state =>
      (state.isOpen = true → .socket true ∈ prior) ∧
        Hears (.socket true ∈ prior) (state.transport name))
      ⟨by simp [initial], hears_absent⟩ ?_ hrun
    rintro prior state action next _ ⟨hopen, hhears⟩ htaken
    have hmore : .socket true ∈ prior → .socket true ∈ prior ++ [action] :=
      List.mem_append_left [action]
    have hstep := step_cases htaken
    constructor
    · intro hnext
      rcases isOpen_step hstep hnext with hbefore | rfl
      · exact hmore (hopen hbefore)
      · simp
    · exact (hhears.step hopen hstep).mono hmore
  refine ⟨hhears.changes, hhears.known, hhears.once.trans ?_, hhears.timedout⟩
  split_ifs <;> omega

/-- The socket opens and closes between two polls of the job, and `StateChange` comes too late to
report it; then it opens and closes again and is reported, twice while open. -/
def flickering (name : κ) : List (Action κ) :=
  [.construct name, .submit name, .job name, .socket true, .job name, .socket false, .job name,
    .job name, .beginWalk, .tell, .endWalk, .socket true, .beginWalk, .tell, .endWalk,
    .beginWalk, .tell, .endWalk, .socket false, .beginWalk, .tell, .endWalk]

theorem listener_hears_flickering :
    ∃ final : State (Fin 1), exec (step fun _ => 1000) initial (flickering 0) = some final ∧
      (final.transport 0).heard = [⟨false, .timedout⟩, ⟨true, .none⟩, ⟨false, .none⟩] ∧
      (final.transport 0).changes =
        ([false, true, true, false].destutter' (· ≠ ·) false).tail := by
  obtain ⟨final, hrun, hfacts⟩ : ∃ final : State (Fin 1),
      exec (step fun _ => 1000) initial (flickering 0) = some final ∧
        decide ((final.transport 0).heard =
            [⟨false, .timedout⟩, ⟨true, .none⟩, ⟨false, .none⟩] ∧
          (final.transport 0).told = [false, true, true, false]) = true :=
    exists_exec_of_any (by decide)
  obtain ⟨hheard, htold⟩ := of_decide_eq_true hfacts
  refine ⟨final, hrun, hheard, ?_⟩
  rw [← htold]
  exact (listener_hears hrun 0).1

/-! ## Deleted transports -/

/-- The transport is on the list of the channel. -/
def Phase.isObserver : Phase → Bool
  | .registered | .revoked => true
  | _ => false

/-- The destructor has revoked the job. -/
def Phase.isRevoked : Phase → Bool
  | .revoked | .unregistered | .destroyed => true
  | _ => false

/-- What every reachable state satisfies. -/
structure WellFormed (state : State κ) : Prop where
  observers : ∀ name, name ∈ state.observers ↔ (state.transport name).phase.isObserver = true
  nodup : state.observers.Nodup
  walk : ∀ rest, state.walk = some rest → rest ⊆ state.observers
  job : ∀ name, (state.transport name).phase.isRevoked = true →
    (state.transport name).job.isOver = true

omit [DecidableEq κ] in
theorem wellFormed_initial : WellFormed (initial : State κ) where
  observers := by simp [initial, Transport.absent, Phase.isObserver]
  nodup := by simp [initial]
  walk := by simp [initial]
  job := by simp [initial, Transport.absent, Phase.isRevoked]

section WellFormed

variable {state next : State κ} {waitTime : κ → UInt32} {action : Action κ}

/-- A step that leaves the list and the walk alone, and moves a transport within them. -/
theorem WellFormed.setTransport (hwf : WellFormed state) {name : κ} {transport : Transport}
    (hphase : transport.phase.isObserver = (state.transport name).phase.isObserver)
    (hjob : transport.phase.isRevoked = true → transport.job.isOver = true) :
    WellFormed (state.setTransport name transport) where
  observers other := by
    by_cases hother : other = name
    · subst hother
      simpa [State.setTransport, hphase] using hwf.observers other
    · simpa [State.setTransport, hother] using hwf.observers other
  nodup := hwf.nodup
  walk := hwf.walk
  job other := by
    by_cases hother : other = name
    · subst hother
      simpa [State.setTransport] using hjob
    · simpa [State.setTransport, hother] using hwf.job other

/-- A step of the job leaves the phase as it is, and a job that is over takes none. -/
theorem jobStep_phase {transport later : Transport} {time : UInt32} {isOpen : Bool}
    (hjob : transport.jobStep time isOpen = some later) :
    later.phase = transport.phase ∧ transport.job.isOver = false := by
  cases hpoint : transport.job with
  | unsubmitted | finished | revoked => simp [Transport.jobStep, hpoint] at hjob
  | queued | failed =>
      simp only [Transport.jobStep, hpoint] at hjob
      obtain rfl := Option.some.inj hjob
      exact ⟨rfl, rfl⟩
  | waiting left | reading left | deciding left =>
      simp only [Transport.jobStep, hpoint] at hjob
      split_ifs at hjob <;>
      · obtain rfl := Option.some.inj hjob
        exact ⟨rfl, rfl⟩

@[simp]
theorem tell_phase (transport : Transport) (isOpen : Bool) :
    (transport.tell isOpen).phase = transport.phase := rfl

@[simp]
theorem tell_job (transport : Transport) (isOpen : Bool) :
    (transport.tell isOpen).job = transport.job := rfl

@[simp]
theorem register_phase (isOpen : Bool) : (Transport.register isOpen).phase = .registered := by
  cases isOpen <;> rfl

/-- A constructor puts its transport on the list. -/
theorem WellFormed.construct (hwf : WellFormed state) {name : κ}
    (hphase : (state.transport name).phase = .absent) (hwalk : state.walk = none) :
    WellFormed ({ state with observers := state.observers ++ [name] }.setTransport name
      (.register state.isOpen)) where
  observers other := by
    by_cases hother : other = name
    · subst hother
      simp [State.setTransport, Phase.isObserver]
    · simpa [State.setTransport, hother] using hwf.observers other
  nodup := by
    refine hwf.nodup.append (List.nodup_singleton name) ?_
    rw [List.disjoint_singleton]
    intro hmem
    have hobserver := (hwf.observers name).mp hmem
    simp [hphase, Phase.isObserver] at hobserver
  walk rest hrest := by simp [State.setTransport, hwalk] at hrest
  job other := by
    by_cases hother : other = name
    · subst hother
      simp [State.setTransport, Phase.isRevoked]
    · simpa [State.setTransport, hother] using hwf.job other

/-- A destructor takes its transport off the list, and no walk is in progress. -/
theorem WellFormed.unregister (hwf : WellFormed state) {name : κ}
    (hphase : (state.transport name).phase = .revoked) (hwalk : state.walk = none) :
    WellFormed ({ state with observers := state.observers.erase name }.setTransport name
      { state.transport name with phase := .unregistered }) where
  observers other := by
    by_cases hother : other = name
    · subst hother
      simp [State.setTransport, Phase.isObserver, hwf.nodup.not_mem_erase]
    · simpa [State.setTransport, hother, List.mem_erase_of_ne] using hwf.observers other
  nodup := hwf.nodup.erase name
  walk rest hrest := by simp [State.setTransport, hwalk] at hrest
  job other := by
    by_cases hother : other = name
    · subst hother
      simpa [State.setTransport] using fun _ => hwf.job other (by simp [hphase, Phase.isRevoked])
    · simpa [State.setTransport, hother] using hwf.job other

theorem WellFormed.step (hwf : WellFormed state) (hstep : Step waitTime state action next) :
    WellFormed next := by
  cases hstep with
  | socket isOpen => exact ⟨hwf.observers, hwf.nodup, hwf.walk, hwf.job⟩
  | construct name hphase hwalk => exact hwf.construct hphase hwalk
  | submit name hphase hjob =>
      exact hwf.setTransport rfl (by simp [hphase, Phase.isRevoked])
  | beginWalk hwalk =>
      refine ⟨hwf.observers, hwf.nodup, ?_, hwf.job⟩
      rintro rest hrest
      rw [← Option.some.inj hrest]
      exact List.Subset.refl _
  | tell name rest hwalk =>
      have hrest : rest ⊆ state.observers := fun other hother =>
        hwf.walk _ hwalk (List.mem_cons_of_mem _ hother)
      have hbase : WellFormed { state with walk := some rest } := by
        refine ⟨hwf.observers, hwf.nodup, ?_, hwf.job⟩
        rintro other hother
        rwa [← Option.some.inj hother]
      exact hbase.setTransport rfl (hwf.job name)
  | endWalk hwalk => exact ⟨hwf.observers, hwf.nodup, by simp, hwf.job⟩
  | job name later hjob =>
      obtain ⟨hphase, hover⟩ := jobStep_phase hjob
      refine hwf.setTransport (by rw [hphase]) fun hrevoked => ?_
      rw [hphase] at hrevoked
      simp [hwf.job name hrevoked] at hover
  | revokeQueued name hphase hjob =>
      exact hwf.setTransport (by simp [hphase, Phase.isObserver]) fun _ => rfl
  | revokeFinished name hphase hjob =>
      exact hwf.setTransport (by simp [hphase, Phase.isObserver])
        fun _ => by simp [hjob, JobPoint.isOver]
  | unregister name hphase hwalk => exact hwf.unregister hphase hwalk
  | destroy name hphase =>
      exact hwf.setTransport (by simp [hphase, Phase.isObserver])
        fun _ => hwf.job name (by simp [hphase, Phase.isRevoked])

/-- No step moves a transport that is deleted. -/
theorem WellFormed.not_moved (hwf : WellFormed state) (hstep : Step waitTime state action next)
    {name : κ} (hdestroyed : (state.transport name).phase = .destroyed) :
    moved state action ≠ some name := by
  intro hmoved
  cases hstep with
  | socket isOpen | beginWalk hwalk | endWalk hwalk => cases hmoved
  | tell actor rest hwalk =>
      obtain rfl : actor = name := by simpa [moved, hwalk] using hmoved
      have hmem : actor ∈ state.observers := hwf.walk _ hwalk List.mem_cons_self
      simp [hwf.observers, hdestroyed, Phase.isObserver] at hmem
  | job actor later hjob =>
      obtain rfl : actor = name := by simpa [moved] using hmoved
      have hover := hwf.job actor (by simp [hdestroyed, Phase.isRevoked])
      simp [(jobStep_phase hjob).2] at hover
  | construct actor hphase | submit actor hphase | revokeQueued actor hphase
  | revokeFinished actor hphase | unregister actor hphase | destroy actor hphase =>
      obtain rfl : actor = name := by simpa [moved] using hmoved
      simp [hdestroyed] at hphase

end WellFormed

/-- **`StateChange` and the connection job leave a deleted transport alone.**  Where listeners do
not call back into the channel: once the destructor of a transport has ended, no walk of
`StateChange` comes to it, its connection job does not run and its data stays as it was, however
many other transports come and go meanwhile. -/
theorem deleted_untouched {waitTime : κ → UInt32} {before after : List (Action κ)}
    {deleted final : State κ} (hbefore : exec (step waitTime) initial before = some deleted)
    {name : κ} (hdeleted : (deleted.transport name).phase = .destroyed)
    (hafter : exec (step waitTime) deleted after = some final) :
    Meets (step waitTime) (fun state action => moved state action ≠ some name) deleted after ∧
      final.transport name = deleted.transport name := by
  have hwf : WellFormed deleted :=
    exec_invariant (fun _ _ _ hprior htaken => hprior.step (step_cases htaken))
      wellFormed_initial hbefore
  have hkept : ∀ more state, exec (step waitTime) deleted more = some state →
      WellFormed state ∧ state.transport name = deleted.transport name := by
    intro more state hmore
    refine exec_invariant (motive := fun state =>
      WellFormed state ∧ state.transport name = deleted.transport name) ?_ ⟨hwf, rfl⟩ hmore
    rintro state action next ⟨hwf, hsame⟩ htaken
    have hstep := step_cases htaken
    have hnot := hwf.not_moved hstep (by rw [hsame, hdeleted])
    exact ⟨hwf.step hstep, (transport_step hstep hnot).trans hsame⟩
  constructor
  · apply meets_of_forall_taken hafter
    intro prior action rest state next _ hprior htaken
    obtain ⟨hwf, hsame⟩ := hkept prior state hprior
    exact hwf.not_moved (step_cases htaken) (by rw [hsame, hdeleted])
  · exact (hkept after final hafter).2

/-- A transport is deleted while another is told of the link, and the other's job still runs. -/
def deletedNextTo (first second : κ) : List (Action κ) × List (Action κ) :=
  ([.construct first, .submit first, .construct second, .submit second, .socket true, .beginWalk,
      .job second, .tell, .revoke first, .tell, .endWalk, .unregister first, .destroy first],
    [.job second, .socket false, .beginWalk, .tell, .endWalk, .job second])

theorem deleted_untouched_deletedNextTo :
    ∃ deleted final : State (Fin 2),
      exec (step fun _ => 1000) initial (deletedNextTo 0 1).1 = some deleted ∧
      exec (step fun _ => 1000) deleted (deletedNextTo 0 1).2 = some final ∧
      (deleted.transport 0).phase = .destroyed ∧
      (final.transport 1).told = [true, false] ∧
      final.transport 0 = deleted.transport 0 := by
  obtain ⟨final, hrun, htold⟩ : ∃ final : State (Fin 2),
      exec (step fun _ => 1000) initial ((deletedNextTo 0 1).1 ++ (deletedNextTo 0 1).2) =
        some final ∧ decide ((final.transport 1).told = [true, false]) = true :=
    exists_exec_of_any (by decide)
  obtain ⟨deleted, hbefore, hafter⟩ := exec_append_eq_some.mp hrun
  have hphase : (exec (step fun _ => 1000) initial (deletedNextTo 0 1).1).any
      (fun state : State (Fin 2) => decide ((state.transport 0).phase = .destroyed)) = true := by
    decide
  have hdeleted := check_of_exec hphase hbefore
  simp only [decide_eq_true_eq] at hdeleted
  exact ⟨deleted, final, hbefore, hafter, hdeleted, of_decide_eq_true htold,
    (deleted_untouched hbefore hdeleted hafter).2⟩

end FireboltTransport.Life
