/-
# The mutexes of the client

The client again, with every acquisition and release of `queue_mtx` and of a
caller's `mtx` as a move of its own.  Threads in `Client::Request` and the
watchdog take part, and any number of further threads that run
`Client::Response` and `Client::IdRequested` again and again.

The moves change the data exactly where the critical sections of the coarse
client do, and the mutexes keep everybody else away meanwhile: a run of this
model projects to a run of `Client.step`.
-/

import FireboltTransport.Gateway.ClientInvariant
import FireboltTransport.Semantics.Mutex

namespace FireboltTransport.ClientLocks

open Semantics Client

variable {ι ρ : Type}

inductive Mutex (ι : Type)
  | queueMtx
  /-- `Caller::mtx`. -/
  | mtx (call : ι)
  deriving DecidableEq

inductive Thread (ι ρ : Type)
  | request (call : ι)
  | visitor (visitor : ρ)
  | watchdog
  deriving DecidableEq

/-- Where a call of `Client::Request` is with regard to the mutexes. -/
inductive RequestPoint
  | outside
  | insertWants
  | insertHolds
  | insertDone
  /-- Before `unique_lock lk(c->mtx)`, or notified and about to take it again. -/
  | waitWants
  /-- Holds `c->mtx` and evaluates the predicate of `wait`. -/
  | waitHolds
  /-- Blocked in `wait`, which has released `c->mtx`. -/
  | blocked
  | eraseWants
  | eraseHolds
  | eraseDone
  | eraseReleased
  deriving DecidableEq

/-- Where a thread is that runs `Client::Response` or `Client::IdRequested`. -/
inductive VisitorPoint (ι : Type)
  | outside
  | replyWants (message : Message)
  | replyHolds (message : Message)
  /-- Holds `queue_mtx`; `queue.at(id)` returned `call`. -/
  | replyFound (message : Message) (call : ι)
  | replyOwns (message : Message) (call : ι)
  | replyDone (call : ι)
  | idWants (id : MessageID)
  | idHolds (id : MessageID)
  /-- Holds `queue_mtx` on its way out. -/
  | leaves
  deriving DecidableEq

/-- Where the watchdog thread is. -/
inductive WatchdogPoint (ι : Type)
  | outside
  | sweepWants
  | sweepHolds
  | sweepDone
  | markWants (call : ι)
  | markHolds (call : ι)
  | markDone (call : ι)
  deriving DecidableEq

/-- The program points of a thread. -/
abbrev Thread.Point : Thread ι ρ → Type
  | .request _ => RequestPoint
  | .visitor _ => VisitorPoint ι
  | .watchdog => WatchdogPoint ι

/-- The client's data with the points of its threads and the holders of its mutexes. -/
structure State (ι ρ : Type) where
  client : Client.State ι
  locks : Locks (Thread.Point (ι := ι) (ρ := ρ)) (Mutex ι)

/-- One move of a thread: what it does to the mutexes, where it leads and the data it leaves. -/
structure Move (ι π : Type) where
  op : LockOp (Mutex ι)
  next : π
  client : Client.State ι

/-- What a visiting thread is asked to do. -/
inductive Job
  | response (message : Message)
  | idRequested (id : MessageID)
  deriving DecidableEq

inductive Action (ι ρ : Type)
  /-- A step that needs no mutex. -/
  | outside (action : Client.Action ι)
  | start (visitor : ρ) (job : Job)
  | move (thread : Thread ι ρ)
  deriving DecidableEq

/-! ## The program of each thread -/

section Program

variable [DecidableEq ι]

/-- `Client::Request`, from the construction of its `Caller` to the release of its mutexes. -/
def requestMove (client : Client.State ι) (call : ι) :
    RequestPoint → Option (Move ι RequestPoint)
  | .outside =>
      match client.phase call with
      | .created => some ⟨.keep, .insertWants, client⟩
      | .waiting => some ⟨.keep, .waitWants, client⟩
      | _ => none
  | .insertWants => some ⟨.lock .queueMtx, .insertHolds, client⟩
  | .insertHolds => some ⟨.keep, .insertDone,
      { client with queue := client.queue.insert (client.caller call).id call }.setPhase call
        .inserted⟩
  | .insertDone => some ⟨.unlock .queueMtx, .outside, client⟩
  | .waitWants => some ⟨.lock (.mtx call), .waitHolds, client⟩
  | .waitHolds =>
      if (client.caller call).ready then some ⟨.keep, .eraseWants, client.setPhase call .woken⟩
      else some ⟨.unlock (.mtx call), .blocked, client⟩
  -- Notified, or woken without a reason.
  | .blocked => some ⟨.keep, .waitWants, client⟩
  | .eraseWants => some ⟨.lock .queueMtx, .eraseHolds, client⟩
  | .eraseHolds => some ⟨.keep, .eraseDone,
      { client with queue := client.queue.erase (client.caller call).id }.setPhase call .erased⟩
  | .eraseDone => some ⟨.unlock .queueMtx, .eraseReleased, client⟩
  | .eraseReleased => some ⟨.unlock (.mtx call), .outside, client⟩

/-- `Client::Response` and `Client::IdRequested`. -/
def visitorMove (client : Client.State ι) :
    VisitorPoint ι → Option (Move ι (VisitorPoint ι))
  | .outside => none
  | .replyWants message => some ⟨.lock .queueMtx, .replyHolds message, client⟩
  | .replyHolds message =>
      match client.queue.lookup message.id.value with
      -- `std::out_of_range` leaves the block and with it the lock guard.
      | none => some ⟨.keep, .leaves, client⟩
      | some call => some ⟨.keep, .replyFound message call, client⟩
  | .replyFound message call => some ⟨.lock (.mtx call), .replyOwns message call, client⟩
  | .replyOwns message call => some ⟨.keep, .replyDone call,
      client.setCaller call ((client.caller call).complete message)⟩
  | .replyDone call => some ⟨.unlock (.mtx call), .leaves, client⟩
  | .idWants id => some ⟨.lock .queueMtx, .idHolds id, client⟩
  -- `queue.find(id) != queue.end()` is not used by the client itself.
  | .idHolds _ => some ⟨.keep, .leaves, client⟩
  | .leaves => some ⟨.unlock .queueMtx, .outside, client⟩

/-- `Client::watchdog`, from a reading of the clock to the last of its marks. -/
def watchdogMove (client : Client.State ι) :
    WatchdogPoint ι → Option (Move ι (WatchdogPoint ι))
  | .outside =>
      match client.watchdog with
      | .sampled _ => some ⟨.keep, .sweepWants, client⟩
      | .marking (call :: _) => some ⟨.keep, .markWants call, client⟩
      | _ => none
  | .sweepWants => some ⟨.lock .queueMtx, .sweepHolds, client⟩
  | .sweepHolds =>
      match client.watchdog with
      | .sampled now => some ⟨.keep, .sweepDone,
          { client with
            queue := client.queue.filter fun _ call => !client.expired now call
            watchdog := .marking (client.queue.select fun _ call => client.expired now call) }⟩
      | _ => none
  | .sweepDone => some ⟨.unlock .queueMtx, .outside, client⟩
  | .markWants call => some ⟨.lock (.mtx call), .markHolds call, client⟩
  | .markHolds call =>
      match client.watchdog with
      | .marking (_ :: rest) => some ⟨.keep, .markDone call,
          { client.setCaller call (client.caller call).timeOut with watchdog := .marking rest }⟩
      | _ => none
  | .markDone call => some ⟨.unlock (.mtx call), .outside, client⟩

/-- The next move of a thread at a point. -/
def moveAt (client : Client.State ι) :
    (thread : Thread ι ρ) → thread.Point → Option (Move ι thread.Point)
  | .request call, point => requestMove client call point
  | .visitor _, point => visitorMove client point
  | .watchdog, point => watchdogMove client point

end Program

/-- The mutexes a thread holds at a point. -/
def holds : (thread : Thread ι ρ) → thread.Point → Mutex ι → Prop
  | .request call, point, mutex =>
      match point with
      | .insertHolds | .insertDone => mutex = .queueMtx
      | .waitHolds | .eraseWants | .eraseReleased => mutex = .mtx call
      | .eraseHolds | .eraseDone => mutex = .queueMtx ∨ mutex = .mtx call
      | _ => False
  | .visitor _, point, mutex =>
      match point with
      | .replyHolds _ | .replyFound _ _ | .idHolds _ | .leaves => mutex = .queueMtx
      | .replyOwns _ call | .replyDone call => mutex = .queueMtx ∨ mutex = .mtx call
      | _ => False
  | .watchdog, point, mutex =>
      match point with
      | .sweepHolds | .sweepDone => mutex = .queueMtx
      | .markHolds call | .markDone call => mutex = .mtx call
      | _ => False

namespace State

variable [DecidableEq ι] [DecidableEq ρ]

def requestPoint (state : State ι ρ) (call : ι) : RequestPoint :=
  state.locks.point (.request call)

def visitorPoint (state : State ι ρ) (visitor : ρ) : VisitorPoint ι :=
  state.locks.point (.visitor visitor)

def watchdogPoint (state : State ι ρ) : WatchdogPoint ι :=
  state.locks.point .watchdog

/-- The mutex a thread asks for. -/
def wants (state : State ι ρ) (thread : Thread ι ρ) : Option (Mutex ι) :=
  (moveAt state.client thread (state.locks.point thread)).bind fun move => move.op.wanted

/-- Whether the thread of a step that needs no mutex is there to take it. -/
def isOutside (state : State ι ρ) : Client.Action ι → Bool
  | .setTransport _ | .tick _ => true
  | .draw call | .create call | .send call _ | .check call | .read call =>
      state.requestPoint call = .outside
  | .sample | .sleep => state.watchdogPoint = .outside
  | _ => false

end State

/-- The first point of a job. -/
def Job.point : Job → VisitorPoint ι
  | .response message => .replyWants message
  | .idRequested id => .idWants id

section Step

variable [DecidableEq ι] [DecidableEq ρ]

/-- One step, or `none` when the label is not enabled. -/
def step (state : State ι ρ) : Action ι ρ → Option (State ι ρ)
  | .outside action =>
      if state.isOutside action then
        (Client.step state.client action).map fun client => { state with client := client }
      else none
  | .start visitor job =>
      if state.visitorPoint visitor = .outside then
        (state.locks.move (.visitor visitor) .keep job.point).map fun locks =>
          { state with locks := locks }
      else none
  | .move thread =>
      (moveAt state.client thread (state.locks.point thread)).bind fun move =>
        (state.locks.move thread move.op move.next).map fun locks => ⟨move.client, locks⟩

/-- Every thread outside, every mutex free. -/
def initial (transport : Option Channel) (clock : Timestamp) : State ι ρ where
  client := Client.initial transport clock
  locks :=
    { point := fun
        | .request _ => .outside
        | .visitor _ => .outside
        | .watchdog => .outside
      holder := fun _ => none }

/-- The steps of the model, as a relation. -/
inductive Step (state : State ι ρ) : Action ι ρ → State ι ρ → Prop
  | outside (action : Client.Action ι) (client : Client.State ι)
      (houtside : state.isOutside action = true)
      (hclient : Client.Step state.client action client) :
      Step state (.outside action) { state with client := client }
  | start (visitor : ρ) (job : Job) (locks : Locks Thread.Point (Mutex ι))
      (hpoint : state.visitorPoint visitor = .outside)
      (hlocks : state.locks.move (.visitor visitor) .keep job.point = some locks) :
      Step state (.start visitor job) { state with locks := locks }
  | move (thread : Thread ι ρ) (move : Move ι thread.Point) (locks : Locks Thread.Point (Mutex ι))
      (hmove : moveAt state.client thread (state.locks.point thread) = some move)
      (hlocks : state.locks.move thread move.op move.next = some locks) :
      Step state (.move thread) ⟨move.client, locks⟩

theorem step_cases {state next : State ι ρ} {action : Action ι ρ}
    (htaken : step state action = some next) : Step state action next := by
  cases action with
  | outside action =>
      simp only [step] at htaken
      split_ifs at htaken with houtside
      obtain ⟨client, hclient, rfl⟩ := Option.map_eq_some_iff.mp htaken
      exact .outside action client houtside (Client.step_cases hclient)
  | start visitor job =>
      simp only [step] at htaken
      split_ifs at htaken with hpoint
      obtain ⟨locks, hlocks, rfl⟩ := Option.map_eq_some_iff.mp htaken
      exact .start visitor job locks hpoint hlocks
  | move thread =>
      simp only [step] at htaken
      obtain ⟨move, hmove, hrest⟩ := Option.bind_eq_some_iff.mp htaken
      obtain ⟨locks, hlocks, rfl⟩ := Option.map_eq_some_iff.mp hrest
      exact .move thread move locks hmove hlocks

end Step

/-! ## What a point says about the data -/

/-- The phase a call is in while its thread is at a point. -/
def RequestPoint.phase : RequestPoint → Option Phase
  | .insertWants | .insertHolds => some .created
  | .waitWants | .waitHolds | .blocked => some .waiting
  | .eraseWants | .eraseHolds => some .woken
  | _ => none

/-- What the data satisfies while a thread is at a point. -/
def Fact (client : Client.State ι) : (thread : Thread ι ρ) → thread.Point → Prop
  | .request call, point =>
      match RequestPoint.phase point with
      | some phase => client.phase call = phase ∧
          (phase = .woken → (client.caller call).ready = true)
      | none => client.phase call ≠ .woken
  | .visitor _, point =>
      match point with
      | .replyFound message call | .replyOwns message call =>
          client.queue.lookup message.id.value = some call
      | _ => True
  | .watchdog, point =>
      match point with
      | .sweepWants | .sweepHolds => ∃ now, client.watchdog = .sampled now
      | .markWants call | .markHolds call => ∃ rest, client.watchdog = .marking (call :: rest)
      | _ => True

/-- The invariant of the model. -/
structure Consistent (state : State ι ρ) : Prop where
  agrees : state.locks.Agrees holds
  wellFormed : WellFormed state.client
  fact : ∀ thread, Fact state.client thread (state.locks.point thread)

theorem consistent_initial (transport : Option Channel) (clock : Timestamp) :
    Consistent (initial transport clock : State ι ρ) where
  agrees := by
    intro mutex thread
    cases thread <;> simp [initial, holds]
  wellFormed := wellFormed_initial transport clock
  fact := by
    intro thread
    cases thread <;> simp [initial, Fact, RequestPoint.phase, Client.initial]

/-- The step of the coarse client that the move from a point takes. -/
def dataStep : (thread : Thread ι ρ) → thread.Point → Option (Client.Action ι)
  | .request call, point =>
      match point with
      | .insertHolds => some (.insert call)
      | .waitHolds => some (.wake call)
      | .eraseHolds => some (.erase call)
      | _ => none
  | .visitor _, point =>
      match point with
      | .replyOwns message _ => some (.response message)
      | _ => none
  | .watchdog, point =>
      match point with
      | .sweepHolds => some .collect
      | .markHolds _ => some .mark
      | _ => none

/-! ## What one move can do

Each program is listed once as a relation; what its moves do to the mutexes, to the
facts and to the data follows by cases.
-/

section Moves

variable [DecidableEq ι] {client : Client.State ι}

inductive RequestMoves (client : Client.State ι) (call : ι) :
    RequestPoint → Move ι RequestPoint → Prop
  | beginInsert (hphase : client.phase call = .created) :
      RequestMoves client call .outside ⟨.keep, .insertWants, client⟩
  | beginWait (hphase : client.phase call = .waiting) :
      RequestMoves client call .outside ⟨.keep, .waitWants, client⟩
  | lockInsert : RequestMoves client call .insertWants ⟨.lock .queueMtx, .insertHolds, client⟩
  | insert : RequestMoves client call .insertHolds ⟨.keep, .insertDone,
      { client with queue := client.queue.insert (client.caller call).id call }.setPhase call
        .inserted⟩
  | unlockInsert : RequestMoves client call .insertDone ⟨.unlock .queueMtx, .outside, client⟩
  | lockWait : RequestMoves client call .waitWants ⟨.lock (.mtx call), .waitHolds, client⟩
  | wake (hready : (client.caller call).ready = true) :
      RequestMoves client call .waitHolds ⟨.keep, .eraseWants, client.setPhase call .woken⟩
  | block (hready : (client.caller call).ready = false) :
      RequestMoves client call .waitHolds ⟨.unlock (.mtx call), .blocked, client⟩
  | notified : RequestMoves client call .blocked ⟨.keep, .waitWants, client⟩
  | lockErase : RequestMoves client call .eraseWants ⟨.lock .queueMtx, .eraseHolds, client⟩
  | erase : RequestMoves client call .eraseHolds ⟨.keep, .eraseDone,
      { client with queue := client.queue.erase (client.caller call).id }.setPhase call .erased⟩
  | unlockErase : RequestMoves client call .eraseDone ⟨.unlock .queueMtx, .eraseReleased, client⟩
  | unlockWait : RequestMoves client call .eraseReleased ⟨.unlock (.mtx call), .outside, client⟩

inductive VisitorMoves (client : Client.State ι) :
    VisitorPoint ι → Move ι (VisitorPoint ι) → Prop
  | lockReply (message : Message) :
      VisitorMoves client (.replyWants message) ⟨.lock .queueMtx, .replyHolds message, client⟩
  | noReceiver (message : Message) (hlookup : client.queue.lookup message.id.value = none) :
      VisitorMoves client (.replyHolds message) ⟨.keep, .leaves, client⟩
  | find (message : Message) (call : ι)
      (hlookup : client.queue.lookup message.id.value = some call) :
      VisitorMoves client (.replyHolds message) ⟨.keep, .replyFound message call, client⟩
  | lockCaller (message : Message) (call : ι) :
      VisitorMoves client (.replyFound message call)
        ⟨.lock (.mtx call), .replyOwns message call, client⟩
  | complete (message : Message) (call : ι) :
      VisitorMoves client (.replyOwns message call) ⟨.keep, .replyDone call,
        client.setCaller call ((client.caller call).complete message)⟩
  | unlockCaller (call : ι) :
      VisitorMoves client (.replyDone call) ⟨.unlock (.mtx call), .leaves, client⟩
  | lockId (id : MessageID) :
      VisitorMoves client (.idWants id) ⟨.lock .queueMtx, .idHolds id, client⟩
  | findId (id : MessageID) : VisitorMoves client (.idHolds id) ⟨.keep, .leaves, client⟩
  | unlockQueue : VisitorMoves client .leaves ⟨.unlock .queueMtx, .outside, client⟩

inductive WatchdogMoves (client : Client.State ι) :
    WatchdogPoint ι → Move ι (WatchdogPoint ι) → Prop
  | beginSweep (now : Timestamp) (hwatchdog : client.watchdog = .sampled now) :
      WatchdogMoves client .outside ⟨.keep, .sweepWants, client⟩
  | beginMark (call : ι) (rest : List ι) (hwatchdog : client.watchdog = .marking (call :: rest)) :
      WatchdogMoves client .outside ⟨.keep, .markWants call, client⟩
  | lockSweep : WatchdogMoves client .sweepWants ⟨.lock .queueMtx, .sweepHolds, client⟩
  | collect (now : Timestamp) (hwatchdog : client.watchdog = .sampled now) :
      WatchdogMoves client .sweepHolds ⟨.keep, .sweepDone,
        { client with
          queue := client.queue.filter fun _ call => !client.expired now call
          watchdog := .marking (client.queue.select fun _ call => client.expired now call) }⟩
  | unlockSweep : WatchdogMoves client .sweepDone ⟨.unlock .queueMtx, .outside, client⟩
  | lockMark (call : ι) :
      WatchdogMoves client (.markWants call) ⟨.lock (.mtx call), .markHolds call, client⟩
  | mark (call head : ι) (rest : List ι) (hwatchdog : client.watchdog = .marking (head :: rest)) :
      WatchdogMoves client (.markHolds call) ⟨.keep, .markDone call,
        { client.setCaller call (client.caller call).timeOut with watchdog := .marking rest }⟩
  | unlockMark (call : ι) :
      WatchdogMoves client (.markDone call) ⟨.unlock (.mtx call), .outside, client⟩

theorem requestMove_cases {call : ι} {point : RequestPoint} {move : Move ι RequestPoint}
    (hmove : requestMove client call point = some move) : RequestMoves client call point move := by
  cases point with
  | outside =>
      simp only [requestMove] at hmove
      split at hmove
      · cases hmove
        exact .beginInsert ‹_›
      · cases hmove
        exact .beginWait ‹_›
      · cases hmove
  | waitHolds =>
      simp only [requestMove] at hmove
      split_ifs at hmove with hready
      · cases hmove
        exact .wake hready
      · cases hmove
        exact .block (Bool.eq_false_iff.mpr hready)
  | _ =>
      cases hmove
      constructor

theorem visitorMove_cases {point : VisitorPoint ι} {move : Move ι (VisitorPoint ι)}
    (hmove : visitorMove client point = some move) : VisitorMoves client point move := by
  cases point with
  | outside => cases hmove
  | replyHolds message =>
      simp only [visitorMove] at hmove
      split at hmove
      · cases hmove
        exact .noReceiver message ‹_›
      · cases hmove
        exact .find message _ ‹_›
  | _ =>
      cases hmove
      constructor

theorem watchdogMove_cases {point : WatchdogPoint ι} {move : Move ι (WatchdogPoint ι)}
    (hmove : watchdogMove client point = some move) : WatchdogMoves client point move := by
  cases point with
  | outside =>
      simp only [watchdogMove] at hmove
      split at hmove
      · cases hmove
        exact .beginSweep _ ‹_›
      · cases hmove
        exact .beginMark _ _ ‹_›
      · cases hmove
  | sweepHolds =>
      simp only [watchdogMove] at hmove
      split at hmove
      · cases hmove
        exact .collect _ ‹_›
      · cases hmove
  | markHolds call =>
      simp only [watchdogMove] at hmove
      split at hmove
      · cases hmove
        exact .mark call _ _ ‹_›
      · cases hmove
  | _ =>
      cases hmove
      constructor

variable {thread : Thread ι ρ} {point : thread.Point} {move : Move ι thread.Point}

/-- A move holds afterwards what its operation says. -/
theorem effect_of_move (hmove : moveAt client thread point = some move) :
    move.op.Effect (holds thread point) (holds thread move.next) := by
  cases thread with
  | request call => cases requestMove_cases hmove <;> grind [LockOp.Effect, holds]
  | visitor visitor => cases visitorMove_cases hmove <;> grind [LockOp.Effect, holds]
  | watchdog => cases watchdogMove_cases hmove <;> grind [LockOp.Effect, holds]

/-- A move leads to a point whose fact holds of the data it leaves. -/
theorem fact_of_move (hfact : Fact client thread point)
    (hmove : moveAt client thread point = some move) : Fact move.client thread move.next := by
  cases thread with
  | request call =>
      cases requestMove_cases hmove <;>
        simp_all [Fact, RequestPoint.phase, Client.State.setPhase]
  | visitor visitor =>
      cases visitorMove_cases hmove with
      | find message call hlookup => exact hlookup
      | lockCaller message call => exact hfact
      | _ => trivial
  | watchdog =>
      cases watchdogMove_cases hmove with
      | beginSweep now hwatchdog => exact ⟨now, hwatchdog⟩
      | beginMark call rest hwatchdog => exact ⟨rest, hwatchdog⟩
      | lockSweep => exact hfact
      | lockMark call => exact hfact
      | _ => trivial

/-- A move changes no data or takes the step of the coarse client that its point names. -/
theorem client_of_move (hfact : Fact client thread point)
    (hfree : ∀ call, holds thread point (.mtx call) → thread ≠ .request call →
      client.phase call ≠ .woken)
    (hmove : moveAt client thread point = some move) :
    move.client = client ∨
      ∃ action, dataStep thread point = some action ∧ Client.Step client action move.client := by
  cases thread with
  | request call =>
      cases requestMove_cases hmove with
      | insert => exact .inr ⟨_, rfl, .insert call hfact.1⟩
      | wake hready => exact .inr ⟨_, rfl, .wake call hfact.1 hready⟩
      | erase => exact .inr ⟨_, rfl, .erase call hfact.1⟩
      | _ => exact .inl rfl
  | visitor visitor =>
      cases visitorMove_cases hmove with
      | complete message call =>
          exact .inr ⟨_, rfl, .response message call hfact (hfree call (.inr rfl) (by simp))⟩
      | _ => exact .inl rfl
  | watchdog =>
      cases watchdogMove_cases hmove with
      | collect now hwatchdog => exact .inr ⟨_, rfl, .collect now hwatchdog⟩
      | mark call head rest hwatchdog =>
          obtain ⟨others, hmarking⟩ := hfact
          obtain ⟨rfl, rfl⟩ : head = call ∧ rest = others := by
            simpa [hwatchdog] using hmarking
          exact .inr ⟨_, rfl, .mark head rest hwatchdog (hfree head rfl (by simp))⟩
      | _ => exact .inl rfl

end Moves

section DataStep

variable {thread : Thread ι ρ} {point : thread.Point} {coarse : Client.Action ι}

/-- The data steps that change the queue are taken under its mutex. -/
theorem holds_of_changesQueue (hdata : dataStep thread point = some coarse)
    (hqueue : coarse.changesQueue = true) : holds thread point .queueMtx := by
  cases thread with
  | request call =>
      cases point with
      | insertHolds => exact rfl
      | eraseHolds => exact .inl rfl
      | waitHolds => cases hdata; cases hqueue
      | _ => cases hdata
  | visitor visitor =>
      cases point with
      | replyOwns message call => cases hdata; cases hqueue
      | _ => cases hdata
  | watchdog =>
      cases point with
      | sweepHolds => exact rfl
      | markHolds call => cases hdata; cases hqueue
      | _ => cases hdata

/-- A reply is recorded under the mutex of the queue. -/
theorem holds_of_response {message : Message}
    (hdata : dataStep thread point = some (.response message)) : holds thread point .queueMtx := by
  cases thread with
  | request call => cases point <;> cases hdata
  | visitor visitor =>
      cases point with
      | replyOwns message call => exact .inl rfl
      | _ => cases hdata
  | watchdog => cases point <;> cases hdata

/-- Only its own thread takes the data steps of a call. -/
theorem actor_of_dataStep (hdata : dataStep thread point = some coarse) {call : ι}
    (hactor : coarse.actor = some call) : thread = .request call := by
  cases thread with
  | request own => cases point <;> cases hdata <;> cases hactor <;> rfl
  | visitor visitor =>
      cases point with
      | replyOwns message receiver => cases hdata; cases hactor
      | _ => cases hdata
  | watchdog => cases point <;> cases hdata <;> cases hactor

theorem isWatchdog_of_dataStep (hdata : dataStep thread point = some coarse)
    (hwatchdog : coarse.isWatchdog = true) : thread = .watchdog := by
  cases thread with
  | request own => cases point <;> cases hdata <;> cases hwatchdog
  | visitor visitor =>
      cases point with
      | replyOwns message receiver => cases hdata; cases hwatchdog
      | _ => cases hdata
  | watchdog => rfl

end DataStep

/-! ## One step -/

/-- A fact survives a step of the coarse client that leaves alone what it is about. -/
theorem fact_frame [DecidableEq ι] {client later : Client.State ι} {step : Client.Action ι}
    (hstep : Client.Step client step later) {thread : Thread ι ρ} {point : thread.Point}
    (hfact : Fact client thread point)
    (hactor : ∀ call, thread = .request call → step.actor ≠ some call)
    (hqueue : holds thread point .queueMtx → step.changesQueue = false)
    (hwatchdog : thread = .watchdog → step.isWatchdog = false) : Fact later thread point := by
  cases thread with
  | request call =>
      have hphase := phase_step hstep (hactor call rfl)
      simp only [Fact] at hfact ⊢
      split at hfact
      · refine ⟨hphase.trans hfact.1, fun hwoken => ?_⟩
        refine ready_step hstep (fun id hdrawn => ?_) (hfact.2 hwoken)
        rw [hfact.1, hwoken] at hdrawn
        cases hdrawn
      · rwa [hphase]
  | visitor visitor =>
      cases point with
      | replyFound message call =>
          simp only [Fact] at hfact ⊢
          rwa [queue_step hstep (hqueue rfl)]
      | replyOwns message call =>
          simp only [Fact] at hfact ⊢
          rwa [queue_step hstep (hqueue (.inl rfl))]
      | _ => trivial
  | watchdog =>
      have hsame := watchdog_step hstep (hwatchdog rfl)
      cases point <;> simp only [Fact, hsame] at hfact ⊢ <;> exact hfact

/-- Whoever else holds the mutex of a caller keeps its own `Request` from being woken. -/
theorem Consistent.not_woken {state : State ι ρ} (hconsistent : Consistent state)
    {thread : Thread ι ρ} {call : ι}
    (hholds : holds thread (state.locks.point thread) (.mtx call))
    (hthread : thread ≠ .request call) : state.client.phase call ≠ .woken := by
  intro hwoken
  apply hthread
  apply hconsistent.agrees.exclusive hholds
  have hfact := hconsistent.fact (.request call)
  simp only [Fact, hwoken] at hfact
  simp only [holds]
  cases hpoint : state.locks.point (.request call) <;>
    simp_all [RequestPoint.phase]

section Step

variable [DecidableEq ι] {state next : State ι ρ} {action : Action ι ρ}

/-- The data step of a move, if it has one. -/
theorem Consistent.client_of_move (hconsistent : Consistent state) {thread : Thread ι ρ}
    {move : Move ι thread.Point}
    (hmove : moveAt state.client thread (state.locks.point thread) = some move) :
    move.client = state.client ∨
      ∃ action, dataStep thread (state.locks.point thread) = some action ∧
        Client.Step state.client action move.client :=
  ClientLocks.client_of_move (hconsistent.fact thread)
    (fun _ hholds hthread => hconsistent.not_woken hholds hthread) hmove

/-- A step outside of the critical sections keeps every fact. -/
theorem fact_outside {coarse : Client.Action ι} {client : Client.State ι}
    (hconsistent : Consistent state) (houtside : state.isOutside coarse = true)
    (hclient : Client.Step state.client coarse client) (thread : Thread ι ρ) :
    Fact client thread (state.locks.point thread) := by
  have hqueue : coarse.changesQueue = false := by
    cases coarse with
    | insert call | erase call | collect => cases houtside
    | _ => rfl
  have hframe := fact_frame hclient (hconsistent.fact thread)
  cases thread with
  | request call =>
      by_cases hactor : coarse.actor = some call
      · -- The thread of the call is outside, so only being woken has to be ruled out.
        have hpoint : state.locks.point (.request call) = .outside := by
          cases coarse with
          | draw own | create own | send own result | check own | read own =>
              cases hactor
              exact of_decide_eq_true houtside
          | insert own | wake own | erase own => cases houtside
          | _ => cases hactor
        rw [hpoint]
        change client.phase call ≠ .woken
        cases hclient with
        | refuse own | draw own | create own | send own | sendFailed own | check own
        | readResponse own | readError own =>
            cases hactor
            simp [Client.State.setPhase]
        | insert own | wake own | erase own => cases houtside
        | _ => cases hactor
      · refine hframe ?_ (fun _ => hqueue) (by simp)
        rintro other hother
        cases hother
        exact hactor
  | visitor visitor => exact hframe (by simp) (fun _ => hqueue) (by simp)
  | watchdog =>
      cases hwatchdog : coarse.isWatchdog with
      | true =>
          have hpoint : state.locks.point .watchdog = .outside := by
            cases coarse with
            | sample | sleep => exact of_decide_eq_true houtside
            | collect | mark => cases houtside
            | _ => cases hwatchdog
          rw [hpoint]
          trivial
      | false => exact hframe (by simp) (fun _ => hqueue) (fun _ => hwatchdog)

variable [DecidableEq ρ]

/-- A step of the model is a step of the coarse client or changes no data. -/
theorem Consistent.client_step (hconsistent : Consistent state) (hstep : Step state action next) :
    next.client = state.client ∨ ∃ coarse, Client.Step state.client coarse next.client := by
  cases hstep with
  | outside coarse client houtside hclient => exact .inr ⟨coarse, hclient⟩
  | start visitor job locks hpoint hlocks => exact .inl rfl
  | move thread move locks hmove hlocks =>
      rcases hconsistent.client_of_move hmove with hsame | ⟨coarse, _, hcoarse⟩
      · exact .inl hsame
      · exact .inr ⟨coarse, hcoarse⟩

theorem Consistent.step (hconsistent : Consistent state) (hstep : Step state action next) :
    Consistent next where
  wellFormed := by
    rcases hconsistent.client_step hstep with hsame | ⟨coarse, hcoarse⟩
    · rw [hsame]
      exact hconsistent.wellFormed
    · exact hconsistent.wellFormed.step hcoarse
  agrees := by
    cases hstep with
    | outside coarse client houtside hclient => exact hconsistent.agrees
    | start visitor job locks hpoint hlocks =>
        refine hconsistent.agrees.move ?_ hlocks
        change state.locks.point (.visitor visitor) = .outside at hpoint
        rw [hpoint]
        cases job <;> exact fun _ => Iff.rfl
    | move thread move locks hmove hlocks =>
        exact hconsistent.agrees.move (effect_of_move hmove) hlocks
  fact := by
    intro other
    cases hstep with
    | outside coarse client houtside hclient =>
        exact fact_outside hconsistent houtside hclient other
    | start visitor job locks hpoint hlocks =>
        by_cases hother : other = .visitor visitor
        · subst hother
          simp only [Locks.point_move_self hlocks]
          cases job <;> trivial
        · simp only [Locks.point_move_of_ne hlocks hother]
          exact hconsistent.fact other
    | move thread move locks hmove hlocks =>
        by_cases hother : other = thread
        · subst hother
          simp only [Locks.point_move_self hlocks]
          exact fact_of_move (hconsistent.fact other) hmove
        · simp only [Locks.point_move_of_ne hlocks hother]
          rcases hconsistent.client_of_move hmove with hsame | ⟨coarse, hdata, hcoarse⟩
          · rw [hsame]
            exact hconsistent.fact other
          · refine fact_frame hcoarse (hconsistent.fact other) ?_ ?_ ?_
            · rintro call rfl hactor
              exact hother (actor_of_dataStep hdata hactor).symm
            · intro hqueue
              rw [Bool.eq_false_iff]
              intro hchanges
              exact hother
                (hconsistent.agrees.exclusive hqueue (holds_of_changesQueue hdata hchanges))
            · rintro rfl
              rw [Bool.eq_false_iff]
              intro hwatchdog
              exact hother (isWatchdog_of_dataStep hdata hwatchdog).symm

/-- **Critical sections are atomic.**  Every state of this model has the data of a state
that the coarse client reaches. -/
theorem client_reachable {transport : Option Channel} {clock : Timestamp} {final : State ι ρ}
    {schedule : List (Action ι ρ)}
    (hrun : exec step (initial transport clock) schedule = some final) :
    Reachable Client.step (Client.initial transport clock) final.client := by
  refine exec_project State.client (motive := Consistent)
    (fun _ _ _ hprior htaken => hprior.step (step_cases htaken)) ?_
    (consistent_initial transport clock) hrun
  intro state action next hconsistent htaken
  rcases hconsistent.client_step (step_cases htaken) with hsame | ⟨coarse, hcoarse⟩
  · rw [hsame]
    exact .refl _ _
  · exact ⟨[coarse], exec_single (step_of_cases hcoarse)⟩

end Step

end FireboltTransport.ClientLocks
