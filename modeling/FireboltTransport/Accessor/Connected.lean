/-
# What the accessor believes about its connection

`Accessor::_connected` is written by `ConnectionChanged` only, the listener the
accessor gives to each transport it creates.  A transport calls it when its
channel reports a state that differs from the last, and its connection job calls
it after a failed wait.  `Connect` and `Disconnect` replace or delete the
transport, and the destructor of a transport calls nobody.
-/

import FireboltTransport.Semantics.Run
import FireboltTransport.Transport.Link

namespace FireboltTransport.Connected

open Semantics Transport

/-- The transport of an accessor, as far as its link goes. -/
structure Attached where
  link : Link
  /-- The latest state its channel reported to it. -/
  reported : Option Bool
  /-- The connection job has not finished. -/
  jobPending : Bool
  deriving DecidableEq

/-- A transport as its constructor leaves it before it registers with the channel. -/
def Attached.new : Attached := ⟨.new, none, true⟩

/-- The channel reports its state, in `Register` or in `StateChange`. -/
def Attached.report (attached : Attached) (isOpen : Bool) : Attached × List Notification :=
  let change := if isOpen then attached.link.opened else attached.link.closed
  ({ attached with link := change.1, reported := some isOpen }, change.2)

/-- `Register` in the constructor of a transport: only an open channel is reported. -/
def Attached.register (isOpen : Bool) : Attached × List Notification :=
  if isOpen then Attached.new.report true else (Attached.new, [])

/-- An accessor. -/
structure State where
  /-- `_transport`. -/
  transport : Option Attached
  /-- `_connected`. -/
  connected : Bool
  /-- `_connectionChangeListener` is set. -/
  listening : Bool
  /-- What the user's listener was told. -/
  heard : List Notification
  deriving DecidableEq

/-- `Accessor::IsConnected`. -/
def State.isConnected (state : State) : Bool := state.connected

/-- `Accessor::ConnectionChanged`. -/
def State.connectionChanged (state : State) (notification : Notification) : State :=
  { state with
    connected := notification.connected
    heard := if state.listening then state.heard ++ [notification] else state.heard }

/-- The accessor hears what a transport tells its listener. -/
def State.told (state : State) (notifications : List Notification) : State :=
  notifications.foldl State.connectionChanged state

inductive Action
  /-- `Connect`; `Register` of the channel finds it open or not. -/
  | connect (isOpen : Bool)
  | disconnect
  /-- `StateChange` of the channel the current transport is registered with. -/
  | stateChange (isOpen : Bool)
  /-- The connection job of the current transport ends with the result of its wait. -/
  | waited (result : Error)
  /-- `UnregisterConnnectionChangeListener`. -/
  | unregister
  deriving DecidableEq

/-- One step, or `none` when the label is not enabled. -/
def step (state : State) : Action → Option State
  | .connect isOpen =>
      -- The previous transport, if any, is deleted without a call of its listener.
      some { ({ state with listening := true }).told (Attached.register isOpen).2 with
        transport := some (Attached.register isOpen).1 }
  | .disconnect => some { state with transport := none }
  | .stateChange isOpen =>
      match state.transport with
      | none => some state
      | some attached =>
          some { state.told (attached.report isOpen).2 with
            transport := some (attached.report isOpen).1 }
  | .waited result =>
      match state.transport with
      | some attached =>
          if attached.jobPending then
            some { state.told (dispatch result) with
              transport := some { attached with jobPending := false } }
          else none
      | none => none
  | .unregister => some { state with listening := false }

/-- The accessor as its constructor leaves it. -/
def initial : State where
  transport := none
  connected := false
  listening := false
  heard := []

/-- The latest state the channel reported to the current transport is open. -/
def State.reportedOpen (state : State) : Prop :=
  ∃ attached, state.transport = some attached ∧ attached.reported = some true

instance (state : State) : Decidable state.reportedOpen :=
  match htransport : state.transport with
  | none => isFalse (by simp [State.reportedOpen, htransport])
  | some attached =>
      decidable_of_iff (attached.reported = some true) (by simp [State.reportedOpen, htransport])

/-- `IsConnected` tells the truth. -/
def Truthful (state : State) : Prop := state.isConnected = true ↔ state.reportedOpen

/-- No open transport is deleted, unless its successor is open at once, and no failed wait is
reported of a transport that is open. -/
def KeepsOpen (state : State) : Action → Prop
  | .connect false | .disconnect => ¬ state.reportedOpen
  | .waited result => result ≠ .none → ¬ state.reportedOpen
  | .connect true | .stateChange _ | .unregister => True

instance (state : State) : ∀ action, Decidable (KeepsOpen state action)
  | .connect false | .disconnect => inferInstanceAs (Decidable (¬ state.reportedOpen))
  | .waited result => inferInstanceAs (Decidable (result ≠ .none → ¬ state.reportedOpen))
  | .connect true | .stateChange _ | .unregister => isTrue trivial

/-- The two copies of the channel's state agree with the channel's last report. -/
structure Agreeing (state : State) : Prop where
  truthful : Truthful state
  link : ∀ attached, state.transport = some attached →
    (attached.link.connected = true ↔ attached.reported = some true)

theorem agreeing_initial : Agreeing initial where
  truthful := by simp [Truthful, initial, State.isConnected, State.reportedOpen]
  link := by simp [initial]

/-! ## What a report changes -/

@[simp]
theorem report_reported (attached : Attached) (isOpen : Bool) :
    (attached.report isOpen).1.reported = some isOpen := rfl

@[simp]
theorem report_connected (attached : Attached) (isOpen : Bool) :
    (attached.report isOpen).1.link.connected = isOpen := by
  cases isOpen <;> simp [Attached.report]

@[simp]
theorem register_true : Attached.register true = Attached.new.report true := rfl

@[simp]
theorem register_false : Attached.register false = (Attached.new, []) := rfl

/-- The accessor's flag follows the last notification. -/
theorem told_report_connected (state : State) (attached : Attached) (isOpen : Bool) :
    (state.told (attached.report isOpen).2).connected =
      if attached.link.connected = isOpen then state.connected else isOpen := by
  cases isOpen <;> cases hconnected : attached.link.connected <;>
    simp [Attached.report, Link.opened, Link.closed, hconnected, State.told,
      State.connectionChanged]

/-- A failed wait clears the flag, a successful one leaves it. -/
theorem told_dispatch_connected (state : State) (result : Error) :
    (state.told (dispatch result)).connected =
      if result = .none then state.connected else false := by
  unfold dispatch
  split_ifs with hfailed hnone hnone
  · exact absurd hnone.symm hfailed
  · rfl
  · rfl
  · exact absurd (not_not.mp hfailed).symm hnone

/-! ## Every sequence of operations -/

section Step

variable {state next : State} {action : Action}

/-- A step that keeps what is open keeps the copies in agreement. -/
theorem Agreeing.step (hagreeing : Agreeing state) (hkeeps : KeepsOpen state action)
    (htaken : Connected.step state action = some next) : Agreeing next := by
  have htruth : state.connected = true ↔ state.reportedOpen := hagreeing.truthful
  cases action with
  | connect isOpen =>
      obtain rfl := Option.some.inj htaken
      cases isOpen with
      | true =>
          constructor
          · simp [Truthful, State.isConnected, State.reportedOpen, told_report_connected,
              Attached.new, Link.new]
          · simp
      | false =>
          have hclosed : ¬ state.reportedOpen := hkeeps
          have hflag : state.connected = false := by simpa [← htruth] using hclosed
          constructor
          · simp [Truthful, State.isConnected, State.reportedOpen, State.told, Attached.new, hflag]
          · simp [Attached.new, Link.new]
  | disconnect =>
      obtain rfl := Option.some.inj htaken
      have hclosed : ¬ state.reportedOpen := hkeeps
      have hflag : state.connected = false := by simpa [← htruth] using hclosed
      exact ⟨by simp [Truthful, State.isConnected, State.reportedOpen, hflag], by simp⟩
  | stateChange isOpen =>
      simp only [Connected.step] at htaken
      cases htransport : state.transport with
      | none =>
          rw [htransport] at htaken
          obtain rfl := Option.some.inj htaken
          exact hagreeing
      | some attached =>
          rw [htransport] at htaken
          obtain rfl := Option.some.inj htaken
          have hlink := hagreeing.link attached htransport
          have hflag : state.connected = attached.link.connected := by
            rw [Bool.eq_iff_iff, htruth, hlink]
            simp [State.reportedOpen, htransport]
          constructor
          · show (state.told _).connected = true ↔ _
            rw [told_report_connected, hflag]
            cases isOpen <;> cases attached.link.connected <;> simp [State.reportedOpen]
          · simp
  | waited result =>
      simp only [Connected.step] at htaken
      cases htransport : state.transport with
      | none =>
          rw [htransport] at htaken
          cases htaken
      | some attached =>
          rw [htransport] at htaken
          simp only at htaken
          split_ifs at htaken
          obtain rfl := Option.some.inj htaken
          have hsame : state.reportedOpen ↔ attached.reported = some true := by
            simp [State.reportedOpen, htransport]
          constructor
          · show (state.told _).connected = true ↔ _
            rw [told_dispatch_connected]
            by_cases hresult : result = .none
            · simpa [hresult, State.reportedOpen, htransport] using htruth
            · have hclosed : ¬ state.reportedOpen := hkeeps hresult
              rw [hsame] at hclosed
              simp [hresult, State.reportedOpen, hclosed]
          · simpa using hagreeing.link attached htransport
  | unregister =>
      obtain rfl := Option.some.inj htaken
      exact ⟨hagreeing.truthful, hagreeing.link⟩

/-- A step that does not makes `IsConnected` lie. -/
theorem Agreeing.keepsOpen (hagreeing : Agreeing state)
    (htaken : Connected.step state action = some next) (hnext : Truthful next) :
    KeepsOpen state action := by
  have htruth : state.connected = true ↔ state.reportedOpen := hagreeing.truthful
  have hnext : next.connected = true ↔ next.reportedOpen := hnext
  cases action with
  | connect isOpen =>
      cases isOpen with
      | true => trivial
      | false =>
          obtain rfl := Option.some.inj htaken
          show ¬ state.reportedOpen
          rw [← htruth]
          simpa [State.told, State.reportedOpen, Attached.new] using hnext
  | disconnect =>
      obtain rfl := Option.some.inj htaken
      show ¬ state.reportedOpen
      rw [← htruth]
      simpa [State.reportedOpen] using hnext
  | stateChange isOpen => trivial
  | waited result =>
      intro hresult
      simp only [Connected.step] at htaken
      cases htransport : state.transport with
      | none =>
          rw [htransport] at htaken
          cases htaken
      | some attached =>
          rw [htransport] at htaken
          simp only at htaken
          split_ifs at htaken
          obtain rfl := Option.some.inj htaken
          have hcleared : (state.told (dispatch result)).connected = false := by
            rw [told_dispatch_connected, if_neg hresult]
          simpa [hcleared, State.reportedOpen, htransport] using hnext
  | unregister => trivial

end Step

/-- **Connected.**  For every sequence of `Connect`, `Disconnect`, state changes of the channel
and ends of connection jobs, `IsConnected` tells the truth in every state reached if and only if
no open transport is deleted, except by a `Connect` whose channel is open, and no failed wait is
reported of an open one. -/
theorem truthful_throughout_iff {schedule : List Action} {final : State}
    (hrun : exec step initial schedule = some final) :
    Throughout step initial schedule Truthful ↔ Meets step KeepsOpen initial schedule :=
  throughout_iff_meets agreeing_initial
    (fun _ hagreeing => hagreeing.truthful)
    (fun _ _ _ hagreeing hkeeps htaken => hagreeing.step hkeeps htaken)
    (fun _ _ _ hagreeing htaken hnext => hagreeing.keepsOpen htaken hnext) hrun

/-- A connection that comes up, goes down and is given up. -/
def upAndDown : List Action :=
  [.connect false, .stateChange true, .waited .none, .stateChange false, .disconnect]

theorem truthful_throughout_iff_upAndDown : Throughout step initial upAndDown Truthful := by
  obtain ⟨final, hrun, _⟩ : ∃ final, exec step initial upAndDown = some final ∧
      decide (final.transport = none) = true :=
    exists_exec_of_any (by decide)
  exact (truthful_throughout_iff hrun).mpr (by decide)

/-- After `Disconnect` of an open connection the accessor still calls itself connected. -/
theorem connected_after_disconnect :
    ¬ Throughout step initial [.connect false, .stateChange true, .disconnect] Truthful := by
  intro htruthful
  obtain ⟨final, hrun, hfacts⟩ : ∃ final,
      exec step initial [.connect false, .stateChange true, .disconnect] = some final ∧
        decide (final.connected = true ∧ ¬ final.reportedOpen) = true :=
    exists_exec_of_any (by decide)
  obtain ⟨hconnected, hgone⟩ := of_decide_eq_true hfacts
  exact hgone ((htruthful.last hrun).mp hconnected)

end FireboltTransport.Connected
