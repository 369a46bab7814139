/-
# Nothing is answered here

An entry of `_pendingQueue` is made for a reply to be signalled to it, or for a
callback that is told of the reply, of its time-out or of its abort.  No operation
makes the second kind, and replies go past the queue to the gateway, so what is left
of this machinery can be said of every run: a wait that returns reports a time-out
and fills nothing, `Timed` finds nothing that expires and schedules nothing, and no
callback is ever made.

A wait that an `Abort` or `Closed` ends does not return at all: it evaluates the
response of an entry that has none.
-/

import FireboltTransport.Transport.References

namespace FireboltTransport.Sections

open Semantics Transport

universe u v

variable {τ : Type u} {κ : Type v}

/-- The result brings nothing: no response and no time to wake up at. -/
def Result.Empty : Result → Prop
  | .response error filled => error = .timedout ∧ filled = none
  | .scheduled time => time = 0
  | .void | .status _ => True

/-- An operation at this stage can bring nothing. -/
def Stage.Empty (codes : CoreErrors) : Stage κ → Prop
  | .enter (.erase _ result filled) | .inside (.erase _ result filled) =>
      result = codes.errorTimedout ∧ filled = none
  | .leave (.finish result) | .outside (.finish result) => result.Empty
  | _ => True

def Phase.Empty (codes : CoreErrors) : Phase τ κ → Prop
  | .running _ _ stage => stage.Empty codes
  | .returned _ _ _ result => result.Empty
  | .idle | .undefined => True

def Outcome.Empty (codes : CoreErrors) : Outcome κ → Prop
  | .goOn stage => stage.Empty codes
  | .return result => result.Empty
  | .undefined => True

/-- The data nothing has been answered in. -/
structure Silent (state : State τ κ) : Prop where
  unanswered : Unanswered state.pendingQueue
  completions : state.completions = []
  scheduledTime : state.scheduledTime = 0

/-- Nothing has been answered, and nothing is going to be. -/
structure NeverAnswered (codes : CoreErrors) (state : State τ κ) : Prop where
  silent : Silent state
  phase : ∀ op, (state.phase op).Empty codes

theorem neverAnswered_initial (codes : CoreErrors) :
    NeverAnswered codes (initial : State τ κ) where
  silent := ⟨by simp [Unanswered, initial], rfl, rfl⟩
  phase _ := trivial

/-! ## The loops -/

section Loops

variable {pending : StdMap MessageID (Node κ)}

/-- `Timed` leaves synchronous entries alone. -/
theorem timedLoop_of_unanswered (hunanswered : Unanswered pending) (currentTime : UInt64)
    (ahead : List MessageID) (result : UInt64) :
    timedLoop currentTime ahead pending result = (pending, result, []) := by
  induction ahead with
  | nil => rfl
  | cons id ahead ih =>
      cases hlookup : pending.lookup id with
      | none => rw [timedLoop_absent hlookup, ih]
      | some node =>
          obtain ⟨signalled, hentry⟩ := hunanswered id node hlookup
          simp only [timedLoop, hlookup, hentry, Entry.expired, Bool.false_eq_true, if_false, ih,
            List.append_nil]

/-- Erasing keeps the rest unanswered. -/
theorem Unanswered.erase (hunanswered : Unanswered pending) (id : MessageID) :
    Unanswered (pending.erase id) :=
  StdMap.forall_lookup_erase id hunanswered

/-- The loop of `Closed` tells nobody. -/
theorem closedLoop_of_unanswered (hunanswered : Unanswered pending) (ahead : List MessageID) :
    (closedLoop ahead pending).2 = [] := by
  induction ahead generalizing pending with
  | nil => rfl
  | cons id ahead ih =>
      cases hlookup : pending.lookup id with
      | none =>
          simp only [closedLoop, hlookup]
          exact ih hunanswered
      | some node =>
          obtain ⟨signalled, hentry⟩ := hunanswered id node hlookup
          simp only [closedLoop, hlookup, hentry, Entry.abort, List.nil_append]
          exact ih (hunanswered.erase id)

end Loops

/-! ## The steps -/

section Run

variable [DecidableEq κ] {codes : CoreErrors} {state after : State τ κ} {op : κ}
  {outcome : Outcome κ}

omit [DecidableEq κ] in
/-- The sections add entries without a response, and erase. -/
theorem body_empty (hsilent : Silent state) {body : Body}
    (hempty : (Stage.inside body : Stage κ).Empty codes) :
    Silent (body.run codes state op).1 ∧ (body.run codes state op).2.Empty codes := by
  have hunanswered := hsilent.unanswered
  cases body with
  | emplace id message answer =>
      simp only [Body.run]
      split
      · refine ⟨⟨?_, hsilent.completions, hsilent.scheduledTime⟩, trivial⟩
        exact StdMap.forall_lookup_insert ⟨false, rfl⟩ hunanswered
      · split_ifs <;> exact ⟨hsilent, trivial⟩
  | find id use =>
      simp only [Body.run]
      split
      · exact ⟨hsilent, trivial⟩
      · cases use <;> exact ⟨hsilent, trivial⟩
  | erase id result filled =>
      obtain ⟨rfl, rfl⟩ := hempty
      refine ⟨⟨hunanswered.erase id, hsilent.completions, hsilent.scheduledTime⟩, ?_, rfl⟩
      exact codes.fireboltErrorValue_errorTimedout
  | revoke eventName => exact ⟨⟨hunanswered, hsilent.completions, hsilent.scheduledTime⟩, trivial⟩
  | sweep currentTime =>
      simp only [Body.run, timedLoop_of_unanswered hunanswered, List.append_nil]
      exact ⟨⟨hunanswered, hsilent.completions, rfl⟩, rfl⟩
  | abortAll =>
      refine ⟨⟨?_, ?_, hsilent.scheduledTime⟩, trivial⟩
      · intro id node hlookup
        have hloop : (closedLoop state.pendingQueue.keys state.pendingQueue).1.lookup id =
            some node := hlookup
        rw [closedLoop_keys] at hloop
        cases hloop
      · show state.completions ++ (closedLoop state.pendingQueue.keys state.pendingQueue).2 = []
        rw [closedLoop_of_unanswered hunanswered, hsilent.completions, List.append_nil]

/-- An entry some operation refers to has no response. -/
theorem Silent.entry_cases (hsilent : Silent state) {id : MessageID} {owner : κ} {entry : Entry}
    (hentry : state.entry id owner = some entry) :
    ∃ signalled, entry = .synchronous signalled [] := by
  have hpresent : state.entry id owner ≠ none := by simp [hentry]
  obtain ⟨_, signalled, _, _, hsynchronous⟩ := hsilent.unanswered.entry_cases hpresent
  exact ⟨signalled, Option.some.inj (hentry.symm.trans hsynchronous)⟩

/-- After the unlock nothing is read, and nobody is told. -/
theorem rest_empty (hsilent : Silent state) {rest : Rest κ}
    (hempty : (Stage.outside rest).Empty codes)
    (hrun : rest.run codes state op = some (after, outcome)) :
    Silent after ∧ outcome.Empty codes := by
  cases rest with
  | submit message =>
      cases hrun
      exact ⟨⟨hsilent.unanswered, hsilent.completions, hsilent.scheduledTime⟩, trivial⟩
  | refuse =>
      cases hrun
      exact ⟨hsilent, trivial⟩
  | wait id owner =>
      simp only [Rest.run] at hrun
      split at hrun
      · split_ifs at hrun
        cases hrun
        exact ⟨hsilent, trivial⟩
      · cases hrun
        exact ⟨hsilent, trivial⟩
  | read id owner =>
      simp only [Rest.run] at hrun
      split at hrun
      · next hentry =>
          obtain ⟨signalled, hsynchronous⟩ := hsilent.entry_cases hentry
          cases hsynchronous
      · cases hrun
        exact ⟨hsilent, trivial⟩
  | abort id owner =>
      simp only [Rest.run] at hrun
      split at hrun
      · next hentry =>
          obtain ⟨signalled, rfl⟩ := hsilent.entry_cases hentry
          cases hrun
          refine ⟨⟨?_, ?_, hsilent.scheduledTime⟩, trivial⟩
          · exact StdMap.forall_lookup_insert ⟨true, rfl⟩ hsilent.unanswered
          · show state.completions ++ [] = []
            rw [hsilent.completions, List.append_nil]
      · cases hrun
        exact ⟨hsilent, trivial⟩
  | notify =>
      cases hrun
      exact ⟨⟨hsilent.unanswered, hsilent.completions, hsilent.scheduledTime⟩, trivial⟩
  | finish result =>
      cases hrun
      exact ⟨hsilent, hempty⟩

/-- A step of one operation. -/
theorem stage_empty [DecidableEq τ] (hsilent : Silent state) {stage : Stage κ} {thread : τ}
    (hempty : stage.Empty codes)
    (hrun : stage.run codes state op thread = some (after, outcome)) :
    Silent after ∧ outcome.Empty codes := by
  cases stage with
  | check id message answer =>
      simp only [Stage.run] at hrun
      split_ifs at hrun <;> cases hrun <;> exact ⟨hsilent, trivial⟩
  | enter body =>
      obtain ⟨held, _, hpair⟩ := Option.map_eq_some_iff.mp hrun
      cases hpair
      refine ⟨⟨hsilent.unanswered, hsilent.completions, hsilent.scheduledTime⟩, ?_⟩
      cases body <;> exact hempty
  | inside body =>
      have hpair := Option.some.inj hrun
      have hbody : Silent (body.run codes state op).1 ∧ (body.run codes state op).2.Empty codes :=
        body_empty hsilent hempty
      rwa [hpair] at hbody
  | leave rest =>
      cases hrun
      refine ⟨⟨hsilent.unanswered, hsilent.completions, hsilent.scheduledTime⟩, ?_⟩
      cases rest <;> exact hempty
  | outside rest => exact rest_empty hsilent hempty hrun

end Run

section Step

variable [DecidableEq κ] {codes : CoreErrors} {parse : Text → Message}
  {state after next : State τ κ} {action : Action τ κ} {op : κ}

/-- An operation that moves to where it brings nothing. -/
theorem NeverAnswered.setPhase (hsilent : Silent after)
    (hphases : ∀ other, (after.phase other).Empty codes) {phase : Phase τ κ}
    (hempty : phase.Empty codes) : NeverAnswered codes (after.setPhase op phase) where
  silent := ⟨hsilent.unanswered, hsilent.completions, hsilent.scheduledTime⟩
  phase := by
    intro other
    by_cases hop : other = op
    · subst hop
      rw [State.setPhase_phase]
      exact hempty
    · rw [State.setPhase_phase_of_ne _ hop]
      exact hphases other

theorem NeverAnswered.proceed (hsilent : Silent after)
    (hphases : ∀ other, (after.phase other).Empty codes) (thread : τ) (entered : ℕ)
    [DecidableEq τ] {outcome : Outcome κ} (hempty : outcome.Empty codes) :
    NeverAnswered codes (after.proceed op thread entered outcome) := by
  cases outcome with
  | goOn stage => exact .setPhase hsilent hphases hempty
  | «return» result =>
      apply NeverAnswered.setPhase
      · exact ⟨hsilent.unanswered, hsilent.completions, hsilent.scheduledTime⟩
      · exact hphases
      · exact hempty
  | undefined => exact .setPhase hsilent hphases trivial

variable [DecidableEq τ]

/-- Every step leaves everything unanswered. -/
theorem NeverAnswered.step (hnever : NeverAnswered codes state)
    (hstep : Step codes parse state action next) : NeverAnswered codes next := by
  have hsilent := hnever.silent
  cases hstep with
  | suspend suspended =>
      exact ⟨⟨hsilent.unanswered, hsilent.completions, hsilent.scheduledTime⟩, hnever.phase⟩
  | start op thread operation stage channel hphase hbusy hfirst =>
      apply NeverAnswered.setPhase
      · exact ⟨hsilent.unanswered, hsilent.completions, hsilent.scheduledTime⟩
      · exact hnever.phase
      · cases operation with
        | invokeAsync method parameters =>
            obtain ⟨current, _, hpair⟩ := Option.map_eq_some_iff.mp hfirst
            cases hpair
            trivial
        | _ =>
            cases hfirst
            trivial
  | startUndefined op thread operation hphase hbusy hfirst =>
      apply NeverAnswered.setPhase
      · exact ⟨hsilent.unanswered, hsilent.completions, hsilent.scheduledTime⟩
      · exact hnever.phase
      · trivial
  | next op thread entered stage after outcome hphase hrun =>
      have hempty := hnever.phase op
      rw [hphase] at hempty
      obtain ⟨hafter, houtcome⟩ := stage_empty hsilent hempty hrun
      apply NeverAnswered.proceed hafter _ thread entered houtcome
      rw [(run_frame hrun).1]
      exact hnever.phase
  | expire op thread entered id owner signalled response hphase hentry =>
      exact .setPhase hsilent hnever.phase ⟨rfl, rfl⟩

end Step

/-- **Nothing is answered here.**  In every run of the operations of a transport, on any threads
and with any arguments, no callback of an entry is ever made and `_scheduledTime` stays zero; a
`WaitForResponse` that returns reports a time-out and leaves its response as it was, and a `Timed`
that returns asks not to be called again. -/
theorem never_answered [DecidableEq τ] [DecidableEq κ] {codes : CoreErrors}
    {parse : Text → Message} {schedule : List (Action τ κ)} {final : State τ κ}
    (hrun : exec (step codes parse) initial schedule = some final) :
    final.completions = [] ∧ final.scheduledTime = 0 ∧
      ∀ op thread entered left,
        (∀ error filled, final.phase op = .returned thread entered left (.response error filled) →
          error = .timedout ∧ filled = none) ∧
        ∀ time, final.phase op = .returned thread entered left (.scheduled time) → time = 0 := by
  have hnever : NeverAnswered codes final :=
    exec_invariant (fun _ _ _ hstate htaken => hstate.step (step_cases htaken))
      (neverAnswered_initial codes) hrun
  refine ⟨hnever.silent.completions, hnever.silent.scheduledTime, ?_⟩
  intro op thread entered left
  have hempty := hnever.phase op
  constructor
  · intro error filled hreturned
    rw [hreturned] at hempty
    exact hempty
  · intro time hreturned
    rw [hreturned] at hempty
    exact hempty

/-- A wait for a call that is pending, and a `Timed` meanwhile. -/
theorem never_answered_timedMeanwhile :
    ∃ final : State Bool ℕ,
      exec (step exampleCodes fun _ => .empty) initial
          (runs 0 false (.invokeAsync [] []) 5 ++ runs 1 false (.waitForResponse 1) 3 ++
            runs 2 true (.timed 1000) 4 ++
            [.expire 1, .next 1, .next 1, .next 1, .next 1]) = some final ∧
        final.phase 1 = .returned false 0 0 (.response .timedout none) ∧
        final.completions = [] := by
  obtain ⟨final, hrun, hfacts⟩ : ∃ final : State Bool ℕ,
      exec (step exampleCodes fun _ => .empty) initial
          (runs 0 false (.invokeAsync [] []) 5 ++ runs 1 false (.waitForResponse 1) 3 ++
            runs 2 true (.timed 1000) 4 ++
            [.expire 1, .next 1, .next 1, .next 1, .next 1]) = some final ∧
        decide (final.phase 1 = .returned false 0 0 (.response .timedout none)) = true :=
    exists_exec_of_any (by decide)
  exact ⟨final, hrun, of_decide_eq_true hfacts, (never_answered hrun).1⟩

end FireboltTransport.Sections
