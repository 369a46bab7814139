/-
# When a recorded outcome is final

Neither `Client::Response` nor the watchdog looks at `ready` before it writes,
and a call stays in the queue until the woken thread erases it.  A second writer
can therefore replace what a call is about to return.  This module says exactly
when that does not happen: every later writer repeats what is recorded.
-/

import FireboltTransport.Gateway.ClientInvariant

namespace FireboltTransport.Client

open Semantics

universe u

variable {ι : Type u}

/-- What a call returns from here on if nobody else writes to its caller and its
`Send` succeeds; `none` while nothing is recorded. -/
def State.pendingOutcome (state : State ι) (call : ι) : Option Outcome :=
  match state.phase call with
  | .inserted | .waiting | .woken | .erased =>
      if (state.caller call).ready then some (state.caller call).outcome else none
  | .checked true => some (.response (state.caller call).response)
  | .checked false => some (.error (state.caller call).error)
  | .returned outcome => some outcome
  | _ => none

/-- An outcome is recorded and the call has still to read it. -/
def State.isUnread (state : State ι) (call : ι) : Bool :=
  match state.phase call with
  | .inserted | .waiting | .woken | .erased => (state.caller call).ready
  | .checked false => true
  | _ => false

/-- The message repeats what the caller records: the same error code, or the same
text, or a text that an error makes irrelevant. -/
def Caller.IsRepeatedBy (caller : Caller) (message : Message) : Prop :=
  if message.error.isSet then caller.error = ⟨message.error.value.code⟩
  else caller.error ≠ .none ∨ caller.response = message.result.value

instance (caller : Caller) (message : Message) : Decidable (caller.IsRepeatedBy message) := by
  unfold Caller.IsRepeatedBy
  infer_instance

/-- The step overwrites no unread outcome with another one. -/
def RepeatsOutcome (state : State ι) : Action ι → Prop
  | .response message => ∀ call ∈ state.queue.lookup message.id.value,
      state.isUnread call = true → (state.caller call).IsRepeatedBy message
  | .mark => ∀ call ∈ state.watchdog.outdated.head?,
      state.isUnread call = true → (state.caller call).error = .timedout
  | _ => True

instance (state : State ι) : ∀ action, Decidable (RepeatsOutcome state action)
  | .response message =>
      match hlookup : state.queue.lookup message.id.value with
      | none => isTrue (by simp [RepeatsOutcome, hlookup])
      | some call =>
          decidable_of_iff
            (state.isUnread call = true → (state.caller call).IsRepeatedBy message)
            (by simp [RepeatsOutcome, hlookup])
  | .mark =>
      match hhead : state.watchdog.outdated.head? with
      | none => isTrue (by simp [RepeatsOutcome, hhead])
      | some call =>
          decidable_of_iff (state.isUnread call = true → (state.caller call).error = .timedout)
            (by simp [RepeatsOutcome, hhead])
  | .setTransport _ | .tick _ | .draw _ | .create _ | .insert _ | .send _ _ | .wake _ | .erase _
  | .check _ | .read _ | .sample | .collect | .sleep => isTrue trivial

/-- A second message leaves the outcome of a caller alone exactly when it repeats it. -/
theorem Caller.complete_outcome_eq_iff (caller : Caller) (message : Message) :
    (caller.complete message).outcome = caller.outcome ↔ caller.IsRepeatedBy message := by
  unfold complete outcome IsRepeatedBy
  cases hset : message.error.isSet with
  | true =>
      by_cases hcode : (⟨message.error.value.code⟩ : Error) = .none
      · by_cases herror : caller.error = .none
        · simp [hcode, herror]
        · simp [hcode, herror]
      · by_cases herror : caller.error = .none
        · simp only [if_true, hcode, herror, if_false, reduceCtorEq, false_iff]
          exact fun h => hcode h.symm
        · simp only [if_true, hcode, herror, if_false, Outcome.error.injEq]
          exact eq_comm
  | false =>
      by_cases herror : caller.error = .none
      · simp only [Bool.false_eq_true, if_false, herror, if_true, Outcome.response.injEq,
          ne_eq, not_true_eq_false, false_or]
        exact eq_comm
      · simp [herror]

/-- A timeout leaves the outcome of a caller alone exactly when it is a timeout already. -/
theorem Caller.timeOut_outcome_eq_iff (caller : Caller) :
    caller.timeOut.outcome = caller.outcome ↔ caller.error = .timedout := by
  unfold outcome
  by_cases herror : caller.error = .none
  · simp [herror, timeOut]
    decide
  · simp only [timeOut_error, Error.timedout_ne_none, if_false, herror, Outcome.error.injEq]
    exact eq_comm

/-- What is recorded for `call` stays what it returns, unless its `Send` fails. -/
def KeepsOutcome (state later : State ι) (call : ι) : Prop :=
  ∀ outcome, state.pendingOutcome call = some outcome →
    later.pendingOutcome call = some outcome ∨ ∃ status, later.phase call = .failed status

/-- A step that touches neither the phase nor the caller of a call keeps its outcome. -/
theorem keepsOutcome_of_eq {state next : State ι} {call : ι}
    (hphase : next.phase call = state.phase call)
    (hcaller : next.caller call = state.caller call) : KeepsOutcome state next call := by
  intro outcome hpending
  left
  simpa only [State.pendingOutcome, hphase, hcaller] using hpending

variable [DecidableEq ι]

/-- From the step that sets `ready` on, no step of the schedule changes what a call returns. -/
def OutcomesFinal (start : State ι) (schedule : List (Action ι)) : Prop :=
  ∀ before between after state later, schedule = before ++ between ++ after →
    exec step start before = some state → exec step state between = some later →
    ∀ call, KeepsOutcome state later call

theorem failed_of_exec {state later : State ι} {schedule : List (Action ι)} {call : ι}
    {status : Error} (hfailed : state.phase call = .failed status)
    (hrun : exec step state schedule = some later) : later.phase call = .failed status :=
  exec_invariant (motive := fun state => state.phase call = .failed status)
    (fun _ _ _ hprior htaken => failed_step (step_cases htaken) hprior) hfailed hrun

section Step

variable {state next : State ι} {action : Action ι}

/-- Writing to the caller of a queued call keeps its outcome exactly when, unless the
outcome is irrelevant, the caller records the same one as before. -/
theorem keepsOutcome_setCaller (state : State ι) (call : ι) (caller : Caller)
    (hready : caller.ready = true) (hqueued : (state.phase call).isQueued = true) :
    KeepsOutcome state (state.setCaller call caller) call ↔
      (state.isUnread call = true → caller.outcome = (state.caller call).outcome) := by
  cases hphase : state.phase call <;>
    simp_all [KeepsOutcome, State.pendingOutcome, State.isUnread, State.setCaller,
      Phase.isQueued]

/-- The same for the watchdog, whose callers may have read part of the outcome already. -/
theorem keepsOutcome_timeOut (state : State ι) (call : ι)
    (hpast : (state.phase call).isBefore = false) :
    KeepsOutcome state (state.setCaller call (state.caller call).timeOut) call ↔
      (state.isUnread call = true → (state.caller call).error = .timedout) := by
  have houtcome := (state.caller call).timeOut_outcome_eq_iff
  cases hphase : state.phase call with
  | idle | drawn id | created | notConnected => simp [hphase, Phase.isBefore] at hpast
  | inserted | waiting | woken | erased =>
      simp [KeepsOutcome, State.pendingOutcome, State.isUnread, State.setCaller, hphase, houtcome]
  | checked succeeded =>
      cases succeeded with
      | true => simp [KeepsOutcome, State.pendingOutcome, State.isUnread, State.setCaller, hphase]
      | false =>
          simp only [KeepsOutcome, State.pendingOutcome, State.isUnread, State.setCaller, hphase,
            Function.update_self, Caller.timeOut_error, Option.some.injEq, forall_eq',
            Outcome.error.injEq, reduceCtorEq, exists_false, or_false, true_implies]
          exact eq_comm
  | failed status | returned outcome =>
      simp [KeepsOutcome, State.pendingOutcome, State.isUnread, State.setCaller, hphase]

/-- The steps of a call itself never change its recorded outcome. -/
theorem keepsOutcome_of_quiet (hstep : Step state action next)
    (hresponse : ∀ message, action ≠ .response message) (hmark : action ≠ .mark) (call : ι) :
    KeepsOutcome state next call := by
  cases hstep with
  | refuse actor hphase | draw actor channel hphase | create actor drawnId hphase
  | insert actor hphase =>
      by_cases hcall : call = actor
      · subst hcall
        intro outcome hpending
        simp [State.pendingOutcome, hphase] at hpending
      · apply keepsOutcome_of_eq <;> simp [State.setPhase, State.setCaller, hcall]
  | sendFailed actor result hphase =>
      by_cases hcall : call = actor
      · subst hcall
        exact fun outcome _ => .inr ⟨result, by simp [State.setPhase]⟩
      · apply keepsOutcome_of_eq <;> simp [State.setPhase, hcall]
  | send actor hphase | wake actor hphase | erase actor hphase =>
      by_cases hcall : call = actor
      · subst hcall
        intro outcome hpending
        left
        rw [← hpending]
        simp only [State.pendingOutcome, State.setPhase, Function.update_self, hphase]
        rfl
      · apply keepsOutcome_of_eq <;> simp [State.setPhase, hcall]
  | readResponse actor hphase | readError actor hphase =>
      by_cases hcall : call = actor
      · subst hcall
        intro outcome hpending
        left
        simpa [State.pendingOutcome, State.setPhase, hphase] using hpending
      · apply keepsOutcome_of_eq <;> simp [State.setPhase, hcall]
  | check actor hphase =>
      by_cases hcall : call = actor
      · subst hcall
        intro outcome hpending
        left
        by_cases herror : (state.caller call).error = .none
        · simp [State.pendingOutcome, State.setPhase, hphase, herror, Caller.outcome] at hpending ⊢
          exact hpending.2
        · simp [State.pendingOutcome, State.setPhase, hphase, herror, Caller.outcome] at hpending ⊢
          exact hpending.2
      · apply keepsOutcome_of_eq <;> simp [State.setPhase, hcall]
  | ignore message hqueue => exact absurd rfl (hresponse message)
  | response message receiver hqueue hphase => exact absurd rfl (hresponse message)
  | mark marked rest hwatchdog hphase => exact absurd rfl hmark
  | _ => exact keepsOutcome_of_eq rfl rfl

/-- **One step.**  A step keeps every outcome exactly when it repeats the unread one
it writes to. -/
theorem repeatsOutcome_iff (hwf : WellFormed state) (hstep : Step state action next) :
    RepeatsOutcome state action ↔ ∀ call, KeepsOutcome state next call := by
  have hquiet := keepsOutcome_of_quiet hstep
  cases hstep with
  | ignore message hqueue =>
      simp only [RepeatsOutcome, hqueue, Option.mem_def, reduceCtorEq, false_implies, implies_true,
        true_iff]
      exact fun call => keepsOutcome_of_eq rfl rfl
  | response message receiver hqueue hphase =>
      have hreceiver := keepsOutcome_setCaller state receiver
        ((state.caller receiver).complete message) (Caller.complete_ready _ _)
        (hwf.queued_phase _ _ hqueue)
      rw [Caller.complete_outcome_eq_iff] at hreceiver
      simp only [RepeatsOutcome, hqueue, Option.mem_def, Option.some.injEq, forall_eq']
      rw [← hreceiver]
      constructor
      · intro hkeeps call
        by_cases hcall : call = receiver
        · subst hcall
          exact hkeeps
        · apply keepsOutcome_of_eq <;> simp [State.setCaller, hcall]
      · exact fun hall => hall receiver
  | mark marked rest hwatchdog hphase =>
      have hmarked := keepsOutcome_timeOut state marked
        (hwf.outdated_phase marked (by simp [hwatchdog, Watchdog.outdated]))
      simp only [RepeatsOutcome, hwatchdog, Watchdog.outdated, List.head?_cons, Option.mem_def,
        Option.some.injEq, forall_eq']
      rw [← hmarked]
      constructor
      · intro hkeeps call
        by_cases hcall : call = marked
        · subst hcall
          exact hkeeps
        · apply keepsOutcome_of_eq <;> simp [State.setCaller, hcall]
      · exact fun hall => hall marked
  | _ =>
      simp only [RepeatsOutcome, true_iff]
      exact hquiet (by simp) (by simp)

end Step

/-- A kept outcome survives whatever the rest of the schedule keeps. -/
theorem KeepsOutcome.exec {state next later : State ι} {call : ι} {schedule : List (Action ι)}
    (hfirst : KeepsOutcome state next call) (hrest : KeepsOutcome next later call)
    (hrun : exec step next schedule = some later) : KeepsOutcome state later call := by
  intro outcome hpending
  rcases hfirst outcome hpending with hnext | ⟨status, hfailed⟩
  · exact hrest outcome hnext
  · exact .inr ⟨status, failed_of_exec hfailed hrun⟩

theorem keepsOutcome_of_meets {state later : State ι} {schedule : List (Action ι)}
    (hwf : WellFormed state) (hmeets : Meets step RepeatsOutcome state schedule)
    (hrun : exec step state schedule = some later) (call : ι) : KeepsOutcome state later call := by
  induction schedule generalizing state with
  | nil =>
      obtain rfl : state = later := by simpa using hrun
      exact keepsOutcome_of_eq rfl rfl
  | cons action rest ih =>
      obtain ⟨next, htaken, hrest⟩ := exec_cons_eq_some.mp hrun
      obtain ⟨hrepeats, hmeets⟩ := (meets_cons_of_step htaken).mp hmeets
      have hstep := step_cases htaken
      have hfirst := (repeatsOutcome_iff hwf hstep).mp hrepeats call
      exact hfirst.exec (ih (hwf.step hstep) hmeets hrest) hrest

/-- **A recorded outcome is final exactly when every later writer repeats it.**  In a
schedule from the start of a client no step changes what a call returns, once its
`ready` flag is set, if and only if each reply that reaches an unread outcome repeats
it and the watchdog marks an unread outcome only when it is a timeout already. -/
theorem outcomes_final_iff {transport : Option Channel} {clock : Timestamp}
    {schedule : List (Action ι)} {final : State ι}
    (hrun : exec step (initial transport clock) schedule = some final) :
    OutcomesFinal (initial transport clock) schedule ↔
      Meets step RepeatsOutcome (initial transport clock) schedule := by
  have hstart : WellFormed (initial transport clock : State ι) := wellFormed_initial transport clock
  constructor
  · intro hfinal
    apply meets_of_forall_taken hrun
    rintro before action after state next rfl hbefore htaken
    rw [repeatsOutcome_iff (hstart.exec hbefore) (step_cases htaken)]
    exact hfinal before [action] after state next (by simp) hbefore (by simp [htaken])
  · rintro hmeets before between after state later rfl hbefore hbetween call
    rw [List.append_assoc, meets_append hbefore, meets_append hbetween] at hmeets
    exact keepsOutcome_of_meets (hstart.exec hbefore) hmeets.2.1 hbetween call

/-- A call whose reply arrives three seconds after it was sent. -/
def answeredLate (call : ι) : List (Action ι) :=
  [.draw call, .create call, .insert call, .send call .none, .tick ⟨4000000000, by decide⟩,
    .response (.reply 1 ['o', 'k'])]

/-- The reply comes again before the caller has woken up, and the watchdog sweeps after. -/
def repliedAgain (call : ι) : List (Action ι) :=
  answeredLate call ++ [.response (.reply 1 ['o', 'k'])] ++
    [.wake call, .erase call, .check call, .read call, .sample, .collect, .sleep]

theorem outcomes_final_iff_repliedAgain :
    ∃ final, exec step (initial (some .new) .zero) (repliedAgain (0 : Fin 1)) = some final ∧
      final.phase 0 = .returned (.response ['o', 'k']) ∧
      OutcomesFinal (initial (some .new) .zero) (repliedAgain (0 : Fin 1)) := by
  obtain ⟨final, hrun, hphase⟩ : ∃ final : State (Fin 1),
      exec step (initial (some .new) .zero) (repliedAgain 0) = some final ∧
        decide (final.phase 0 = .returned (.response ['o', 'k'])) = true :=
    exists_exec_of_any (by decide)
  have hrepeats : Meets step RepeatsOutcome (initial (some .new) .zero)
      (repliedAgain (0 : Fin 1)) := by
    decide
  exact ⟨final, hrun, of_decide_eq_true hphase, (outcomes_final_iff hrun).mpr hrepeats⟩

/-- The watchdog sweeps before the caller has woken up. -/
def sweptBeforeWaking (call : ι) : List (Action ι) :=
  answeredLate call ++ [.sample, .collect, .mark] ++
    [.wake call, .erase call, .check call, .read call]

/-- The delivered reply is turned into a timeout, which the call returns. -/
theorem outcome_lost_to_sweep :
    (∃ final, exec step (initial (some .new) .zero) (sweptBeforeWaking (0 : Fin 1)) = some final ∧
      final.phase 0 = .returned (.error .timedout)) ∧
      ¬ OutcomesFinal (initial (some .new) .zero) (sweptBeforeWaking (0 : Fin 1)) := by
  constructor
  · obtain ⟨final, hrun, hphase⟩ : ∃ final : State (Fin 1),
        exec step (initial (some .new) .zero) (sweptBeforeWaking (0 : Fin 1)) = some final ∧
          decide (final.phase 0 = .returned (.error .timedout)) = true :=
      exists_exec_of_any (by decide)
    exact ⟨final, hrun, of_decide_eq_true hphase⟩
  · intro hfinal
    obtain ⟨swept, hswept, htimedout⟩ : ∃ swept : State (Fin 1),
        exec step (initial (some .new) .zero) (answeredLate 0 ++ [.sample, .collect, .mark]) =
          some swept ∧ decide (swept.pendingOutcome 0 = some (.error .timedout) ∧
            swept.phase 0 = .waiting) = true :=
      exists_exec_of_any (by decide)
    obtain ⟨answered, hanswered, hsweep⟩ := exec_append_eq_some.mp hswept
    have hrecorded : (exec step (initial (some .new) .zero) (answeredLate 0)).any
        (fun state : State (Fin 1) =>
          decide (state.pendingOutcome 0 = some (.response ['o', 'k']))) = true := by
      decide
    have hreply := check_of_exec hrecorded hanswered
    simp only [decide_eq_true_eq] at hreply
    obtain ⟨hpending, hphase⟩ := of_decide_eq_true htimedout
    rcases hfinal _ _ _ _ _ rfl hanswered hsweep 0 _ hreply with
      hkept | ⟨status, hfailed⟩
    · rw [hpending] at hkept
      cases hkept
    · rw [hphase] at hfailed
      cases hfailed

end FireboltTransport.Client
