/-
# Request/reply correlation

A call returns what its own `Send` reported, a timeout after a sweep collected
it, or the content of a reply that carried its identifier and was processed
while the queue listed it.  The proof follows the recorded error and text of
every `Caller` back to the step that wrote them; nothing is assumed about the
order of the actors, repeated replies included.

Identifiers need not be distinct for these facts, since a call is only ever
filed under its own identifier.
-/

import FireboltTransport.Gateway.ClientInvariant

namespace FireboltTransport.Client

open Semantics

universe u

variable {ι : Type u} [DecidableEq ι]

/-! ## Events of the past -/

/-- The reply was processed while the queue listed `call` under its identifier. -/
def Delivered (start : State ι) (schedule : List (Action ι)) (call : ι) (message : Message) :
    Prop :=
  Happened step start schedule fun state action =>
    action = .response message ∧ state.queue.lookup message.id.value = some call

/-- A sweep took `call` out of the queue as overdue. -/
def Collected (start : State ι) (schedule : List (Action ι)) (call : ι) : Prop :=
  Happened step start schedule fun state action =>
    action = .collect ∧ ∃ now id, state.watchdog = .sampled now ∧
      state.queue.lookup id = some call ∧ state.expired now call = true

/-- `Send` returned `result` to `call`. -/
def SendReturned (start : State ι) (schedule : List (Action ι)) (call : ι) (result : Error) :
    Prop :=
  Happened step start schedule fun _ action => action = .send call result

/-- An error of `call`: a timeout of this very call or the code of a reply to it. -/
def ErrorExplained (start : State ι) (schedule : List (Action ι)) (call : ι) (id : MessageID)
    (status : Error) : Prop :=
  (status = .timedout ∧ Collected start schedule call) ∨
    ∃ message, Delivered start schedule call message ∧ message.id.value = id ∧
      message.error.isSet = true ∧ status = ⟨message.error.value.code⟩

/-- A text of `call`: the result of a reply to it. -/
def TextExplained (start : State ι) (schedule : List (Action ι)) (call : ι) (id : MessageID)
    (text : Text) : Prop :=
  ∃ message, Delivered start schedule call message ∧ message.id.value = id ∧
    message.error.isSet = false ∧ text = message.result.value

/-- An error reply carries a code other than zero. -/
def Action.codeNonzero : Action ι → Bool
  | .response message => !message.error.isSet || message.error.value.code != 0
  | _ => true

/-- Every error reply of the schedule carries a code other than zero. -/
def ErrorCodesNonzero (schedule : List (Action ι)) : Prop :=
  ∀ action ∈ schedule, action.codeNonzero = true

instance (schedule : List (Action ι)) : Decidable (ErrorCodesNonzero schedule) :=
  inferInstanceAs (Decidable (∀ action ∈ schedule, action.codeNonzero = true))

section Past

variable {start state next : State ι} {schedule : List (Action ι)} {action : Action ι} {call : ι}
  {id : MessageID}

theorem ErrorExplained.append {status : Error}
    (hpast : ErrorExplained start schedule call id status) (more : List (Action ι)) :
    ErrorExplained start (schedule ++ more) call id status := by
  rcases hpast with ⟨hstatus, hcollected⟩ | ⟨message, hdelivered, hrest⟩
  · exact .inl ⟨hstatus, Happened.append hcollected more⟩
  · exact .inr ⟨message, Happened.append hdelivered more, hrest⟩

theorem TextExplained.append {text : Text} (hpast : TextExplained start schedule call id text)
    (more : List (Action ι)) : TextExplained start (schedule ++ more) call id text := by
  obtain ⟨message, hdelivered, hrest⟩ := hpast
  exact ⟨message, Happened.append hdelivered more, hrest⟩

end Past

/-! ## The recorded outcome and its history -/

/-- Every recorded or returned outcome is explained by the schedule. -/
structure History (start : State ι) (schedule : List (Action ι)) (state : State ι) : Prop where
  outdated : ∀ call ∈ state.watchdog.outdated, Collected start schedule call
  error : ∀ call, (state.caller call).error ≠ .none →
    ErrorExplained start schedule call (state.caller call).id (state.caller call).error
  response : ∀ call, (state.caller call).ready = true → (state.caller call).error = .none →
    TextExplained start schedule call (state.caller call).id (state.caller call).response
  awake : ∀ call, state.phase call = .woken ∨ state.phase call = .erased →
    (state.caller call).ready = true
  checkedResponse : ∀ call, state.phase call = .checked true →
    TextExplained start schedule call (state.caller call).id (state.caller call).response
  checkedError : ∀ call, state.phase call = .checked false → (state.caller call).error ≠ .none
  failed : ∀ call status, state.phase call = .failed status →
    SendReturned start schedule call status
  returnedError : ∀ call status, state.phase call = .returned (.error status) →
    ErrorExplained start schedule call (state.caller call).id status
  returnedResponse : ∀ call text, state.phase call = .returned (.response text) →
    TextExplained start schedule call (state.caller call).id text

theorem history_initial (transport : Option Channel) (clock : Timestamp) :
    History (initial transport clock : State ι) [] (initial transport clock) where
  outdated := by simp [initial, Watchdog.outdated]
  error := by simp [initial, Caller.new]
  response := by simp [initial, Caller.new]
  awake := by simp [initial]
  checkedResponse := by simp [initial]
  checkedError := by simp [initial]
  failed := by simp [initial]
  returnedError := by simp [initial]
  returnedResponse := by simp [initial]

section Step

variable {start state next : State ι} {schedule : List (Action ι)} {action : Action ι}

theorem outdated_history_step (hrun : exec step start schedule = some state)
    (hhistory : History start schedule state) (hstep : Step state action next) :
    ∀ call ∈ next.watchdog.outdated, Collected start (schedule ++ [action]) call := by
  intro call hmem
  rcases outdated_step hstep hmem with hbefore | ⟨now, id, hwatchdog, rfl, hlookup, hexpired⟩
  · exact Happened.append (hhistory.outdated call hbefore) [action]
  · exact happened_snoc hrun ⟨rfl, now, id, hwatchdog, hlookup, hexpired⟩

theorem error_history_step (hrun : exec step start schedule = some state)
    (hwf : WellFormed state) (hhistory : History start schedule state)
    (hstep : Step state action next) :
    ∀ call, (next.caller call).error ≠ .none →
      ErrorExplained start (schedule ++ [action]) call (next.caller call).id
        (next.caller call).error := by
  intro call herror
  cases hstep with
  | create created drawnId hphase =>
      by_cases hcall : call = created
      · subst hcall
        simp [State.setPhase, State.setCaller, Caller.new] at herror
      · simp only [State.setPhase, State.setCaller, Function.update_of_ne hcall] at herror ⊢
        exact (hhistory.error call herror).append _
  | response message receiver hqueue hphase =>
      by_cases hcall : call = receiver
      · subst hcall
        simp only [State.setCaller, Function.update_self, Caller.complete_id] at herror ⊢
        cases hset : message.error.isSet with
        | true =>
            -- The reply's code replaces whatever was recorded.
            refine .inr ⟨message, happened_snoc hrun ⟨rfl, hqueue⟩, ?_, hset, ?_⟩
            · exact (hwf.queued_id _ _ hqueue).symm
            · simp [Caller.complete, hset]
        | false =>
            simp only [Caller.complete, hset] at herror ⊢
            exact (hhistory.error call herror).append _
      · simp only [State.setCaller, Function.update_of_ne hcall] at herror ⊢
        exact (hhistory.error call herror).append _
  | mark marked rest hwatchdog hphase =>
      by_cases hcall : call = marked
      · subst hcall
        simp only [State.setCaller, Function.update_self, Caller.timeOut_id, Caller.timeOut_error]
        have hcollected := hhistory.outdated call (by simp [hwatchdog, Watchdog.outdated])
        exact .inl ⟨rfl, Happened.append hcollected _⟩
      · simp only [State.setCaller, Function.update_of_ne hcall] at herror ⊢
        exact (hhistory.error call herror).append _
  | _ => exact (hhistory.error call herror).append _

theorem response_history_step (hrun : exec step start schedule = some state)
    (hwf : WellFormed state) (hhistory : History start schedule state)
    (hcodes : ErrorCodesNonzero [action]) (hstep : Step state action next) :
    ∀ call, (next.caller call).ready = true → (next.caller call).error = .none →
      TextExplained start (schedule ++ [action]) call (next.caller call).id
        (next.caller call).response := by
  intro call hready herror
  cases hstep with
  | create created drawnId hphase =>
      by_cases hcall : call = created
      · subst hcall
        simp [State.setPhase, State.setCaller, Caller.new] at hready
      · simp only [State.setPhase, State.setCaller, Function.update_of_ne hcall] at hready herror ⊢
        exact (hhistory.response call hready herror).append _
  | response message receiver hqueue hphase =>
      by_cases hcall : call = receiver
      · subst hcall
        simp only [State.setCaller, Function.update_self, Caller.complete_id] at herror ⊢
        cases hset : message.error.isSet with
        | true =>
            have hcode : message.error.value.code ≠ 0 := by
              simpa [ErrorCodesNonzero, Action.codeNonzero, hset] using hcodes
            simp only [Caller.complete, hset, if_true] at herror
            exact absurd herror (Error.mk_ne_none hcode)
        | false =>
            refine ⟨message, happened_snoc hrun ⟨rfl, hqueue⟩, ?_, hset, ?_⟩
            · exact (hwf.queued_id _ _ hqueue).symm
            · simp [Caller.complete, hset]
      · simp only [State.setCaller, Function.update_of_ne hcall] at hready herror ⊢
        exact (hhistory.response call hready herror).append _
  | mark marked rest hwatchdog hphase =>
      by_cases hcall : call = marked
      · subst hcall
        simp [State.setCaller] at herror
      · simp only [State.setCaller, Function.update_of_ne hcall] at hready herror ⊢
        exact (hhistory.response call hready herror).append _
  | _ => exact (hhistory.response call hready herror).append _

theorem awake_history_step (hhistory : History start schedule state)
    (hstep : Step state action next) :
    ∀ call, next.phase call = .woken ∨ next.phase call = .erased →
      (next.caller call).ready = true := by
  intro call hphase
  have hprior : (state.caller call).ready = true ∧ ∀ id, state.phase call ≠ .drawn id := by
    cases hstep with
    | refuse actor hactor | draw actor channel hactor | create actor drawnId hactor
    | insert actor hactor | send actor hactor | sendFailed actor result hactor
    | check actor hactor | readResponse actor hactor | readError actor hactor =>
        have hne : call ≠ actor := by
          rintro rfl
          simp [State.setPhase] at hphase
        simp only [State.setPhase, State.setCaller, Function.update_of_ne hne] at hphase
        refine ⟨hhistory.awake call hphase, fun id hdrawn => ?_⟩
        simp [hdrawn] at hphase
    | wake actor hactor hready =>
        by_cases hcall : call = actor
        · subst hcall
          exact ⟨hready, fun id hdrawn => by simp [hactor] at hdrawn⟩
        · simp only [State.setPhase, Function.update_of_ne hcall] at hphase
          refine ⟨hhistory.awake call hphase, fun id hdrawn => ?_⟩
          simp [hdrawn] at hphase
    | erase actor hactor =>
        by_cases hcall : call = actor
        · subst hcall
          exact ⟨hhistory.awake call (.inl hactor), fun id hdrawn => by simp [hactor] at hdrawn⟩
        · simp only [State.setPhase, Function.update_of_ne hcall] at hphase
          refine ⟨hhistory.awake call hphase, fun id hdrawn => ?_⟩
          simp [hdrawn] at hphase
    | _ =>
        refine ⟨hhistory.awake call hphase, fun id hdrawn => ?_⟩
        simp_all [State.setCaller]
  exact ready_step hstep hprior.2 hprior.1

/-- A call that has looked at what is recorded did so before, and only a timeout may have been
recorded since; or it does so now. -/
theorem checked_step (hwf : WellFormed state) (hstep : Step state action next) {call : ι}
    {succeeded : Bool} (hphase : next.phase call = .checked succeeded) :
    (state.phase call = .checked succeeded ∧ (next.caller call = state.caller call ∨
        next.caller call = (state.caller call).timeOut)) ∨
      (state.phase call = .erased ∧ next.caller call = state.caller call ∧
        succeeded = decide ((state.caller call).error = .none)) := by
  cases hstep with
  | refuse actor hactor | draw actor channel hactor | insert actor hactor | send actor hactor
  | sendFailed actor result hactor | wake actor hactor hready | erase actor hactor
  | readResponse actor hactor | readError actor hactor =>
      have hne : call ≠ actor := by
        rintro rfl
        simp [State.setPhase] at hphase
      simp only [State.setPhase, Function.update_of_ne hne] at hphase
      exact .inl ⟨hphase, .inl rfl⟩
  | create actor drawnId hactor =>
      have hne : call ≠ actor := by
        rintro rfl
        simp [State.setPhase] at hphase
      simp only [State.setPhase, Function.update_of_ne hne] at hphase
      exact .inl ⟨hphase, .inl (Function.update_of_ne hne _ _)⟩
  | check actor hactor =>
      by_cases hcall : call = actor
      · subst hcall
        have hsucceeded : decide ((state.caller call).error = .none) = succeeded := by
          simpa [State.setPhase] using hphase
        exact .inr ⟨hactor, rfl, hsucceeded.symm⟩
      · simp only [State.setPhase, Function.update_of_ne hcall] at hphase
        exact .inl ⟨hphase, .inl rfl⟩
  | response message receiver hqueue hwoken =>
      -- A call that has erased its entry receives nothing more.
      have hne : call ≠ receiver := by
        rintro rfl
        have hqueued := hwf.queued_phase _ _ hqueue
        simp only [State.setCaller] at hphase
        simp [hphase, Phase.isQueued] at hqueued
      exact .inl ⟨hphase, .inl (Function.update_of_ne hne _ _)⟩
  | mark marked rest hwatchdog hwoken =>
      by_cases hcall : call = marked
      · subst hcall
        exact .inl ⟨hphase, .inr (Function.update_self _ _ _)⟩
      · exact .inl ⟨hphase, .inl (Function.update_of_ne hcall _ _)⟩
  | _ => exact .inl ⟨hphase, .inl rfl⟩

/-- The text a call has decided to return is the result of a reply to it. -/
theorem checkedResponse_history_step (hwf : WellFormed state)
    (hhistory : History start schedule state) (hstep : Step state action next) :
    ∀ call, next.phase call = .checked true →
      TextExplained start (schedule ++ [action]) call (next.caller call).id
        (next.caller call).response := by
  intro call hphase
  rcases checked_step hwf hstep hphase with ⟨hbefore, hsame | htimeOut⟩ | ⟨herased, hsame, herror⟩
  · rw [hsame]
    exact (hhistory.checkedResponse call hbefore).append _
  · rw [htimeOut, Caller.timeOut_id, Caller.timeOut_response]
    exact (hhistory.checkedResponse call hbefore).append _
  · rw [hsame]
    have hready := hhistory.awake call (.inr herased)
    exact (hhistory.response call hready (of_decide_eq_true herror.symm)).append _

theorem checkedError_history_step (hwf : WellFormed state)
    (hhistory : History start schedule state) (hstep : Step state action next) :
    ∀ call, next.phase call = .checked false → (next.caller call).error ≠ .none := by
  intro call hphase
  rcases checked_step hwf hstep hphase with ⟨hbefore, hsame | htimeOut⟩ | ⟨-, hsame, herror⟩
  · rw [hsame]
    exact hhistory.checkedError call hbefore
  · rw [htimeOut, Caller.timeOut_error]
    exact Error.timedout_ne_none
  · rw [hsame]
    exact of_decide_eq_false herror.symm

/-- A call that has returned took its last step before, or takes it now. -/
theorem failed_history_step (hrun : exec step start schedule = some state)
    (hhistory : History start schedule state) (hstep : Step state action next) :
    ∀ call status, next.phase call = .failed status →
      SendReturned start (schedule ++ [action]) call status := by
  intro call status hphase
  cases hstep with
  | refuse actor hactor | draw actor channel hactor | create actor drawnId hactor
  | insert actor hactor | send actor hactor | wake actor hactor hready | erase actor hactor
  | check actor hactor | readResponse actor hactor | readError actor hactor =>
      have hne : call ≠ actor := by
        rintro rfl
        simp [State.setPhase] at hphase
      simp only [State.setPhase, State.setCaller, Function.update_of_ne hne] at hphase
      exact Happened.append (hhistory.failed call status hphase) _
  | sendFailed actor result hactor hresult =>
      by_cases hcall : call = actor
      · subst hcall
        obtain rfl : result = status := by simpa [State.setPhase] using hphase
        exact happened_snoc hrun rfl
      · simp only [State.setPhase, Function.update_of_ne hcall] at hphase
        exact Happened.append (hhistory.failed call status hphase) _
  | _ => exact Happened.append (hhistory.failed call status hphase) _

theorem returnedError_history_step (hhistory : History start schedule state)
    (hstep : Step state action next) :
    ∀ call status, next.phase call = .returned (.error status) →
      ErrorExplained start (schedule ++ [action]) call (next.caller call).id status := by
  intro call status hphase
  cases hstep with
  | refuse actor hactor | draw actor channel hactor | create actor drawnId hactor
  | insert actor hactor | send actor hactor | sendFailed actor result hactor
  | wake actor hactor hready | erase actor hactor | check actor hactor
  | readResponse actor hactor =>
      have hne : call ≠ actor := by
        rintro rfl
        simp [State.setPhase] at hphase
      simp only [State.setPhase, State.setCaller, Function.update_of_ne hne] at hphase ⊢
      exact (hhistory.returnedError call status hphase).append _
  | readError actor hactor =>
      by_cases hcall : call = actor
      · subst hcall
        obtain rfl : (state.caller call).error = status := by simpa [State.setPhase] using hphase
        exact (hhistory.error call (hhistory.checkedError call hactor)).append _
      · simp only [State.setPhase, Function.update_of_ne hcall] at hphase ⊢
        exact (hhistory.returnedError call status hphase).append _
  | response message receiver hqueue hwoken =>
      simp only [State.setCaller_complete_id]
      exact (hhistory.returnedError call status hphase).append _
  | mark marked rest hwatchdog hwoken =>
      simp only [State.setCaller_timeOut_id]
      exact (hhistory.returnedError call status hphase).append _
  | _ => exact (hhistory.returnedError call status hphase).append _

theorem returnedResponse_history_step (hhistory : History start schedule state)
    (hstep : Step state action next) :
    ∀ call text, next.phase call = .returned (.response text) →
      TextExplained start (schedule ++ [action]) call (next.caller call).id text := by
  intro call text hphase
  cases hstep with
  | refuse actor hactor | draw actor channel hactor | create actor drawnId hactor
  | insert actor hactor | send actor hactor | sendFailed actor result hactor
  | wake actor hactor hready | erase actor hactor | check actor hactor
  | readError actor hactor =>
      have hne : call ≠ actor := by
        rintro rfl
        simp [State.setPhase] at hphase
      simp only [State.setPhase, State.setCaller, Function.update_of_ne hne] at hphase ⊢
      exact (hhistory.returnedResponse call text hphase).append _
  | readResponse actor hactor =>
      by_cases hcall : call = actor
      · subst hcall
        obtain rfl : (state.caller call).response = text := by
          simpa [State.setPhase] using hphase
        exact (hhistory.checkedResponse call hactor).append _
      · simp only [State.setPhase, Function.update_of_ne hcall] at hphase ⊢
        exact (hhistory.returnedResponse call text hphase).append _
  | response message receiver hqueue hwoken =>
      simp only [State.setCaller_complete_id]
      exact (hhistory.returnedResponse call text hphase).append _
  | mark marked rest hwatchdog hwoken =>
      simp only [State.setCaller_timeOut_id]
      exact (hhistory.returnedResponse call text hphase).append _
  | _ => exact (hhistory.returnedResponse call text hphase).append _

/-- Every step keeps the record of the past. -/
theorem History.step (hrun : exec step start schedule = some state) (hwf : WellFormed state)
    (hhistory : History start schedule state) (hcodes : ErrorCodesNonzero [action])
    (hstep : Step state action next) : History start (schedule ++ [action]) next where
  outdated := outdated_history_step hrun hhistory hstep
  error := error_history_step hrun hwf hhistory hstep
  response := response_history_step hrun hwf hhistory hcodes hstep
  awake := awake_history_step hhistory hstep
  checkedResponse := checkedResponse_history_step hwf hhistory hstep
  checkedError := checkedError_history_step hwf hhistory hstep
  failed := failed_history_step hrun hhistory hstep
  returnedError := returnedError_history_step hhistory hstep
  returnedResponse := returnedResponse_history_step hhistory hstep

end Step

/-- The record of the past after any schedule from the start of a client. -/
theorem history_of_exec {transport : Option Channel} {clock : Timestamp}
    {schedule : List (Action ι)} {final : State ι}
    (hrun : exec step (initial transport clock) schedule = some final)
    (hcodes : ErrorCodesNonzero schedule) : History (initial transport clock) schedule final := by
  revert hcodes
  refine exec_history (motive := fun schedule state =>
    ErrorCodesNonzero schedule → History (initial transport clock) schedule state)
    (fun _ => history_initial transport clock) ?_ hrun
  intro prior state action next hprior ih htaken hcodes
  have hwf : WellFormed state := (wellFormed_initial transport clock).exec hprior
  have hbefore : ErrorCodesNonzero prior := fun other hmem =>
    hcodes other (List.mem_append_left _ hmem)
  have hlast : ErrorCodesNonzero [action] := fun other hmem =>
    hcodes other (List.mem_append_right _ hmem)
  exact History.step hprior hwf (ih hbefore) hlast (step_cases htaken)

/-- A call that is past its construction and ready stays so. -/
theorem ready_of_exec {state later : State ι} {call : ι} {schedule : List (Action ι)}
    (hpast : (state.phase call).isBefore = false) (hready : (state.caller call).ready = true)
    (hrun : exec step state schedule = some later) : (later.caller call).ready = true := by
  have hboth : (later.phase call).isBefore = false ∧ (later.caller call).ready = true := by
    refine exec_invariant (motive := fun state =>
      (state.phase call).isBefore = false ∧ (state.caller call).ready = true) ?_
      ⟨hpast, hready⟩ hrun
    intro before action after hbefore htaken
    have hstep := step_cases htaken
    refine ⟨isBefore_step hstep hbefore.1, ready_step hstep (fun id hdrawn => ?_) hbefore.2⟩
    simp [hdrawn, Phase.isBefore] at hbefore
  exact hboth.2

/-- **Request/reply correlation.**  In every schedule of calls, replies and sweeps, a
call that returns after drawing an identifier returns the error of its own `Send`,
or `Timedout` after a sweep collected it, or the code or the text of a reply that
carried its identifier and was processed while the queue listed it.  Conversely a
reply processed while its call is in the queue makes that call ready for good. -/
theorem request_correlation {transport : Option Channel} {clock : Timestamp}
    {schedule : List (Action ι)} {final : State ι}
    (hrun : exec step (initial transport clock) schedule = some final)
    (hcodes : ErrorCodesNonzero schedule) :
    (∀ call status, final.phase call = .failed status →
      SendReturned (initial transport clock) schedule call status) ∧
    (∀ call status, final.phase call = .returned (.error status) →
      ErrorExplained (initial transport clock) schedule call (final.caller call).id status) ∧
    (∀ call text, final.phase call = .returned (.response text) →
      TextExplained (initial transport clock) schedule call (final.caller call).id text) ∧
    (∀ message call id next more later, final.queue.lookup id = some call →
      message.id.value = (final.caller call).id → step final (.response message) = some next →
      exec step next more = some later → (later.caller call).ready = true) := by
  have hwf : WellFormed final := (wellFormed_initial transport clock).exec hrun
  have hhistory := history_of_exec hrun hcodes
  refine ⟨hhistory.failed, hhistory.returnedError, hhistory.returnedResponse, ?_⟩
  intro message call id next more later hlookup hid htaken hmore
  have hqueue : final.queue.lookup message.id.value = some call := by
    rw [hid]
    exact hwf.lookup_id hlookup
  have hqueued := hwf.queued_phase id call hlookup
  have hpast : (next.phase call).isBefore = false := by
    apply isBefore_step (step_cases htaken)
    cases hphase : final.phase call <;> simp_all [Phase.isQueued, Phase.isBefore]
  refine ready_of_exec hpast ?_ hmore
  cases step_cases htaken with
  | ignore _ hnone => simp [hqueue] at hnone
  | response _ receiver hreceiver hphase =>
      obtain rfl : call = receiver := Option.some.inj (hqueue.symm.trans hreceiver)
      simp [State.setCaller]

/-- Two calls: the first is refused with an error, the reply to the second
arrives before it waits, and the replies arrive in the opposite order. -/
def twoCalls (first second : ι) : List (Action ι) :=
  [.draw first, .create first, .insert first, .send first .none,
    .draw second, .create second, .insert second,
    .response (.reply 2 ['b']), .send second .none, .response (.errorReply 1 (-32601)),
    .wake first, .erase first, .check first, .read first,
    .wake second, .erase second, .check second, .read second]

theorem request_correlation_twoCalls :
    ∃ final : State (Fin 2),
      exec step (initial (some .new) .zero) (twoCalls 0 1) = some final ∧
      ErrorExplained (initial (some .new) .zero) (twoCalls 0 1) (0 : Fin 2)
        (final.caller 0).id ⟨-32601⟩ ∧
      TextExplained (initial (some .new) .zero) (twoCalls 0 1) (1 : Fin 2)
        (final.caller 1).id ['b'] := by
  obtain ⟨final, hrun, hphases⟩ : ∃ final : State (Fin 2),
      exec step (initial (some .new) .zero) (twoCalls 0 1) = some final ∧
        (decide (final.phase 0 = .returned (.error ⟨-32601⟩)) &&
          decide (final.phase 1 = .returned (.response ['b']))) = true :=
    exists_exec_of_any (by decide)
  simp only [Bool.and_eq_true, decide_eq_true_eq] at hphases
  have hfacts := request_correlation hrun (by decide)
  exact ⟨final, hrun, hfacts.2.1 0 _ hphases.1, hfacts.2.2.1 1 _ hphases.2⟩

end FireboltTransport.Client
