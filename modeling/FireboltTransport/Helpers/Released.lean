/-
# Whose callback is not called any more

An application that subscribes an event or registers a provider passes a pointer along,
and wants to free what it points to after it has unsubscribed or unregistered.  The
server reads its tables and calls back under one and the same lock, so a callback that
runs has its entry in the table as long as it runs: when the entry has been taken out,
no callback with it is still running.  This does not depend on what the callbacks do;
one that calls the SDK may wait for ever, but it keeps its entry.
-/

import FireboltTransport.Helpers.LockOrder
import FireboltTransport.Helpers.Progress
import FireboltTransport.Semantics.Run

namespace FireboltTransport.Helpers

open Semantics Server GatewayImpl

universe u v w x

variable {η : Type u} {β : Type v} {ρ : Type w} {τ : Type x}

/-- A method is registered. -/
def Data.Provides (data : Data η β ρ) (method : Method ρ) : Prop :=
  ∃ interface i, data.providers.lookup interface = some i ∧ method ∈ i.methods

/-- A subscription or a method is registered with the pointer. -/
inductive Registered (data : Data η β ρ) (usercb : UInt64) : Prop
  | event (key : Text) (callbackData : CallbackDataEvent (Dispatch β))
      (hentry : data.eventMap.lookup key = some callbackData)
      (husercb : callbackData.usercb = usercb)
  | provider (method : Method ρ) (hprovides : data.Provides method)
      (husercb : method.usercb = usercb)

/-- The pointer that the callback is passed, when one runs. -/
def Context.usercb? : Context β ρ → Option UInt64
  | .application => none
  | .event callbackData => some callbackData.usercb
  | .provider method => some method.usercb

/-- The pointer that the next statement of an operation registers, if it does. -/
def Stage.registers? : Stage η β ρ → Option UInt64
  | .insert _ _ callbackData => some callbackData.usercb
  | .registerProvider _ _ usercb => some usercb
  | _ => none

/-- The step does not register the pointer. -/
def RegistersOther (usercb : UInt64) (state : State τ η β ρ) : Action τ η β ρ → Prop
  | .setTransport _ => True
  | .move thread _ => (state.point thread).stage.registers? ≠ some usercb

instance (usercb : UInt64) (state : State τ η β ρ) :
    ∀ action, Decidable (RegistersOther usercb state action)
  | .setTransport _ => isTrue trivial
  | .move thread _ => inferInstanceAs
      (Decidable ((state.point thread).stage.registers? ≠ some usercb))

/-- What a callback that runs was found under is in its table. -/
def Context.Listed (data : Data η β ρ) : Context β ρ → Prop
  | .application => True
  | .event callbackData => ∃ key, data.eventMap.lookup key = some callbackData
  | .provider method => data.Provides method

theorem registered_of_listed {data : Data η β ρ} {context : Context β ρ} {usercb : UInt64}
    (hlisted : context.Listed data) (husercb : context.usercb? = some usercb) :
    Registered data usercb := by
  cases context with
  | application => cases husercb
  | event callbackData =>
      obtain ⟨key, hentry⟩ := hlisted
      exact .event key callbackData hentry (Option.some.inj husercb)
  | provider method => exact .provider method hlisted (Option.some.inj husercb)

section Move

variable {data : Data η β ρ} {context : Context β ρ} {stage : Stage η β ρ}
  {input : Input η β ρ} {move : Move η β ρ}

/-- What `Request` finds is registered. -/
theorem provides_of_findMethod {method : Text} {found : Method ρ}
    (hfound : findMethod data.providers method = some found) : data.Provides found := by
  simp only [findMethod] at hfound
  split_ifs at hfound
  obtain ⟨i, hlookup, hmethod⟩ := Option.bind_eq_some_iff.mp hfound
  exact ⟨_, i, hlookup, List.mem_of_find?_eq_some hmethod⟩

/-- A method that is registered afterwards was registered before, or the move registers it. -/
theorem provides_registerProviderInterface {fullMethod : Text} {callback : ρ} {usercb : UInt64}
    {method : Method ρ}
    (hprovides : Data.Provides { data with providers :=
      (registerProviderInterface data.providers fullMethod callback usercb).2 } method) :
    data.Provides method ∨ method.usercb = usercb := by
  obtain ⟨interface, i, hlookup, hmethod⟩ := hprovides
  simp only [registerProviderInterface] at hlookup
  split at hlookup
  · rw [StdMap.lookup_insert_of_eq_or_ne] at hlookup
    split_ifs at hlookup
    · obtain rfl := Option.some.inj hlookup
      exact .inr (by rw [List.mem_singleton.mp hmethod])
    · exact .inl ⟨interface, i, hlookup, hmethod⟩
  · rename_i before hbefore
    rw [StdMap.lookup_insert_of_eq_or_ne] at hlookup
    split_ifs at hlookup
    · obtain rfl := Option.some.inj hlookup
      simp only [addMethod] at hmethod
      split at hmethod
      · rcases List.mem_append.mp hmethod with hold | hnew
        · exact .inl ⟨_, before, hbefore, hold⟩
        · exact .inr (by rw [List.mem_singleton.mp hnew])
      · exact .inl ⟨_, before, hbefore, hmethod⟩
    · exact .inl ⟨interface, i, hlookup, hmethod⟩

theorem provides_unregisterProviderInterface {interface name : Text} {usercb : UInt64}
    {method : Method ρ}
    (hprovides : Data.Provides { data with providers :=
      (unregisterProviderInterface data.providers interface name usercb).2 } method) :
    data.Provides method := by
  obtain ⟨key, i, hlookup, hmethod⟩ := hprovides
  simp only [unregisterProviderInterface] at hlookup
  split at hlookup
  · exact ⟨key, i, hlookup, hmethod⟩
  · rename_i before hbefore
    rw [StdMap.lookup_insert_of_eq_or_ne] at hlookup
    split_ifs at hlookup
    · obtain rfl := Option.some.inj hlookup
      exact ⟨_, before, hbefore, List.mem_of_mem_eraseP hmethod⟩
    · exact ⟨key, i, hlookup, hmethod⟩

variable [DecidableEq η]

theorem providers_turn (data : Data η β ρ) (helper : η) (start : ℕ) :
    (data.turn helper start).2.providers = data.providers := by
  unfold Data.turn
  split <;> rfl

theorem providers_erase (data : Data η β ρ) (helper : η) (id : ℕ) :
    (data.erase helper id).providers = data.providers := by
  unfold Data.erase
  split <;> rfl

theorem providers_store {helper : η} {address place : UInt64} {eventName : Text} {notification : β}
    {stored : Data η β ρ}
    (hstored : data.store helper address eventName notification = some (place, stored)) :
    stored.providers = data.providers := by
  simp only [Data.store] at hstored
  split at hstored
  · cases hstored
    rfl
  · split_ifs at hstored
    cases hstored
    rfl

/-- The providers change only under their mutex. -/
theorem Moves.providers (hmoves : Moves data context stage input move) :
    move.data.providers = data.providers ∨ stage.wants = some .providersMtx := by
  cases hmoves with
  | begin op =>
      cases op with
      | helperUnsubscribeAll helper => exact .inl (providers_turn data helper 0)
      | subscribe | unsubscribe | helperSubscribe | helperUnsubscribe | registerProvider
      | unregisterProvider => exact .inl rfl
  | registerProvider | unregisterProvider => exact .inr rfl
  | beginNotify | beginServe | ignore | leaveEvent | leaveProvider | unknown | find | check
  | insert | refuse | succeed | fail | answer | rollback | remove | unheard | notify | unserved
  | serve => exact .inl rfl
  | store helper eventName notification address place stored hstored =>
      exact .inl (providers_store hstored)
  | settle caller status =>
      refine .inl ?_
      cases caller with
      | user => rfl
      | subscribe helper =>
          simp only [Data.settle]
          split_ifs
          · rfl
          · exact providers_erase data helper _
      | unsubscribe helper id => exact providers_erase data helper id
      | unsubscribeAll helper id => exact providers_turn data helper (id + 1)

/-- A callback that a move begins is listed, and one that runs on is the same. -/
theorem Moves.listed (hmoves : Moves data context stage input move)
    (hlisted : context.Listed move.data) : move.next.context.Listed move.data := by
  cases hmoves with
  | leaveEvent | leaveProvider => trivial
  | notify method callbackData hfound => exact ⟨method, hfound⟩
  | serve method m hfound => exact provides_of_findMethod hfound
  | settle caller status =>
      rw [context_settle]
      exact hlisted
  | begin | beginNotify | beginServe | ignore | store | unknown | find | check | insert | refuse
  | succeed | fail | answer | rollback | remove | registerProvider | unregisterProvider | unheard
  | unserved => exact hlisted

/-- An entry that a move leaves was there before, or the move makes it. -/
theorem Moves.entry (hmoves : Moves data context stage input move) {key : Text}
    {callbackData : CallbackDataEvent (Dispatch β)}
    (hentry : move.data.eventMap.lookup key = some callbackData) :
    data.eventMap.lookup key = some callbackData ∨
      ∃ caller event, stage = .insert caller event callbackData := by
  rcases hmoves.eventMap with hsame | hwants
  · exact .inl (hsame ▸ hentry)
  · cases hmoves with
    | insert caller event added hfree =>
        rw [StdMap.lookup_insert_of_eq_or_ne] at hentry
        split_ifs at hentry
        · obtain rfl := Option.some.inj hentry
          exact .inr ⟨caller, event, rfl⟩
        · exact .inl hentry
    | rollback | remove =>
        rw [lookup_unsubscribe] at hentry
        split_ifs at hentry
        exact .inl hentry
    | refuse | unheard | notify => exact .inl hentry
    | begin | beginNotify | beginServe | ignore | leaveEvent | leaveProvider | store | unknown
    | find | check | succeed | fail | answer | settle | registerProvider | unregisterProvider
    | unserved | serve => cases hwants

/-- A method that a move leaves was registered before, or the move registers it. -/
theorem Moves.provides (hmoves : Moves data context stage input move) {method : Method ρ}
    (hprovides : move.data.Provides method) : data.Provides method ∨
      ∃ fullMethod callback, stage = .registerProvider fullMethod callback method.usercb := by
  rcases hmoves.providers with hsame | hwants
  · obtain ⟨interface, i, hlookup, hmethod⟩ := hprovides
    exact .inl ⟨interface, i, hsame ▸ hlookup, hmethod⟩
  · cases hmoves with
    | registerProvider fullMethod callback usercb =>
        rcases provides_registerProviderInterface hprovides with hbefore | rfl
        · exact .inl hbefore
        · exact .inr ⟨fullMethod, callback, rfl⟩
    | unregisterProvider => exact .inl (provides_unregisterProviderInterface hprovides)
    | unserved | serve => exact .inl hprovides
    | begin | beginNotify | beginServe | ignore | leaveEvent | leaveProvider | store | unknown
    | find | check | insert | refuse | succeed | fail | answer | rollback | remove | settle
    | unheard | notify => cases hwants

end Move

/-! ## Whole runs -/

/-- The callbacks that run are listed, and the mutexes are held as the points say. -/
structure RunsListed (state : State τ η β ρ) : Prop where
  consistent : Consistent state
  listed : ∀ thread, (state.point thread).context.Listed state.data

theorem runsListed_initial (connected : Bool) :
    RunsListed (initial connected : State τ η β ρ) where
  consistent := consistent_initial connected
  listed _ := trivial

variable [DecidableEq η] [DecidableEq τ] {state next : State τ η β ρ} {action : Action τ η β ρ}

omit [DecidableEq τ] in
/-- While a callback runs no other thread changes its table. -/
theorem RunsListed.listed_move (hruns : RunsListed state) {mover : τ} {input : Input η β ρ}
    {move : Move η β ρ}
    (hfree : ∀ mutex, state.wants mover = some mutex → state.locks.holder mutex = none)
    (hmove : Moves state.data (state.point mover).context (state.point mover).stage input move)
    (thread : τ) : (state.point thread).context.Listed move.data := by
  have hlisted := hruns.listed thread
  have hunwanted : ∀ mutex, (state.point thread).holds mutex → state.wants mover ≠ some mutex := by
    intro mutex hholds hwants
    have hholder := (hruns.consistent.agrees mutex thread).mpr hholds
    exact Option.some_ne_none thread (hholder.symm.trans (hfree mutex hwants))
  cases hcontext : (state.point thread).context with
  | application => trivial
  | event callbackData =>
      rw [hcontext] at hlisted
      have hsame := hmove.eventMap.resolve_right (hunwanted .eventMapMtx ⟨callbackData, hcontext⟩)
      rw [Context.Listed, hsame]
      exact hlisted
  | provider method =>
      rw [hcontext] at hlisted
      have hsame := hmove.providers.resolve_right (hunwanted .providersMtx ⟨method, hcontext⟩)
      rw [Context.Listed, Data.Provides, hsame]
      exact hlisted

theorem RunsListed.step (hruns : RunsListed state) (hstep : Step state action next) :
    RunsListed next := by
  refine ⟨hruns.consistent.step hstep, ?_⟩
  cases hstep with
  | setTransport connected => exact hruns.listed
  | move mover input move locks hfree hmove hlocks =>
      intro thread
      by_cases hthread : thread = mover
      · rw [hthread, State.point, Locks.point_move_self hlocks]
        exact hmove.listed (hruns.listed_move hfree hmove mover)
      · rw [State.point, Locks.point_move_of_ne hlocks hthread]
        exact hruns.listed_move hfree hmove thread

/-- A pointer that is not registered stays so. -/
theorem not_registered_step {usercb : UInt64} (hnone : ¬ Registered state.data usercb)
    (hother : RegistersOther usercb state action) (hstep : Step state action next) :
    ¬ Registered next.data usercb := by
  intro hregistered
  apply hnone
  cases hstep with
  | setTransport connected =>
      cases hregistered with
      | event key callbackData hentry husercb => exact .event key callbackData hentry husercb
      | provider method hprovides husercb => exact .provider method hprovides husercb
  | move mover input move locks hfree hmove hlocks =>
      cases hregistered with
      | event key callbackData hentry husercb =>
          rcases hmove.entry hentry with hbefore | ⟨caller, event, hstage⟩
          · exact .event key callbackData hbefore husercb
          · rw [RegistersOther, hstage] at hother
            exact absurd (congrArg some husercb) hother
      | provider method hprovides husercb =>
          rcases hmove.provides hprovides with hbefore | ⟨fullMethod, callback, hstage⟩
          · exact .provider method hbefore husercb
          · rw [RegistersOther, hstage] at hother
            exact absurd (congrArg some husercb) hother

/-- **What is taken back is not called.**  In every run, whatever the callbacks themselves do:
when no subscription and no method is registered with a pointer any more, no thread runs a
callback that was passed it, and none does later unless the pointer is registered again. -/
theorem not_called_of_released {connected : Bool} {before after : List (Action τ η β ρ)}
    {released final : State τ η β ρ} {usercb : UInt64}
    (hbefore : exec step (initial connected) before = some released)
    (hreleased : ¬ Registered released.data usercb)
    (hother : Meets step (RegistersOther usercb) released after)
    (hafter : exec step released after = some final) (thread : τ) :
    (final.point thread).context.usercb? ≠ some usercb := by
  have hstart : RunsListed released :=
    exec_invariant (fun _ _ _ hruns htaken => hruns.step (step_cases htaken))
      (runsListed_initial connected) hbefore
  obtain ⟨hruns, hnone⟩ : RunsListed final ∧ ¬ Registered final.data usercb :=
    exec_invariant_of_meets
      (motive := fun state => RunsListed state ∧ ¬ Registered state.data usercb)
      (fun _ _ _ hprior hother htaken =>
        ⟨hprior.1.step (step_cases htaken),
          not_registered_step hprior.2 hother (step_cases htaken)⟩)
      ⟨hstart, hreleased⟩ hother hafter
  intro husercb
  exact hnone (registered_of_listed (hruns.listed thread) husercb)

/-- No entry of the tables has the pointer. -/
def Data.lacks (data : Data η β ρ) (usercb : UInt64) : Bool :=
  (data.eventMap.entries.all fun entry => entry.2.usercb ≠ usercb) &&
    data.providers.entries.all fun entry => entry.2.methods.all fun method =>
      method.usercb ≠ usercb

omit [DecidableEq η] in
theorem not_registered_of_lacks {data : Data η β ρ} {usercb : UInt64}
    (hlacks : data.lacks usercb = true) : ¬ Registered data usercb := by
  simp only [Data.lacks, Bool.and_eq_true, List.all_eq_true, decide_eq_true_eq] at hlacks
  intro hregistered
  cases hregistered with
  | event key callbackData hentry husercb =>
      exact hlacks.1 _ (StdMap.mem_entries_iff_lookup.mpr hentry) husercb
  | provider method hprovides husercb =>
      obtain ⟨interface, i, hlookup, hmethod⟩ := hprovides
      exact hlacks.2 _ (StdMap.mem_entries_iff_lookup.mpr hlookup) method hmethod husercb

/-- An event and a method are registered with one pointer; both are taken back while the callback
of the event runs. -/
def takenBack (first second : τ) (event : Text) (callback : β) (method : ρ) :
    List (Action τ η β ρ) :=
  subscribed first event callback ++
    [.move first (.begin (.registerProvider ['A', '.', 'c'] method 5)), .move first .go] ++
    notified second event ++
    [.move first (.begin (.unregisterProvider ['A'] ['c'] 5)), .move first .go,
      .move first (.begin (.unsubscribe event)), .move second .leave, .move first .go]

theorem not_called_of_released_takenBack :
    ∃ released final : State (Fin 2) (Fin 1) Unit Unit,
      exec step (initial true) (takenBack 0 1 ['A', '.', 'b'] () ()) = some released ∧
      ¬ Registered released.data 5 ∧
      exec step released (notified 1 ['A', '.', 'b']) = some final ∧
      (final.point 1).context.usercb? ≠ some 5 := by
  obtain ⟨final, hrun, hnothing⟩ : ∃ final : State (Fin 2) (Fin 1) Unit Unit,
      exec step (initial true) (takenBack 0 1 ['A', '.', 'b'] () () ++
        notified 1 ['A', '.', 'b']) = some final ∧
      decide ((exec step (initial true : State (Fin 2) (Fin 1) Unit Unit)
        (takenBack 0 1 ['A', '.', 'b'] () ())).all fun released =>
          released.data.lacks 5 && decide (Meets step (RegistersOther 5) released
            (notified 1 ['A', '.', 'b']))) = true :=
    exists_exec_of_any (by decide)
  obtain ⟨released, hbefore, hafter⟩ := exec_append_eq_some.mp hrun
  simp only [hbefore, Option.all_some, Bool.and_eq_true, decide_eq_true_eq] at hnothing
  have hreleased := not_registered_of_lacks hnothing.1
  exact ⟨released, final, hbefore, hreleased, hafter,
    not_called_of_released hbefore hreleased hnothing.2 hafter 1⟩

end FireboltTransport.Helpers
