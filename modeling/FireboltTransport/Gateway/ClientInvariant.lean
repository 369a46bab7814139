/-
# What every reachable client state satisfies

A queue entry lists a call under the identifier of that call's own `Caller`,
and only between insertion and erasure.  A call the watchdog has collected has
left the queue and never returns to it.  Both facts hold for every order of
steps, also when two calls drew the same identifier: insertion may then replace
the entry of another call, but never files a call under a foreign identifier.
-/

import FireboltTransport.Gateway.Client

namespace FireboltTransport.Client

open Semantics

universe u

variable {ι : Type u}

/-- The phases of a call that may have an entry in the queue.  A failed `Send`
returns without erasing, so its entry stays behind. -/
def Phase.isQueued : Phase → Bool
  | .inserted | .waiting | .woken | .failed _ => true
  | _ => false

/-- The phases of a call whose `Caller` has not been inserted. -/
def Phase.isBefore : Phase → Bool
  | .idle | .created | .notConnected | .drawn _ => true
  | _ => false

/-- The invariant of the client. -/
structure WellFormed (state : State ι) : Prop where
  queued_id : ∀ id call, state.queue.lookup id = some call → (state.caller call).id = id
  queued_phase : ∀ id call, state.queue.lookup id = some call →
    (state.phase call).isQueued = true
  outdated_phase : ∀ call ∈ state.watchdog.outdated, (state.phase call).isBefore = false
  outdated_not_queued : ∀ call ∈ state.watchdog.outdated, ∀ id,
    state.queue.lookup id ≠ some call
  outdated_nodup : state.watchdog.outdated.Nodup
  fresh : ∀ call, state.phase call = .created → (state.caller call).ready = false

theorem wellFormed_initial (transport : Option Channel) (clock : Timestamp) :
    WellFormed (initial transport clock : State ι) where
  queued_id := by simp [initial]
  queued_phase := by simp [initial]
  outdated_phase := by simp [initial, Watchdog.outdated]
  outdated_not_queued := by simp [initial, Watchdog.outdated]
  outdated_nodup := by simp [initial, Watchdog.outdated]
  fresh := by simp [initial]

/-- A call that is in the queue is filed under its own identifier. -/
theorem WellFormed.lookup_id {state : State ι} (hwf : WellFormed state) {id : MessageID} {call : ι}
    (hlookup : state.queue.lookup id = some call) :
    state.queue.lookup (state.caller call).id = some call := by
  rw [hwf.queued_id id call hlookup]
  exact hlookup

/-- A sweep collects each caller once, since a call is filed under one identifier. -/
theorem select_nodup {state : State ι} (hwf : WellFormed state) (chosen : MessageID → ι → Bool) :
    (state.queue.select chosen).Nodup := by
  have hkeys : (state.queue.entries.map fun entry => entry.1).Nodup := state.queue.nodupKeys
  have hid : ∀ entry ∈ state.queue.entries, (state.caller entry.2).id = entry.1 := by
    rintro ⟨id, call⟩ hentry
    exact hwf.queued_id id call (StdMap.mem_entries_iff_lookup.mp hentry)
  apply List.Nodup.of_map fun call => (state.caller call).id
  rw [StdMap.select, List.map_map]
  have hmap : (state.queue.entries.filter fun entry => chosen entry.1 entry.2).map
      ((fun call => (state.caller call).id) ∘ fun entry => entry.2) =
      (state.queue.entries.filter fun entry => chosen entry.1 entry.2).map
        fun entry => entry.1 :=
    List.map_congr_left fun entry hentry => hid entry (List.mem_of_mem_filter hentry)
  rw [hmap]
  exact hkeys.sublist (List.filter_sublist.map _)

section Step

variable [DecidableEq ι]

variable {state next : State ι} {action : Action ι}

/-! ## What a step leaves alone -/

/-- Only its own thread moves a call. -/
theorem phase_step (hstep : Step state action next) {call : ι} (hactor : action.actor ≠ some call) :
    next.phase call = state.phase call := by
  cases hstep with
  | refuse actor hphase | draw actor channel hphase | create actor id hphase
  | insert actor hphase | send actor hphase | sendFailed actor result hphase
  | wake actor hphase | erase actor hphase | check actor hphase | readResponse actor hphase
  | readError actor hphase =>
      have hne : call ≠ actor := by
        intro hcall
        apply hactor
        rw [hcall]
        rfl
      simp [State.setPhase, State.setCaller, hne]
  | _ => rfl

theorem queue_step (hstep : Step state action next) (hqueue : action.changesQueue = false) :
    next.queue = state.queue := by
  cases hstep with
  | insert actor hphase => cases hqueue
  | erase actor hphase => cases hqueue
  | collect now hwatchdog => cases hqueue
  | _ => rfl

theorem watchdog_step (hstep : Step state action next) (haction : action.isWatchdog = false) :
    next.watchdog = state.watchdog := by
  cases hstep with
  | sample hwatchdog | collect now hwatchdog | mark call rest hwatchdog hphase
  | sleep hwatchdog => cases haction
  | _ => rfl

/-- A call that has failed stays failed. -/
theorem failed_step (hstep : Step state action next) {call : ι} {status : Error}
    (hfailed : state.phase call = .failed status) : next.phase call = .failed status := by
  rw [← hfailed]
  apply phase_step hstep
  intro hactor
  cases hstep <;> simp_all [Action.actor]

/-! ## The invariant -/

theorem queued_id_step (hwf : WellFormed state) (hstep : Step state action next) :
    ∀ id call, next.queue.lookup id = some call → (next.caller call).id = id := by
  intro id call hlookup
  cases hstep with
  | create created drawnId hphase =>
      have hne : call ≠ created := by
        rintro rfl
        have hqueued := hwf.queued_phase id call hlookup
        simp [hphase, Phase.isQueued] at hqueued
      simpa [State.setCaller, State.setPhase, hne] using hwf.queued_id id call hlookup
  | insert inserted hphase =>
      simp only [State.setPhase, StdMap.lookup_insert_of_eq_or_ne] at hlookup ⊢
      split_ifs at hlookup with hid
      · obtain rfl := Option.some.inj hlookup
        exact hid.symm
      · exact hwf.queued_id id call hlookup
  | erase woken hphase =>
      simp only [State.setPhase, StdMap.lookup_erase_of_eq_or_ne] at hlookup ⊢
      split_ifs at hlookup
      exact hwf.queued_id id call hlookup
  | response message receiver hqueue hphase =>
      have hid := hwf.queued_id id call hlookup
      by_cases hcall : call = receiver
      · subst hcall
        simpa [State.setCaller] using hid
      · simpa [State.setCaller, hcall] using hid
  | collect now hwatchdog =>
      exact hwf.queued_id id call (StdMap.lookup_filter_eq_some.mp hlookup).1
  | mark marked rest hwatchdog hphase =>
      have hid := hwf.queued_id id call hlookup
      by_cases hcall : call = marked
      · subst hcall
        simpa [State.setCaller] using hid
      · simpa [State.setCaller, hcall] using hid
  | _ => exact hwf.queued_id id call hlookup

/-- An entry of the queue was there before or was inserted by its own call. -/
theorem lookup_step (hstep : Step state action next) {id : MessageID} {call : ι}
    (hlookup : next.queue.lookup id = some call) :
    state.queue.lookup id = some call ∨ action = .insert call := by
  cases hstep with
  | insert inserted hphase =>
      simp only [State.setPhase, StdMap.lookup_insert_of_eq_or_ne] at hlookup
      split_ifs at hlookup with hid
      · obtain rfl := Option.some.inj hlookup
        exact .inr rfl
      · exact .inl hlookup
  | erase woken hphase =>
      simp only [State.setPhase, StdMap.lookup_erase_of_eq_or_ne] at hlookup
      split_ifs at hlookup
      exact .inl hlookup
  | collect now hwatchdog => exact .inl (StdMap.lookup_filter_eq_some.mp hlookup).1
  | _ => exact .inl hlookup

theorem queued_phase_step (hwf : WellFormed state) (hstep : Step state action next) :
    ∀ id call, next.queue.lookup id = some call → (next.phase call).isQueued = true := by
  intro id call hlookup
  rcases lookup_step hstep hlookup with hbefore | rfl
  · have hqueued := hwf.queued_phase id call hbefore
    cases hstep with
    | refuse actor hphase | draw actor channel hphase | create actor drawnId hphase
    | check actor hphase | readResponse actor hphase | readError actor hphase =>
        have hne : call ≠ actor := by
          rintro rfl
          simp [hphase, Phase.isQueued] at hqueued
        simpa [State.setPhase, State.setCaller, hne] using hqueued
    | insert actor hphase | send actor hphase | sendFailed actor result hphase
    | wake actor hphase =>
        by_cases hcall : call = actor
        · subst hcall
          simp [State.setPhase, Phase.isQueued]
        · simpa [State.setPhase, hcall] using hqueued
    | erase actor hphase =>
        -- The erased key is the one this call would be filed under.
        have hne : call ≠ actor := by
          rintro rfl
          have hid := hwf.queued_id id call hbefore
          simp [State.setPhase, hid] at hlookup
        simpa [State.setPhase, hne] using hqueued
    | _ => exact hqueued
  · cases hstep with
    | insert actor hphase => simp [State.setPhase, Phase.isQueued]

/-- A call past its insertion stays past it. -/
theorem isBefore_step (hstep : Step state action next) {call : ι}
    (hpast : (state.phase call).isBefore = false) : (next.phase call).isBefore = false := by
  cases hstep with
  | refuse actor hphase | draw actor channel hphase | create actor drawnId hphase =>
      have hne : call ≠ actor := by
        rintro rfl
        simp [hphase, Phase.isBefore] at hpast
      simpa [State.setPhase, State.setCaller, hne] using hpast
  | insert actor hphase | send actor hphase | sendFailed actor result hphase
  | wake actor hphase | erase actor hphase | check actor hphase | readResponse actor hphase
  | readError actor hphase =>
      by_cases hcall : call = actor
      · subst hcall
        simp [State.setPhase, Phase.isBefore]
      · simpa [State.setPhase, hcall] using hpast
  | _ => exact hpast

/-- The watchdog's list only shrinks, except when a sweep fills it from the queue. -/
theorem outdated_step (hstep : Step state action next) {call : ι}
    (hmem : call ∈ next.watchdog.outdated) :
    call ∈ state.watchdog.outdated ∨
      ∃ now id, state.watchdog = .sampled now ∧ action = .collect ∧
        state.queue.lookup id = some call ∧ state.expired now call = true := by
  cases hstep with
  | collect now hwatchdog =>
      simp only [Watchdog.outdated] at hmem
      obtain ⟨id, hlookup, hexpired⟩ := StdMap.mem_select.mp hmem
      exact .inr ⟨now, id, hwatchdog, rfl, hlookup, hexpired⟩
  | mark marked rest hwatchdog hphase =>
      rw [hwatchdog]
      exact .inl (List.mem_cons_of_mem _ hmem)
  | sample hwatchdog => simp [Watchdog.outdated] at hmem
  | sleep hwatchdog => simp [Watchdog.outdated] at hmem
  | _ => exact .inl hmem

theorem outdated_phase_step (hwf : WellFormed state) (hstep : Step state action next) :
    ∀ call ∈ next.watchdog.outdated, (next.phase call).isBefore = false := by
  intro call hmem
  apply isBefore_step hstep
  rcases outdated_step hstep hmem with hbefore | ⟨now, id, _, _, hlookup, _⟩
  · exact hwf.outdated_phase call hbefore
  · have hqueued := hwf.queued_phase id call hlookup
    cases hphase : state.phase call <;> simp_all [Phase.isQueued, Phase.isBefore]

theorem outdated_not_queued_step (hwf : WellFormed state) (hstep : Step state action next) :
    ∀ call ∈ next.watchdog.outdated, ∀ id, next.queue.lookup id ≠ some call := by
  intro call hmem id hlookup
  rcases outdated_step hstep hmem with hbefore | ⟨now, other, hwatchdog, rfl, hother, hexpired⟩
  · rcases lookup_step hstep hlookup with hqueued | rfl
    · exact hwf.outdated_not_queued call hbefore id hqueued
    · cases hstep with
      | insert actor hphase =>
          have hpast := hwf.outdated_phase call hbefore
          simp [hphase, Phase.isBefore] at hpast
  · cases hstep with
    | collect sampled hsampled =>
        obtain rfl : sampled = now := by simpa [hsampled] using hwatchdog
        have hkept := (StdMap.lookup_filter_eq_some.mp hlookup).2
        simp [hexpired] at hkept

theorem outdated_nodup_step (hwf : WellFormed state) (hstep : Step state action next) :
    next.watchdog.outdated.Nodup := by
  cases hstep with
  | sample hwatchdog => simp [Watchdog.outdated]
  | collect now hwatchdog =>
      simp only [Watchdog.outdated]
      exact select_nodup hwf _
  | mark marked rest hwatchdog hphase =>
      have hnodup := hwf.outdated_nodup
      rw [hwatchdog] at hnodup
      exact (List.nodup_cons.mp hnodup).2
  | sleep hwatchdog => simp [Watchdog.outdated]
  | _ => exact hwf.outdated_nodup

theorem fresh_step (hwf : WellFormed state) (hstep : Step state action next) :
    ∀ call, next.phase call = .created → (next.caller call).ready = false := by
  intro call hcreated
  cases hstep with
  | create actor drawnId hphase =>
      by_cases hcall : call = actor
      · subst hcall
        simp [State.setPhase, State.setCaller, Caller.new]
      · simp only [State.setPhase, State.setCaller, Function.update_of_ne hcall] at hcreated ⊢
        exact hwf.fresh call hcreated
  | refuse actor hphase | draw actor channel hphase | insert actor hphase | send actor hphase
  | sendFailed actor result hphase | wake actor hphase | erase actor hphase | check actor hphase
  | readResponse actor hphase | readError actor hphase =>
      have hne : call ≠ actor := by
        rintro rfl
        simp [State.setPhase] at hcreated
      simp only [State.setPhase, Function.update_of_ne hne] at hcreated
      exact hwf.fresh call hcreated
  | response message receiver hqueue hphase =>
      have hne : call ≠ receiver := by
        rintro rfl
        have hqueued := hwf.queued_phase _ _ hqueue
        simp only [State.setCaller] at hcreated
        simp [hcreated, Phase.isQueued] at hqueued
      simpa [State.setCaller, hne] using hwf.fresh call hcreated
  | mark marked rest hwatchdog hphase =>
      have hne : call ≠ marked := by
        rintro rfl
        have hpast := hwf.outdated_phase call (by simp [hwatchdog, Watchdog.outdated])
        simp only [State.setCaller] at hcreated
        simp [hcreated, Phase.isBefore] at hpast
      simpa [State.setCaller, hne] using hwf.fresh call hcreated
  | _ => exact hwf.fresh call hcreated

/-- The `ready` flag of a call past its construction is never taken back. -/
theorem ready_step (hstep : Step state action next) {call : ι}
    (hphase : ∀ id, state.phase call ≠ .drawn id) (hready : (state.caller call).ready = true) :
    (next.caller call).ready = true := by
  cases hstep with
  | create created drawnId hcreated =>
      have hne : call ≠ created := by
        rintro rfl
        exact hphase drawnId hcreated
      simpa [State.setPhase, State.setCaller, hne] using hready
  | response message receiver hqueue hreceiver =>
      by_cases hcall : call = receiver
      · subst hcall
        simp [State.setCaller]
      · simpa [State.setCaller, hcall] using hready
  | mark marked rest hwatchdog hmarked =>
      by_cases hcall : call = marked
      · subst hcall
        simp [State.setCaller]
      · simpa [State.setCaller, hcall] using hready
  | _ => exact hready

/-- A call becomes ready by a reply that finds it or by a mark. -/
theorem unready_step (hstep : Step state action next) {call : ι}
    (hready : (state.caller call).ready = false)
    (hresponse : ∀ message, action = .response message →
      state.queue.lookup message.id.value ≠ some call)
    (hmark : action = .mark → call ∉ state.watchdog.outdated) :
    (next.caller call).ready = false := by
  cases hstep with
  | create created id hphase =>
      by_cases hcall : call = created
      · subst hcall
        simp [State.setPhase, State.setCaller, Caller.new]
      · simpa [State.setPhase, State.setCaller, hcall] using hready
  | response message receiver hqueue hphase =>
      have hne : call ≠ receiver := by
        rintro rfl
        exact hresponse message rfl hqueue
      simpa [State.setCaller, hne] using hready
  | mark marked rest hwatchdog hphase =>
      have hne : call ≠ marked := by
        rintro rfl
        exact hmark rfl (by simp [hwatchdog, Watchdog.outdated])
      simpa [State.setCaller, hne] using hready
  | _ => exact hready

/-- Every step keeps the client well formed. -/
theorem WellFormed.step (hwf : WellFormed state) (hstep : Step state action next) :
    WellFormed next where
  queued_id := queued_id_step hwf hstep
  queued_phase := queued_phase_step hwf hstep
  outdated_phase := outdated_phase_step hwf hstep
  outdated_not_queued := outdated_not_queued_step hwf hstep
  outdated_nodup := outdated_nodup_step hwf hstep
  fresh := fresh_step hwf hstep

/-- Every schedule keeps the client well formed. -/
theorem WellFormed.exec (hwf : WellFormed state) {schedule : List (Action ι)}
    (hrun : exec Client.step state schedule = some next) : WellFormed next :=
  exec_invariant (fun _ _ _ hprior htaken => hprior.step (step_cases htaken)) hwf hrun

end Step

end FireboltTransport.Client
