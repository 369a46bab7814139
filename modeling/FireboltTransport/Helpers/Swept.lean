/-
# When `unsubscribeAll` tolerates a concurrent `subscribe`

The steps of the walk keep the invariant without conditions: an entry the walk
takes away is that of the node it stands at, since every stored node ahead of it
has an entry of its own.  With the steps of the calls, a run whose steps are all in
time leaves the map and the event map in agreement.
-/

import FireboltTransport.Helpers.ClearRace

namespace FireboltTransport.Helpers.Clearing

open Semantics Server GatewayImpl

universe u

variable {β : Type u}

/-- What a call knows survives a step of the walk that leaves the nodes and adds no entries, but
for what its request knows of the walk. -/
theorem StageSound.of_walk {state : State β} {eventMap : EventMap (Option (Node β))}
    {sweep : Sweep β} {eventName : Text} {stage : Stage β}
    (hstage : StageSound state eventName stage) (hbefore : state.sweep ≠ .returned)
    (hfewer : ∀ key node, Registers eventMap key node → Registers state.eventMap key node)
    (hswept : ∀ node, stage = .request node →
      ¬ Registers eventMap (getKeyFromEvent eventName) node →
        state.subscriptions.lookup state.currentId = some node →
          sweep.remains state.currentId = false ∧ sweep ≠ .returned) :
    StageSound { state with eventMap, sweep } eventName stage := by
  cases stage with
  | store => exact hstage
  | locate => exact fun _ => hstage hbefore
  | subscribe node => exact ⟨hstage.id, hstage.stored, fun _ => hstage.kept hbefore⟩
  | request node =>
      obtain ⟨hplaced, hown, _⟩ := hstage
      refine ⟨⟨hplaced.id, hplaced.stored, fun _ => hplaced.kept hbefore⟩, ?_, hswept node rfl⟩
      exact fun other hother => hown other (hfewer _ other hother)
  | rollback node status =>
      exact ⟨hstage.1, fun other hother => hstage.2 other (hfewer _ other hother)⟩
  | erase status => trivial

/-! ## Where the loop goes -/

section Turn

variable {state : State β}

/-- The loop goes to the first stored node from `start` on. -/
theorem Sound.remains_turn (hsound : Sound state) {id : ℕ} {node : Node β} (start : ℕ)
    (hstored : state.subscriptions.lookup id = some node) :
    (state.turn start).remains id = decide (start ≤ id) := by
  unfold State.turn
  split
  · next first found hnext =>
      obtain ⟨hfound, hstart, hbetween⟩ := nextNode_eq_some hnext
      have hid := (hsound.ids first found hfound).1
      show decide (found.id ≤ id) = decide (start ≤ id)
      rw [hid]
      apply decide_eq_decide.mpr
      constructor
      · exact fun hle => hstart.trans hle
      · intro hle
        by_contra hlt
        have hnone := hbetween id hle (Nat.lt_of_not_le hlt)
        rw [hstored] at hnone
        cases hnone
  · next hnext =>
      apply Eq.symm
      apply decide_eq_false
      intro hle
      have hnone := nextNode_eq_none hnext hle
      rw [hstored] at hnone
      cases hnone

theorem Sound.alive_turn (hsound : Sound state) (start : ℕ) :
    ∀ node ∈ (state.turn start).node, state.subscriptions.lookup node.id = some node := by
  unfold State.turn
  split
  · next first found hnext =>
      intro node hnode
      obtain rfl := Option.some.inj hnode
      obtain ⟨hfound, _⟩ := nextNode_eq_some hnext
      rwa [(hsound.ids first found hfound).1]
  · nofun

theorem turn_ne (start : ℕ) : state.turn start ≠ .returned ∧ state.turn start ≠ .crashed := by
  unfold State.turn
  split <;> exact ⟨nofun, nofun⟩

/-- The walk moves without passing a stored node. -/
theorem Sound.setSweep (hsound : Sound state) (hbefore : state.sweep ≠ .returned)
    {sweep : Sweep β} (hreturned : sweep ≠ .returned) (hrunning : sweep ≠ .crashed)
    (halive : ∀ node ∈ sweep.node, state.subscriptions.lookup node.id = some node)
    (hremains : ∀ id node, state.subscriptions.lookup id = some node →
      sweep.remains id = state.sweep.remains id) :
    Sound { state with sweep } where
  running := hrunning
  alive := halive
  ids := hsound.ids
  stored := hsound.stored
  returned id node hmem := by
    obtain ⟨hid, hlt, ⟨hstored, hentered⟩ | hlost⟩ := hsound.returned id node hmem
    · refine ⟨hid, hlt, .inl ⟨hstored, ?_⟩⟩
      show _ ↔ sweep.remains id = true ∨ sweep = .returned
      rw [hentered, hremains id node hstored]
      simp [hbefore, hreturned]
    · exact ⟨hid, hlt, .inr hlost⟩
  entries key node hkey := by
    obtain ⟨hname, hmade⟩ := hsound.entries key node hkey
    exact ⟨fun _ => hname hbefore, hmade⟩
  call call hcall := by
    have hknown := hsound.call call hcall
    apply hknown.of_walk hbefore (fun _ _ hkey => hkey)
    intro node hstage hgone hstored
    rw [hstage] at hknown
    exact ⟨(hremains _ node hstored).trans (hknown.2.2 hgone hstored).1, hreturned⟩
  discarded := hsound.discarded

end Turn

/-! ## The steps of the walk -/

section Walk

variable {state : State β} {node : Node β}

theorem Sound.start (hsound : Sound state) (hsweep : state.sweep = .idle) :
    Sound { state with sweep := state.turn 0 } := by
  apply hsound.setSweep (by rw [hsweep]; nofun) (turn_ne 0).1 (turn_ne 0).2 (hsound.alive_turn 0)
  intro id node hstored
  rw [hsound.remains_turn 0 hstored, hsweep]
  simp [Sweep.remains]

theorem Sound.requested (hsound : Sound state) (hsweep : state.sweep = .request node) :
    Sound { state with sweep := .advance node } := by
  apply hsound.setSweep (by rw [hsweep]; nofun) (by nofun) (by nofun)
  · intro other hother
    apply hsound.alive other
    rw [hsweep]
    exact hother
  · intro id other _
    rw [hsweep]
    rfl

theorem Sound.advance (hsound : Sound state) (hsweep : state.sweep = .advance node) :
    Sound { state with sweep := state.turn (node.id + 1) } := by
  apply hsound.setSweep (by rw [hsweep]; nofun) (turn_ne _).1 (turn_ne _).2 (hsound.alive_turn _)
  intro id other hstored
  rw [hsound.remains_turn _ hstored, hsweep]
  rfl

/-- The walk stands at a node it has yet to take the entry away of. -/
theorem remains_self (hsweep : state.sweep = .unsubscribe node) :
    state.sweep.remains node.id = true := by
  rw [hsweep]
  exact decide_eq_true le_rfl

/-- The entry the walk takes away, if any, is that of the node it stands at or of the call in
progress. -/
theorem Sound.eq_of_registers (hsound : Sound state) (hsweep : state.sweep = .unsubscribe node)
    {id : ℕ} {other : Node β} (hreturned : (id, other) ∈ state.returned)
    (hkey : Registers state.eventMap (getKeyFromEvent node.eventName) other)
    (hremains : state.sweep.remains id = true) : other = node := by
  have halive : state.subscriptions.lookup node.id = some node :=
    hsound.alive node (by rw [hsweep]; rfl)
  have hle : node.id ≤ id := by
    rw [hsweep] at hremains
    exact of_decide_eq_true hremains
  have hlt := (hsound.returned id other hreturned).2.1
  have hvisited : (node.id, node) ∈ state.returned :=
    hsound.mem_returned halive (hle.trans_lt hlt)
  exact hkey.unique (hsound.registers_of_remains hvisited halive (remains_self hsweep))

/-- After the visit, the stored subscriptions ahead of the walk have their entries. -/
theorem Sound.entered_visit_iff (hsound : Sound state) (hsweep : state.sweep = .unsubscribe node)
    {id : ℕ} {other : Node β} (hreturned : (id, other) ∈ state.returned)
    (hstored : state.subscriptions.lookup id = some other)
    (hentered : Entered state.eventMap other ↔ state.sweep.remains id = true) :
    Entered (Server.unsubscribe state.eventMap node.eventName).2 other ↔ node.id < id := by
  have hbefore : state.sweep ≠ .returned := by
    rw [hsweep]
    nofun
  have halive : state.subscriptions.lookup node.id = some node :=
    hsound.alive node (by rw [hsweep]; rfl)
  constructor
  · intro hstill
    obtain ⟨place, hplace⟩ := hstill
    obtain ⟨hkey, hold⟩ := (registers_unsubscribe _ _).mp hplace
    have hahead := hentered.mp ⟨place, hold⟩
    rw [hsweep] at hahead
    apply lt_of_le_of_ne (of_decide_eq_true hahead)
    rintro rfl
    obtain rfl := Option.some.inj (halive.symm.trans hstored)
    exact hkey ((hsound.entries place _ hold).1 hbefore)
  · intro hahead
    have hstill : state.sweep.remains id = true := by
      rw [hsweep]
      exact decide_eq_true hahead.le
    have hown := hsound.registers_of_remains hreturned hstored hstill
    refine ⟨_, (registers_unsubscribe _ _).mpr ⟨?_, hown⟩⟩
    intro hsame
    rw [hsame] at hown
    obtain rfl := hsound.eq_of_registers hsweep hreturned hown hstill
    have hid := (hsound.returned id other hreturned).1
    omega

/-- A visit to an older node does not take the entry of the request in progress away. -/
theorem Sound.not_lt_of_gone (hsound : Sound state) (hsweep : state.sweep = .unsubscribe node)
    {call : Call β} {other : Node β} (hknown : StageSound state call.eventName (.request other))
    (hgone : ¬ Registers (Server.unsubscribe state.eventMap node.eventName).2
      (getKeyFromEvent call.eventName) other)
    (hstored : state.subscriptions.lookup state.currentId = some other) :
    ¬ node.id < state.currentId := by
  intro hahead
  have halive : state.subscriptions.lookup node.id = some node :=
    hsound.alive node (by rw [hsweep]; rfl)
  have hvisited := hsound.registers_of_remains (hsound.mem_returned halive hahead) halive
    (remains_self hsweep)
  have hstill : state.sweep.remains state.currentId = true := by
    rw [hsweep]
    exact decide_eq_true hahead.le
  have hregistered : Registers state.eventMap (getKeyFromEvent call.eventName) other := by
    by_contra hnot
    have hpassed := (hknown.2.2 hnot hstored).1
    rw [hstill] at hpassed
    cases hpassed
  apply hgone
  refine (registers_unsubscribe _ _).mpr ⟨?_, hregistered⟩
  intro hsame
  rw [hsame] at hregistered
  obtain rfl := hregistered.unique hvisited
  rw [hknown.1.id] at hahead
  exact lt_irrefl _ hahead

/-- The walk takes the entry of the node it stands at away. -/
theorem Sound.visit (hsound : Sound state) (hsweep : state.sweep = .unsubscribe node)
    {next : Sweep β} (hnext : next = .request node ∨ next = .advance node) :
    Sound { state with
      eventMap := (Server.unsubscribe state.eventMap node.eventName).2
      sweep := next } := by
  have hbefore : state.sweep ≠ .returned := by
    rw [hsweep]
    nofun
  have hreturned : next ≠ .returned := by rcases hnext with rfl | rfl <;> nofun
  have hremains : ∀ id, next.remains id = decide (node.id < id) := by
    intro id
    rcases hnext with rfl | rfl <;> rfl
  have halive : state.subscriptions.lookup node.id = some node :=
    hsound.alive node (by rw [hsweep]; rfl)
  constructor
  · rcases hnext with rfl | rfl <;> nofun
  · intro other hother
    obtain rfl : node = other := by rcases hnext with rfl | rfl <;> exact Option.some.inj hother
    exact halive
  · exact hsound.ids
  · exact hsound.stored
  · intro id other hmem
    obtain ⟨hid, hlt, hcases⟩ := hsound.returned id other hmem
    refine ⟨hid, hlt, ?_⟩
    rcases hcases with ⟨hstored, hentered⟩ | ⟨hnone, hgone⟩
    · left
      refine ⟨hstored, ?_⟩
      have hahead := hsound.entered_visit_iff hsweep hmem hstored
        (by simpa [hbefore] using hentered)
      show _ ↔ next.remains id = true ∨ next = .returned
      rw [hahead, hremains, decide_eq_true_iff]
      simp [hreturned]
    · exact .inr ⟨hnone, fun hstill => hgone hstill.of_unsubscribe⟩
  · intro key other hkey
    obtain ⟨_, hold⟩ := (registers_unsubscribe _ _).mp hkey
    obtain ⟨hname, hmade⟩ := hsound.entries key other hold
    exact ⟨fun _ => hname hbefore, hmade⟩
  · intro call hcall
    have hknown := hsound.call call hcall
    apply hknown.of_walk hbefore fun _ _ hkey => ((registers_unsubscribe _ _).mp hkey).2
    intro other hstage hgone hstored
    rw [hstage] at hknown
    refine ⟨?_, hreturned⟩
    rw [hremains, decide_eq_false_iff_not]
    exact hsound.not_lt_of_gone hsweep hknown hgone hstored
  · exact hsound.discarded

/-- `clear()` discards nodes that have no entries. -/
theorem Sound.clear (hsound : Sound state) (hsweep : state.sweep = .clear) :
    Sound { state with
      subscriptions := ∅
      sweep := .returned
      discarded := state.subscriptions.entries.map fun entry : (_ : ℕ) × Node β => entry.2 } := by
  have hbefore : state.sweep ≠ .returned := by
    rw [hsweep]
    nofun
  constructor
  · nofun
  · nofun
  · intro id node hstored
    simp at hstored
  · intro id node hstored
    simp at hstored
  · intro id node hmem
    obtain ⟨hid, hlt, hcases⟩ := hsound.returned id node hmem
    refine ⟨hid, hlt, .inr ⟨by simp, ?_⟩⟩
    rcases hcases with ⟨_, hentered⟩ | ⟨_, hgone⟩
    · intro hstill
      rcases hentered.mp hstill with hahead | hreturned
      · rw [hsweep] at hahead
        cases hahead
      · exact hbefore hreturned
    · exact hgone
  · intro key node hkey
    exact ⟨fun hnot => absurd rfl hnot, (hsound.entries key node hkey).2⟩
  · intro call hcall
    have hstage := hsound.call call hcall
    cases hcases : call.stage with
    | store => simp [StageSound]
    | locate => exact fun hnot => absurd rfl hnot
    | subscribe node =>
        rw [hcases] at hstage
        exact ⟨hstage.id, .inr (by simp), fun hnot => absurd rfl hnot⟩
    | request node =>
        rw [hcases] at hstage
        refine ⟨⟨hstage.1.id, .inr (by simp), fun hnot => absurd rfl hnot⟩, hstage.2.1, ?_⟩
        intro _ hstored
        simp at hstored
    | rollback node status =>
        rw [hcases] at hstage
        exact hstage
    | erase status => trivial
  · intro node hnode
    obtain ⟨⟨id, stored⟩, hentry, rfl⟩ := List.mem_map.mp hnode
    have hstored := StdMap.mem_entries_iff_lookup.mp hentry
    exact ⟨(hsound.ids id stored hstored).2, fun _ => by simp⟩

end Walk

/-! ## Runs -/

theorem Sound.step {state next : State β} {action : Action β} (hsound : Sound state)
    (hintime : InTime state action) (hstep : Step state action next) : Sound next := by
  cases hstep with
  | begin eventName notification hidle => exact hsound.begin hidle eventName notification
  | store call address hcall hstage => exact hsound.store hcall hstage address
  | find call address node hcall hstage hnode => exact hsound.find hcall hstage hnode
  | make call address hcall hstage hnone => exact hsound.make hcall hstage hnone address
  | refuse call connected node status hcall hstage =>
      exact hsound.setStage hcall (by nofun) (by rw [hstage]; nofun) trivial
  | insert call connected node hcall hstage hfree => exact hsound.insert hcall hstage hfree
  | succeed call outcome node hcall hstage hstatus =>
      apply hsound.succeed hcall hstage
      apply hintime hstatus (call.eventName, node)
      simp [State.requested, hcall, hstage]
  | fail call outcome node hcall hstage hstatus =>
      have hknown : StageSound state call.eventName (.request node) := by
        rw [← hstage]
        exact hsound.call call hcall
      have hrollback : StageSound state call.eventName (.rollback node outcome.status) :=
        ⟨hknown.1.id, hknown.2.1⟩
      apply hsound.setStage hcall (by nofun) _ hrollback
      intro other hother
      rw [hstage] at hother
      exact hother
  | rollback call node status hcall hstage => exact hsound.rollback hcall hstage
  | erase call status hcall hstage => exact hsound.erase hcall hstage hintime
  | start hsweep => exact hsound.start hsweep
  | visit node next hsweep hnode hnext => exact hsound.visit hsweep hnext
  | requested node hsweep hnode => exact hsound.requested hsweep
  | advance node hsweep hnode => exact hsound.advance hsweep
  | crash node hsweep hlost =>
      have hstands : state.sweep.node = some node := by
        rcases hsweep with hsweep | hsweep | hsweep <;> rw [hsweep] <;> rfl
      exact absurd (hsound.alive node hstands) hlost
  | clear hsweep => exact hsound.clear hsweep

theorem sound_initial {eventMap : EventMap (Option (Node β))}
    (hothers : ∀ node, ¬ Entered eventMap node) : Sound (initial eventMap) where
  running := nofun
  alive := nofun
  ids id node hstored := by simp [initial] at hstored
  stored id node hstored := by simp [initial] at hstored
  returned id node hreturned := by cases hreturned
  entries key node hkey := absurd ⟨key, hkey⟩ (hothers node)
  call := nofun
  discarded node hnode := by cases hnode

variable [DecidableEq β]

instance (eventMap : EventMap (Option (Node β))) (key : Text) (node : Node β) :
    Decidable (Registers eventMap key node) :=
  inferInstanceAs (Decidable (_ = _))

instance (state : State β) : (action : Action β) → Decidable (InTime state action)
  | .answer outcome => inferInstanceAs (Decidable (outcome.status = .none →
      ∀ requested ∈ state.requested, Registers state.eventMap (getKeyFromEvent requested.1)
        requested.2 → state.subscriptions.lookup state.currentId = some requested.2 ∧
          (state.sweep.remains state.currentId = true ∨ state.sweep = .returned)))
  | .erase => inferInstanceAs (Decidable (∀ node ∈ state.sweep.node, node.id ≠ state.currentId))
  | .begin _ _ | .store _ | .locate _ | .subscribe _ | .rollback | .sweep =>
      inferInstanceAs (Decidable True)

/-- **When `unsubscribeAll` tolerates a concurrent `subscribe`.**  In every run of one
`unsubscribeAll` beside calls of `subscribe` whose steps are all in time, `unsubscribeAll` never
comes back to an erased node, and whenever all have returned, no entry leads to a node that
`clear()` discarded and every returned identifier names stored data with its entry or has lost
both. -/
theorem tolerates_throughout_of_inTime (eventMap : EventMap (Option (Node β)))
    (hothers : ∀ node, ¬ Entered eventMap node) (schedule : List (Action β))
    (hintime : Meets step InTime (initial eventMap) schedule) :
    Throughout step (initial eventMap) schedule Tolerates :=
  throughout_of_meets (sound_initial hothers) (fun _ hsound => hsound.tolerates)
    (fun _ _ _ hsound hstep htaken => hsound.step hstep (step_cases htaken)) hintime

/-- The peer agrees to listen. -/
def listening : ListenOutcome := ⟨.none, ⟨true, true⟩⟩

/-- The walk comes to a node while its request is in progress. -/
def sweptWhileRequesting : List (Action Unit) :=
  [.begin "A.onB".toList (), .store 16, .locate 0, .subscribe true, .sweep, .sweep,
    .answer listening, .sweep, .sweep, .sweep]

theorem tolerates_sweptWhileRequesting :
    ∃ final, exec step (initial ∅) sweptWhileRequesting = some final ∧ Tolerates final := by
  obtain ⟨final, hrun, _⟩ : ∃ final : State Unit,
      exec step (initial ∅) sweptWhileRequesting = some final ∧
        decide (final.sweep = .returned) = true := exists_exec_of_any (by decide)
  have hothers : ∀ node : Node Unit, ¬ Entered ∅ node := by
    intro node hentered
    obtain ⟨key, hkey⟩ := hentered
    exact not_registers_of_free rfl hkey
  exact ⟨final, hrun,
    (tolerates_throughout_of_inTime ∅ hothers sweptWhileRequesting (by decide)).last hrun⟩

/-- A call begins when the loop is over, and returns before `clear()`. -/
def subscribedBeforeClear : List (Action Unit) :=
  [.sweep, .begin "A.onB".toList (), .store 16, .locate 0, .subscribe true, .answer listening,
    .sweep]

/-- `clear()` discards the node of a subscription whose entry stays in the map. -/
theorem entered_after_clear :
    ∃ final, exec step (initial ∅) subscribedBeforeClear = some final ∧ final.call = none ∧
      final.sweep = .returned ∧ ∃ node ∈ final.discarded, Entered final.eventMap node := by
  obtain ⟨final, hrun, hfacts⟩ : ∃ final : State Unit,
      exec step (initial ∅) subscribedBeforeClear = some final ∧
        (decide (final.call = none) && decide (final.sweep = .returned) &&
          final.discarded.any fun node =>
            decide (Registers final.eventMap "A.b".toList node)) = true :=
    exists_exec_of_any (by decide)
  simp only [Bool.and_eq_true, decide_eq_true_eq, List.any_eq_true] at hfacts
  obtain ⟨⟨hcall, hsweep⟩, node, hnode, hkey⟩ := hfacts
  exact ⟨final, hrun, hcall, hsweep, node, hnode, "A.b".toList, hkey⟩

end FireboltTransport.Helpers.Clearing
