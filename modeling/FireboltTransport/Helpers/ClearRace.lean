/-
# What a concurrent `unsubscribeAll` leaves behind

An entry of the event map is taken away by the walk when it comes to the entry's
node, so a subscription is swept exactly when its entry is made before the walk has
passed its node.  As long as no call succeeds later than that, and no call that
fails takes away the node the walk stands at, a stored subscription has its entry
until the walk comes to it and none from then on.
-/

import FireboltTransport.Helpers.Clearing
import FireboltTransport.Semantics.Run

namespace FireboltTransport.Helpers.Clearing

open Semantics Server GatewayImpl

universe u

variable {β : Type u}

/-! ## Entries -/

/-- The entry under the key leads to the node. -/
def Registers (eventMap : EventMap (Option (Node β))) (key : Text) (node : Node β) : Prop :=
  (eventMap.lookup key).map CallbackDataEvent.lambda = some (some node)

/-- Some entry leads to the node. -/
def Entered (eventMap : EventMap (Option (Node β))) (node : Node β) : Prop :=
  ∃ key, Registers eventMap key node

section Entries

variable {eventMap : EventMap (Option (Node β))} {key : Text} {node other : Node β}

theorem Registers.unique (hnode : Registers eventMap key node)
    (hother : Registers eventMap key other) : node = other :=
  Option.some.inj (Option.some.inj (hnode.symm.trans hother))

theorem not_registers_of_free (hfree : eventMap.lookup key = none) :
    ¬ Registers eventMap key node := by
  simp [Registers, hfree]

theorem registers_insert (hfree : eventMap.lookup key = none) (place : Text) :
    Registers (eventMap.insert key node.entry) place other ↔
      (place = key ∧ other = node) ∨ Registers eventMap place other := by
  unfold Registers
  rw [StdMap.lookup_insert_of_eq_or_ne]
  split_ifs with hplace
  · rw [hplace, hfree]
    simp [Node.entry, eq_comm]
  · simp [hplace]

theorem registers_unsubscribe (event place : Text) :
    Registers (Server.unsubscribe eventMap event).2 place node ↔
      place ≠ getKeyFromEvent event ∧ Registers eventMap place node := by
  unfold Registers
  rw [lookup_unsubscribe]
  split_ifs with hplace
  · simp [hplace]
  · simp [hplace]

theorem Entered.of_unsubscribe {event : Text}
    (hentered : Entered (Server.unsubscribe eventMap event).2 node) : Entered eventMap node := by
  obtain ⟨place, hplace⟩ := hentered
  exact ⟨place, ((registers_unsubscribe event place).mp hplace).2⟩

end Entries

/-! ## The walk -/

/-- The walk has yet to take the entry of the node under `id` away. -/
def Sweep.remains : Sweep β → ℕ → Bool
  | .idle, _ => true
  | .unsubscribe node, id => node.id ≤ id
  | .request node, id | .advance node, id => node.id < id
  | .clear, _ | .returned, _ | .crashed, _ => false

/-- The node the walk stands at. -/
def Sweep.node : Sweep β → Option (Node β)
  | .unsubscribe node | .request node | .advance node => some node
  | .idle | .clear | .returned | .crashed => none

/-- The node a call has registered, or has asked the server to. -/
def Stage.registered : Stage β → Option (Node β)
  | .request node | .rollback node _ => some node
  | .store | .locate | .subscribe _ | .erase _ => none

/-- The event and the node of the request in progress. -/
def State.requested (state : State β) : Option (Text × Node β) :=
  state.call.bind fun call =>
    match call.stage with
    | .request node => some (call.eventName, node)
    | _ => none

/-- A step is in time: a call that succeeds with its entry in the map has a node that the walk
is still to come to, or one that was made after `clear()`; and a call that fails does not erase
the node the walk stands at. -/
def InTime (state : State β) : Action β → Prop
  | .answer outcome => outcome.status = .none → ∀ requested ∈ state.requested,
      Registers state.eventMap (getKeyFromEvent requested.1) requested.2 →
        state.subscriptions.lookup state.currentId = some requested.2 ∧
          (state.sweep.remains state.currentId = true ∨ state.sweep = .returned)
  | .erase => ∀ node ∈ state.sweep.node, node.id ≠ state.currentId
  | .begin _ _ | .store _ | .locate _ | .subscribe _ | .rollback | .sweep => True

/-- `unsubscribeAll` did not come back to an erased node, and once it and every call have
returned, no entry leads to a discarded node, and an identifier that was returned names stored
data that has its entry, or has lost both. -/
structure Tolerates (state : State β) : Prop where
  running : state.sweep ≠ .crashed
  discarded : state.call = none → state.sweep = .returned →
    ∀ node ∈ state.discarded, ¬ Entered state.eventMap node
  returned : state.call = none → state.sweep = .returned →
    ∀ id node, (id, node) ∈ state.returned →
      (state.subscriptions.lookup id = some node ∧ Entered state.eventMap node) ∨
        (state.subscriptions.lookup id = none ∧ ¬ Entered state.eventMap node)

/-! ## The invariant -/

/-- The node a call holds the address of is the one it stored, or `clear()` has run. -/
structure Placed (state : State β) (eventName : Text) (node : Node β) : Prop where
  id : node.id = state.currentId
  stored : state.subscriptions.lookup state.currentId = some node ∨
    state.subscriptions.lookup state.currentId = none
  kept : state.sweep ≠ .returned →
    state.subscriptions.lookup state.currentId = some node ∧ node.eventName = eventName

/-- What a call knows at a stage. -/
def StageSound (state : State β) (eventName : Text) : Stage β → Prop
  | .store => state.subscriptions.lookup state.currentId = none
  | .locate => state.sweep ≠ .returned →
      ∃ node, state.subscriptions.lookup state.currentId = some node ∧ node.eventName = eventName
  | .subscribe node => Placed state eventName node
  | .request node => Placed state eventName node ∧
      (∀ other, Registers state.eventMap (getKeyFromEvent eventName) other → other = node) ∧
      (¬ Registers state.eventMap (getKeyFromEvent eventName) node →
        state.subscriptions.lookup state.currentId = some node →
          state.sweep.remains state.currentId = false ∧ state.sweep ≠ .returned)
  | .rollback node _ => node.id = state.currentId ∧
      ∀ other, Registers state.eventMap (getKeyFromEvent eventName) other → other = node
  | .erase _ => True

structure Sound (state : State β) : Prop where
  running : state.sweep ≠ .crashed
  alive : ∀ node ∈ state.sweep.node, state.subscriptions.lookup node.id = some node
  ids : ∀ id node, state.subscriptions.lookup id = some node →
    node.id = id ∧ node.serial < state.made
  stored : ∀ id node, state.subscriptions.lookup id = some node →
    (∃ other, (id, other) ∈ state.returned) ∨
      (id = state.currentId ∧ ∃ call, state.call = some call ∧ call.stage ≠ .store)
  /-- A stored subscription has its entry until the walk comes to its node, and a new one
  after `clear()`. -/
  returned : ∀ id node, (id, node) ∈ state.returned → node.id = id ∧ id < state.currentId ∧
    ((state.subscriptions.lookup id = some node ∧ (Entered state.eventMap node ↔
        state.sweep.remains id = true ∨ state.sweep = .returned)) ∨
      (state.subscriptions.lookup id = none ∧ ¬ Entered state.eventMap node))
  entries : ∀ key node, Registers state.eventMap key node →
    (state.sweep ≠ .returned → key = getKeyFromEvent node.eventName) ∧
      ((node.id, node) ∈ state.returned ∨ ∃ call, state.call = some call ∧
        call.stage.registered = some node ∧ key = getKeyFromEvent call.eventName)
  call : ∀ call, state.call = some call → StageSound state call.eventName call.stage
  discarded : ∀ node ∈ state.discarded, node.serial < state.made ∧
    ∀ id, state.subscriptions.lookup id ≠ some node

theorem Sound.tolerates {state : State β} (hsound : Sound state) : Tolerates state where
  running := hsound.running
  discarded hcall _ node hdiscarded hentered := by
    obtain ⟨key, hkey⟩ := hentered
    obtain ⟨_, hreturned | ⟨call, hactive, _⟩⟩ := hsound.entries key node hkey
    · obtain ⟨_, _, ⟨hstored, _⟩ | ⟨_, hgone⟩⟩ := hsound.returned node.id node hreturned
      · exact (hsound.discarded node hdiscarded).2 node.id hstored
      · exact hgone ⟨key, hkey⟩
    · rw [hcall] at hactive
      cases hactive
  returned _ hsweep id node hreturned := by
    obtain ⟨_, _, ⟨hstored, hentered⟩ | hlost⟩ := hsound.returned id node hreturned
    · exact .inl ⟨hstored, hentered.mpr (.inr hsweep)⟩
    · exact .inr hlost

section Facts

variable {state : State β} {call : Call β} {node : Node β}

/-- The node of a call has not been returned. -/
theorem Sound.not_mem_returned (hsound : Sound state) (hid : node.id = state.currentId) :
    (node.id, node) ∉ state.returned := by
  intro hreturned
  have hlt := (hsound.returned node.id node hreturned).2.1
  omega

/-- All entries that lead to the node of a call are under the key of its event. -/
theorem Sound.registers_of_entered (hsound : Sound state) (hcall : state.call = some call)
    (hid : node.id = state.currentId) (hentered : Entered state.eventMap node) :
    Registers state.eventMap (getKeyFromEvent call.eventName) node ∧
      call.stage.registered = some node := by
  obtain ⟨key, hkey⟩ := hentered
  obtain ⟨_, hreturned | ⟨other, hother, hregistered, rfl⟩⟩ := hsound.entries key node hkey
  · exact absurd hreturned (hsound.not_mem_returned hid)
  · obtain rfl := Option.some.inj (hcall.symm.trans hother)
    exact ⟨hkey, hregistered⟩

/-- A stored subscription that the walk is still to come to has its entry under its own key. -/
theorem Sound.registers_of_remains (hsound : Sound state) {id : ℕ}
    (hreturned : (id, node) ∈ state.returned)
    (hstored : state.subscriptions.lookup id = some node)
    (hremains : state.sweep.remains id = true) :
    Registers state.eventMap (getKeyFromEvent node.eventName) node := by
  have hsweep : state.sweep ≠ .returned := by
    intro hsweep
    rw [hsweep] at hremains
    cases hremains
  obtain ⟨_, _, ⟨_, hentered⟩ | ⟨hnone, _⟩⟩ := hsound.returned id node hreturned
  · obtain ⟨key, hkey⟩ := hentered.mpr (.inl hremains)
    rwa [(hsound.entries key node hkey).1 hsweep] at hkey
  · rw [hstored] at hnone
    cases hnone

/-- The node of a call that has not stored yet is not there. -/
theorem Sound.lookup_currentId (hsound : Sound state) (hcall : state.call = none) :
    state.subscriptions.lookup state.currentId = none := by
  by_contra hsome
  obtain ⟨node, hnode⟩ := Option.ne_none_iff_exists'.mp hsome
  rcases hsound.stored _ _ hnode with ⟨other, hreturned⟩ | ⟨_, call, hactive, _⟩
  · have hlt := (hsound.returned _ _ hreturned).2.1
    omega
  · rw [hcall] at hactive
    cases hactive

/-- A stored node below `currentId_` has been returned. -/
theorem Sound.mem_returned (hsound : Sound state) {id : ℕ}
    (hstored : state.subscriptions.lookup id = some node) (hlt : id < state.currentId) :
    (id, node) ∈ state.returned := by
  rcases hsound.stored id node hstored with ⟨other, hreturned⟩ | ⟨hid, _⟩
  · obtain ⟨_, _, ⟨hother, _⟩ | ⟨hnone, _⟩⟩ := hsound.returned id other hreturned
    · obtain rfl := Option.some.inj (hstored.symm.trans hother)
      exact hreturned
    · rw [hstored] at hnone
      cases hnone
  · omega

theorem Sound.id_le (hsound : Sound state) {id : ℕ}
    (hstored : state.subscriptions.lookup id = some node) : id ≤ state.currentId := by
  rcases hsound.stored id node hstored with ⟨other, hreturned⟩ | ⟨hid, _⟩
  · exact (hsound.returned id other hreturned).2.1.le
  · exact hid.le

end Facts

/-! ## The steps of a call -/

section Call

variable {state : State β} {call : Call β} {node : Node β}

/-- What a call knows is about the data alone. -/
theorem StageSound.setStage {eventName : Text} {known stage : Stage β}
    (hstage : StageSound state eventName known) :
    StageSound (state.setStage call stage) eventName known := by
  cases known with
  | subscribe node => exact ⟨hstage.id, hstage.stored, hstage.kept⟩
  | request node =>
      obtain ⟨hplaced, hown, hswept⟩ := hstage
      exact ⟨⟨hplaced.id, hplaced.stored, hplaced.kept⟩, hown, hswept⟩
  | store | locate | rollback | erase => exact hstage

/-- The call goes on to another stage. -/
theorem Sound.setStage (hsound : Sound state) (hcall : state.call = some call) {stage : Stage β}
    (hlater : stage ≠ .store)
    (hregistered : ∀ node, call.stage.registered = some node → stage.registered = some node)
    (hstage : StageSound state call.eventName stage) : Sound (state.setStage call stage) where
  running := hsound.running
  alive := hsound.alive
  ids := hsound.ids
  stored id node hstored := by
    rcases hsound.stored id node hstored with hreturned | ⟨hid, _⟩
    · exact .inl hreturned
    · exact .inr ⟨hid, _, rfl, hlater⟩
  returned := hsound.returned
  entries key node hkey := by
    obtain ⟨hname, hreturned | ⟨other, hother, hnode, rfl⟩⟩ := hsound.entries key node hkey
    · exact ⟨hname, .inl hreturned⟩
    · obtain rfl := Option.some.inj (hcall.symm.trans hother)
      exact ⟨hname, .inr ⟨_, rfl, hregistered node hnode, rfl⟩⟩
  call other hother := by
    obtain rfl := Option.some.inj hother
    exact hstage.setStage
  discarded := hsound.discarded

theorem Sound.begin (hsound : Sound state) (hidle : state.call = none) (eventName : Text)
    (notification : β) :
    Sound { state with call := some ⟨eventName, notification, .store⟩ } where
  running := hsound.running
  alive := hsound.alive
  ids := hsound.ids
  stored id node hstored := by
    rcases hsound.stored id node hstored with hreturned | ⟨_, call, hcall, _⟩
    · exact .inl hreturned
    · rw [hidle] at hcall
      cases hcall
  returned := hsound.returned
  entries key node hkey := by
    obtain ⟨hname, hreturned | ⟨call, hcall, _⟩⟩ := hsound.entries key node hkey
    · exact ⟨hname, .inl hreturned⟩
    · rw [hidle] at hcall
      cases hcall
  call other hother := by
    obtain rfl := Option.some.inj hother
    exact hsound.lookup_currentId hidle
  discarded := hsound.discarded

/-- A new node under `currentId_`, and the call goes on to a stage that has one. -/
theorem Sound.addNode (hsound : Sound state) (hcall : state.call = some call)
    (hnone : state.subscriptions.lookup state.currentId = none) {stage : Stage β}
    (hlater : stage ≠ .store) (hregistered : call.stage.registered = none)
    (address : UInt64) (eventName : Text) (notification : Option β)
    (hstage : StageSound (state.addNode (state.newNode address eventName notification))
      call.eventName stage) :
    Sound ((state.addNode (state.newNode address eventName notification)).setStage call stage) := by
  have hlookup : ∀ id, (state.subscriptions.insert state.currentId
      (state.newNode address eventName notification)).lookup id =
        if id = state.currentId then some (state.newNode address eventName notification)
        else state.subscriptions.lookup id :=
    fun id => StdMap.lookup_insert_of_eq_or_ne _ _ _ _
  constructor
  · exact hsound.running
  · intro node hnode
    have halive := hsound.alive node hnode
    show (state.subscriptions.insert _ _).lookup node.id = some node
    rw [hlookup, if_neg]
    · exact halive
    · intro hid
      rw [hid, hnone] at halive
      cases halive
  · intro id node hstored
    replace hstored : (state.subscriptions.insert _ _).lookup id = some node := hstored
    show node.id = id ∧ node.serial < state.made + 1
    rw [hlookup] at hstored
    split_ifs at hstored with hid
    · obtain rfl := Option.some.inj hstored
      exact ⟨hid.symm, Nat.lt_succ_self _⟩
    · have hold := hsound.ids id node hstored
      exact ⟨hold.1, hold.2.trans (Nat.lt_succ_self _)⟩
  · intro id node hstored
    replace hstored : (state.subscriptions.insert _ _).lookup id = some node := hstored
    rw [hlookup] at hstored
    split_ifs at hstored with hid
    · exact .inr ⟨hid, _, rfl, hlater⟩
    · rcases hsound.stored id node hstored with hreturned | ⟨hsame, _⟩
      · exact .inl hreturned
      · exact absurd hsame hid
  · intro id node hreturned
    obtain ⟨hid, hlt, hcases⟩ := hsound.returned id node hreturned
    show _ ∧ _ ∧ (((state.subscriptions.insert _ _).lookup id = some node ∧ _) ∨
      ((state.subscriptions.insert _ _).lookup id = none ∧ _))
    rw [hlookup, if_neg hlt.ne]
    exact ⟨hid, hlt, hcases⟩
  · intro key node hkey
    obtain ⟨hname, hreturned | ⟨other, hother, hnode, _⟩⟩ := hsound.entries key node hkey
    · exact ⟨hname, .inl hreturned⟩
    · obtain rfl := Option.some.inj (hcall.symm.trans hother)
      rw [hregistered] at hnode
      cases hnode
  · intro other hother
    obtain rfl := Option.some.inj hother
    exact hstage.setStage
  · intro node hnode
    obtain ⟨hserial, hnot⟩ := hsound.discarded node hnode
    refine ⟨hserial.trans (Nat.lt_succ_self _), ?_⟩
    intro id hstored
    replace hstored : (state.subscriptions.insert _ _).lookup id = some node := hstored
    rw [hlookup] at hstored
    split_ifs at hstored with hid
    · have hsame : state.made = node.serial :=
        congrArg Node.serial (Option.some.inj hstored)
      omega
    · exact hnot id hstored

/-- What the new node is found as. -/
theorem lookup_addNode (node : Node β) :
    (state.addNode node).subscriptions.lookup (state.addNode node).currentId = some node :=
  AList.lookup_insert _

theorem Sound.store (hsound : Sound state) (hcall : state.call = some call)
    (hstage : call.stage = .store) (address : UInt64) :
    Sound ((state.addNode (state.newNode address call.eventName
      (some call.notification))).setStage call .locate) := by
  have hnone : state.subscriptions.lookup state.currentId = none := by
    have hknown := hsound.call call hcall
    rwa [hstage] at hknown
  have hlocate : StageSound (state.addNode (state.newNode address call.eventName
      (some call.notification))) call.eventName .locate :=
    fun _ => ⟨_, lookup_addNode _, rfl⟩
  exact hsound.addNode hcall hnone (by nofun) (by rw [hstage]; rfl) _ _ _ hlocate

theorem Sound.find (hsound : Sound state) (hcall : state.call = some call)
    (hstage : call.stage = .locate)
    (hnode : state.subscriptions.lookup state.currentId = some node) :
    Sound (state.setStage call (.subscribe node)) := by
  have hknown := hsound.call call hcall
  rw [hstage] at hknown
  have hplaced : StageSound state call.eventName (.subscribe node) := by
    refine ⟨(hsound.ids _ _ hnode).1, .inl hnode, ?_⟩
    intro hsweep
    obtain ⟨found, hfound, hname⟩ := hknown hsweep
    obtain rfl := Option.some.inj (hnode.symm.trans hfound)
    exact ⟨hnode, hname⟩
  exact hsound.setStage hcall (by nofun) (by rw [hstage]; nofun) hplaced

theorem Sound.make (hsound : Sound state) (hcall : state.call = some call)
    (hstage : call.stage = .locate)
    (hnone : state.subscriptions.lookup state.currentId = none) (address : UInt64) :
    Sound ((state.addNode (state.newNode address [] none)).setStage call
      (.subscribe (state.newNode address [] none))) := by
  have hknown := hsound.call call hcall
  rw [hstage] at hknown
  have hplaced : StageSound (state.addNode (state.newNode address [] none)) call.eventName
      (.subscribe (state.newNode address [] none)) := by
    refine ⟨rfl, .inl (lookup_addNode _), ?_⟩
    intro hsweep
    obtain ⟨found, hfound, _⟩ := hknown hsweep
    rw [hnone] at hfound
    cases hfound
  exact hsound.addNode hcall hnone (by nofun) (by rw [hstage]; rfl) _ _ _ hplaced

/-- The insertion of an entry under a free key. -/
theorem Sound.insert (hsound : Sound state) (hcall : state.call = some call)
    (hstage : call.stage = .subscribe node)
    (hfree : state.eventMap.lookup (getKeyFromEvent call.eventName) = none) :
    Sound ({ state with
      eventMap := state.eventMap.insert (getKeyFromEvent call.eventName) node.entry
      }.setStage call (.request node)) := by
  have hplaced := hsound.call call hcall
  rw [hstage] at hplaced
  have hentered : ∀ other, other ≠ node →
      (Entered (state.eventMap.insert (getKeyFromEvent call.eventName) node.entry) other ↔
        Entered state.eventMap other) := by
    intro other hother
    apply exists_congr
    intro place
    rw [registers_insert hfree]
    simp [hother]
  constructor
  · exact hsound.running
  · exact hsound.alive
  · exact hsound.ids
  · intro id other hstored
    rcases hsound.stored id other hstored with hreturned | ⟨hid, _⟩
    · exact .inl hreturned
    · exact .inr ⟨hid, _, rfl, nofun⟩
  · intro id other hreturned
    obtain ⟨hid, hlt, hcases⟩ := hsound.returned id other hreturned
    have hother : other ≠ node := by
      rintro rfl
      rw [hplaced.id] at hid
      omega
    refine ⟨hid, hlt, ?_⟩
    show (_ ∧ (Entered (state.eventMap.insert _ _) other ↔ _)) ∨
      (_ ∧ ¬ Entered (state.eventMap.insert _ _) other)
    rw [hentered other hother]
    exact hcases
  · intro key other hkey
    rcases (registers_insert hfree key).mp hkey with ⟨rfl, rfl⟩ | hold
    · refine ⟨?_, .inr ⟨_, rfl, rfl, rfl⟩⟩
      intro hsweep
      rw [(hplaced.kept hsweep).2]
    · obtain ⟨hname, hreturned | ⟨active, hactive, hnode, _⟩⟩ := hsound.entries key other hold
      · exact ⟨hname, .inl hreturned⟩
      · obtain rfl := Option.some.inj (hcall.symm.trans hactive)
        rw [hstage] at hnode
        cases hnode
  · intro active hactive
    obtain rfl := Option.some.inj hactive
    refine ⟨⟨hplaced.id, hplaced.stored, hplaced.kept⟩, ?_, ?_⟩
    · intro other hother
      rcases (registers_insert hfree _).mp hother with ⟨_, hsame⟩ | hold
      · exact hsame
      · exact absurd hold (not_registers_of_free hfree)
    · intro hnot
      exact absurd ((registers_insert hfree _).mpr (.inl ⟨rfl, rfl⟩)) hnot
  · exact hsound.discarded

/-- The identifier of a call that succeeds in time. -/
theorem Sound.succeed (hsound : Sound state) (hcall : state.call = some call)
    (hstage : call.stage = .request node)
    (hintime : Registers state.eventMap (getKeyFromEvent call.eventName) node →
      state.subscriptions.lookup state.currentId = some node ∧
        (state.sweep.remains state.currentId = true ∨ state.sweep = .returned)) :
    Sound { state with
      call := none
      currentId := state.currentId + 1
      returned := (state.currentId, node) :: state.returned } := by
  obtain ⟨hplaced, _, hswept⟩ : StageSound state call.eventName (.request node) := by
    rw [← hstage]
    exact hsound.call call hcall
  have hregisters := fun hentered : Entered state.eventMap node =>
    (hsound.registers_of_entered hcall hplaced.id hentered).1
  constructor
  · exact hsound.running
  · exact hsound.alive
  · exact hsound.ids
  · intro id other hstored
    left
    rcases hsound.stored id other hstored with ⟨earlier, hreturned⟩ | ⟨rfl, _⟩
    · exact ⟨earlier, List.mem_cons_of_mem _ hreturned⟩
    · exact ⟨node, List.mem_cons_self⟩
  · intro id other hreturned
    rcases List.mem_cons.mp hreturned with hlast | hold
    · obtain ⟨rfl, rfl⟩ := Prod.mk.inj hlast
      refine ⟨hplaced.id, Nat.lt_succ_self _, ?_⟩
      rcases hplaced.stored with hstored | hnone
      · left
        refine ⟨hstored, ?_⟩
        constructor
        · exact fun hentered => (hintime (hregisters hentered)).2
        · intro hlate
          by_contra hnot
          obtain ⟨hpassed, hsweep⟩ := hswept (fun hkey => hnot ⟨_, hkey⟩) hstored
          rcases hlate with hremains | hreturned
          · rw [hpassed] at hremains
            cases hremains
          · exact hsweep hreturned
      · right
        refine ⟨hnone, ?_⟩
        intro hentered
        have hstored := (hintime (hregisters hentered)).1
        rw [hnone] at hstored
        cases hstored
    · obtain ⟨hid, hlt, hcases⟩ := hsound.returned id other hold
      exact ⟨hid, hlt.trans (Nat.lt_succ_self _), hcases⟩
  · intro key other hkey
    obtain ⟨hname, hreturned | ⟨active, hactive, hnode, _⟩⟩ := hsound.entries key other hkey
    · exact ⟨hname, .inl (List.mem_cons_of_mem _ hreturned)⟩
    · obtain rfl := Option.some.inj (hcall.symm.trans hactive)
      rw [hstage] at hnode
      obtain rfl := Option.some.inj hnode
      refine ⟨hname, .inl ?_⟩
      rw [hplaced.id]
      exact List.mem_cons_self
  · nofun
  · exact hsound.discarded

/-- The rollback takes no other entry away. -/
theorem Sound.rollback (hsound : Sound state) (hcall : state.call = some call) {status : Error}
    (hstage : call.stage = .rollback node status) :
    Sound ({ state with
      eventMap := (Server.unsubscribe state.eventMap call.eventName).2
      }.setStage call (.erase status)) := by
  obtain ⟨hid, hown⟩ : StageSound state call.eventName (.rollback node status) := by
    rw [← hstage]
    exact hsound.call call hcall
  constructor
  · exact hsound.running
  · exact hsound.alive
  · exact hsound.ids
  · intro id other hstored
    rcases hsound.stored id other hstored with hreturned | ⟨hsame, _⟩
    · exact .inl hreturned
    · exact .inr ⟨hsame, _, rfl, nofun⟩
  · intro id other hreturned
    obtain ⟨hother, hlt, hcases⟩ := hsound.returned id other hreturned
    have hentered : Entered (Server.unsubscribe state.eventMap call.eventName).2 other ↔
        Entered state.eventMap other := by
      constructor
      · exact Entered.of_unsubscribe
      · intro hentered
        obtain ⟨place, hplace⟩ := hentered
        refine ⟨place, (registers_unsubscribe _ _).mpr ⟨?_, hplace⟩⟩
        rintro rfl
        obtain rfl := hown other hplace
        omega
    refine ⟨hother, hlt, ?_⟩
    show (_ ∧ (Entered (Server.unsubscribe _ _).2 other ↔ _)) ∨
      (_ ∧ ¬ Entered (Server.unsubscribe _ _).2 other)
    rw [hentered]
    exact hcases
  · intro key other hkey
    obtain ⟨hplace, hold⟩ := (registers_unsubscribe _ _).mp hkey
    obtain ⟨hname, hreturned | ⟨active, hactive, _, hsame⟩⟩ := hsound.entries key other hold
    · exact ⟨hname, .inl hreturned⟩
    · obtain rfl := Option.some.inj (hcall.symm.trans hactive)
      exact absurd hsame hplace
  · intro active hactive
    obtain rfl := Option.some.inj hactive
    trivial
  · exact hsound.discarded

/-- A call that fails takes its node away, unless the walk stands there. -/
theorem Sound.erase (hsound : Sound state) (hcall : state.call = some call) {status : Error}
    (hstage : call.stage = .erase status)
    (hintime : ∀ node ∈ state.sweep.node, node.id ≠ state.currentId) :
    Sound { state with
      call := none
      subscriptions := state.subscriptions.erase state.currentId } := by
  have hlookup : ∀ id, (state.subscriptions.erase state.currentId).lookup id =
      if id = state.currentId then none else state.subscriptions.lookup id :=
    fun id => StdMap.lookup_erase_of_eq_or_ne _ _ _
  have hkept : ∀ id other, (state.subscriptions.erase state.currentId).lookup id = some other →
      id ≠ state.currentId ∧ state.subscriptions.lookup id = some other := by
    intro id other hstored
    rw [hlookup] at hstored
    split_ifs at hstored with hid
    exact ⟨hid, hstored⟩
  constructor
  · exact hsound.running
  · intro other hother
    show (state.subscriptions.erase _).lookup other.id = some other
    rw [hlookup, if_neg (hintime other hother)]
    exact hsound.alive other hother
  · exact fun id other hstored => hsound.ids id other (hkept id other hstored).2
  · intro id other hstored
    obtain ⟨hid, hold⟩ := hkept id other hstored
    rcases hsound.stored id other hold with hreturned | ⟨hsame, _⟩
    · exact .inl hreturned
    · exact absurd hsame hid
  · intro id other hreturned
    obtain ⟨hid, hlt, hcases⟩ := hsound.returned id other hreturned
    show _ ∧ _ ∧ (((state.subscriptions.erase _).lookup id = some other ∧ _) ∨
      ((state.subscriptions.erase _).lookup id = none ∧ _))
    rw [hlookup, if_neg hlt.ne]
    exact ⟨hid, hlt, hcases⟩
  · intro key other hkey
    obtain ⟨hname, hreturned | ⟨active, hactive, hnode, _⟩⟩ := hsound.entries key other hkey
    · exact ⟨hname, .inl hreturned⟩
    · obtain rfl := Option.some.inj (hcall.symm.trans hactive)
      rw [hstage] at hnode
      cases hnode
  · nofun
  · intro other hother
    obtain ⟨hserial, hnot⟩ := hsound.discarded other hother
    exact ⟨hserial, fun id hstored => hnot id (hkept id other hstored).2⟩

end Call

end FireboltTransport.Helpers.Clearing
