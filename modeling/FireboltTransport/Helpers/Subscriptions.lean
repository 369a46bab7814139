/-
# Entries and the subscriptions they point to

An entry of the event map points to the `SubscriptionData` of a helper, which
lives in another map.  The two fit together when every entry points to a stored
node whose event has the entry's key.  Nodes have addresses of their own, so an
entry points to one node only; a node may be freed once no entry points to it.
-/

import FireboltTransport.Helpers.Operations

namespace FireboltTransport.Helpers

open Semantics Server

universe u v w x

variable {η : Type u} {β : Type v} {ρ : Type w}

/-! ## The order of a map -/

section Order

variable {ν : Type x} {subscriptions : StdMap ℕ ν} {start id : ℕ} {node : ν}

theorem mem_keys_filter : id ∈ (subscriptions.keys.filter fun id => start ≤ id) ↔
    subscriptions.lookup id ≠ none ∧ start ≤ id := by
  rw [List.mem_filter, ← AList.mem_keys, ne_eq, AList.lookup_eq_none, not_not, decide_eq_true_iff]

theorem nextNode_eq_some (hnext : nextNode subscriptions start = some (id, node)) :
    subscriptions.lookup id = some node ∧ start ≤ id ∧
      ∀ other, start ≤ other → other < id → subscriptions.lookup other = none := by
  obtain ⟨first, hmin, hlookup⟩ := Option.bind_eq_some_iff.mp hnext
  obtain ⟨found, hfound, hpair⟩ := Option.map_eq_some_iff.mp hlookup
  obtain ⟨rfl, rfl⟩ := Prod.mk.inj hpair
  obtain ⟨hmem, hleast⟩ := List.min?_eq_some_iff.mp hmin
  refine ⟨hfound, (mem_keys_filter.mp hmem).2, fun other hstart hlt => ?_⟩
  by_contra hother
  have hle := hleast other (mem_keys_filter.mpr ⟨hother, hstart⟩)
  omega

theorem nextNode_eq_none (hnext : nextNode subscriptions start = none) (hstart : start ≤ id) :
    subscriptions.lookup id = none := by
  by_contra hid
  have hmem : id ∈ (subscriptions.keys.filter fun id => start ≤ id) :=
    mem_keys_filter.mpr ⟨hid, hstart⟩
  cases hmin : (subscriptions.keys.filter fun id => start ≤ id).min? with
  | none =>
      rw [List.min?_eq_none_iff.mp hmin] at hmem
      cases hmem
  | some first =>
      have hfirst := (mem_keys_filter.mp (List.min?_eq_some_iff.mp hmin).1).1
      obtain ⟨node, hnode⟩ := Option.ne_none_iff_exists'.mp hfirst
      simp [nextNode, hmin, hnode] at hnext

end Order

/-- The node of a subscription. -/
def Data.node (data : Data η β ρ) (helper : η) (id : ℕ) : Option (SubscriptionData β) :=
  (data.subscriptions helper).lookup id

/-- No entry points to the address. -/
def Data.Unused (data : Data η β ρ) (address : UInt64) : Prop :=
  ∀ key callbackData, data.eventMap.lookup key = some callbackData →
    callbackData.usercb ≠ address

/-- The entries of the event map and the nodes of the helpers fit together. -/
structure Tidy (data : Data η β ρ) : Prop where
  allocated : ∀ helper id node, data.node helper id = some node → node.address ∈ data.allocated
  distinct : ∀ first firstId firstNode second secondId secondNode,
    data.node first firstId = some firstNode → data.node second secondId = some secondNode →
      firstNode.address = secondNode.address → first = second ∧ firstId = secondId
  stored : ∀ key callbackData, data.eventMap.lookup key = some callbackData →
    ∃ helper id node, data.node helper id = some node ∧
      node.address = callbackData.usercb ∧ getKeyFromEvent node.eventName = key
  id_le : ∀ helper id node, data.node helper id = some node → id ≤ data.currentId helper

/-! ## What the operations on a map do -/

variable [DecidableEq η]

section Nodes

variable {data stored : Data η β ρ} {helper : η} {address place : UInt64} {eventName : Text}
  {notification : β}

theorem node_setSubscriptions (data : Data η β ρ) (helper other : η) (id : ℕ)
    (subscriptions : StdMap ℕ (SubscriptionData β)) :
    (data.setSubscriptions helper subscriptions).node other id =
      if other = helper then subscriptions.lookup id else data.node other id := by
  unfold Data.node Data.setSubscriptions
  by_cases hother : other = helper
  · subst hother
    simp
  · simp [hother]

/-- A new node, at an address that was not in use. -/
theorem store_eq_some (hvacant : data.node helper (data.currentId helper) = none)
    (hstored : data.store helper address eventName notification = some (place, stored)) :
    place ∉ data.allocated ∧ stored.allocated = place :: data.allocated ∧
      stored.eventMap = data.eventMap ∧ stored.currentId = data.currentId ∧
      ∀ other id, stored.node other id = if other = helper ∧ id = data.currentId helper then
        some ⟨place, eventName, notification⟩ else data.node other id := by
  unfold Data.node at hvacant
  simp only [Data.store, hvacant] at hstored
  split_ifs at hstored with hused
  obtain ⟨rfl, rfl⟩ := Prod.mk.inj (Option.some.inj hstored)
  refine ⟨hused, rfl, rfl, rfl, fun other id => ?_⟩
  rw [node_setSubscriptions]
  by_cases hother : other = helper
  · subst hother
    simp only [if_true, true_and, StdMap.lookup_insert_of_eq_or_ne]
    rfl
  · simp only [hother, if_false, false_and]
    rfl

theorem node_erase (data : Data η β ρ) (helper other : η) (id otherId : ℕ) :
    (data.erase helper id).node other otherId =
      if other = helper ∧ otherId = id then none else data.node other otherId := by
  unfold Data.erase
  split
  · rename_i hnone
    split_ifs with hsame
    · obtain ⟨rfl, rfl⟩ := hsame
      exact hnone
    · rfl
  · rw [node_setSubscriptions]
    by_cases hother : other = helper
    · subst hother
      simp only [if_true, true_and, StdMap.lookup_erase_of_eq_or_ne]
      rfl
    · simp only [hother, if_false, false_and]
      rfl

theorem node_clear (data : Data η β ρ) (helper other : η) (id : ℕ) :
    (data.clear helper).node other id = if other = helper then none else data.node other id := by
  unfold Data.clear
  rw [node_setSubscriptions]
  split_ifs <;> rfl

@[simp] theorem eventMap_erase (data : Data η β ρ) (helper : η) (id : ℕ) :
    (data.erase helper id).eventMap = data.eventMap := by
  unfold Data.erase
  split <;> rfl

@[simp] theorem currentId_erase (data : Data η β ρ) (helper : η) (id : ℕ) :
    (data.erase helper id).currentId = data.currentId := by
  unfold Data.erase
  split <;> rfl

@[simp] theorem eventMap_turn (data : Data η β ρ) (helper : η) (start : ℕ) :
    (data.turn helper start).2.eventMap = data.eventMap := by
  unfold Data.turn
  split <;> rfl

@[simp] theorem currentId_turn (data : Data η β ρ) (helper : η) (start : ℕ) :
    (data.turn helper start).2.currentId = data.currentId := by
  unfold Data.turn
  split <;> rfl

/-- The loop of `unsubscribeAll` makes no nodes. -/
theorem node_turn_of_none {mine : η} {start id : ℕ} (hnone : data.node helper id = none) :
    (data.turn mine start).2.node helper id = none := by
  unfold Data.turn
  split
  · exact hnone
  · rw [node_clear, hnone, ite_self]

/-- Whether the node is new or assigned to, the rest of the data stays. -/
theorem shared_store
    (hstored : data.store helper address eventName notification = some (place, stored)) :
    stored.eventMap = data.eventMap ∧ stored.currentId = data.currentId := by
  simp only [Data.store] at hstored
  split at hstored
  · cases hstored
    exact ⟨rfl, rfl⟩
  · split_ifs at hstored
    cases hstored
    exact ⟨rfl, rfl⟩

/-- Freeing one node leaves the addresses of the others. -/
theorem mem_allocated_erase {id : ℕ} {kept : UInt64} (hkept : kept ∈ data.allocated)
    (hne : ∀ node, data.node helper id = some node → node.address ≠ kept) :
    kept ∈ (data.erase helper id).allocated := by
  unfold Data.erase
  split
  · exact hkept
  · rename_i node hnode
    exact List.mem_filter.mpr ⟨hkept, by simpa using (hne node hnode).symm⟩

theorem mem_allocated_clear {kept : UInt64} (hkept : kept ∈ data.allocated)
    (hne : ∀ id node, data.node helper id = some node → node.address ≠ kept) :
    kept ∈ (data.clear helper).allocated := by
  refine List.mem_filter.mpr ⟨hkept, ?_⟩
  simp only [List.mem_map, decide_eq_true_eq, not_exists, not_and]
  rintro ⟨id, node⟩ hentry
  exact hne id node (StdMap.mem_entries_iff_lookup.mp hentry)

end Nodes

/-! ## Keeping entries and nodes together -/

namespace Tidy

variable {data stored : Data η β ρ} {helper : η} {id : ℕ}

theorem store {address place : UInt64} {eventName : Text} {notification : β}
    (htidy : Tidy data) (hvacant : data.node helper (data.currentId helper) = none)
    (hstored : data.store helper address eventName notification = some (place, stored)) :
    Tidy stored := by
  obtain ⟨hfresh, hallocated, heventMap, hcurrentId, hnode⟩ := store_eq_some hvacant hstored
  -- Every node is the new one or an old one, whose address was in use already.
  have hcases : ∀ other otherId node, stored.node other otherId = some node →
      (other = helper ∧ otherId = data.currentId helper ∧ node.address = place) ∨
        (data.node other otherId = some node ∧ node.address ≠ place) := by
    intro other otherId node hsome
    rw [hnode] at hsome
    split_ifs at hsome with hnew
    · exact .inl ⟨hnew.1, hnew.2, by rw [← Option.some.inj hsome]⟩
    · refine .inr ⟨hsome, fun hplace => hfresh ?_⟩
      exact hplace ▸ htidy.allocated other otherId node hsome
  constructor
  · intro other otherId node hsome
    rw [hallocated]
    rcases hcases other otherId node hsome with ⟨-, -, hplace⟩ | ⟨hold, -⟩
    · exact hplace ▸ List.mem_cons_self
    · exact List.mem_cons_of_mem _ (htidy.allocated other otherId node hold)
  · intro first firstId firstNode second secondId secondNode hfirst hsecond hsame
    rcases hcases first firstId firstNode hfirst with ⟨rfl, rfl, hplace⟩ | ⟨hfirst, hne⟩ <;>
      rcases hcases second secondId secondNode hsecond with ⟨rfl, rfl, hplace'⟩ | ⟨hsecond, hne'⟩
    · exact ⟨rfl, rfl⟩
    · exact absurd (hsame.symm.trans hplace) hne'
    · exact absurd (hsame.trans hplace') hne
    · exact htidy.distinct first firstId firstNode second secondId secondNode hfirst hsecond hsame
  · intro key callbackData hentry
    rw [heventMap] at hentry
    obtain ⟨other, otherId, node, hsome, hdesignates⟩ := htidy.stored key callbackData hentry
    refine ⟨other, otherId, node, ?_, hdesignates⟩
    rw [hnode, if_neg, hsome]
    rintro ⟨rfl, rfl⟩
    rw [hvacant] at hsome
    cases hsome
  · intro other otherId node hsome
    rw [hcurrentId]
    rcases hcases other otherId node hsome with ⟨rfl, rfl, -⟩ | ⟨hold, -⟩
    · exact le_rfl
    · exact htidy.id_le other otherId node hold

theorem erase (htidy : Tidy data)
    (hunused : ∀ node, data.node helper id = some node → data.Unused node.address) :
    Tidy (data.erase helper id) := by
  have hold : ∀ other otherId node, (data.erase helper id).node other otherId = some node →
      data.node other otherId = some node ∧ ¬ (other = helper ∧ otherId = id) := by
    intro other otherId node hsome
    rw [node_erase] at hsome
    split_ifs at hsome with hsame
    exact ⟨hsome, hsame⟩
  constructor
  · intro other otherId node hsome
    obtain ⟨hsome, hother⟩ := hold other otherId node hsome
    apply mem_allocated_erase (htidy.allocated other otherId node hsome)
    intro freed hfreed hsame
    exact hother ((htidy.distinct helper id freed other otherId node hfreed hsome hsame).imp
      Eq.symm Eq.symm)
  · intro first firstId firstNode second secondId secondNode hfirst hsecond
    exact htidy.distinct first firstId firstNode second secondId secondNode
      (hold _ _ _ hfirst).1 (hold _ _ _ hsecond).1
  · intro key callbackData hentry
    rw [eventMap_erase] at hentry
    obtain ⟨other, otherId, node, hsome, haddress, hkey⟩ := htidy.stored key callbackData hentry
    refine ⟨other, otherId, node, ?_, haddress, hkey⟩
    rw [node_erase, if_neg, hsome]
    rintro ⟨rfl, rfl⟩
    exact hunused node hsome key callbackData hentry haddress.symm
  · intro other otherId node hsome
    rw [currentId_erase]
    exact htidy.id_le other otherId node (hold other otherId node hsome).1

theorem clear (htidy : Tidy data)
    (hunused : ∀ id node, data.node helper id = some node → data.Unused node.address) :
    Tidy (data.clear helper) := by
  have hold : ∀ other otherId node, (data.clear helper).node other otherId = some node →
      data.node other otherId = some node ∧ other ≠ helper := by
    intro other otherId node hsome
    rw [node_clear] at hsome
    split_ifs at hsome with hsame
    exact ⟨hsome, hsame⟩
  constructor
  · intro other otherId node hsome
    obtain ⟨hsome, hother⟩ := hold other otherId node hsome
    refine mem_allocated_clear (htidy.allocated other otherId node hsome)
      fun freedId freed hfreed hsame => ?_
    exact hother (htidy.distinct helper freedId freed other otherId node hfreed hsome hsame).1.symm
  · intro first firstId firstNode second secondId secondNode hfirst hsecond
    exact htidy.distinct first firstId firstNode second secondId secondNode
      (hold _ _ _ hfirst).1 (hold _ _ _ hsecond).1
  · intro key callbackData hentry
    obtain ⟨other, otherId, node, hsome, haddress, hkey⟩ := htidy.stored key callbackData hentry
    refine ⟨other, otherId, node, ?_, haddress, hkey⟩
    rw [node_clear, if_neg, hsome]
    rintro rfl
    exact hunused otherId node hsome key callbackData hentry haddress.symm
  · intro other otherId node hsome
    exact htidy.id_le other otherId node (hold other otherId node hsome).1

omit [DecidableEq η]

/-- An entry for a stored node, under the key of its event. -/
theorem insert (htidy : Tidy data) {node : SubscriptionData β}
    {callbackData : CallbackDataEvent (Dispatch β)} (hnode : data.node helper id = some node)
    (haddress : node.address = callbackData.usercb) :
    Tidy { data with
      eventMap := data.eventMap.insert (getKeyFromEvent node.eventName) callbackData } where
  allocated := htidy.allocated
  distinct := htidy.distinct
  id_le := htidy.id_le
  stored := StdMap.forall_lookup_insert ⟨helper, id, node, hnode, haddress, rfl⟩ htidy.stored

theorem unsubscribe (htidy : Tidy data) (event : Text) :
    Tidy { data with eventMap := (Server.unsubscribe data.eventMap event).2 } where
  allocated := htidy.allocated
  distinct := htidy.distinct
  id_le := htidy.id_le
  stored key found hentry := by
    rw [lookup_unsubscribe] at hentry
    split_ifs at hentry with hkey
    exact htidy.stored key found hentry

/-- Once the key of its event is removed, no entry points to a node. -/
theorem unused_unsubscribe (htidy : Tidy data) {node : SubscriptionData β}
    (hnode : data.node helper id = some node) :
    Data.Unused { data with eventMap := (Server.unsubscribe data.eventMap node.eventName).2 }
      node.address := by
  intro key callbackData hentry haddress
  rw [lookup_unsubscribe] at hentry
  split_ifs at hentry with hkey
  obtain ⟨other, otherId, found, hfound, hfoundAddress, rfl⟩ := htidy.stored key callbackData hentry
  obtain ⟨rfl, rfl⟩ := htidy.distinct other otherId found helper id node hfound hnode
    (hfoundAddress.trans haddress)
  rw [hfound] at hnode
  exact hkey (by rw [Option.some.inj hnode])

/-- Two entries point to different nodes. -/
theorem key_unique (htidy : Tidy data) {first second : Text}
    {firstData secondData : CallbackDataEvent (Dispatch β)}
    (hfirst : data.eventMap.lookup first = some firstData)
    (hsecond : data.eventMap.lookup second = some secondData)
    (hsame : firstData.usercb = secondData.usercb) : first = second := by
  obtain ⟨helper, id, node, hnode, haddress, rfl⟩ := htidy.stored first firstData hfirst
  obtain ⟨other, otherId, found, hfound, hfoundAddress, rfl⟩ :=
    htidy.stored second secondData hsecond
  obtain ⟨rfl, rfl⟩ := htidy.distinct helper id node other otherId found hnode hfound
    (haddress.trans (hsame.trans hfoundAddress.symm))
  rw [hnode] at hfound
  rw [Option.some.inj hfound]

end Tidy

end FireboltTransport.Helpers
