/-
# Operations in progress

What a subscription operation knows of its node between two of its moves, and
what a move does to what the others know.  An operation frees a node only after
it has made sure that no entry points to it.
-/

import FireboltTransport.Helpers.Subscriptions

namespace FireboltTransport.Helpers

open Semantics Server GatewayImpl

universe u v w

variable {η : Type u} {β : Type v} {ρ : Type w}

/-- The helper an operation belongs to. -/
def Caller.helper : Caller η → Option η
  | .user => none
  | .subscribe helper | .unsubscribe helper _ | .unsubscribeAll helper _ => some helper

def Stage.helper : Stage η β ρ → Option η
  | .helperSubscribe helper _ _ | .helperUnsubscribe helper _ => some helper
  | stage => stage.caller.bind Caller.helper

/-- The helper whose `unsubscribeAll` calls. -/
def Caller.sweeping : Caller η → Option η
  | .unsubscribeAll helper _ => some helper
  | .user | .subscribe _ | .unsubscribe _ _ => none

def Op.helper : Op η β ρ → Option η
  | .helperSubscribe helper _ _ | .helperUnsubscribe helper _ | .helperUnsubscribeAll helper =>
      some helper
  | .subscribe _ _ _ _ | .unsubscribe _ | .registerProvider _ _ _
  | .unregisterProvider _ _ _ => none

/-- An operation of a helper holds its mutex, unless it is `unsubscribeAll`. -/
theorem Caller.helper_cases {caller : Caller η} {helper : η}
    (hhelper : caller.helper = some helper) :
    caller.locked = some helper ∨ caller.sweeping = some helper := by
  cases caller with
  | user => cases hhelper
  | subscribe | unsubscribe => exact .inl hhelper
  | unsubscribeAll => exact .inr hhelper

theorem Stage.helper_eq_of_caller {stage : Stage η β ρ} {helper : η}
    (hcaller : stage.caller.bind Caller.helper = some helper) : stage.helper = some helper := by
  cases stage with
  | helperSubscribe | helperUnsubscribe => cases hcaller
  | ready | check | insert | request | rollback | remove | settle | registerProvider
  | unregisterProvider | notify | serve => exact hcaller

theorem Stage.helper_eq_of_sweeping {stage : Stage η β ρ} {helper : η}
    (hsweeping : stage.caller.bind Caller.sweeping = some helper) :
    stage.helper = some helper := by
  obtain ⟨caller, hcaller, hsweeping⟩ := Option.bind_eq_some_iff.mp hsweeping
  apply Stage.helper_eq_of_caller
  rw [hcaller]
  cases caller with
  | unsubscribeAll => exact hsweeping
  | user | subscribe | unsubscribe => cases hsweeping

theorem Stage.helper_cases {stage : Stage η β ρ} {helper : η}
    (hhelper : stage.helper = some helper) : stage.wants = some (.helperMtx helper) ∨
      stage.caller.bind Caller.locked = some helper ∨
      stage.caller.bind Caller.sweeping = some helper := by
  cases stage with
  | helperSubscribe | helperUnsubscribe =>
      obtain rfl := Option.some.inj hhelper
      exact .inl rfl
  | check | insert | request | rollback | remove | settle =>
      exact .inr (Caller.helper_cases hhelper)
  | ready | registerProvider | unregisterProvider | notify | serve => cases hhelper

/-! ## Operations in progress -/

/-- The node of a `subscribe` in progress. -/
def Data.Pending (data : Data η β ρ) (helper : η) (event : Text) (address : UInt64) : Prop :=
  ∃ node, data.node helper (data.currentId helper) = some node ∧ node.eventName = event ∧
    node.address = address

/-- The node is stored, and no entry points to it. -/
def Data.Removed (data : Data η β ρ) (helper : η) (id : ℕ) : Prop :=
  ∃ node, data.node helper id = some node ∧ data.Unused node.address

/-- The loop of `unsubscribeAll` has removed the entries of the nodes before `bound`. -/
def Data.Swept (data : Data η β ρ) (helper : η) (bound : ℕ) : Prop :=
  ∀ id node, id < bound → data.node helper id = some node → data.Unused node.address

/-- What an operation in progress knows of its node. -/
def Fact (data : Data η β ρ) : Stage η β ρ → Prop
  | .check (.subscribe helper) event callbackData
  | .insert (.subscribe helper) event callbackData =>
      data.Pending helper event callbackData.usercb ∧ data.Unused callbackData.usercb
  | .request (.subscribe helper) event true => ∃ address, data.Pending helper event address
  | .rollback (.subscribe helper) event _ => ∃ address, data.Pending helper event address
  | .settle (.subscribe helper) status => ∃ event address, data.Pending helper event address ∧
      (status ≠ .none → data.Unused address)
  | .remove (.unsubscribe helper id) event =>
      ∃ node, data.node helper id = some node ∧ node.eventName = event
  | .request (.unsubscribe helper id) _ false | .settle (.unsubscribe helper id) _ =>
      data.Removed helper id
  | .remove (.unsubscribeAll helper id) event => data.Swept helper id ∧
      ∃ node, data.node helper id = some node ∧ node.eventName = event
  | .request (.unsubscribeAll helper id) _ false | .settle (.unsubscribeAll helper id) _ =>
      data.Swept helper (id + 1)
  | .remove .user _ | .request .user _ false | .settle .user _ => True
  | .ready | .helperSubscribe _ _ _ | .helperUnsubscribe _ _ | .registerProvider _ _ _
  | .unregisterProvider _ _ _ | .notify _ | .serve _ => True
  | .check _ _ _ | .insert _ _ _ | .request _ _ _ | .rollback _ _ _ | .remove _ _ => False

/-! ## One move of an operation -/

variable [DecidableEq η] {data : Data η β ρ} {context : Context β ρ} {stage : Stage η β ρ}
  {input : Input η β ρ} {move : Move η β ρ}

omit [DecidableEq η] in
/-- After the last node the loop has removed the entries of all of them. -/
theorem Data.Swept.unused {helper : η} {start : ℕ} (hswept : data.Swept helper start)
    (hnext : nextNode (data.subscriptions helper) start = none) (id : ℕ)
    (node : SubscriptionData β) (hnode : data.node helper id = some node) :
    data.Unused node.address := by
  refine hswept id node ?_ hnode
  by_contra hstart
  have hnone := nextNode_eq_none hnext (Nat.le_of_not_lt hstart)
  exact Option.some_ne_none node (hnode.symm.trans hnone)

omit [DecidableEq η] in
theorem Data.Unused.unsubscribe {address : UInt64} (hunused : data.Unused address)
    (event : Text) :
    Data.Unused { data with eventMap := (Server.unsubscribe data.eventMap event).2 } address := by
  intro key callbackData hentry
  rw [lookup_unsubscribe] at hentry
  split_ifs at hentry
  exact hunused key callbackData hentry

/-- Identifiers are given out in order. -/
theorem le_update_succ (currentId : η → ℕ) (helper other : η) :
    currentId other ≤ Function.update currentId helper (currentId helper + 1) other := by
  by_cases hother : other = helper
  · subst hother
    rw [Function.update_self]
    exact Nat.le_succ _
  · rw [Function.update_of_ne hother]

theorem Tidy.turn {helper : η} {start : ℕ} (htidy : Tidy data)
    (hswept : data.Swept helper start) :
    Tidy (data.turn helper start).2 ∧
      Fact (data.turn helper start).2 (data.turn helper start).1 := by
  unfold Data.turn
  split
  · rename_i id node hnext
    obtain ⟨hnode, -, hbetween⟩ := nextNode_eq_some hnext
    refine ⟨htidy, fun other found hlt hfound => ?_, node, hnode, rfl⟩
    refine hswept other found ?_ hfound
    by_contra hstart
    have hnone := hbetween other (Nat.le_of_not_lt hstart) hlt
    exact Option.some_ne_none found (hfound.symm.trans hnone)
  · rename_i hnext
    exact ⟨htidy.clear (hswept.unused hnext), trivial⟩

omit [DecidableEq η] in
/-- The loop goes on after it has removed the entry of a node. -/
theorem Tidy.swept_unsubscribe {helper : η} {id : ℕ} {node : SubscriptionData β}
    (htidy : Tidy data) (hswept : data.Swept helper id) (hnode : data.node helper id = some node) :
    Data.Swept { data with eventMap := (Server.unsubscribe data.eventMap node.eventName).2 }
      helper (id + 1) := by
  intro other found hlt hfound
  rcases Nat.lt_succ_iff_lt_or_eq.mp hlt with hlt | rfl
  · exact (hswept other found hlt hfound).unsubscribe node.eventName
  · obtain rfl : node = found := Option.some.inj (hnode.symm.trans hfound)
    exact htidy.unused_unsubscribe hnode

/-- What follows the gateway's operation frees only nodes to which no entry points. -/
theorem Tidy.settle {caller : Caller η} {status : Error} (htidy : Tidy data)
    (hfact : Fact data (.settle caller status : Stage η β ρ)) (context : Context β ρ) :
    Tidy (data.settle context status caller).data ∧
      Fact (data.settle context status caller).data
        (data.settle context status caller).next.stage := by
  cases caller with
  | user => exact ⟨htidy, trivial⟩
  | subscribe helper =>
      obtain ⟨event, address, ⟨node, hnode, -, rfl⟩, hunused⟩ := hfact
      simp only [Data.settle]
      split_ifs with hstatus
      · refine ⟨⟨htidy.allocated, htidy.distinct, htidy.stored, ?_⟩, trivial⟩
        intro other id found hfound
        exact (htidy.id_le other id found hfound).trans (le_update_succ _ helper other)
      · refine ⟨htidy.erase fun found hfound => ?_, trivial⟩
        rw [hnode] at hfound
        exact Option.some.inj hfound ▸ hunused hstatus
  | unsubscribe helper id =>
      obtain ⟨node, hnode, hunused⟩ := hfact
      refine ⟨htidy.erase fun found hfound => ?_, trivial⟩
      rw [hnode] at hfound
      exact Option.some.inj hfound ▸ hunused
  | unsubscribeAll helper id => exact htidy.turn hfact

/-- A move of an operation keeps entries and nodes together and establishes what the operation
knows afterwards. -/
theorem Moves.tidy (hmoves : Moves data context stage input move) (htidy : Tidy data)
    (hfact : Fact data stage)
    (hvacant : ∀ helper eventName notification,
      stage = .helperSubscribe helper eventName notification →
        data.node helper (data.currentId helper) = none)
    (hbegin : ∀ event callback usercb userdata,
      input ≠ .begin (.subscribe event callback usercb userdata)) :
    Tidy move.data ∧ Fact move.data move.next.stage := by
  cases hmoves with
  | begin op =>
      cases op with
      | subscribe event callback usercb userdata =>
          exact absurd rfl (hbegin event callback usercb userdata)
      | helperUnsubscribeAll helper =>
          exact htidy.turn fun id node hlt => absurd hlt (Nat.not_lt_zero id)
      | unsubscribe | helperSubscribe | helperUnsubscribe | registerProvider
      | unregisterProvider => exact ⟨htidy, trivial⟩
  | beginNotify | beginServe | ignore | leaveEvent | leaveProvider | unknown | unheard | notify
  | unserved | serve => exact ⟨htidy, trivial⟩
  | registerProvider | unregisterProvider =>
      exact ⟨⟨htidy.allocated, htidy.distinct, htidy.stored, htidy.id_le⟩, trivial⟩
  | store helper eventName notification address place stored hstored =>
      have hnone := hvacant helper eventName notification rfl
      obtain ⟨hfresh, -, heventMap, hcurrentId, hnode⟩ := store_eq_some hnone hstored
      refine ⟨htidy.store hnone hstored,
        ⟨⟨⟨place, eventName, notification⟩, ?_, rfl, rfl⟩, ?_⟩⟩
      · rw [hcurrentId, hnode, if_pos ⟨rfl, rfl⟩]
      · -- An entry that pointed to the new node would point to an allocated address.
        intro key callbackData hentry haddress
        rw [heventMap] at hentry
        obtain ⟨other, id, node, hsome, hused, -⟩ := htidy.stored key callbackData hentry
        have hplace : node.address = place := hused.trans haddress
        exact hfresh (hplace ▸ htidy.allocated other id node hsome)
  | find helper id node hnode => exact ⟨htidy, node, hnode, rfl⟩
  | check caller event callbackData =>
      cases caller with
      | subscribe helper =>
          refine ⟨htidy, ?_⟩
          unfold Data.check
          split_ifs with hconnected
          · exact hfact
          · exact ⟨event, callbackData.usercb, hfact.1, fun _ => hfact.2⟩
      | user | unsubscribe | unsubscribeAll => exact hfact.elim
  | insert caller event callbackData hfree =>
      cases caller with
      | subscribe helper =>
          obtain ⟨node, hnode, rfl, haddress⟩ := hfact.1
          exact ⟨htidy.insert hnode haddress, _, node, hnode, rfl, rfl⟩
      | user | unsubscribe | unsubscribeAll => exact hfact.elim
  | refuse caller event callbackData htaken =>
      cases caller with
      | subscribe helper => exact ⟨htidy, event, callbackData.usercb, hfact.1, fun _ => hfact.2⟩
      | user | unsubscribe | unsubscribeAll => exact hfact.elim
  | succeed caller event outcome hstatus =>
      cases caller with
      | subscribe helper =>
          obtain ⟨address, hpending⟩ := hfact
          exact ⟨htidy, event, address, hpending, absurd hstatus⟩
      | user | unsubscribe | unsubscribeAll => exact hfact.elim
  | fail caller event outcome hstatus =>
      cases caller with
      | subscribe helper => exact ⟨htidy, hfact⟩
      | user | unsubscribe | unsubscribeAll => exact hfact.elim
  | answer caller event outcome =>
      cases caller with
      | subscribe => exact hfact.elim
      | user | unsubscribe | unsubscribeAll => exact ⟨htidy, hfact⟩
  | rollback caller event status =>
      cases caller with
      | subscribe helper =>
          obtain ⟨address, node, hnode, rfl, rfl⟩ := hfact
          exact ⟨htidy.unsubscribe _, _, _, ⟨node, hnode, rfl, rfl⟩,
            fun _ => htidy.unused_unsubscribe hnode⟩
      | user | unsubscribe | unsubscribeAll => exact hfact.elim
  | remove caller event next hnext =>
      refine ⟨htidy.unsubscribe event, ?_⟩
      cases caller with
      | user => rcases hnext with rfl | rfl <;> trivial
      | subscribe helper => exact hfact.elim
      | unsubscribe helper id =>
          obtain ⟨node, hnode, rfl⟩ := hfact
          have hunused := htidy.unused_unsubscribe hnode
          rcases hnext with rfl | rfl <;> exact ⟨node, hnode, hunused⟩
      | unsubscribeAll helper id =>
          obtain ⟨hswept, node, hnode, rfl⟩ := hfact
          have hswept := htidy.swept_unsubscribe hswept hnode
          rcases hnext with rfl | rfl <;> exact hswept
  | settle caller status => exact htidy.settle hfact context

/-! ## What a move leaves alone -/

/-- What another thread relies on: the nodes of the helper, its next identifier, and that no entry
points to a node to which none did. -/
structure Frame (data next : Data η β ρ) (helper : η) : Prop where
  node : ∀ id, next.node helper id = data.node helper id
  currentId : next.currentId helper = data.currentId helper
  unused : ∀ id node, data.node helper id = some node → data.Unused node.address →
    next.Unused node.address

omit [DecidableEq η] in
theorem Frame.of_subscriptions {next : Data η β ρ} (helper : η)
    (heventMap : ∀ address, data.Unused address → next.Unused address)
    (hsubscriptions : next.subscriptions = data.subscriptions)
    (hcurrentId : next.currentId = data.currentId) : Frame data next helper where
  node id := by simp only [Data.node, hsubscriptions]
  currentId := by rw [hcurrentId]
  unused id node _ := heventMap node.address

theorem Frame.erase {helper other : η} (hother : other ≠ helper) (id : ℕ) :
    Frame data (data.erase helper id) other where
  node otherId := by rw [node_erase, if_neg fun hsame => hother hsame.1]
  currentId := by rw [currentId_erase]
  unused otherId node _ hunused key callbackData hentry := by
    rw [eventMap_erase] at hentry
    exact hunused key callbackData hentry

theorem Frame.turn {helper other : η} (hother : other ≠ helper) (start : ℕ) :
    Frame data (data.turn helper start).2 other := by
  unfold Data.turn
  split
  · exact .of_subscriptions other (fun _ hunused => hunused) rfl rfl
  · exact
      { node := fun id => by rw [node_clear, if_neg hother]
        currentId := rfl
        unused := fun _ _ _ hunused => hunused }

/-- A move leaves the nodes of the other helpers alone. -/
theorem Moves.frame (hmoves : Moves data context stage input move) (htidy : Tidy data)
    (hfact : Fact data stage)
    (hvacant : ∀ helper eventName notification,
      stage = .helperSubscribe helper eventName notification →
        data.node helper (data.currentId helper) = none)
    {helper : η} (hother : stage.helper ≠ some helper)
    (hbegin : input ≠ .begin (.helperUnsubscribeAll helper)) : Frame data move.data helper := by
  have hsame : ∀ next : Data η β ρ, next.eventMap = data.eventMap →
      next.subscriptions = data.subscriptions → next.currentId = data.currentId →
        Frame data next helper := by
    intro next heventMap hsubscriptions hcurrentId
    refine .of_subscriptions helper (fun address hunused => ?_) hsubscriptions hcurrentId
    unfold Data.Unused
    rwa [heventMap]
  cases hmoves with
  | begin op =>
      cases op with
      | helperUnsubscribeAll mine =>
          exact .turn (fun hmine => hbegin (by rw [hmine])) 0
      | subscribe | unsubscribe | helperSubscribe | helperUnsubscribe | registerProvider
      | unregisterProvider => exact hsame _ rfl rfl rfl
  | beginNotify | beginServe | ignore | leaveEvent | leaveProvider | unknown | find | check
  | refuse | succeed | fail | answer | registerProvider | unregisterProvider | unheard | notify
  | unserved | serve => exact hsame _ rfl rfl rfl
  | store mine eventName notification address place stored hstored =>
      have hmine : helper ≠ mine := fun hmine => hother (by rw [hmine]; rfl)
      have hnone := hvacant mine eventName notification rfl
      obtain ⟨-, -, heventMap, hcurrentId, hnode⟩ := store_eq_some hnone hstored
      constructor
      · intro id
        rw [hnode, if_neg fun hnew => hmine hnew.1]
      · rw [hcurrentId]
      · intro id node _ hunused key callbackData hentry
        rw [heventMap] at hentry
        exact hunused key callbackData hentry
  | insert caller event callbackData hfree =>
      cases caller with
      | subscribe mine =>
          obtain ⟨own, hown, rfl, haddress⟩ := hfact.1
          refine ⟨fun _ => rfl, rfl, fun id node hnode hunused => ?_⟩
          apply StdMap.forall_lookup_insert _ hunused
          -- The new entry points to the node of the mover, which has an address of its own.
          intro husercb
          obtain ⟨rfl, -⟩ := htidy.distinct mine _ own helper id node hown hnode
            (haddress.trans husercb)
          exact hother rfl
      | user | unsubscribe | unsubscribeAll => exact hfact.elim
  | rollback caller event status =>
      exact .of_subscriptions helper (fun _ hunused => hunused.unsubscribe event) rfl rfl
  | remove caller event next hnext =>
      exact .of_subscriptions helper (fun _ hunused => hunused.unsubscribe event) rfl rfl
  | settle caller status =>
      have hne : ∀ mine, caller.helper = some mine → helper ≠ mine :=
        fun mine hmine hsame => hother (by rw [hsame]; exact hmine)
      cases caller with
      | user => exact hsame _ rfl rfl rfl
      | subscribe mine =>
          simp only [Data.settle]
          split_ifs with hstatus
          · exact
              { node := fun _ => rfl
                currentId := Function.update_of_ne (hne mine rfl) _ _
                unused := fun _ _ _ hunused => hunused }
          · exact .erase (hne mine rfl) _
      | unsubscribe mine id => exact .erase (hne mine rfl) _
      | unsubscribeAll mine id => exact .turn (hne mine rfl) _

omit [DecidableEq η] in
/-- What an operation knows concerns its own helper. -/
theorem Fact.frame {next : Data η β ρ} (hfact : Fact data stage)
    (hframe : ∀ helper, stage.caller.bind Caller.helper = some helper → Frame data next helper) :
    Fact next stage := by
  have hpending : ∀ helper event address, Frame data next helper →
      data.Pending helper event address → next.Pending helper event address := by
    rintro helper event address hframe ⟨node, hnode, hpending⟩
    exact ⟨node, by rw [hframe.currentId, hframe.node, hnode], hpending⟩
  have hunused : ∀ helper event address, Frame data next helper →
      data.Pending helper event address → data.Unused address → next.Unused address := by
    rintro helper event address hframe ⟨node, hnode, -, rfl⟩
    exact hframe.unused _ node hnode
  have hswept : ∀ helper bound, Frame data next helper → data.Swept helper bound →
      next.Swept helper bound := by
    intro helper bound hframe hswept id node hlt hnode
    rw [hframe.node] at hnode
    exact hframe.unused id node hnode (hswept id node hlt hnode)
  have hnamed : ∀ helper id event, Frame data next helper →
      (∃ node, data.node helper id = some node ∧ node.eventName = event) →
        ∃ node, next.node helper id = some node ∧ node.eventName = event := by
    rintro helper id event hframe ⟨node, hnode, hnamed⟩
    exact ⟨node, by rw [hframe.node, hnode], hnamed⟩
  have hremoved : ∀ helper id, Frame data next helper → data.Removed helper id →
      next.Removed helper id := by
    rintro helper id hframe ⟨node, hnode, hunused⟩
    exact ⟨node, by rw [hframe.node, hnode], hframe.unused id node hnode hunused⟩
  cases stage with
  | ready | helperSubscribe | helperUnsubscribe | registerProvider | unregisterProvider | notify
  | serve => trivial
  | check caller | insert caller =>
      cases caller with
      | subscribe helper =>
          have hframe := hframe helper rfl
          exact ⟨hpending _ _ _ hframe hfact.1, hunused _ _ _ hframe hfact.1 hfact.2⟩
      | user | unsubscribe | unsubscribeAll => exact hfact.elim
  | request caller event listen =>
      cases listen with
      | true =>
          cases caller with
          | subscribe helper => exact hfact.imp fun address => hpending _ _ _ (hframe helper rfl)
          | user | unsubscribe | unsubscribeAll => exact hfact.elim
      | false =>
          cases caller with
          | user => trivial
          | subscribe => exact hfact.elim
          | unsubscribe helper id => exact hremoved _ _ (hframe helper rfl) hfact
          | unsubscribeAll helper id => exact hswept _ _ (hframe helper rfl) hfact
  | rollback caller event status =>
      cases caller with
      | subscribe helper => exact hfact.imp fun address => hpending _ _ _ (hframe helper rfl)
      | user | unsubscribe | unsubscribeAll => exact hfact.elim
  | remove caller event =>
      cases caller with
      | user => trivial
      | subscribe => exact hfact.elim
      | unsubscribe helper id => exact hnamed _ _ _ (hframe helper rfl) hfact
      | unsubscribeAll helper id =>
          exact hfact.imp (hswept _ _ (hframe helper rfl)) (hnamed _ _ _ (hframe helper rfl))
  | settle caller status =>
      cases caller with
      | user => trivial
      | subscribe helper =>
          have hframe := hframe helper rfl
          obtain ⟨event, address, hfact, hnone⟩ := hfact
          exact ⟨event, address, hpending _ _ _ hframe hfact,
            fun hstatus => hunused _ _ _ hframe hfact (hnone hstatus)⟩
      | unsubscribe helper id => exact hremoved _ _ (hframe helper rfl) hfact
      | unsubscribeAll helper id => exact hswept _ _ (hframe helper rfl) hfact

/-! ## Nodes come and go -/

/-- Only a `subscribe` in progress stores a node under the next identifier. -/
theorem Moves.vacant (hmoves : Moves data context stage input move) (htidy : Tidy data)
    (hvacant : ∀ helper eventName notification,
      stage = .helperSubscribe helper eventName notification →
        data.node helper (data.currentId helper) = none)
    {helper : η} (hbefore : stage.caller ≠ some (.subscribe helper) →
      data.node helper (data.currentId helper) = none)
    (hafter : move.next.stage.caller ≠ some (.subscribe helper)) :
    move.data.node helper (move.data.currentId helper) = none := by
  have herase : ∀ (mine : η) (id : ℕ), data.node helper (data.currentId helper) = none →
      (data.erase mine id).node helper ((data.erase mine id).currentId helper) = none := by
    intro mine id hnone
    rw [node_erase, currentId_erase, hnone, ite_self]
  have hturn : ∀ (mine : η) (start : ℕ), data.node helper (data.currentId helper) = none →
      (data.turn mine start).2.node helper ((data.turn mine start).2.currentId helper) = none := by
    intro mine start hnone
    rw [currentId_turn]
    exact node_turn_of_none hnone
  cases hmoves with
  | begin op =>
      have hnone := hbefore (Option.some_ne_none _).symm
      cases op with
      | helperUnsubscribeAll mine => exact hturn mine 0 hnone
      | subscribe | unsubscribe | helperSubscribe | helperUnsubscribe | registerProvider
      | unregisterProvider => exact hnone
  | beginNotify | beginServe | ignore | leaveEvent | leaveProvider | unknown | find
  | registerProvider | unregisterProvider | unheard | notify | unserved | serve =>
      exact hbefore (Option.some_ne_none _).symm
  | insert | refuse | succeed | fail | answer | rollback => exact hbefore hafter
  | check caller event callbackData =>
      rw [(caller_check data caller event callbackData).1] at hafter
      exact hbefore hafter
  | remove caller event next hnext =>
      refine hbefore ?_
      rcases hnext with rfl | rfl <;> exact hafter
  | store mine eventName notification address place stored hstored =>
      have hmine : helper ≠ mine := fun hmine => hafter (by rw [hmine]; rfl)
      obtain ⟨-, -, -, hcurrentId, hnode⟩ :=
        store_eq_some (hvacant mine eventName notification rfl) hstored
      rw [hcurrentId, hnode, if_neg fun hnew => hmine hnew.1]
      exact hbefore (Option.some_ne_none _).symm
  | settle caller status =>
      cases caller with
      | user => exact hbefore (by simp [Stage.caller])
      | unsubscribe mine id => exact herase mine id (hbefore (by simp [Stage.caller]))
      | unsubscribeAll mine id => exact hturn mine (id + 1) (hbefore (by simp [Stage.caller]))
      | subscribe mine =>
          by_cases hmine : helper = mine
          · subst hmine
            simp only [Data.settle]
            split_ifs with hstatus
            · -- The identifier after the one that was given out has not been used.
              show data.node helper (Function.update data.currentId helper _ helper) = none
              rw [Function.update_self]
              by_contra hsome
              obtain ⟨node, hnode⟩ := Option.ne_none_iff_exists'.mp hsome
              exact Nat.not_succ_le_self _ (htidy.id_le helper _ node hnode)
            · rw [currentId_erase, node_erase, if_pos ⟨rfl, rfl⟩]
          · have hnone := hbefore (by simpa [Stage.caller] using Ne.symm hmine)
            simp only [Data.settle]
            split_ifs with hstatus
            · show data.node helper (Function.update data.currentId mine _ helper) = none
              rw [Function.update_of_ne hmine]
              exact hnone
            · exact herase mine _ hnone

/-- A node is freed only when no entry points to it. -/
theorem Moves.kept (hmoves : Moves data context stage input move) (hfact : Fact data stage)
    (hvacant : ∀ helper eventName notification,
      stage = .helperSubscribe helper eventName notification →
        data.node helper (data.currentId helper) = none)
    {helper : η} {id : ℕ} {node : SubscriptionData β} (hnode : data.node helper id = some node) :
    move.data.node helper id = some node ∨ data.Unused node.address := by
  have herase : ∀ (mine : η) (freed : ℕ),
      (∀ found, data.node mine freed = some found → data.Unused found.address) →
        (data.erase mine freed).node helper id = some node ∨ data.Unused node.address := by
    intro mine freed hunused
    rw [node_erase]
    split_ifs with hsame
    · obtain ⟨rfl, rfl⟩ := hsame
      exact .inr (hunused node hnode)
    · exact .inl hnode
  have hturn : ∀ (mine : η) (start : ℕ), data.Swept mine start →
      (data.turn mine start).2.node helper id = some node ∨ data.Unused node.address := by
    intro mine start hswept
    unfold Data.turn
    split
    · exact .inl hnode
    · rename_i hnext
      rw [node_clear]
      split_ifs with hsame
      · subst hsame
        exact .inr (hswept.unused hnext id node hnode)
      · exact .inl hnode
  cases hmoves with
  | begin op =>
      cases op with
      | helperUnsubscribeAll mine =>
          exact hturn mine 0 fun other found hlt => absurd hlt (Nat.not_lt_zero other)
      | subscribe | unsubscribe | helperSubscribe | helperUnsubscribe | registerProvider
      | unregisterProvider => exact .inl hnode
  | beginNotify | beginServe | ignore | leaveEvent | leaveProvider | unknown | find | check
  | insert | refuse | succeed | fail | answer | rollback | remove | registerProvider
  | unregisterProvider | unheard | notify | unserved | serve => exact .inl hnode
  | store mine eventName notification address place stored hstored =>
      have hnone := hvacant mine eventName notification rfl
      obtain ⟨-, -, -, -, hstoredNode⟩ := store_eq_some hnone hstored
      refine .inl ?_
      rw [hstoredNode, if_neg, hnode]
      rintro ⟨rfl, rfl⟩
      exact Option.some_ne_none node (hnode.symm.trans hnone)
  | settle caller status =>
      cases caller with
      | user => exact .inl hnode
      | subscribe mine =>
          obtain ⟨event, address, ⟨own, hown, -, rfl⟩, hunused⟩ := hfact
          simp only [Data.settle]
          split_ifs with hstatus
          · exact .inl hnode
          · exact herase mine _ fun found hfound =>
              Option.some.inj (hown.symm.trans hfound) ▸ hunused hstatus
      | unsubscribe mine freed =>
          obtain ⟨own, hown, hunused⟩ := hfact
          exact herase mine freed fun found hfound =>
            Option.some.inj (hown.symm.trans hfound) ▸ hunused
      | unsubscribeAll mine freed => exact hturn mine (freed + 1) hfact

/-- The identifier has been given out, and its node is freed. -/
def Data.Gone (data : Data η β ρ) (helper : η) (id : ℕ) : Prop :=
  data.node helper id = none ∧ id < data.currentId helper

/-- Identifiers are not used again. -/
theorem Moves.gone (hmoves : Moves data context stage input move)
    (hvacant : ∀ helper eventName notification,
      stage = .helperSubscribe helper eventName notification →
        data.node helper (data.currentId helper) = none)
    {helper : η} {id : ℕ} (hgone : data.Gone helper id) : move.data.Gone helper id := by
  have herase : ∀ (mine : η) (freed : ℕ), (data.erase mine freed).Gone helper id := by
    intro mine freed
    refine ⟨?_, by rw [currentId_erase]; exact hgone.2⟩
    rw [node_erase, hgone.1, ite_self]
  have hturn : ∀ (mine : η) (start : ℕ), (data.turn mine start).2.Gone helper id := by
    intro mine start
    refine ⟨node_turn_of_none hgone.1, ?_⟩
    rw [currentId_turn]
    exact hgone.2
  cases hmoves with
  | begin op =>
      cases op with
      | helperUnsubscribeAll mine => exact hturn mine 0
      | subscribe | unsubscribe | helperSubscribe | helperUnsubscribe | registerProvider
      | unregisterProvider => exact hgone
  | beginNotify | beginServe | ignore | leaveEvent | leaveProvider | unknown | find | check
  | insert | refuse | succeed | fail | answer | rollback | remove | registerProvider
  | unregisterProvider | unheard | notify | unserved | serve => exact hgone
  | store mine eventName notification address place stored hstored =>
      obtain ⟨-, -, -, hcurrentId, hnode⟩ :=
        store_eq_some (hvacant mine eventName notification rfl) hstored
      refine ⟨?_, by rw [hcurrentId]; exact hgone.2⟩
      rw [hnode, if_neg, hgone.1]
      rintro ⟨rfl, rfl⟩
      exact Nat.lt_irrefl _ hgone.2
  | settle caller status =>
      cases caller with
      | user => exact hgone
      | subscribe mine =>
          simp only [Data.settle]
          split_ifs with hstatus
          · exact ⟨hgone.1, hgone.2.trans_le (le_update_succ data.currentId mine helper)⟩
          · exact herase mine _
      | unsubscribe mine freed => exact herase mine freed
      | unsubscribeAll mine freed => exact hturn mine (freed + 1)

/-! ## Where a move leads -/

theorem helper_turn {helper mine : η} {start : ℕ}
    (hhelper : (data.turn mine start).1.helper = some helper) : mine = helper := by
  unfold Data.turn at hhelper
  split at hhelper
  · exact Option.some.inj hhelper
  · cases hhelper

theorem sweeping_turn {helper mine : η} {start : ℕ}
    (hsweeping : (data.turn mine start).1.caller.bind Caller.sweeping = some helper) :
    mine = helper := by
  unfold Data.turn at hsweeping
  split at hsweeping
  · exact Option.some.inj hsweeping
  · cases hsweeping

/-- A move belongs to the operation that was in progress, unless it begins one. -/
theorem Moves.helper (hmoves : Moves data context stage input move) {helper : η}
    (hhelper : move.next.stage.helper = some helper) :
    stage.helper = some helper ∨ ∃ op, input = .begin op ∧ op.helper = some helper := by
  cases hmoves with
  | begin op =>
      refine .inr ⟨op, rfl, ?_⟩
      cases op with
      | subscribe event callback usercb userdata =>
          simp only [Data.begin, Data.check] at hhelper
          split_ifs at hhelper <;> cases hhelper
      | helperUnsubscribeAll mine => exact congrArg some (helper_turn hhelper)
      | unsubscribe | helperSubscribe | helperUnsubscribe | registerProvider
      | unregisterProvider => exact hhelper
  | beginNotify | beginServe | ignore | leaveEvent | leaveProvider | unknown | registerProvider
  | unregisterProvider | unheard | notify | unserved | serve => cases hhelper
  | store | find | insert | refuse | succeed | fail | answer | rollback => exact .inl hhelper
  | check caller event callbackData =>
      simp only [Data.check] at hhelper
      split_ifs at hhelper <;> exact .inl hhelper
  | remove caller event next hnext => rcases hnext with rfl | rfl <;> exact .inl hhelper
  | settle caller status =>
      cases caller with
      | user | unsubscribe => cases hhelper
      | subscribe mine =>
          simp only [Data.settle] at hhelper
          split_ifs at hhelper <;> cases hhelper
      | unsubscribeAll mine id => exact .inl (congrArg some (helper_turn hhelper))

/-- Only `unsubscribeAll` leads to its loop. -/
theorem Moves.sweeping (hmoves : Moves data context stage input move) {helper : η}
    (hsweeping : move.next.stage.caller.bind Caller.sweeping = some helper) :
    stage.caller.bind Caller.sweeping = some helper ∨
      input = .begin (.helperUnsubscribeAll helper) := by
  cases hmoves with
  | begin op =>
      cases op with
      | subscribe event callback usercb userdata =>
          simp only [Data.begin, (caller_check data .user event _).1] at hsweeping
          cases hsweeping
      | helperUnsubscribeAll mine => exact .inr (by rw [sweeping_turn hsweeping])
      | unsubscribe | helperSubscribe | helperUnsubscribe | registerProvider
      | unregisterProvider => cases hsweeping
  | beginNotify | beginServe | ignore | leaveEvent | leaveProvider | unknown | store | find
  | registerProvider | unregisterProvider | unheard | notify | unserved | serve => cases hsweeping
  | insert | refuse | succeed | fail | answer | rollback => exact .inl hsweeping
  | check caller event callbackData =>
      simp only [(caller_check data caller event callbackData).1] at hsweeping
      exact .inl hsweeping
  | remove caller event next hnext => rcases hnext with rfl | rfl <;> exact .inl hsweeping
  | settle caller status =>
      cases caller with
      | user | unsubscribe => cases hsweeping
      | subscribe mine =>
          simp only [Data.settle] at hsweeping
          split_ifs at hsweeping <;> cases hsweeping
      | unsubscribeAll mine id => exact .inl (congrArg some (sweeping_turn hsweeping))

/-- The event map changes only under its mutex. -/
theorem Moves.eventMap (hmoves : Moves data context stage input move) :
    move.data.eventMap = data.eventMap ∨ stage.wants = some .eventMapMtx := by
  cases hmoves with
  | begin op =>
      cases op with
      | helperUnsubscribeAll helper => exact .inl (eventMap_turn data helper 0)
      | subscribe | unsubscribe | helperSubscribe | helperUnsubscribe | registerProvider
      | unregisterProvider => exact .inl rfl
  | insert | rollback | remove => exact .inr rfl
  | beginNotify | beginServe | ignore | leaveEvent | leaveProvider | unknown | find | check
  | refuse | succeed | fail | answer | registerProvider | unregisterProvider | unheard | notify
  | unserved | serve => exact .inl rfl
  | store helper eventName notification address place stored hstored =>
      exact .inl (shared_store hstored).1
  | settle caller status =>
      refine .inl ?_
      cases caller with
      | user => rfl
      | subscribe helper =>
          simp only [Data.settle]
          split_ifs
          · rfl
          · exact eventMap_erase data helper _
      | unsubscribe helper id => exact eventMap_erase data helper id
      | unsubscribeAll helper id => exact eventMap_turn data helper (id + 1)

theorem context_settle (data : Data η β ρ) (context : Context β ρ) (status : Error)
    (caller : Caller η) : (data.settle context status caller).next.context = context := by
  cases caller with
  | subscribe =>
      simp only [Data.settle]
      split_ifs <;> rfl
  | user | unsubscribe | unsubscribeAll => rfl

/-- No operation is in progress in a callback that begins none. -/
theorem Moves.outside (hmoves : Moves data context stage input move)
    (hbegin : ∀ op, input = .begin op → context = .application)
    (houtside : context ≠ .application → stage = .ready)
    (hnext : move.next.context ≠ .application) : move.next.stage = .ready := by
  cases hmoves with
  | begin op => exact absurd (hbegin op rfl) hnext
  | beginNotify _ hcontext | beginServe _ hcontext | ignore _ hcontext =>
      exact absurd hcontext hnext
  | leaveEvent | leaveProvider => exact absurd rfl hnext
  | notify | serve => rfl
  | store | unknown | find | check | insert | refuse | succeed | fail | answer | rollback | remove
  | registerProvider | unregisterProvider | unheard | unserved => cases houtside hnext
  | settle caller status =>
      rw [context_settle] at hnext
      cases houtside hnext

/-- A callback that begins to run is that of an entry. -/
theorem Moves.running (hmoves : Moves data context stage input move)
    {callbackData : CallbackDataEvent (Dispatch β)}
    (hnext : move.next.context = .event callbackData) : context = .event callbackData ∨
      ∃ key, move.data.eventMap.lookup key = some callbackData := by
  cases hmoves with
  | notify method found hfound =>
      obtain rfl := Context.event.inj hnext
      exact .inr ⟨method, hfound⟩
  | leaveEvent | leaveProvider | serve => cases hnext
  | begin | beginNotify | beginServe | ignore | store | unknown | find | check | insert | refuse
  | succeed | fail | answer | rollback | remove | registerProvider | unregisterProvider | unheard
  | unserved => exact .inl hnext
  | settle caller status =>
      rw [context_settle] at hnext
      exact .inl hnext

/-- A move gives out at most one identifier. -/
theorem Moves.currentId_le (hmoves : Moves data context stage input move) (helper : η) :
    move.data.currentId helper ≤ data.currentId helper + 1 := by
  have hsame : ∀ next : Data η β ρ, next.currentId = data.currentId →
      next.currentId helper ≤ data.currentId helper + 1 := by
    intro next hnext
    rw [hnext]
    exact Nat.le_succ _
  cases hmoves with
  | begin op =>
      cases op with
      | helperUnsubscribeAll mine => exact hsame _ (currentId_turn data mine 0)
      | subscribe | unsubscribe | helperSubscribe | helperUnsubscribe | registerProvider
      | unregisterProvider => exact hsame _ rfl
  | beginNotify | beginServe | ignore | leaveEvent | leaveProvider | unknown | find | check
  | insert | refuse | succeed | fail | answer | rollback | remove | registerProvider
  | unregisterProvider | unheard | notify | unserved | serve => exact hsame _ rfl
  | store mine eventName notification address place stored hstored =>
      exact hsame _ (shared_store hstored).2
  | settle caller status =>
      cases caller with
      | user => exact hsame _ rfl
      | unsubscribe mine id => exact hsame _ (currentId_erase data mine id)
      | unsubscribeAll mine id => exact hsame _ (currentId_turn data mine (id + 1))
      | subscribe mine =>
          simp only [Data.settle]
          split_ifs with hstatus
          · show Function.update data.currentId mine (data.currentId mine + 1) helper ≤ _
            by_cases hhelper : helper = mine
            · rw [hhelper, Function.update_self]
            · rw [Function.update_of_ne hhelper]
              exact Nat.le_succ _
          · exact hsame _ (currentId_erase data mine _)

end FireboltTransport.Helpers
