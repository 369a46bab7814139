/-
# No callback on dead subscription data

All subscriptions go through helpers, callbacks do not call the SDK, and
`unsubscribeAll` does not overlap another operation of its helper.  Then every
entry of the event map points to a stored node under the key of its event,
whatever the requests come to, and a callback keeps its entry, and so its node,
because it runs under `eventMap_mtx`.
-/

import FireboltTransport.Helpers.Progress
import FireboltTransport.Semantics.Run

namespace FireboltTransport.Helpers

open Semantics Server GatewayImpl

universe u v w x

variable {η : Type u} {β : Type v} {ρ : Type w} {τ : Type x}

/-! ## What is assumed -/

/-- The operation is none that subscribes without a helper, and `unsubscribeAll` does not overlap
another operation of its helper. -/
def Op.Apart (state : State τ η β ρ) : Op η β ρ → Prop
  | .subscribe _ _ _ _ => False
  | .helperSubscribe helper _ _ | .helperUnsubscribe helper _ =>
      ∀ thread, (state.point thread).stage.caller.bind Caller.sweeping ≠ some helper
  | .helperUnsubscribeAll helper => ∀ thread, (state.point thread).stage.helper ≠ some helper
  | .unsubscribe _ | .registerProvider _ _ _ | .unregisterProvider _ _ _ => True

/-- Operations begin apart, and not within callbacks. -/
def Assumed (state : State τ η β ρ) : Action τ η β ρ → Prop
  | .move thread (.begin op) => (state.point thread).context = .application ∧ op.Apart state
  | _ => True

/-! ## What is promised -/

/-- Every entry points to a stored node under the key of its event, no two entries point to the
same node, and neither does a running callback point to a node that is gone. -/
structure Sound (state : State τ η β ρ) : Prop where
  designates : ∀ key callbackData, state.data.eventMap.lookup key = some callbackData →
    ∃ helper id node, state.data.node helper id = some node ∧
      node.address = callbackData.usercb ∧ getKeyFromEvent node.eventName = key
  distinct : ∀ first second firstData secondData,
    state.data.eventMap.lookup first = some firstData →
      state.data.eventMap.lookup second = some secondData →
        firstData.usercb = secondData.usercb → first = second
  running : ∀ thread callbackData, (state.point thread).context = .event callbackData →
    ∃ helper id node, state.data.node helper id = some node ∧
      node.address = callbackData.usercb

/-- The node of a callback stays stored in a step during which the callback runs on. -/
def StaysStored (state next : State τ η β ρ) : Prop :=
  ∀ thread callbackData, (state.point thread).context = .event callbackData →
    (next.point thread).context = .event callbackData → ∀ helper id node,
      state.data.node helper id = some node → node.address = callbackData.usercb →
        next.data.node helper id = some node

/-- `unsubscribe(id)` returns, for an identifier that `subscribe` has returned. -/
def Unsubscribed (helper : η) (id : ℕ) (state : State τ η β ρ) (action : Action τ η β ρ) : Prop :=
  ∃ thread, action = .move thread .go ∧
    ((∃ status, (state.point thread).stage = .settle (.unsubscribe helper id) status) ∨
      ((state.point thread).stage = .helperUnsubscribe helper id ∧
        state.data.node helper id = none ∧ id < state.data.currentId helper))

/-- `Notify` invokes the notification that is registered under the identifier. -/
def Notifies (helper : η) (id : ℕ) (state : State τ η β ρ) (action : Action τ η β ρ) : Prop :=
  ∃ thread method callbackData node, action = .move thread .go ∧
    (state.point thread).stage = .notify method ∧
    state.data.eventMap.lookup method = some callbackData ∧
    state.data.node helper id = some node ∧ node.address = callbackData.usercb

/-- An operation of a helper begins outside the loop of its `unsubscribeAll`. -/
theorem Op.Apart.sweeping_ne {state : State τ η β ρ} {op : Op η β ρ} (hapart : op.Apart state)
    {helper : η} (hop : op.helper = some helper) (thread : τ) :
    (state.point thread).stage.caller.bind Caller.sweeping ≠ some helper := by
  cases op with
  | subscribe | unsubscribe | registerProvider | unregisterProvider => cases hop
  | helperSubscribe | helperUnsubscribe =>
      obtain rfl := Option.some.inj hop
      exact hapart thread
  | helperUnsubscribeAll =>
      obtain rfl := Option.some.inj hop
      exact fun hsweeping => hapart thread (Stage.helper_eq_of_sweeping hsweeping)

/-! ## The invariant -/

structure Invariant (state : State τ η β ρ) : Prop where
  consistent : Consistent state
  tidy : Tidy state.data
  fact : ∀ thread, Fact state.data (state.point thread).stage
  /-- Only a `subscribe` in progress stores a node under the next identifier. -/
  vacant : ∀ helper, (∀ thread, (state.point thread).stage.caller ≠ some (.subscribe helper)) →
    state.data.node helper (state.data.currentId helper) = none
  /-- `unsubscribeAll` does not overlap another operation of its helper. -/
  alone : ∀ thread other helper,
    (state.point thread).stage.caller.bind Caller.sweeping = some helper →
      (state.point other).stage.helper = some helper → thread = other
  outside : ∀ thread, (state.point thread).context ≠ .application →
    (state.point thread).stage = .ready
  /-- A running callback keeps its entry. -/
  running : ∀ thread callbackData, (state.point thread).context = .event callbackData →
    ∃ key, state.data.eventMap.lookup key = some callbackData

theorem invariant_initial [DecidableEq η] [DecidableEq τ] (connected : Bool) :
    Invariant (initial connected : State τ η β ρ) where
  consistent := consistent_initial connected
  tidy :=
    { allocated := fun _ _ _ hnode => by cases hnode
      distinct := fun _ _ _ _ _ _ hfirst => by cases hfirst
      stored := fun _ _ hentry => by cases hentry
      id_le := fun _ _ _ hnode => by cases hnode }
  fact _ := trivial
  vacant _ _ := rfl
  alone _ _ _ hsweeping := by cases hsweeping
  outside _ _ := rfl
  running _ _ hcontext := by cases hcontext

namespace Invariant

section Threads

variable {state : State τ η β ρ} {mover : τ} {input : Input η β ρ}
  (hinvariant : Invariant state)
  (hfree : ∀ mutex, state.wants mover = some mutex → state.locks.holder mutex = none)

include hinvariant

/-- While a `subscribe` or an `unsubscribe` is in progress, no other one of the helper is. -/
theorem exclusive {first second : τ} {helper : η}
    (hfirst : (state.point first).stage.caller.bind Caller.locked = some helper)
    (hsecond : (state.point second).stage.caller.bind Caller.locked = some helper) :
    first = second := by
  have hholds : (state.point first).holds (.helperMtx helper) := hfirst
  exact hinvariant.consistent.agrees.exclusive hholds hsecond

include hfree

/-- A mutex that a thread asks for and gets is held by none. -/
theorem not_holds {mutex : Mutex η} (hwants : state.wants mover = some mutex) (thread : τ) :
    ¬ (state.point thread).holds mutex := by
  intro hholds
  have hholder := (hinvariant.consistent.agrees mutex thread).mpr hholds
  exact Option.some_ne_none thread (hholder.symm.trans (hfree mutex hwants))

/-- The node of a `subscribe` that begins is new. -/
theorem vacant_of_helperSubscribe {helper : η} {eventName : Text} {notification : β}
    (hstage : (state.point mover).stage = .helperSubscribe helper eventName notification) :
    state.data.node helper (state.data.currentId helper) = none := by
  apply hinvariant.vacant helper
  intro thread hcaller
  have hwants : state.wants mover = some (.helperMtx helper) := by rw [State.wants, hstage]; rfl
  apply hinvariant.not_holds hfree hwants thread
  show (state.point thread).stage.caller.bind Caller.locked = some helper
  rw [hcaller]
  rfl

/-- An operation that is in progress in another thread is of another helper. -/
theorem helper_ne {thread : τ} (hthread : thread ≠ mover) {helper : η}
    (howner : (state.point thread).stage.caller.bind Caller.helper = some helper) :
    (state.point mover).stage.helper ≠ some helper := by
  intro hmover
  obtain ⟨caller, hcaller, hhelper⟩ := Option.bind_eq_some_iff.mp howner
  rcases Caller.helper_cases hhelper with hlocked | hsweeping
  · have hlocked : (state.point thread).stage.caller.bind Caller.locked = some helper := by
      rw [hcaller]
      exact hlocked
    rcases Stage.helper_cases hmover with hwants | hmine | hmine
    · exact hinvariant.not_holds hfree hwants thread hlocked
    · exact hthread (hinvariant.exclusive hlocked hmine)
    · have hhelper := Stage.helper_eq_of_caller howner
      exact hthread (hinvariant.alone mover thread helper hmine hhelper).symm
  · have hsweeping : (state.point thread).stage.caller.bind Caller.sweeping = some helper := by
      rw [hcaller]
      exact hsweeping
    exact hthread (hinvariant.alone thread mover helper hsweeping hmover)

end Threads

variable [DecidableEq η]

section Move

variable {state : State τ η β ρ} {mover : τ} {input : Input η β ρ} {move : Move η β ρ}
  (hinvariant : Invariant state)
  (hfree : ∀ mutex, state.wants mover = some mutex → state.locks.holder mutex = none)
  (hmove : Moves state.data (state.point mover).context (state.point mover).stage input move)

include hinvariant hmove

/-- After the move too, a thread in the loop of `unsubscribeAll` is alone with its helper. -/
theorem helper_ne_of_sweeping (hassumed : Assumed state (.move mover input)) {helper : η}
    (hsweeping : move.next.stage.caller.bind Caller.sweeping = some helper) {other : τ}
    (hother : other ≠ mover) : (state.point other).stage.helper ≠ some helper := by
  intro hhelper
  rcases hmove.sweeping hsweeping with hbefore | rfl
  · exact hother (hinvariant.alone mover other helper hbefore hhelper).symm
  · exact hassumed.2 other hhelper

theorem sweeping_ne_of_helper (hassumed : Assumed state (.move mover input)) {helper : η}
    (hhelper : move.next.stage.helper = some helper) {thread : τ} (hthread : thread ≠ mover) :
    (state.point thread).stage.caller.bind Caller.sweeping ≠ some helper := by
  intro hsweeping
  rcases hmove.helper hhelper with hbefore | ⟨op, rfl, hop⟩
  · exact hthread (hinvariant.alone thread mover helper hsweeping hbefore)
  · exact hassumed.2.sweeping_ne hop thread hsweeping

include hfree

/-- The event map stays as it is while a callback runs. -/
theorem eventMap_of_running {thread : τ} {callbackData : CallbackDataEvent (Dispatch β)}
    (hcontext : (state.point thread).context = .event callbackData) :
    move.data.eventMap = state.data.eventMap := by
  apply hmove.eventMap.resolve_right
  intro hwants
  exact hinvariant.not_holds hfree hwants thread ⟨callbackData, hcontext⟩

theorem fact_move (hassumed : Assumed state (.move mover input)) {thread : τ}
    (hthread : thread ≠ mover) : Fact move.data (state.point thread).stage := by
  apply (hinvariant.fact thread).frame
  intro helper howner
  apply hmove.frame hinvariant.tidy (hinvariant.fact mover)
  · intro mine eventName notification
    exact hinvariant.vacant_of_helperSubscribe hfree
  · exact hinvariant.helper_ne hfree hthread howner
  · rintro rfl
    exact hassumed.2 thread (Stage.helper_eq_of_caller howner)

theorem tidy_move (hassumed : Assumed state (.move mover input)) :
    Tidy move.data ∧ Fact move.data move.next.stage := by
  apply hmove.tidy hinvariant.tidy (hinvariant.fact mover)
  · intro helper eventName notification
    exact hinvariant.vacant_of_helperSubscribe hfree
  · rintro event callback usercb userdata rfl
    exact hassumed.2

end Move

end Invariant

variable [DecidableEq η] [DecidableEq τ]

theorem Invariant.step {state next : State τ η β ρ} {action : Action τ η β ρ}
    (hinvariant : Invariant state) (hassumed : Assumed state action)
    (hstep : Step state action next) : Invariant next := by
  have hconsistent := hinvariant.consistent.step hstep
  cases hstep with
  | setTransport connected =>
      have hframe : ∀ helper, Frame state.data { state.data with connected } helper :=
        fun helper => .of_subscriptions helper (fun _ hunused => hunused) rfl rfl
      exact
        { consistent := hconsistent
          tidy := ⟨hinvariant.tidy.allocated, hinvariant.tidy.distinct, hinvariant.tidy.stored,
            hinvariant.tidy.id_le⟩
          fact := fun thread => (hinvariant.fact thread).frame fun helper _ => hframe helper
          vacant := hinvariant.vacant
          alone := hinvariant.alone
          outside := hinvariant.outside
          running := hinvariant.running }
  | move mover input move locks hfree hmove hlocks =>
      -- The mover is at its next point, and the others are where they were.
      have hself : State.point ⟨move.data, locks⟩ mover = move.next := Locks.point_move_self hlocks
      have hothers : ∀ thread, thread ≠ mover →
          State.point ⟨move.data, locks⟩ thread = state.point thread :=
        fun thread => Locks.point_move_of_ne hlocks
      obtain ⟨htidy, hfact⟩ := hinvariant.tidy_move hfree hmove hassumed
      constructor
      · exact hconsistent
      · exact htidy
      · intro thread
        by_cases hthread : thread = mover
        · rw [hthread, hself]
          exact hfact
        · rw [hothers thread hthread]
          exact hinvariant.fact_move hfree hmove hassumed hthread
      · intro helper hnobody
        apply hmove.vacant hinvariant.tidy
        · intro mine eventName notification
          exact hinvariant.vacant_of_helperSubscribe hfree
        · intro hmover
          apply hinvariant.vacant helper
          intro thread
          by_cases hthread : thread = mover
          · rw [hthread]
            exact hmover
          · rw [← hothers thread hthread]
            exact hnobody thread
        · rw [← hself]
          exact hnobody mover
      · intro thread other helper hsweeping hhelper
        by_cases hthread : thread = mover
        · by_cases hother : other = mover
          · rw [hthread, hother]
          · rw [hthread, hself] at hsweeping
            rw [hothers other hother] at hhelper
            have halone := hinvariant.helper_ne_of_sweeping hmove hassumed hsweeping hother
            exact absurd hhelper halone
        · rw [hothers thread hthread] at hsweeping
          by_cases hother : other = mover
          · rw [hother, hself] at hhelper
            have halone := hinvariant.sweeping_ne_of_helper hmove hassumed hhelper hthread
            exact absurd hsweeping halone
          · rw [hothers other hother] at hhelper
            exact hinvariant.alone thread other helper hsweeping hhelper
      · intro thread
        by_cases hthread : thread = mover
        · rw [hthread, hself]
          apply hmove.outside
          · rintro op rfl
            exact hassumed.1
          · exact hinvariant.outside mover
        · rw [hothers thread hthread]
          exact hinvariant.outside thread
      · intro thread callbackData hcontext
        by_cases hthread : thread = mover
        · rw [hthread, hself] at hcontext
          rcases hmove.running hcontext with hbefore | hentry
          · rw [hinvariant.eventMap_of_running hfree hmove hbefore]
            exact hinvariant.running mover callbackData hbefore
          · exact hentry
        · rw [hothers thread hthread] at hcontext
          rw [hinvariant.eventMap_of_running hfree hmove hcontext]
          exact hinvariant.running thread callbackData hcontext

/-! ## What follows from it -/

namespace Invariant

variable {state next : State τ η β ρ} {action : Action τ η β ρ} (hinvariant : Invariant state)

include hinvariant

omit [DecidableEq η] [DecidableEq τ] in
theorem sound : Sound state where
  designates := hinvariant.tidy.stored
  distinct _ _ _ _ hfirst hsecond hsame := hinvariant.tidy.key_unique hfirst hsecond hsame
  running thread callbackData hcontext := by
    obtain ⟨key, hentry⟩ := hinvariant.running thread callbackData hcontext
    obtain ⟨helper, id, node, hnode, haddress, -⟩ := hinvariant.tidy.stored key callbackData hentry
    exact ⟨helper, id, node, hnode, haddress⟩

/-- No step frees the node of a running callback. -/
theorem staysStored (hstep : Step state action next) : StaysStored state next := by
  intro thread callbackData hcontext _ helper id node hnode haddress
  cases hstep with
  | setTransport connected => exact hnode
  | move mover input move locks hfree hmove hlocks =>
      obtain ⟨key, hentry⟩ := hinvariant.running thread callbackData hcontext
      have hkept := hmove.kept (hinvariant.fact mover)
        (fun mine eventName notification => hinvariant.vacant_of_helperSubscribe hfree) hnode
      apply hkept.resolve_right
      intro hunused
      exact hunused key callbackData hentry haddress.symm

theorem gone_step (hstep : Step state action next) {helper : η} {id : ℕ}
    (hgone : state.data.Gone helper id) : next.data.Gone helper id := by
  cases hstep with
  | setTransport connected => exact hgone
  | move mover input move locks hfree hmove hlocks =>
      apply hmove.gone _ hgone
      intro mine eventName notification
      exact hinvariant.vacant_of_helperSubscribe hfree

theorem gone_of_unsubscribed (hstep : Step state action next) {helper : η} {id : ℕ}
    (hunsubscribed : Unsubscribed helper id state action) : next.data.Gone helper id := by
  obtain ⟨thread, rfl, ⟨status, hstage⟩ | ⟨hstage, hnone, hlt⟩⟩ := hunsubscribed
  · cases hstep with
    | move _ _ move locks hfree hmove hlocks =>
        rw [hstage] at hmove
        cases hmove
        have hfact := hinvariant.fact thread
        rw [hstage] at hfact
        obtain ⟨node, hnode, -⟩ := hfact
        have hlocked : (state.point thread).stage.caller.bind Caller.locked = some helper := by
          rw [hstage]
          rfl
        -- The thread holds the mutex, so no `subscribe` of the helper is in progress.
        have hvacant : state.data.node helper (state.data.currentId helper) = none := by
          apply hinvariant.vacant helper
          intro other hcaller
          have hother : (state.point other).stage.caller.bind Caller.locked = some helper := by
            rw [hcaller]
            rfl
          rw [hinvariant.exclusive hother hlocked, hstage] at hcaller
          cases hcaller
        constructor
        · show (state.data.erase helper id).node helper id = none
          rw [node_erase, if_pos ⟨rfl, rfl⟩]
        · show id < (state.data.erase helper id).currentId helper
          rw [currentId_erase]
          apply lt_of_le_of_ne (hinvariant.tidy.id_le helper id node hnode)
          rintro rfl
          exact Option.some_ne_none node (hnode.symm.trans hvacant)
  · apply hinvariant.gone_step hstep
    exact ⟨hnone, hlt⟩

end Invariant

/-- In the runs assumed the invariant is kept, and freed identifiers are not used again. -/
theorem invariant_exec {state final : State τ η β ρ} {schedule : List (Action τ η β ρ)}
    (hassumed : Meets step Assumed state schedule) (hrun : exec step state schedule = some final)
    (hinvariant : Invariant state) : Invariant final ∧
      ∀ helper id, state.data.Gone helper id → final.data.Gone helper id := by
  apply exec_invariant_of_meets (motive := fun reached => Invariant reached ∧
    ∀ helper id, state.data.Gone helper id → reached.data.Gone helper id) _ _ hassumed hrun
  · rintro reached action next ⟨hreached, hgone⟩ hassumed htaken
    have hstep := step_cases htaken
    exact ⟨hreached.step hassumed hstep,
      fun helper id hstart => hreached.gone_step hstep (hgone helper id hstart)⟩
  · exact ⟨hinvariant, fun helper id hgone => hgone⟩

/-- **No callback on dead subscription data.**  In every reachable state the entries point to
stored nodes under the keys of their events, each to one of its own, and a running callback to a
stored node, which stays stored until the callback returns.  Once `unsubscribe(id)` has returned,
the notification registered under `id` is never invoked again. -/
theorem no_callback_on_dead_data {connected : Bool} {schedule : List (Action τ η β ρ)}
    {final : State τ η β ρ} (hassumed : Meets step Assumed (initial connected) schedule)
    (hrun : exec step (initial connected) schedule = some final) :
    Sound final ∧
      (∀ action next, step final action = some next → StaysStored final next) ∧
      (∀ helper id before action after state next, schedule = before ++ action :: after →
        exec step (initial connected) before = some state →
          Unsubscribed helper id state action → step state action = some next →
            ¬ Happened step next after (Notifies helper id)) := by
  have hinitial : Invariant (initial connected : State τ η β ρ) := invariant_initial connected
  have hfinal := (invariant_exec hassumed hrun hinitial).1
  refine ⟨hfinal.sound, ?_, ?_⟩
  · intro action next htaken
    exact hfinal.staysStored (step_cases htaken)
  · rintro helper id before action after state next rfl hbefore hunsubscribed htaken
    rintro ⟨past, last, rest, reached, rfl, hpast, thread, method, callbackData, node, -, -, -,
      hnode, -⟩
    obtain ⟨hassumedBefore, hassumedAfter⟩ := (meets_append hbefore).mp hassumed
    obtain ⟨hassumedStep, hassumedAfter⟩ := (meets_cons_of_step htaken).mp hassumedAfter
    have hassumedPast := ((meets_append hpast).mp hassumedAfter).1
    have hstate := (invariant_exec hassumedBefore hbefore hinitial).1
    have hstep := step_cases htaken
    have hgone := hstate.gone_of_unsubscribed hstep hunsubscribed
    have hnext := hstate.step hassumedStep hstep
    obtain ⟨hnone, -⟩ := (invariant_exec hassumedPast hpast hnext).2 helper id hgone
    exact Option.some_ne_none node (hnode.symm.trans hnone)

/-- `currentId_` counts steps of the run at most, so its 64 bits suffice for the runs of less than
`2 ^ 64` steps. -/
theorem currentId_le_length {connected : Bool} {schedule : List (Action τ η β ρ)}
    {final : State τ η β ρ} (hrun : exec step (initial connected) schedule = some final)
    (helper : η) : final.data.currentId helper ≤ schedule.length := by
  apply exec_history (motive := fun prior reached =>
    reached.data.currentId helper ≤ prior.length) _ _ hrun
  · exact Nat.le_refl 0
  · intro prior state action next _ hle htaken
    rw [List.length_append, List.length_singleton]
    cases step_cases htaken with
    | setTransport connected => exact hle.trans (Nat.le_succ _)
    | move mover input move locks hfree hmove hlocks =>
        exact (hmove.currentId_le helper).trans (Nat.succ_le_succ hle)

instance [Fintype τ] (state : State τ η β ρ) : ∀ op : Op η β ρ, Decidable (op.Apart state)
  | .subscribe _ _ _ _ => isFalse not_false
  | .helperSubscribe helper _ _ | .helperUnsubscribe helper _ => inferInstanceAs (Decidable
      (∀ thread, (state.point thread).stage.caller.bind Caller.sweeping ≠ some helper))
  | .helperUnsubscribeAll helper => inferInstanceAs (Decidable
      (∀ thread, (state.point thread).stage.helper ≠ some helper))
  | .unsubscribe _ | .registerProvider _ _ _ | .unregisterProvider _ _ _ => isTrue trivial

instance [DecidableEq β] [DecidableEq ρ] [Fintype τ] (state : State τ η β ρ) :
    ∀ action, Decidable (Assumed state action)
  | .move thread (.begin op) => inferInstanceAs (Decidable
      ((state.point thread).context = .application ∧ op.Apart state))
  | .setTransport _ | .move _ (.notify _) | .move _ (.serve _) | .move _ .leave
  | .move _ (.store _) | .move _ (.answer _) | .move _ .go => isTrue trivial

/-- A helper subscribes an event, whose callback begins to run. -/
def delivered (first second : τ) (helper : η) (event : Text) (notification : β) :
    List (Action τ η β ρ) :=
  [.move first (.begin (.helperSubscribe helper event notification)), .move first (.store 7),
    .move first .go, .move first .go, .move first (.answer ⟨.none, ⟨true, true⟩⟩), .move first .go,
    .move second (.notify event), .move second .go]

/-- The helper unsubscribes while the callback runs, and waits for it to return. -/
def unsubscribing (first second : τ) (helper : η) : List (Action τ η β ρ) :=
  [.move first (.begin (.helperUnsubscribe helper 0)), .move first .go, .move second .leave,
    .move first .go, .move first (.answer ⟨.none, ⟨true, true⟩⟩)]

theorem no_callback_on_dead_data_delivered :
    ∃ state next : State (Fin 2) (Fin 1) Unit Unit,
      exec step (initial true) (delivered 0 1 0 ['A', '.', 'b'] () ++ unsubscribing 0 1 0) =
        some state ∧
      step state (.move 0 .go) = some next ∧
      ¬ Happened step next [.move 1 (.notify ['A', '.', 'b']), .move 1 .go] (Notifies 0 0) := by
  obtain ⟨state, hbefore, hstage⟩ : ∃ state : State (Fin 2) (Fin 1) Unit Unit,
      exec step (initial true) (delivered 0 1 0 ['A', '.', 'b'] () ++ unsubscribing 0 1 0) =
        some state ∧
      decide ((state.point 0).stage = .settle (.unsubscribe 0 0) .none) = true :=
    exists_exec_of_any (by decide)
  obtain ⟨final, hrun, -⟩ : ∃ final : State (Fin 2) (Fin 1) Unit Unit,
      exec step (initial true) ((delivered 0 1 0 ['A', '.', 'b'] () ++ unsubscribing 0 1 0) ++
        .move 0 .go :: [.move 1 (.notify ['A', '.', 'b']), .move 1 .go]) = some final ∧
      true = true := exists_exec_of_any (by decide)
  obtain ⟨middle, hmiddle, hafter⟩ := exec_append_eq_some.mp hrun
  obtain rfl : middle = state := Option.some.inj (hmiddle.symm.trans hbefore)
  obtain ⟨next, htaken, -⟩ := exec_cons_eq_some.mp hafter
  refine ⟨middle, next, hbefore, htaken, ?_⟩
  exact (no_callback_on_dead_data (by decide) hrun).2.2 0 0 _ _ _ middle next rfl hbefore
    ⟨0, rfl, .inl ⟨.none, of_decide_eq_true hstage⟩⟩ htaken

end FireboltTransport.Helpers
