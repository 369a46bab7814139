/-
# The rollback of a failed subscription

A subscription whose request fails removes its key from the event map, not its
entry.  Between its insertion and that removal an `Unsubscribe` may have taken
the entry away and another `Subscribe` may have put its own under the same key,
which the rollback then removes.  Nothing else takes the entry of a successful
subscription: if no call inserts under a key while an earlier one may still roll
back there, the entry stays until it is unsubscribed.
-/

import FireboltTransport.Gateway.Agreement

namespace FireboltTransport.Listening

open Semantics Server GatewayImpl

universe u v

variable {β : Type u} {κ : Type v}

/-- The subscription that has updated the map and can still come to its rollback. -/
def Phase.mayRollBack : Phase β → Option (Call β)
  | .updated call | .sent call => if call.listen then some call else none
  | .answered call outcome => if call.listen ∧ call.status outcome ≠ .none then some call else none
  | .rollingBack call _ => some call
  | .idle | .begun _ | .returned _ _ => none

/-- No entry is inserted under a key under which another call may still roll back. -/
def InsertsAlone (state : State β κ) : Action β κ → Prop
  | .update op =>
      match state.phase op with
      | .begun (.subscribe event _) => state.eventMap.lookup (getKeyFromEvent event) = none →
          ∀ other, ∀ call ∈ (state.phase other).mayRollBack, call.key ≠ getKeyFromEvent event
      | _ => True
  | _ => True

/-- A step in which an `Unsubscribe` removes the entry of the key. -/
def Unsubscribes (key : Text) (state : State β κ) (action : Action β κ) : Prop :=
  ∃ op event, action = .update op ∧ state.phase op = .begun (.unsubscribe event) ∧
    getKeyFromEvent event = key ∧ (Server.unsubscribe state.eventMap event).1 = .none

/-- The outcomes of a subscription that has returned `None`, or may do so. -/
def Phase.holdsEntry (call : Call β) : Phase β → Prop
  | .updated own | .sent own => own = call
  | .answered own outcome => own = call ∧ call.status outcome = .none
  | .returned own status => own = call ∧ status = .none
  | _ => False

/-- The subscription fails, or has failed. -/
def Phase.fails (call : Call β) : Phase β → Prop
  | .answered own outcome => own = call ∧ call.status outcome ≠ .none
  | .rollingBack own status | .returned own status => own = call ∧ status ≠ .none
  | _ => False

/-- Where the entry of a subscription is: it has failed, or its entry is in the map and
nobody is about to take it away. -/
def Kept (op : κ) (event : Text) (callbackData : CallbackDataEvent β) (state : State β κ) : Prop :=
  (state.phase op).fails (.subscribe event callbackData) ∨
    ((state.phase op).holdsEntry (.subscribe event callbackData) ∧
      state.eventMap.lookup (getKeyFromEvent event) = some callbackData ∧
      ∀ other, other ≠ op → ∀ call ∈ (state.phase other).mayRollBack,
        call.key ≠ getKeyFromEvent event)

variable [DecidableEq κ]

/-- The entry of every successful subscription of the schedule is in the map in the end,
unless an `Unsubscribe` has removed it since it was inserted. -/
def KeepsRegistered (start : State β κ) (schedule : List (Action β κ)) : Prop :=
  ∀ before op after state next final event callbackData,
    schedule = before ++ .update op :: after → exec step start before = some state →
    state.phase op = .begun (.subscribe event callbackData) →
    state.eventMap.lookup (getKeyFromEvent event) = none →
    step state (.update op) = some next → exec step next after = some final →
    final.phase op = .returned (.subscribe event callbackData) .none →
    ¬ Happened step next after (Unsubscribes (getKeyFromEvent event)) →
      final.eventMap.lookup (getKeyFromEvent event) = some callbackData

/-! ## One step -/

section Step

variable {state next : State β κ} {action : Action β κ}

/-- An update that succeeds for a subscription has found the key free. -/
theorem lookup_of_update_subscribe {call : Call β} {eventMap later : EventMap β}
    (hupdate : call.update eventMap = (.none, later)) (hlisten : call.listen = true) :
    eventMap.lookup call.key = none := by
  cases call with
  | subscribe event callbackData =>
      by_contra htaken
      have hfailed : (Call.subscribe event callbackData).update eventMap = (.general, eventMap) :=
        Server.subscribe_of_taken htaken
      exact absurd (congrArg Prod.fst (hfailed.symm.trans hupdate)) Error.general_ne_none
  | unsubscribe event => cases hlisten

/-- A call may roll back only after it has inserted an entry. -/
theorem mayRollBack_step (hstep : Step state action next) {op : κ} {call : Call β}
    (hmay : (next.phase op).mayRollBack = some call) :
    (state.phase op).mayRollBack = some call ∨ state.eventMap.lookup call.key = none := by
  cases hstep with
  | setTransport connected => exact .inl hmay
  | peerLate message rest hwire hphase => exact .inl hmay
  | update actor own eventMap hphase hupdate =>
      by_cases hop : op = actor
      · subst hop
        right
        simp only [State.setPhase, Function.update_self, Phase.mayRollBack] at hmay
        split_ifs at hmay with hlisten
        obtain rfl := Option.some.inj hmay
        exact lookup_of_update_subscribe hupdate hlisten
      · left
        simpa [State.setPhase, hop] using hmay
  | refuse actor own hphase | start actor own hphase | updateFailed actor own hphase
  | send actor own hphase | settle actor own outcome hphase
  | settleFailed actor own outcome hphase | rollback actor own status hphase
  | complete actor own outcome hphase =>
      left
      by_cases hop : op = actor
      · subst hop
        simp only [State.setPhase, Function.update_self, Phase.mayRollBack] at hmay
        grind [Phase.mayRollBack]
      · simpa [State.setPhase, hop] using hmay
  | peer message rest own hwire hphase =>
      left
      by_cases hop : op = message.op
      · subst hop
        simp only [State.setPhase, Function.update_self, Phase.mayRollBack] at hmay
        grind [Phase.mayRollBack]
      · simpa [State.setPhase, hop] using hmay

/-- A call that fails goes on failing. -/
theorem fails_step (hstep : Step state action next) {op : κ} {call : Call β}
    (hfails : (state.phase op).fails call) : (next.phase op).fails call := by
  cases hstep with
  | setTransport connected => exact hfails
  | peerLate message rest hwire hphase => exact hfails
  | refuse actor own hphase | start actor own hphase | update actor own eventMap hphase
  | updateFailed actor own hphase | send actor own hphase | settle actor own outcome hphase
  | settleFailed actor own outcome hphase | rollback actor own status hphase =>
      by_cases hop : op = actor
      · subst hop
        simp_all [State.setPhase, Phase.fails]
      · simpa [State.setPhase, hop] using hfails
  | complete actor own outcome hphase =>
      by_cases hop : op = actor
      · subst hop
        rcases hphase with hphase | hphase <;> simp_all [Phase.fails]
      · simpa [State.setPhase, hop] using hfails
  | peer message rest own hwire hphase =>
      by_cases hop : op = message.op
      · subst hop
        simp_all [Phase.fails]
      · simpa [State.setPhase, hop] using hfails

/-- A subscription that has inserted its entry keeps to it until it fails. -/
theorem holdsEntry_step (hstep : Step state action next) {op : κ} {call : Call β}
    (hlisten : call.listen = true) (hholds : (state.phase op).holdsEntry call) :
    (next.phase op).holdsEntry call ∨ (next.phase op).fails call := by
  cases hstep with
  | setTransport connected => exact .inl hholds
  | peerLate message rest hwire hphase => exact .inl hholds
  | refuse actor own hphase | start actor own hphase | update actor own eventMap hphase
  | updateFailed actor own hphase | send actor own hphase | settle actor own outcome hphase
  | settleFailed actor own outcome hphase | rollback actor own status hphase =>
      by_cases hop : op = actor
      · subst hop
        simp_all [State.setPhase, Phase.holdsEntry, Phase.fails]
      · left
        simpa [State.setPhase, hop] using hholds
  | complete actor own outcome hphase =>
      by_cases hop : op = actor
      · subst hop
        obtain rfl : own = call := by
          rcases hphase with hphase | hphase <;> simpa [hphase, Phase.holdsEntry] using hholds
        simp only [State.setPhase, Function.update_self, Phase.holdsEntry, Phase.fails, true_and]
        exact em _
      · left
        simpa [State.setPhase, hop] using hholds
  | peer message rest own hwire hphase =>
      left
      by_cases hop : op = message.op
      · subst hop
        obtain rfl : own = call := by simpa [hphase, Phase.holdsEntry] using hholds
        simp [State.setPhase, Phase.holdsEntry, confirmation]
      · simpa [State.setPhase, hop] using hholds

/-- An entry leaves the map by an `Unsubscribe` or by a rollback for its key. -/
theorem lookup_step (hstep : Step state action next) {key : Text}
    {callbackData : CallbackDataEvent β} (hlookup : state.eventMap.lookup key = some callbackData)
    (hunsubscribes : ¬ Unsubscribes key state action)
    (hrollback : ∀ op call status, action = .rollback op →
      state.phase op = .rollingBack call status → call.key ≠ key) :
    next.eventMap.lookup key = some callbackData := by
  cases hstep with
  | update actor own eventMap hphase hupdate =>
      show eventMap.lookup key = some callbackData
      cases own with
      | subscribe event inserted =>
          have hfree := lookup_of_update_subscribe hupdate rfl
          have hne : key ≠ getKeyFromEvent event := by
            rintro rfl
            cases hfree.symm.trans hlookup
          have hinserted : (Call.subscribe event inserted).update state.eventMap = _ :=
            Server.subscribe_of_free hfree
          rw [hinserted, Prod.mk.injEq] at hupdate
          rw [← hupdate.2, StdMap.lookup_insert_of_eq_or_ne, if_neg hne]
          exact hlookup
      | unsubscribe event =>
          have hne : key ≠ getKeyFromEvent event := fun hkey =>
            hunsubscribes ⟨actor, event, rfl, hphase, hkey.symm, congrArg Prod.fst hupdate⟩
          have htaken : state.eventMap.lookup (getKeyFromEvent event) ≠ none := fun hfree => by
            rw [Call.update, Server.unsubscribe_of_free hfree] at hupdate
            exact Error.general_ne_none (congrArg Prod.fst hupdate)
          rw [Call.update, Server.unsubscribe_of_taken htaken, Prod.mk.injEq] at hupdate
          rw [← hupdate.2, StdMap.lookup_erase_of_eq_or_ne, if_neg hne]
          exact hlookup
  | rollback actor own status hphase =>
      have hne : key ≠ getKeyFromEvent own.event :=
        Ne.symm (hrollback actor own status rfl hphase)
      show (Server.unsubscribe state.eventMap own.event).2.lookup key = some callbackData
      by_cases hfree : state.eventMap.lookup (getKeyFromEvent own.event) = none
      · rw [Server.unsubscribe_of_free hfree]
        exact hlookup
      · rw [Server.unsubscribe_of_taken hfree, StdMap.lookup_erase_of_eq_or_ne, if_neg hne]
        exact hlookup
  | _ => exact hlookup

theorem kept_step {op : κ} {event : Text} {callbackData : CallbackDataEvent β}
    (hkept : Kept op event callbackData state) (hstep : Step state action next)
    (hunsubscribes : ¬ Unsubscribes (getKeyFromEvent event) state action) :
    Kept op event callbackData next := by
  rcases hkept with hfails | ⟨hholds, hlookup, hothers⟩
  · exact .inl (fails_step hstep hfails)
  rcases holdsEntry_step hstep rfl hholds with hholdsNext | hfails
  · refine .inr ⟨hholdsNext, lookup_step hstep hlookup hunsubscribes ?_, ?_⟩
    · intro other call status _ hrolling
      by_cases hother : other = op
      · rw [hother] at hrolling
        simp [hrolling, Phase.holdsEntry] at hholds
      · exact hothers other hother call (by rw [hrolling]; rfl)
    · intro other hother call hmay hkey
      rcases mayRollBack_step hstep hmay with hbefore | hfree
      · exact hothers other hother call hbefore hkey
      · rw [hkey, hlookup] at hfree
        cases hfree
  · exact .inl hfails

end Step

/-! ## Whole runs -/

/-- A subscription that inserts while nobody else may roll back keeps its entry. -/
theorem kept_of_update {state next : State β κ} {op : κ} {event : Text}
    {callbackData : CallbackDataEvent β}
    (hphase : state.phase op = .begun (.subscribe event callbackData))
    (hfree : state.eventMap.lookup (getKeyFromEvent event) = none)
    (htaken : step state (.update op) = some next) (halone : InsertsAlone state (.update op)) :
    Kept op event callbackData next := by
  have hupdate : (Call.subscribe event callbackData).update state.eventMap =
      (.none, state.eventMap.insert (getKeyFromEvent event) callbackData) :=
    Server.subscribe_of_free hfree
  simp only [step, hphase, hupdate, if_true] at htaken
  obtain rfl := Option.some.inj htaken
  refine .inr ⟨by simp [State.setPhase, Phase.holdsEntry], AList.lookup_insert _, ?_⟩
  intro other hother call hmay
  simp only [State.setPhase, Function.update_of_ne hother] at hmay
  simp only [InsertsAlone, hphase] at halone
  exact halone hfree other call hmay

/-- What a subscription keeps, it keeps through every schedule without an `Unsubscribe`. -/
theorem kept_exec {op : κ} {event : Text} {callbackData : CallbackDataEvent β}
    {state final : State β κ} {schedule : List (Action β κ)}
    (hkept : Kept op event callbackData state) (hrun : exec step state schedule = some final)
    (hunsubscribes : ¬ Happened step state schedule (Unsubscribes (getKeyFromEvent event))) :
    Kept op event callbackData final := by
  induction schedule generalizing state with
  | nil =>
      obtain rfl : state = final := by simpa using hrun
      exact hkept
  | cons action rest ih =>
      obtain ⟨next, htaken, hrest⟩ := exec_cons_eq_some.mp hrun
      rw [happened_cons htaken, not_or] at hunsubscribes
      exact ih (kept_step hkept (step_cases htaken) hunsubscribes.1) hrest hunsubscribes.2

/-- **Registered callbacks stay.**  In every run in which no entry is inserted under a key
while another subscription may still roll back there, the callback of a successful
subscription is in the event map until an `Unsubscribe` removes it. -/
theorem keepsRegistered_of_insertsAlone {connected : Bool} {schedule : List (Action β κ)}
    (halone : Meets step InsertsAlone (initial connected) schedule) :
    KeepsRegistered (initial connected) schedule := by
  rintro before op after state next final event callbackData rfl hbefore hphase hfree htaken
    hafter hreturned hunsubscribes
  have hinserts := ((meets_append hbefore).mp halone).2
  have hkept := kept_of_update hphase hfree htaken hinserts.1
  rcases kept_exec hkept hafter hunsubscribes with hfails | ⟨_, hlookup, _⟩
  · simp [hreturned, Phase.fails] at hfails
  · exact hlookup

/-! ## Sharpness -/

/-- A call that may roll back does so when its request fails now. -/
theorem exists_rollingBack {state : State β κ} {op : κ} {call : Call β}
    (hmay : (state.phase op).mayRollBack = some call) :
    ∃ schedule status, (∀ action ∈ schedule, ∀ other, action ≠ .update other) ∧
      exec step state schedule = some (state.setPhase op (.rollingBack call status)) := by
  have hfailed : (⟨.timedout, ⟨false, false⟩⟩ : ListenOutcome).status ≠ .none :=
    Error.timedout_ne_none
  cases hphase : state.phase op with
  | updated own | sent own =>
      simp only [hphase, Phase.mayRollBack] at hmay
      split_ifs at hmay with hlisten
      obtain rfl := Option.some.inj hmay
      refine ⟨[.complete op ⟨.timedout, ⟨false, false⟩⟩, .settle op], .timedout, by simp, ?_⟩
      cases own with
      | subscribe event callbackData => simp [step, hphase, State.setPhase]
      | unsubscribe event => cases hlisten
  | answered own outcome =>
      simp only [hphase, Phase.mayRollBack] at hmay
      split_ifs at hmay with hfails
      obtain rfl := Option.some.inj hmay
      obtain ⟨hlisten, hstatus⟩ := hfails
      refine ⟨[.settle op], own.status outcome, by simp, ?_⟩
      cases own with
      | subscribe event callbackData =>
          have hnext : outcome.status ≠ .none := by simpa using hstatus
          simp [step, hphase, hnext]
      | unsubscribe event => cases hlisten
  | rollingBack own status =>
      simp only [hphase, Phase.mayRollBack, Option.some.injEq] at hmay
      subst hmay
      refine ⟨[], status, by simp, ?_⟩
      simp [State.setPhase, ← hphase]
  | idle | begun own | returned own status => simp [hphase, Phase.mayRollBack] at hmay

/-- Whenever an entry is inserted while another subscription may roll back, that rollback
can take it away from a subscription that has succeeded. -/
theorem exists_lost_of_not_insertsAlone {state : State β κ} {op : κ}
    (halone : ¬ InsertsAlone state (.update op)) :
    ∃ schedule final event callbackData,
      (∀ action ∈ schedule, ∀ other, action ≠ .update other) ∧
      exec step state (.update op :: schedule) = some final ∧
      final.phase op = .returned (.subscribe event callbackData) .none ∧
      final.eventMap.lookup (getKeyFromEvent event) = none := by
  simp only [InsertsAlone] at halone
  split at halone
  case h_2 => exact absurd trivial halone
  case h_1 event callbackData hphase =>
      push Not at halone
      obtain ⟨hfree, other, call, hmay, hkey⟩ := halone
      have hother : other ≠ op := by
        rintro rfl
        simp [hphase, Phase.mayRollBack] at hmay
      -- The subscription inserts and succeeds.
      let own : Call β := .subscribe event callbackData
      let entered : State β κ := { state with
        eventMap := state.eventMap.insert (getKeyFromEvent event) callbackData }
      have hsucceeds : exec step state [.update op, .complete op ⟨.none, ⟨true, true⟩⟩,
          .settle op] = some (entered.setPhase op (.returned own .none)) := by
        simp [step, hphase, Call.update, Server.subscribe_of_free hfree, State.setPhase, own,
          entered]
      -- Then the earlier one fails.
      have hmayStill : ((entered.setPhase op (.returned own .none)).phase other).mayRollBack =
          some call := by
        simpa [State.setPhase, hother, entered] using hmay
      obtain ⟨schedule, status, hnobody, hrolling⟩ := exists_rollingBack hmayStill
      have herase : (Server.unsubscribe entered.eventMap call.event).2 =
          entered.eventMap.erase (getKeyFromEvent event) := by
        have hcall : getKeyFromEvent call.event = getKeyFromEvent event := hkey
        have htaken : entered.eventMap.lookup (getKeyFromEvent call.event) ≠ none := by
          simp [hcall, entered]
        rw [Server.unsubscribe_of_taken htaken, hcall]
      have hrollback : step ((entered.setPhase op (.returned own .none)).setPhase other
          (.rollingBack call status)) (.rollback other) =
            some ({ entered.setPhase op (.returned own .none) with
              eventMap := entered.eventMap.erase (getKeyFromEvent event) }.setPhase other
                (.returned call status)) := by
        simp [step, State.setPhase, herase]
      have hrun := exec_trans hsucceeds (exec_snoc hrolling hrollback)
      simp only [List.cons_append] at hrun
      refine ⟨_, _, event, callbackData, ?_, hrun, ?_, ?_⟩
      · intro action hmem
        simp only [List.nil_append, List.mem_append, List.mem_cons, List.not_mem_nil,
          or_false] at hmem
        rcases hmem with rfl | rfl | hmem | rfl
        · simp
        · simp
        · exact hnobody action hmem
        · simp
      · simp [State.setPhase, Ne.symm hother, own]
      · exact AList.lookup_erase _ _

/-! ## Runs -/

instance [Fintype κ] (state : State β κ) : ∀ action, Decidable (InsertsAlone state action)
  | .update op =>
      match hphase : state.phase op with
      | .begun (.subscribe event _) =>
          decidable_of_iff (state.eventMap.lookup (getKeyFromEvent event) = none →
            ∀ other, ∀ call ∈ (state.phase other).mayRollBack, call.key ≠ getKeyFromEvent event)
            (by simp only [InsertsAlone, hphase])
      | .idle | .begun (.unsubscribe _) | .updated _ | .sent _ | .answered _ _ | .rollingBack _ _
      | .returned _ _ => isTrue (by simp only [InsertsAlone, hphase])
  | .setTransport _ | .start _ _ | .send _ | .peer | .complete _ _ | .settle _ | .rollback _ =>
      isTrue trivial

/-- A subscription succeeds and stays; another one for the same key, begun meanwhile, is
refused, and a third one, for another key, fails and rolls back. -/
def refusedAndFailed (first second third : κ) : List (Action Unit κ) :=
  [.start first exampleSubscribe, .start second exampleSubscribe,
    .start third (.subscribe ['A', '.', 'c'] ⟨(), 0, 0⟩),
    .update first, .send first, .update second, .update third, .peer, .settle first,
    .complete third ⟨.timedout, ⟨false, false⟩⟩, .settle third, .rollback third]

theorem keepsRegistered_of_insertsAlone_refusedAndFailed :
    KeepsRegistered (initial true) (refusedAndFailed (0 : Fin 3) 1 2) ∧
      (exec step (initial true) (refusedAndFailed (0 : Fin 3) 1 2)).any (fun final =>
        decide (final.phase 0 = .returned exampleSubscribe .none)) = true :=
  ⟨keepsRegistered_of_insertsAlone (by decide), by decide⟩

/-- A subscription inserts, its entry is unsubscribed, and another one is about to insert. -/
def insertedAndRemoved (first second third : κ) : List (Action Unit κ) :=
  [.start first exampleSubscribe, .update first, .start second (.unsubscribe exampleEvent),
    .update second, .start third exampleSubscribe]

/-- The later subscription succeeds, and then the request of the earlier one fails. -/
def succeedsAndFails (first third : κ) : List (Action Unit κ) :=
  [.send third, .peer, .settle third,
    .complete first ⟨.timedout, ⟨false, false⟩⟩, .settle first, .rollback first]

/-- The callback of the third call is gone, although nobody has unsubscribed it. -/
theorem registered_lost_to_rollback :
    ¬ KeepsRegistered (initial true : State Unit (Fin 3))
      (insertedAndRemoved 0 1 2 ++ .update 2 :: succeedsAndFails 0 2) := by
  intro hkeeps
  obtain ⟨state, hbefore, hstate⟩ : ∃ state : State Unit (Fin 3),
      exec step (initial true) (insertedAndRemoved 0 1 2) = some state ∧
        (decide (state.phase 2 = .begun exampleSubscribe ∧
          state.eventMap.lookup (getKeyFromEvent exampleEvent) = none) &&
        (exec step state (.update 2 :: succeedsAndFails 0 2)).any fun final =>
          decide (final.phase 2 = .returned exampleSubscribe .none ∧
            final.eventMap.lookup (getKeyFromEvent exampleEvent) = none)) = true :=
    exists_exec_of_any (by decide)
  rw [Bool.and_eq_true] at hstate
  obtain ⟨hphase, hfree⟩ := of_decide_eq_true hstate.1
  obtain ⟨final, hrest, hfinal⟩ := exists_exec_of_any hstate.2
  obtain ⟨hreturned, hgone⟩ := of_decide_eq_true hfinal
  obtain ⟨next, htaken, hafter⟩ := exec_cons_eq_some.mp hrest
  have hnobody : ¬ Happened step next (succeedsAndFails 0 2)
      (Unsubscribes (getKeyFromEvent exampleEvent)) := by
    intro hpast
    obtain ⟨action, hmem, later, op, event, rfl, _⟩ := hpast.exists_mem
    simp [succeedsAndFails] at hmem
  have hkept := hkeeps _ 2 _ state next final exampleEvent _ rfl hbefore hphase hfree htaken
    hafter hreturned hnobody
  rw [hgone] at hkept
  cases hkept

end FireboltTransport.Listening
