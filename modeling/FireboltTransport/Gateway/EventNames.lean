/-
# Events that share a key

The event map is keyed by what `getKeyFromEvent` makes of an event's name, so
`Module.onEvent` and `Module.event` are one event to the server.  Subscriptions
are independent of each other exactly as far as their keys differ: the map holds,
under each key, the subscription that was accepted when the key was free and has
not been taken back since.
-/

import FireboltTransport.Gateway.Server
import FireboltTransport.Semantics.History

namespace FireboltTransport.Server

open Semantics

universe u

variable {β : Type u}

/-- A call that changes the event map. -/
inductive EventCall (β : Type u)
  | subscribe (event : Text) (callbackData : CallbackDataEvent β)
  | unsubscribe (event : Text)
  deriving DecidableEq

def EventCall.apply (eventMap : EventMap β) : EventCall β → EventMap β
  | .subscribe event callbackData => (Server.subscribe eventMap event callbackData).2
  | .unsubscribe event => (Server.unsubscribe eventMap event).2

/-- The event map after a history. -/
def eventMapAfter (history : List (EventCall β)) : EventMap β :=
  history.foldl EventCall.apply ∅

/-- The event is subscribed with the callback: the call that subscribed it was accepted, and
its key has not been unsubscribed since. -/
def Subscribed (history : List (EventCall β)) (event : Text)
    (callbackData : CallbackDataEvent β) : Prop :=
  Since
    (fun before call => call = .subscribe event callbackData ∧
      (subscribe (eventMapAfter before) event callbackData).1 = .none)
    (fun later => ∃ other, later = .unsubscribe other ∧
      getKeyFromEvent other = getKeyFromEvent event) history

/-! ## The map and the history -/

section Map

variable {eventMap : EventMap β} {event : Text} {callbackData : CallbackDataEvent β}

theorem subscribe_accepted_iff :
    (subscribe eventMap event callbackData).1 = .none ↔
      eventMap.lookup (getKeyFromEvent event) = none := by
  constructor
  · intro haccepted
    by_contra htaken
    rw [subscribe_of_taken htaken] at haccepted
    cases haccepted
  · intro hfree
    rw [subscribe_of_free hfree]

theorem lookup_subscribe (eventMap : EventMap β) (event key : Text)
    (callbackData : CallbackDataEvent β) :
    (subscribe eventMap event callbackData).2.lookup key =
      if key = getKeyFromEvent event ∧ eventMap.lookup key = none then some callbackData
      else eventMap.lookup key := by
  by_cases hfree : eventMap.lookup (getKeyFromEvent event) = none
  · rw [subscribe_of_free hfree, StdMap.lookup_insert_of_eq_or_ne]
    by_cases hkey : key = getKeyFromEvent event
    · rw [if_pos hkey, if_pos ⟨hkey, by rw [hkey]; exact hfree⟩]
    · rw [if_neg hkey, if_neg fun hboth => hkey hboth.1]
  · rw [subscribe_of_taken hfree, if_neg]
    intro hboth
    exact hfree (hboth.1 ▸ hboth.2)

end Map

/-- The map lists the subscriptions of the history. -/
def Follows (history : List (EventCall β)) (eventMap : EventMap β) : Prop :=
  ∀ key callbackData, eventMap.lookup key = some callbackData ↔
    ∃ event, getKeyFromEvent event = key ∧ Subscribed history event callbackData

section Follows

variable {history : List (EventCall β)}

/-- A subscription makes the entry of a free key and leaves every other. -/
theorem Follows.subscribe (hfollows : Follows history (eventMapAfter history)) (event : Text)
    (made : CallbackDataEvent β) :
    Follows (history ++ [.subscribe event made])
      (Server.subscribe (eventMapAfter history) event made).2 := by
  intro key callbackData
  have hprior := hfollows key callbackData
  simp only [Subscribed, since_snoc] at hprior ⊢
  rw [lookup_subscribe]
  split_ifs with hadded
  · constructor
    · intro hmade
      obtain rfl := Option.some.inj hmade
      refine ⟨event, hadded.1.symm, .inl ⟨rfl, ?_⟩⟩
      rw [subscribe_accepted_iff, ← hadded.1]
      exact hadded.2
    · intro hsubscribed
      obtain ⟨other, hkey, ⟨hcall, _⟩ | ⟨hsince, _⟩⟩ := hsubscribed
      · obtain ⟨rfl, rfl⟩ := EventCall.subscribe.inj hcall
        rfl
      · have hfound := hprior.mpr ⟨other, hkey, hsince⟩
        rw [hadded.2] at hfound
        cases hfound
  · rw [hprior]
    constructor
    · intro hsubscribed
      obtain ⟨other, hkey, hsince⟩ := hsubscribed
      exact ⟨other, hkey, .inr ⟨hsince, by simp⟩⟩
    · intro hsubscribed
      obtain ⟨other, hkey, ⟨hcall, haccepted⟩ | ⟨hsince, _⟩⟩ := hsubscribed
      · obtain ⟨rfl, rfl⟩ := EventCall.subscribe.inj hcall
        rw [subscribe_accepted_iff, hkey] at haccepted
        exact absurd ⟨hkey.symm, haccepted⟩ hadded
      · exact ⟨other, hkey, hsince⟩

/-- An unsubscription takes the entry of its key away and leaves every other. -/
theorem Follows.unsubscribe (hfollows : Follows history (eventMapAfter history)) (event : Text) :
    Follows (history ++ [.unsubscribe event])
      (Server.unsubscribe (eventMapAfter history) event).2 := by
  intro key callbackData
  have hprior := hfollows key callbackData
  simp only [Subscribed, since_snoc] at hprior ⊢
  rw [lookup_unsubscribe]
  split_ifs with hremoved
  · apply iff_of_false (by simp)
    intro hsubscribed
    obtain ⟨other, hkey, ⟨hcall, _⟩ | ⟨_, hkept⟩⟩ := hsubscribed
    · cases hcall
    · exact hkept ⟨event, rfl, by rw [hkey, hremoved]⟩
  · rw [hprior]
    constructor
    · intro hsubscribed
      obtain ⟨other, hkey, hsince⟩ := hsubscribed
      refine ⟨other, hkey, .inr ⟨hsince, ?_⟩⟩
      intro hremoves
      obtain ⟨another, hcall, hsame⟩ := hremoves
      obtain rfl := EventCall.unsubscribe.inj hcall
      exact hremoved (hkey.symm.trans hsame.symm)
    · intro hsubscribed
      obtain ⟨other, hkey, ⟨hcall, _⟩ | ⟨hsince, _⟩⟩ := hsubscribed
      · cases hcall
      · exact ⟨other, hkey, hsince⟩

end Follows

theorem follows_eventMapAfter (history : List (EventCall β)) :
    Follows history (eventMapAfter history) := by
  induction history using List.reverseRecOn with
  | nil =>
      intro key callbackData
      apply iff_of_false
      · simp [eventMapAfter]
      · intro hsubscribed
        obtain ⟨event, _, hsince⟩ := hsubscribed
        exact not_since_nil hsince
  | append_singleton prior last ih =>
      have hmap : eventMapAfter (prior ++ [last]) = last.apply (eventMapAfter prior) := by
        simp [eventMapAfter]
      rw [hmap]
      cases last with
      | subscribe event made => exact ih.subscribe event made
      | unsubscribe event => exact ih.unsubscribe event

/-- A key is free if and only if no event of the key is subscribed. -/
theorem lookup_eventMapAfter_eq_none_iff (history : List (EventCall β)) (key : Text) :
    (eventMapAfter history).lookup key = none ↔
      ¬ ∃ event callbackData, getKeyFromEvent event = key ∧
        Subscribed history event callbackData := by
  rw [Option.eq_none_iff_forall_ne_some]
  constructor
  · intro hnone hsubscribed
    obtain ⟨event, callbackData, hkey, hsince⟩ := hsubscribed
    exact hnone callbackData
      ((follows_eventMapAfter history key callbackData).mpr ⟨event, hkey, hsince⟩)
  · intro hnone callbackData hfound
    obtain ⟨event, hkey, hsince⟩ := (follows_eventMapAfter history key callbackData).mp hfound
    exact hnone ⟨event, callbackData, hkey, hsince⟩

/-! ## Independence -/

/-- What the server does about the second event does not concern the first, when events that
are `same` count as one. -/
structure Independent (same : Text → Text → Prop) (history : List (EventCall β))
    (first second : Text) : Prop where
  /-- The second event is refused only for a subscription of its own. -/
  accepted : ∀ callbackData,
    (subscribe (eventMapAfter history) second callbackData).1 = .none ↔
      ¬ ∃ event other, same event second ∧ Subscribed history event other
  /-- Unsubscribing the second event leaves the subscription of the first. -/
  kept : ∀ callbackData, Subscribed history first callbackData →
    (unsubscribe (eventMapAfter history) second).2.lookup (getKeyFromEvent first) =
      some callbackData
  /-- A notification that a subscription of the first event would bring to its callback is not
  brought to the callback of the second. -/
  notified : ∀ callbackData other method,
    notify (eventMapAfter history) method = none →
    notify (subscribe (eventMapAfter history) first callbackData).2 method = some callbackData →
    notify (subscribe (eventMapAfter history) second other).2 method = none

/-- **Events of different keys are independent.**  After every history, an event is accepted
if and only if no event of its key is subscribed; unsubscribing it leaves every subscription
under another key, and its callback gets no notification that another key's would. -/
theorem independent_of_key_ne (history : List (EventCall β)) (first second : Text)
    (hkeys : getKeyFromEvent first ≠ getKeyFromEvent second) :
    Independent (fun event other => getKeyFromEvent event = getKeyFromEvent other) history
      first second where
  accepted callbackData := by
    rw [subscribe_accepted_iff, lookup_eventMapAfter_eq_none_iff]
  kept callbackData hsubscribed := by
    rw [lookup_unsubscribe, if_neg hkeys]
    exact (follows_eventMapAfter history _ callbackData).mpr ⟨first, rfl, hsubscribed⟩
  notified callbackData other method hbefore hreached := by
    simp only [notify] at hbefore hreached ⊢
    rw [lookup_subscribe, hbefore] at hreached
    have hfirst : method = getKeyFromEvent first := by
      by_contra hdifferent
      simp [hdifferent] at hreached
    rw [lookup_subscribe, if_neg, hbefore]
    intro hboth
    exact hkeys (hfirst.symm.trans hboth.1)

/-- `A.onFoo` and `A.bar` are independent. -/
theorem independent_onFoo_bar :
    Independent (β := Unit) (fun event other => getKeyFromEvent event = getKeyFromEvent other)
      [.subscribe "A.onFoo".toList ⟨(), 1, 2⟩] "A.onFoo".toList "A.bar".toList :=
  independent_of_key_ne _ _ _ (by decide)

/-- `A.onFoo` and `A.foo` are different names, and unsubscribing one takes the subscription of
the other away. -/
theorem not_independent_onFoo_foo :
    ¬ ∀ (history : List (EventCall Unit)) (first second : Text), first ≠ second →
      Independent (fun event other => event = other) history first second := by
  intro hindependent
  have hsubscribed : Subscribed [.subscribe "A.onFoo".toList ⟨(), 1, 2⟩] "A.onFoo".toList
      ⟨(), 1, 2⟩ := ⟨[], _, [], rfl, ⟨rfl, by decide⟩, by simp⟩
  have hkept := (hindependent [.subscribe "A.onFoo".toList ⟨(), 1, 2⟩] "A.onFoo".toList
    "A.foo".toList (by decide)).kept ⟨(), 1, 2⟩ hsubscribed
  revert hkept
  decide

end FireboltTransport.Server
