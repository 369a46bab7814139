/-
# The server half of the gateway: events

The event map holds one callback for each event key.  `Subscribe` adds an entry
under a free key, `Unsubscribe` removes the entry of a key, and `Notify` looks up
the name a notification carries.  Each of them is one critical section of
`eventMap_mtx`.
-/

import FireboltTransport.Common
import FireboltTransport.Semantics.StdMap

namespace FireboltTransport.Server

open Semantics

universe u

/-- `Server::CallbackDataEvent`; the dispatch function is left abstract. -/
structure CallbackDataEvent (β : Type u) where
  lambda : β
  usercb : UInt64
  userdata : UInt64
  deriving DecidableEq

/-- `Server::EventMap`. -/
abbrev EventMap (β : Type u) := StdMap Text (CallbackDataEvent β)

/-- `Server::getKeyFromEvent`: `Module.onEvent` and `Module.event` share a key. -/
def getKeyFromEvent (event : Text) : Text :=
  let dotPos := event.findIdx (· = '.')
  if dotPos < event.length ∧ dotPos + 3 < event.length ∧
      (event.drop (dotPos + 1)).take 2 = ['o', 'n'] then
    let key := event.modify (dotPos + 3) Char.toLower
    key.take (dotPos + 1) ++ key.drop (dotPos + 3)
  else event

example : getKeyFromEvent ['A', '.', 'o', 'n', 'B', 'c'] = ['A', '.', 'b', 'c'] := by decide

variable {β : Type u}

/-- `Server::Subscribe`. -/
def subscribe (eventMap : EventMap β) (event : Text) (callbackData : CallbackDataEvent β) :
    Error × EventMap β :=
  let key := getKeyFromEvent event
  match eventMap.lookup key with
  | none => (.none, eventMap.insert key callbackData)
  | some _ => (.general, eventMap)

/-- `Server::Unsubscribe`. -/
def unsubscribe (eventMap : EventMap β) (event : Text) : Error × EventMap β :=
  let key := getKeyFromEvent event
  match eventMap.lookup key with
  | none => (.general, eventMap)
  | some _ => (.none, eventMap.erase key)

/-- `Server::Notify`: the callback that is invoked. -/
def notify (eventMap : EventMap β) (method : Text) : Option (CallbackDataEvent β) :=
  eventMap.lookup method

section Operations

variable {eventMap : EventMap β} {event : Text} {callbackData : CallbackDataEvent β}

theorem subscribe_of_free (hfree : eventMap.lookup (getKeyFromEvent event) = none) :
    subscribe eventMap event callbackData =
      (.none, eventMap.insert (getKeyFromEvent event) callbackData) := by
  simp [subscribe, hfree]

theorem subscribe_of_taken (htaken : eventMap.lookup (getKeyFromEvent event) ≠ none) :
    subscribe eventMap event callbackData = (.general, eventMap) := by
  obtain ⟨other, hother⟩ := Option.ne_none_iff_exists'.mp htaken
  simp [subscribe, hother]

theorem unsubscribe_of_free (hfree : eventMap.lookup (getKeyFromEvent event) = none) :
    unsubscribe eventMap event = (.general, eventMap) := by
  simp [unsubscribe, hfree]

theorem unsubscribe_of_taken (htaken : eventMap.lookup (getKeyFromEvent event) ≠ none) :
    unsubscribe eventMap event = (.none, eventMap.erase (getKeyFromEvent event)) := by
  obtain ⟨other, hother⟩ := Option.ne_none_iff_exists'.mp htaken
  simp [unsubscribe, hother]

/-- Afterwards the key is free. -/
theorem lookup_unsubscribe (eventMap : EventMap β) (event key : Text) :
    (unsubscribe eventMap event).2.lookup key =
      if key = getKeyFromEvent event then none else eventMap.lookup key := by
  by_cases hfree : eventMap.lookup (getKeyFromEvent event) = none
  · rw [unsubscribe_of_free hfree]
    split_ifs with hkey
    · rw [hkey, hfree]
    · rfl
  · rw [unsubscribe_of_taken hfree, StdMap.lookup_erase_of_eq_or_ne]

/-- The rollback of a subscription restores the map it started from. -/
theorem unsubscribe_insert (hfree : eventMap.lookup (getKeyFromEvent event) = none) :
    unsubscribe (eventMap.insert (getKeyFromEvent event) callbackData) event =
      (.none, eventMap) := by
  rw [unsubscribe_of_taken (by simp), StdMap.erase_insert_of_lookup_none _ hfree]

end Operations

end FireboltTransport.Server
