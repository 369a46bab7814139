/-
# The keys of property subscriptions

`Properties` turns the name of a property into the name of the event that reports
its changes: `Module.value` becomes `Module.onValueChanged`.  The server takes the
"on" out again before it looks in its event map.  The two rewriters work at
positions counted from the first dot; over a name split there, their composition
lower-cases one letter and appends `Changed`, and names without a dot pass through
both.
-/

import FireboltTransport.Gateway.GatewayImpl
import FireboltTransport.Gateway.ProviderNames

namespace FireboltTransport.Properties

open Server

universe u

/-- `Properties::EventName`. -/
def eventName (propertyName : Text) : Text :=
  let pos := propertyName.findIdx (· = '.')
  if pos ≠ propertyName.length then
    -- After a final dot it is the terminator that is read and written back.
    let eventName := propertyName.modify (pos + 1) Char.toUpper
    eventName.take (pos + 1) ++ "on".toList ++ eventName.drop (pos + 1) ++ "Changed".toList
  else propertyName

example : eventName "A.bc".toList = "A.onBcChanged".toList := by decide

variable {β : Type u}

/-- `Properties::Subscribe`, alone with the event map, when its request ends in `outcome`. -/
def subscribe (connected : Bool) (eventMap : EventMap β) (propertyName : Text)
    (callbackData : CallbackDataEvent β) (outcome : GatewayImpl.ListenOutcome) :
    Error × EventMap β :=
  GatewayImpl.subscribe connected eventMap (eventName propertyName) callbackData outcome

/-- `Properties::Unsubscribe`, alone with the event map, when its request ends in `outcome`. -/
def unsubscribe (eventMap : EventMap β) (propertyName : Text)
    (outcome : GatewayImpl.ListenOutcome) : Error × EventMap β :=
  GatewayImpl.unsubscribe eventMap (eventName propertyName) outcome

/-- The key a property is subscribed under. -/
def key (propertyName : Text) : Text := getKeyFromEvent (eventName propertyName)

/-- The text with its first letter lower-cased. -/
def lowerFirst (text : Text) : Text := text.modifyHead Char.toLower

/-- The character after the first dot, if any, is not an upper-case letter. -/
def NotUpperCase (propertyName : Text) : Prop :=
  ∀ c, propertyName[propertyName.findIdx (· = '.') + 1]? = some c → c.isUpper = false

/-! ## The rewriters over a split name -/

section Split

variable {before : Text} (hbefore : '.' ∉ before)

include hbefore

theorem eventName_append (after : Text) :
    eventName (before ++ '.' :: after) =
      before ++ '.' :: ("on".toList ++ after.modifyHead Char.toUpper ++ "Changed".toList) := by
  have hmodify : (before ++ '.' :: after).modify (before.length + 1) Char.toUpper =
      before ++ '.' :: after.modifyHead Char.toUpper :=
    List.modifyTailIdx_add _ 1 before ('.' :: after)
  unfold eventName
  rw [findIdx_dot_append hbefore, if_pos (by simp)]
  simp only [hmodify, List.take_length_add_append, List.drop_length_add_append]
  simp

/-- The server takes an "on" out that a character follows, and lower-cases the character. -/
theorem getKeyFromEvent_append_on (c : Char) (rest : Text) :
    getKeyFromEvent (before ++ '.' :: 'o' :: 'n' :: c :: rest) =
      before ++ '.' :: c.toLower :: rest := by
  rw [getKeyFromEvent_append hbefore]
  simp [registeredName]

/-- The key of a property with a dot. -/
theorem key_append {after : Text} (hafter : after ≠ []) :
    key (before ++ '.' :: after) =
      before ++ '.' :: (lowerFirst after ++ "Changed".toList) := by
  cases after with
  | nil => exact absurd rfl hafter
  | cons first rest =>
      rw [key, eventName_append hbefore]
      show getKeyFromEvent (before ++ '.' :: 'o' :: 'n' :: first.toUpper :: (rest ++ _)) = _
      rw [getKeyFromEvent_append_on hbefore, Char.toLower_toUpper_eq_toLower]
      rfl

/-- After a final dot it is the appended text that loses its capital. -/
theorem key_append_nil : key (before ++ ['.']) = before ++ '.' :: "changed".toList := by
  rw [key, eventName_append hbefore]
  exact getKeyFromEvent_append_on hbefore 'C' "hanged".toList

end Split

/-- A name without a dot is its own key. -/
theorem key_of_not_dot {propertyName : Text} (hdot : '.' ∉ propertyName) :
    key propertyName = propertyName := by
  have hpos := findIdx_dot_eq_length_iff.mpr hdot
  have hname : eventName propertyName = propertyName := by
    rw [eventName, if_neg (not_not.mpr hpos)]
  rw [key, hname, getKeyFromEvent, if_neg]
  omega

/-! ## Different properties -/

theorem lowerFirst_of_notUpperCase {before after : Text} (hbefore : '.' ∉ before)
    (hcase : NotUpperCase (before ++ '.' :: after)) : lowerFirst after = after := by
  cases after with
  | nil => rfl
  | cons first rest =>
      have hfirst : first.isUpper = false := by
        apply hcase
        rw [findIdx_dot_append hbefore]
        simp
      simp [lowerFirst, Char.toLower_eq_of_not_isUpper, hfirst]

/-- What follows the dot in the key tells what follows it in the name. -/
theorem eq_of_key_append {before first second : Text} (hbefore : '.' ∉ before)
    (hfirst : NotUpperCase (before ++ '.' :: first))
    (hsecond : NotUpperCase (before ++ '.' :: second))
    (hkeys : key (before ++ '.' :: first) = key (before ++ '.' :: second)) : first = second := by
  have hnever : ∀ text : Text, "changed".toList ≠ text ++ "Changed".toList := by
    intro text hequal
    have hlength := congrArg List.length hequal
    obtain rfl : text = [] := by simpa using hlength
    exact absurd hequal (by decide)
  have hkey : ∀ after, after ≠ [] → NotUpperCase (before ++ '.' :: after) →
      key (before ++ '.' :: after) = before ++ '.' :: (after ++ "Changed".toList) := by
    intro after hafter hcase
    rw [key_append hbefore hafter, lowerFirst_of_notUpperCase hbefore hcase]
  by_cases hfirstNil : first = []
  · by_cases hsecondNil : second = []
    · rw [hfirstNil, hsecondNil]
    · rw [hfirstNil, key_append_nil hbefore, hkey second hsecondNil hsecond] at hkeys
      exact absurd (append_cons_inj hbefore hbefore hkeys).2 (hnever second)
  · by_cases hsecondNil : second = []
    · rw [hsecondNil, key_append_nil hbefore, hkey first hfirstNil hfirst] at hkeys
      exact absurd (append_cons_inj hbefore hbefore hkeys.symm).2 (hnever first)
    · rw [hkey first hfirstNil hfirst, hkey second hsecondNil hsecond] at hkeys
      exact List.append_cancel_right (append_cons_inj hbefore hbefore hkeys).2

/-- The key has a dot where the name has one. -/
theorem exists_key_append {before : Text} (hbefore : '.' ∉ before) (after : Text) :
    ∃ rest, key (before ++ '.' :: after) = before ++ '.' :: rest := by
  by_cases hafter : after = []
  · rw [hafter, key_append_nil hbefore]
    exact ⟨_, rfl⟩
  · rw [key_append hbefore hafter]
    exact ⟨_, rfl⟩

theorem key_injective {first second : Text} (hfirst : NotUpperCase first)
    (hsecond : NotUpperCase second) (hkeys : key first = key second) : first = second := by
  by_cases hfirstDot : '.' ∈ first
  · obtain ⟨before, after, hbefore, rfl⟩ := exists_append_of_dot_mem hfirstDot
    obtain ⟨rest, hrest⟩ := exists_key_append hbefore after
    by_cases hsecondDot : '.' ∈ second
    · obtain ⟨other, last, hother, rfl⟩ := exists_append_of_dot_mem hsecondDot
      obtain ⟨ending, hending⟩ := exists_key_append hother last
      rw [hrest, hending] at hkeys
      obtain rfl := (append_cons_inj hbefore hother hkeys).1
      rw [eq_of_key_append hbefore hfirst hsecond (by rw [hrest, hending, hkeys])]
    · rw [hrest, key_of_not_dot hsecondDot] at hkeys
      rw [← hkeys] at hsecondDot
      simp at hsecondDot
  · rw [key_of_not_dot hfirstDot] at hkeys
    by_cases hsecondDot : '.' ∈ second
    · obtain ⟨other, last, hother, rfl⟩ := exists_append_of_dot_mem hsecondDot
      obtain ⟨rest, hrest⟩ := exists_key_append hother last
      rw [hkeys, hrest] at hfirstDot
      simp at hfirstDot
    · rw [hkeys, key_of_not_dot hsecondDot]

/-! ## The event map -/

section EventMap

variable {connected : Bool} {eventMap : EventMap β} {propertyName other : Text}
  {callbackData : CallbackDataEvent β} {outcome : GatewayImpl.ListenOutcome}

/-- A subscription succeeds under a free key, when the request does. -/
theorem subscribe_succeeds_iff :
    (subscribe connected eventMap propertyName callbackData outcome).1 = .none ↔
      connected = true ∧ eventMap.lookup (key propertyName) = none ∧ outcome.status = .none := by
  unfold subscribe
  cases connected with
  | false => exact iff_of_false Error.notConnected_ne_none (fun h => absurd h.1 Bool.false_ne_true)
  | true =>
      by_cases hfree : eventMap.lookup (getKeyFromEvent (eventName propertyName)) = none
      · rw [GatewayImpl.subscribe_of_free hfree]
        exact ⟨fun hstatus => ⟨rfl, hfree, hstatus⟩, fun h => h.2.2⟩
      · rw [GatewayImpl.subscribe_of_taken hfree]
        exact iff_of_false Error.general_ne_none fun h => hfree h.2.1

/-- A subscription that succeeds is stored under the key of its property, and one that fails is
not stored. -/
theorem subscribe_stored :
    (subscribe connected eventMap propertyName callbackData outcome).2 =
      if (subscribe connected eventMap propertyName callbackData outcome).1 = .none then
        eventMap.insert (key propertyName) callbackData
      else eventMap := by
  unfold subscribe
  cases connected with
  | false => rfl
  | true =>
      by_cases hfree : eventMap.lookup (getKeyFromEvent (eventName propertyName)) = none
      · rw [GatewayImpl.subscribe_of_free hfree]
        rfl
      · rw [GatewayImpl.subscribe_of_taken hfree, if_neg Error.general_ne_none]

/-- A subscription touches no other key. -/
theorem lookup_subscribe_of_ne (hother : other ≠ key propertyName) :
    (subscribe connected eventMap propertyName callbackData outcome).2.lookup other =
      eventMap.lookup other := by
  unfold subscribe
  cases connected with
  | false => rfl
  | true =>
      by_cases hfree : eventMap.lookup (getKeyFromEvent (eventName propertyName)) = none
      · rw [GatewayImpl.subscribe_of_free hfree]
        split_ifs
        · exact AList.lookup_insert_ne hother
        · rfl
      · rw [GatewayImpl.subscribe_of_taken hfree]

/-- Neither does taking one back. -/
theorem lookup_unsubscribe_of_ne (hother : other ≠ key propertyName) :
    (unsubscribe eventMap propertyName outcome).2.lookup other = eventMap.lookup other := by
  unfold unsubscribe
  by_cases hfree : eventMap.lookup (getKeyFromEvent (eventName propertyName)) = none
  · rw [GatewayImpl.unsubscribe_of_free hfree]
  · rw [GatewayImpl.unsubscribe_of_taken hfree]
    exact AList.lookup_erase_ne hother

end EventMap

/-- **The keys of properties.**  A property with a dot is stored under its name with the first
letter after the dot lower-cased and `Changed` appended; a subscription is stored when its key is
free and the request succeeds, and only then.  Two different properties whose first letters after
the dot are not capitals have different keys, and subscribing or unsubscribing one leaves the
entry of the other as it was. -/
theorem keys_faithful :
    (∀ before after : Text, '.' ∉ before → after ≠ [] →
      key (before ++ '.' :: after) =
        before ++ '.' :: (lowerFirst after ++ "Changed".toList)) ∧
    (∀ (connected : Bool) (eventMap : EventMap β) (propertyName : Text)
      (callbackData : CallbackDataEvent β) (outcome : GatewayImpl.ListenOutcome),
      ((subscribe connected eventMap propertyName callbackData outcome).1 = .none ↔
        connected = true ∧ eventMap.lookup (key propertyName) = none ∧ outcome.status = .none) ∧
      (subscribe connected eventMap propertyName callbackData outcome).2 =
        if (subscribe connected eventMap propertyName callbackData outcome).1 = .none then
          eventMap.insert (key propertyName) callbackData
        else eventMap) ∧
    ∀ first second : Text, first ≠ second → NotUpperCase first → NotUpperCase second →
      key first ≠ key second ∧
      ∀ (connected : Bool) (eventMap : EventMap β) (callbackData : CallbackDataEvent β)
        (outcome : GatewayImpl.ListenOutcome),
        (subscribe connected eventMap first callbackData outcome).2.lookup (key second) =
            eventMap.lookup (key second) ∧
          (unsubscribe eventMap first outcome).2.lookup (key second) =
            eventMap.lookup (key second) := by
  refine ⟨fun before after hbefore hafter => key_append hbefore hafter,
    fun _ _ _ _ _ => ⟨subscribe_succeeds_iff, subscribe_stored⟩, ?_⟩
  intro first second hdifferent hfirst hsecond
  have hkeys : key second ≠ key first := fun hsame =>
    hdifferent (key_injective hsecond hfirst hsame).symm
  refine ⟨hkeys.symm, fun connected eventMap callbackData outcome => ⟨?_, ?_⟩⟩
  · exact lookup_subscribe_of_ne hkeys
  · exact lookup_unsubscribe_of_ne hkeys

example (callbackData : CallbackDataEvent β) :
    (subscribe true ∅ "A.bc".toList callbackData ⟨.none, ⟨true, true⟩⟩).2.lookup
      "A.bcChanged".toList = some callbackData := by
  rfl

end FireboltTransport.Properties
