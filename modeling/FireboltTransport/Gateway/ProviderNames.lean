/-
# Provider names and event keys

`getKeyFromEvent` rewrites a name in place, at positions counted from its first
dot; `RegisterProviderInterface` splits the name at the dot and rewrites what
follows it, at positions counted from the start of the method.  Both take the "on"
out under a bound on a length, one of the whole name and one of the method.  Over
a name split at its first dot the two agree, so a request finds a provider under
the names a notification finds a subscription under.
-/

import FireboltTransport.Gateway.EventNames
import FireboltTransport.Gateway.Registrations

namespace FireboltTransport.Server

open Semantics

universe u v

variable {ρ : Type u} {β : Type v}

/-! ## The two rewriters over a split name -/

section Split

variable {before : Text} (hbefore : '.' ∉ before)

include hbefore

/-- The bound on the length of the name is the bound on the length of the method, and the
character and the "on" are at the same places. -/
theorem getKeyFromEvent_append (after : Text) :
    getKeyFromEvent (before ++ '.' :: after) = before ++ '.' :: registeredName after := by
  have hmethod : (before ++ '.' :: after).drop (before.length + 1) = after := by
    simp [List.drop_append]
  have hmodify : (before ++ '.' :: after).modify (before.length + 3) Char.toLower =
      before ++ '.' :: after.modify 2 Char.toLower :=
    List.modifyTailIdx_add _ 3 before ('.' :: after)
  have hbounds : before.length + 3 < (before ++ '.' :: after).length ↔ after.length > 2 := by
    simp only [List.length_append, List.length_cons]
    omega
  have hdot : before.length < (before ++ '.' :: after).length := by simp
  unfold getKeyFromEvent registeredName
  rw [findIdx_dot_append hbefore]
  simp only [hmethod, hbounds, hdot, true_and]
  split_ifs
  · rw [hmodify, List.take_length_add_append, List.drop_length_add_append]
    simp
  · rfl

end Split

/-- What registration stores, joined with a dot, is the key of the name. -/
theorem splitAtDot_registeredName_eq {fullName : Text} (hdot : '.' ∈ fullName) :
    (splitAtDot fullName).1 ++ '.' :: registeredName (splitAtDot fullName).2 =
      getKeyFromEvent fullName := by
  obtain ⟨before, after, hbefore, rfl⟩ := exists_append_of_dot_mem hdot
  rw [splitAtDot_append hbefore, getKeyFromEvent_append hbefore]

/-! ## What registration stores -/

/-- Registration writes the methods of one interface, whether the interface is new or not. -/
theorem registerProviderInterface_eq (providers : Providers ρ) (fullMethod : Text)
    (callback : ρ) (usercb : UInt64) :
    registerProviderInterface providers fullMethod callback usercb =
      (.none, providers.insert (splitAtDot fullMethod).1
        ⟨((providers.lookup (splitAtDot fullMethod).1).map Interface.name).getD
            (splitAtDot fullMethod).1,
          addMethod (methodsOf providers (splitAtDot fullMethod).1)
            ⟨registeredName (splitAtDot fullMethod).2, callback, usercb⟩⟩) := by
  simp only [registerProviderInterface, methodsOf]
  cases providers.lookup (splitAtDot fullMethod).1 <;> rfl

/-- The names in a list of methods after one more registration. -/
theorem exists_mem_addMethod_iff (methods : List (Method ρ)) (method : Method ρ) (name : Text) :
    (∃ m ∈ addMethod methods method, m.name = name) ↔
      name = method.name ∨ ∃ m ∈ methods, m.name = name := by
  constructor
  · intro hfound
    obtain ⟨m, hm, rfl⟩ := hfound
    unfold addMethod at hm
    split at hm
    · rcases List.mem_append.mp hm with hold | hnew
      · exact .inr ⟨m, hold, rfl⟩
      · rw [List.mem_singleton.mp hnew]
        exact .inl rfl
    · exact .inr ⟨m, hm, rfl⟩
  · intro hname
    rcases hname with rfl | hfound
    · obtain ⟨m, hm, hname, _⟩ := mem_addMethod methods method
      exact ⟨m, hm, hname⟩
    · obtain ⟨m, hm, rfl⟩ := hfound
      exact ⟨m, subset_addMethod hm, rfl⟩

/-! ## What inbound names select -/

theorem findMethod_append_ne_none_iff {providers : Providers ρ} {before : Text}
    (hbefore : '.' ∉ before) (after : Text) :
    findMethod providers (before ++ '.' :: after) ≠ none ↔
      ∃ m ∈ methodsOf providers before, m.name = after := by
  rw [findMethod_eq_find_methodsOf hbefore, ← Option.isSome_iff_ne_none, List.find?_isSome]
  simp

/-- A registration adds the key of its name to the names a request finds a method for. -/
theorem findMethod_register_ne_none_iff {fullName : Text} (hdot : '.' ∈ fullName)
    (providers : Providers ρ) (callback : ρ) (usercb : UInt64) (method : Text) :
    findMethod (registerProviderInterface providers fullName callback usercb).2 method ≠ none ↔
      method = getKeyFromEvent fullName ∨ findMethod providers method ≠ none := by
  have hinterface := dot_notMem_splitAtDot fullName
  rw [← splitAtDot_registeredName_eq hdot]
  by_cases hmethod : '.' ∈ method
  · obtain ⟨before, after, hbefore, rfl⟩ := exists_append_of_dot_mem hmethod
    rw [findMethod_append_ne_none_iff hbefore, findMethod_append_ne_none_iff hbefore,
      methodsOf_register]
    split_ifs with hsame
    · subst hsame
      simp [exists_mem_addMethod_iff]
    · have hkey : before ++ '.' :: after ≠
          (splitAtDot fullName).1 ++ '.' :: registeredName (splitAtDot fullName).2 :=
        fun hequal => hsame (append_cons_inj hbefore hinterface hequal).1
      simp [hkey]
  · have hkey : method ≠
        (splitAtDot fullName).1 ++ '.' :: registeredName (splitAtDot fullName).2 := by
      rintro rfl
      simp at hmethod
    simp [findMethod_of_not_dot hmethod, hkey]

/-- A subscription adds the key of its name to the names a notification finds a callback for. -/
theorem notify_subscribe_ne_none_iff (eventMap : EventMap β) (event : Text)
    (callbackData : CallbackDataEvent β) (method : Text) :
    notify (subscribe eventMap event callbackData).2 method ≠ none ↔
      method = getKeyFromEvent event ∨ notify eventMap method ≠ none := by
  simp only [notify, lookup_subscribe]
  by_cases hkey : method = getKeyFromEvent event
  · by_cases hfree : eventMap.lookup method = none
    · rw [if_pos ⟨hkey, hfree⟩]
      simp [hkey]
    · rw [if_neg fun hboth => hfree hboth.2]
      simp [hfree]
  · rw [if_neg fun hboth => hkey hboth.1]
    simp [hkey]

/-- **One naming rule.**  For every name with a dot, the interface and the method name that
registration stores are the key of the name when they are joined with a dot: registration
writes the methods of that interface and nothing else.  A request finds a method for that key
and for the names it found one for before, and a notification finds a callback for that key
and for the names it found one for before. -/
theorem names_normalised_alike {fullName : Text} (hdot : '.' ∈ fullName) (callback : ρ)
    (usercb : UInt64) (callbackData : CallbackDataEvent β) :
    (∃ interface methodName,
      interface ++ '.' :: methodName = getKeyFromEvent fullName ∧
      ∀ providers : Providers ρ,
        registerProviderInterface providers fullName callback usercb =
          (.none, providers.insert interface
            ⟨((providers.lookup interface).map Interface.name).getD interface,
              addMethod (methodsOf providers interface) ⟨methodName, callback, usercb⟩⟩)) ∧
    (∀ (providers : Providers ρ) (method : Text),
      findMethod (registerProviderInterface providers fullName callback usercb).2 method ≠ none ↔
        method = getKeyFromEvent fullName ∨ findMethod providers method ≠ none) ∧
    ∀ (eventMap : EventMap β) (method : Text),
      notify (subscribe eventMap fullName callbackData).2 method ≠ none ↔
        method = getKeyFromEvent fullName ∨ notify eventMap method ≠ none := by
  refine ⟨?_, ?_, ?_⟩
  · refine ⟨(splitAtDot fullName).1, registeredName (splitAtDot fullName).2,
      splitAtDot_registeredName_eq hdot, ?_⟩
    intro providers
    exact registerProviderInterface_eq providers fullName callback usercb
  · intro providers method
    exact findMethod_register_ne_none_iff hdot providers callback usercb method
  · intro eventMap method
    exact notify_subscribe_ne_none_iff eventMap fullName callbackData method

/-- Only the "on" after the first dot is taken out. -/
theorem names_normalised_alike_twoDots :
    '.' ∈ "A.onB.onC".toList ∧
    (∃ interface methodName, interface ++ '.' :: methodName = "A.b.onC".toList ∧
      (registerProviderInterface ∅ "A.onB.onC".toList () 1).2.lookup interface =
        some ⟨interface, [⟨methodName, (), 1⟩]⟩) ∧
    findMethod (registerProviderInterface ∅ "A.onB.onC".toList () 1).2 "A.b.onC".toList ≠ none ∧
    notify (subscribe ∅ "A.onB.onC".toList ⟨(), 1, 2⟩).2 "A.b.onC".toList ≠ none := by
  have hdot : '.' ∈ "A.onB.onC".toList := by decide
  have hkey : getKeyFromEvent "A.onB.onC".toList = "A.b.onC".toList := by decide
  obtain ⟨⟨interface, methodName, hjoined, hstored⟩, hrequests, hnotifications⟩ :=
    names_normalised_alike hdot () 1 (⟨(), 1, 2⟩ : CallbackDataEvent Unit)
  refine ⟨hdot, ⟨interface, methodName, hjoined.trans hkey, ?_⟩, ?_, ?_⟩
  · rw [hstored, AList.lookup_insert, methodsOf_empty]
    rfl
  · exact (hrequests ∅ _).mpr (.inl hkey.symm)
  · exact (hnotifications ∅ _).mpr (.inl hkey.symm)

/-! ## Runs -/

/-- After a run of registrations a request finds a method for the keys of their names. -/
theorem findMethod_table_ne_none_iff {names : List Text} (hdots : ∀ name ∈ names, '.' ∈ name)
    (callback : Text → ρ) (usercb : Text → UInt64) (method : Text) :
    findMethod (table (names.map fun name => .register name (callback name) (usercb name)))
        method ≠ none ↔
      ∃ name ∈ names, method = getKeyFromEvent name := by
  induction names using List.reverseRecOn with
  | nil =>
      have hnone : findMethod (∅ : Providers ρ) method = none := by
        by_contra hfound
        obtain ⟨m, interface, provider, _, _, hprovider, _⟩ := findMethod_ne_none_iff.mp hfound
        simp at hprovider
      simp [table, hnone]
  | append_singleton prior last ih =>
      have hlast : '.' ∈ last := hdots last (by simp)
      have hprior := ih fun name hname => hdots name (by simp [hname])
      rw [List.map_append, table, List.foldl_append]
      simp only [List.map_cons, List.map_nil, List.foldl_cons, List.foldl_nil, Registration.apply]
      rw [findMethod_register_ne_none_iff hlast]
      simp only [List.mem_append, List.mem_singleton, or_and_right, exists_or, exists_eq_left]
      rw [or_comm]
      exact or_congr_left hprior

/-- After a run of subscriptions a notification finds a callback for the keys of their names. -/
theorem notify_eventMapAfter_ne_none_iff (names : List Text)
    (callbackData : Text → CallbackDataEvent β) (method : Text) :
    notify (eventMapAfter (names.map fun name => .subscribe name (callbackData name)))
        method ≠ none ↔
      ∃ name ∈ names, method = getKeyFromEvent name := by
  induction names using List.reverseRecOn with
  | nil => simp [eventMapAfter, notify]
  | append_singleton prior last ih =>
      rw [List.map_append, eventMapAfter, List.foldl_append]
      simp only [List.map_cons, List.map_nil, List.foldl_cons, List.foldl_nil, EventCall.apply]
      rw [notify_subscribe_ne_none_iff]
      simp only [List.mem_append, List.mem_singleton, or_and_right, exists_or, exists_eq_left]
      rw [or_comm]
      exact or_congr_left ih

/-- Providers and subscriptions of the same names are selected by the same inbound names. -/
theorem selected_alike {names : List Text} (hdots : ∀ name ∈ names, '.' ∈ name)
    (callback : Text → ρ) (usercb : Text → UInt64) (callbackData : Text → CallbackDataEvent β)
    (method : Text) :
    findMethod (table (names.map fun name => .register name (callback name) (usercb name)))
        method ≠ none ↔
      notify (eventMapAfter (names.map fun name => .subscribe name (callbackData name)))
        method ≠ none := by
  rw [findMethod_table_ne_none_iff hdots, notify_eventMapAfter_ne_none_iff]

end FireboltTransport.Server
