/-
# The server half of the gateway: providers

The provider table holds, for each interface, the methods registered under it in
the order of their registration.  `Request` splits the name a request carries at
its first dot, looks up the interface, and calls the first method of that name;
it returns without a word when there is none.
-/

import FireboltTransport.Transport.Operations

namespace FireboltTransport.Server

open Semantics

universe u

/-- `Server::Method`; the dispatch function is left abstract. -/
structure Method (ρ : Type u) where
  name : Text
  lambda : ρ
  usercb : UInt64
  deriving DecidableEq

/-- `Server::Interface`. -/
structure Interface (ρ : Type u) where
  name : Text
  methods : List (Method ρ)
  deriving DecidableEq

/-- `Server::providers`. -/
abbrev Providers (ρ : Type u) := StdMap Text (Interface ρ)

/-- The text before the first dot and the text after it; the text itself, twice, when it has
no dot, since `npos` and `npos + 1` are the ends of the string. -/
def splitAtDot (method : Text) : Text × Text :=
  let dotPos := method.findIdx (· = '.')
  if dotPos = method.length then (method, method)
  else (method.take dotPos, method.drop (dotPos + 1))

/-- The name under which a method is registered: `onMethod` is registered as `method`. -/
def registeredName (method : Text) : Text :=
  if method.length > 2 ∧ method.take 2 = ['o', 'n'] then
    (method.modify 2 Char.toLower).drop 2
  else method

example : registeredName ['o', 'n', 'B', 'c'] = ['b', 'c'] := by decide

theorem registeredName_on (first : Char) (rest : Text) :
    registeredName ('o' :: 'n' :: first :: rest) = first.toLower :: rest := by
  simp [registeredName]

/-- A name that does not begin with "on", or ends there, is stored as it is. -/
theorem registeredName_eq_self {method : Text}
    (hname : ∀ first rest, method ≠ 'o' :: 'n' :: first :: rest) :
    registeredName method = method := by
  apply if_neg
  rintro ⟨hlength, htake⟩
  have hsplit := List.take_append_drop 2 method
  cases hdrop : method.drop 2 with
  | nil =>
      have hle := List.drop_eq_nil_iff.mp hdrop
      omega
  | cons first rest =>
      rw [htake, hdrop] at hsplit
      exact hname first rest hsplit.symm

variable {ρ : Type u}

/-- The methods of an interface after one more registration. -/
def addMethod (methods : List (Method ρ)) (method : Method ρ) : List (Method ρ) :=
  match methods.find? fun m => m.name = method.name ∧ m.usercb = method.usercb with
  | none => methods ++ [method]
  | some _ => methods

/-- `Server::RegisterProviderInterface`. -/
def registerProviderInterface (providers : Providers ρ) (fullMethod : Text) (callback : ρ)
    (usercb : UInt64) : Error × Providers ρ :=
  let interface := (splitAtDot fullMethod).1
  let method : Method ρ := ⟨registeredName (splitAtDot fullMethod).2, callback, usercb⟩
  match providers.lookup interface with
  | none => (.none, providers.insert interface ⟨interface, [method]⟩)
  | some i => (.none, providers.insert interface ⟨i.name, addMethod i.methods method⟩)

/-- `Server::UnregisterProviderInterface`. -/
def unregisterProviderInterface (providers : Providers ρ) (interface method : Text)
    (usercb : UInt64) : Error × Providers ρ :=
  match providers.lookup interface with
  -- `std::map::at` throws, and the exception is caught.
  | none => (.none, providers)
  | some i =>
      let methods := i.methods.eraseP fun m => m.name = method ∧ m.usercb = usercb
      (.none, providers.insert interface ⟨i.name, methods⟩)

/-- The method that `Server::Request` finds for the name a request carries. -/
def findMethod (providers : Providers ρ) (method : Text) : Option (Method ρ) :=
  let dotPos := method.findIdx (· = '.')
  if dotPos = method.length then none
  else
    let interface := method.take dotPos
    let methodName := method.drop (dotPos + 1)
    (providers.lookup interface).bind fun provider =>
      -- The loop stops at the first method of the name.
      provider.methods.find? fun m => m.name = methodName

/-- The text that is passed to the provider. -/
def wrapParameters (parameters : Text) : Text :=
  "\x7b \"parameters\":".toList ++ parameters ++ "\x7d".toList

/-- `Server::Request`: the call of `SendResponse` it makes, if any. -/
def request (respond : ρ → Text → UInt64 → Text) (providers : Providers ρ) (id : MessageID)
    (method parameters : Text) : Option Transport.Call :=
  (findMethod providers method).map fun it =>
    let response := respond it.lambda (wrapParameters parameters) it.usercb
    .sendResponse id response

/-! ## Names with a dot -/

theorem findIdx_dot_eq_length_iff {method : Text} :
    method.findIdx (· = '.') = method.length ↔ '.' ∉ method := by
  rw [List.findIdx_eq_length]
  constructor
  · intro hnone hdot
    exact absurd (hnone '.' hdot) (by simp)
  · intro hdot c hc
    simpa using fun h : c = '.' => hdot (h ▸ hc)

/-- The first dot is the one after a text without dots. -/
theorem findIdx_dot_append {before : Text} (hbefore : '.' ∉ before) (after : Text) :
    (before ++ '.' :: after).findIdx (· = '.') = before.length := by
  rw [List.findIdx_append, List.findIdx_cons]
  have hlength := findIdx_dot_eq_length_iff.mpr hbefore
  simp [hlength]

theorem exists_append_of_dot_mem {method : Text} (hdot : '.' ∈ method) :
    ∃ before after, '.' ∉ before ∧ method = before ++ '.' :: after := by
  obtain ⟨before, after, hsplit, hbefore⟩ := List.eq_append_cons_of_mem hdot
  exact ⟨before, after, hbefore, hsplit⟩

theorem splitAtDot_append {interface : Text} (hinterface : '.' ∉ interface) (method : Text) :
    splitAtDot (interface ++ '.' :: method) = (interface, method) := by
  simp only [splitAtDot]
  rw [findIdx_dot_append hinterface, if_neg (by simp)]
  have htake : (interface ++ '.' :: method).take interface.length = interface := by simp
  have hdrop : (interface ++ '.' :: method).drop (interface.length + 1) = method := by
    simp [List.drop_append]
  rw [htake, hdrop]

theorem findMethod_append {providers : Providers ρ} {before : Text} (hbefore : '.' ∉ before)
    (after : Text) : findMethod providers (before ++ '.' :: after) =
      (providers.lookup before).bind fun provider =>
        provider.methods.find? fun m => m.name = after := by
  have htake : (before ++ '.' :: after).take before.length = before := by simp
  have hdrop : (before ++ '.' :: after).drop (before.length + 1) = after := by
    simp [List.drop_append]
  unfold findMethod
  rw [findIdx_dot_append hbefore, if_neg (by simp)]
  simp only [hdrop]
  rw [htake]

theorem findMethod_of_not_dot {providers : Providers ρ} {method : Text} (hdot : '.' ∉ method) :
    findMethod providers method = none := by
  rw [findMethod, if_pos (findIdx_dot_eq_length_iff.mpr hdot)]

/-! ## What the table is for -/

/-- The method is registered under the text before the first dot with the text after it. -/
def Serves (providers : Providers ρ) (method : Text) (m : Method ρ) : Prop :=
  ∃ interface provider, '.' ∉ interface ∧ method = interface ++ '.' :: m.name ∧
    providers.lookup interface = some provider ∧ m ∈ provider.methods

theorem serves_of_findMethod {providers : Providers ρ} {method : Text} {m : Method ρ}
    (hfound : findMethod providers method = some m) : Serves providers method m := by
  by_cases hdot : '.' ∈ method
  · obtain ⟨before, after, hbefore, rfl⟩ := exists_append_of_dot_mem hdot
    rw [findMethod_append hbefore] at hfound
    obtain ⟨provider, hprovider, hm⟩ := Option.bind_eq_some_iff.mp hfound
    obtain rfl : m.name = after := by simpa using List.find?_some hm
    exact ⟨before, provider, hbefore, rfl, hprovider, List.mem_of_find?_eq_some hm⟩
  · rw [findMethod_of_not_dot hdot] at hfound
    cases hfound

/-- A method is found when there is one. -/
theorem findMethod_ne_none_iff {providers : Providers ρ} {method : Text} :
    findMethod providers method ≠ none ↔ ∃ m, Serves providers method m := by
  constructor
  · intro hfound
    obtain ⟨m, hm⟩ := Option.ne_none_iff_exists'.mp hfound
    exact ⟨m, serves_of_findMethod hm⟩
  · rintro ⟨m, interface, provider, hinterface, rfl, hprovider, hmem⟩ hnone
    rw [findMethod_append hinterface, hprovider, Option.bind_some, List.find?_eq_none] at hnone
    exact hnone m hmem (by simp)

/-! ## Registration -/

theorem dot_notMem_splitAtDot (method : Text) : '.' ∉ (splitAtDot method).1 := by
  simp only [splitAtDot]
  split_ifs with hlength
  · exact findIdx_dot_eq_length_iff.mp hlength
  · intro hdot
    obtain ⟨index, hindex, hchar⟩ := List.mem_iff_getElem.mp hdot
    have hbefore : index < method.findIdx (· = '.') := by
      simp only [List.length_take] at hindex
      omega
    have hnot := List.not_of_lt_findIdx hbefore
    simp only [List.getElem_take] at hchar
    simp [hchar] at hnot

theorem mem_addMethod (methods : List (Method ρ)) (method : Method ρ) :
    ∃ m ∈ addMethod methods method, m.name = method.name ∧ m.usercb = method.usercb := by
  unfold addMethod
  split
  · exact ⟨method, by simp, rfl, rfl⟩
  · rename_i found hfound
    exact ⟨found, List.mem_of_find?_eq_some hfound, by simpa using List.find?_some hfound⟩

theorem subset_addMethod {methods : List (Method ρ)} {method : Method ρ} :
    methods ⊆ addMethod methods method := by
  unfold addMethod
  split
  · exact List.subset_append_left _ _
  · exact List.Subset.refl _

/-- A registered method is served. -/
theorem serves_registerProviderInterface (providers : Providers ρ) (fullMethod : Text)
    (callback : ρ) (usercb : UInt64) :
    ∃ m, m.usercb = usercb ∧
      Serves (registerProviderInterface providers fullMethod callback usercb).2
        ((splitAtDot fullMethod).1 ++ '.' :: registeredName (splitAtDot fullMethod).2) m := by
  have hdot := dot_notMem_splitAtDot fullMethod
  simp only [registerProviderInterface]
  split
  · exact ⟨_, rfl, _, _, hdot, rfl, AList.lookup_insert _, List.mem_singleton.mpr rfl⟩
  · rename_i i hi
    obtain ⟨m, hm, hname, husercb⟩ := mem_addMethod i.methods
      ⟨registeredName (splitAtDot fullMethod).2, callback, usercb⟩
    exact ⟨m, husercb, _, _, hdot, by rw [hname], AList.lookup_insert _, hm⟩

/-- Registration takes no method away. -/
theorem Serves.registerProviderInterface {providers : Providers ρ} {method : Text} {m : Method ρ}
    (hserves : Serves providers method m) (fullMethod : Text) (callback : ρ) (usercb : UInt64) :
    Serves (registerProviderInterface providers fullMethod callback usercb).2 method m := by
  obtain ⟨interface, provider, hinterface, hmethod, hprovider, hm⟩ := hserves
  simp only [Server.registerProviderInterface]
  by_cases hsame : interface = (splitAtDot fullMethod).1
  · subst hsame
    simp only [hprovider]
    exact ⟨_, _, hinterface, hmethod, AList.lookup_insert _, subset_addMethod hm⟩
  · refine ⟨interface, provider, hinterface, hmethod, ?_, hm⟩
    split <;> exact (AList.lookup_insert_ne hsame).trans hprovider

end FireboltTransport.Server
