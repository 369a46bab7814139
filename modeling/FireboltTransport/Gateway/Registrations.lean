/-
# The provider table and the history of its registrations

A history is a list of `RegisterProviderInterface` and `UnregisterProviderInterface`
calls on an empty table.  An entry of the table is identified by its interface, the
name it is stored under and its `usercb`; a registration is in force when it was
the first of its key since the key was last unregistered, and the key has not been
unregistered since.  The table lists, under each interface, the registrations in
force in the order they were made, so a request is dispatched to the earliest one.
-/

import FireboltTransport.Gateway.Providers
import FireboltTransport.Semantics.History
import Mathlib.Data.List.TakeWhile

namespace FireboltTransport.Server

open Semantics

universe u

/-- What identifies an entry of the provider table. -/
structure EntryKey where
  interface : Text
  name : Text
  usercb : UInt64
  deriving DecidableEq

/-- A call that changes the provider table. -/
inductive Registration (ρ : Type u)
  | register (fullMethod : Text) (callback : ρ) (usercb : UInt64)
  | unregister (interface method : Text) (usercb : UInt64)
  deriving DecidableEq

variable {ρ : Type u}

namespace Registration

def apply (providers : Providers ρ) : Registration ρ → Providers ρ
  | .register fullMethod callback usercb =>
      (registerProviderInterface providers fullMethod callback usercb).2
  | .unregister interface method usercb =>
      (unregisterProviderInterface providers interface method usercb).2

/-- The entry a call adds, unless there is one of the same key. -/
def registers : Registration ρ → Option (EntryKey × ρ)
  | .register fullMethod callback usercb =>
      some (⟨(splitAtDot fullMethod).1, registeredName (splitAtDot fullMethod).2, usercb⟩, callback)
  | .unregister _ _ _ => none

/-- The key of the entry a call removes. -/
def unregisters : Registration ρ → Option EntryKey
  | .register _ _ _ => none
  | .unregister interface method usercb => some ⟨interface, method, usercb⟩

/-- The key a call is about. -/
def key : Registration ρ → EntryKey
  | .register fullMethod _ usercb =>
      ⟨(splitAtDot fullMethod).1, registeredName (splitAtDot fullMethod).2, usercb⟩
  | .unregister interface method usercb => ⟨interface, method, usercb⟩

end Registration

/-- The provider table after a history. -/
def table (history : List (Registration ρ)) : Providers ρ :=
  history.foldl Registration.apply ∅

/-- The methods of an interface, none when there is no such interface. -/
def methodsOf (providers : Providers ρ) (interface : Text) : List (Method ρ) :=
  match providers.lookup interface with
  | none => []
  | some i => i.methods

/-- The method has the name and the `usercb` of the key. -/
def Method.hasKey (m : Method ρ) (key : EntryKey) : Bool :=
  decide (m.name = key.name ∧ m.usercb = key.usercb)

/-! ## What a request does -/

/-- What `Server::Request` does for its caller. -/
inductive Effect (ρ : Type u)
  | invoke (lambda : ρ) (parameters : Text) (usercb : UInt64)
  | sendResponse (id : MessageID) (response : Text)
  deriving DecidableEq

/-- The loop of `Server::Request` from `it` on. -/
def requestLoop (respond : ρ → Text → UInt64 → Text) (id : MessageID)
    (methodName parameters : Text) (it : List (Method ρ)) : List (Effect ρ) :=
  match it.dropWhile fun m => m.name ≠ methodName with
  | [] => []
  | m :: _ =>
      -- The loop is left by `break`.
      [.invoke m.lambda (wrapParameters parameters) m.usercb,
        .sendResponse id (respond m.lambda (wrapParameters parameters) m.usercb)]

/-- `Server::Request`, with the lambdas it invokes and the responses it sends. -/
def requestEffects (respond : ρ → Text → UInt64 → Text) (providers : Providers ρ)
    (id : MessageID) (method parameters : Text) : List (Effect ρ) :=
  let dotPos := method.findIdx (· = '.')
  if dotPos = method.length then []
  else
    match providers.lookup (method.take dotPos) with
    | none => []
    | some provider =>
        requestLoop respond id (method.drop (dotPos + 1)) parameters provider.methods

/-- The loop comes to the first method of the name, or to the end. -/
theorem requestLoop_eq (respond : ρ → Text → UInt64 → Text) (id : MessageID)
    (methodName parameters : Text) (it : List (Method ρ)) :
    requestLoop respond id methodName parameters it =
      match it.find? fun m => m.name = methodName with
      | none => []
      | some m =>
          [.invoke m.lambda (wrapParameters parameters) m.usercb,
            .sendResponse id (respond m.lambda (wrapParameters parameters) m.usercb)] := by
  have hhead := List.find?_eq_head?_dropWhile_not (fun m : Method ρ => m.name = methodName) it
  unfold requestLoop
  rw [hhead]
  have hsame : (fun m : Method ρ => decide (m.name ≠ methodName)) =
      fun m => !decide (m.name = methodName) := by
    funext m
    simp
  rw [hsame]
  cases it.dropWhile fun m => !decide (m.name = methodName) <;> rfl

/-- What a request does is decided by the method that is found. -/
theorem requestEffects_eq (respond : ρ → Text → UInt64 → Text) (providers : Providers ρ)
    (id : MessageID) (method parameters : Text) :
    requestEffects respond providers id method parameters =
      match findMethod providers method with
      | none => []
      | some m =>
          [.invoke m.lambda (wrapParameters parameters) m.usercb,
            .sendResponse id (respond m.lambda (wrapParameters parameters) m.usercb)] := by
  simp only [requestEffects, findMethod]
  by_cases hdot : method.findIdx (· = '.') = method.length
  · rw [if_pos hdot, if_pos hdot]
  · rw [if_neg hdot, if_neg hdot]
    cases hlookup : providers.lookup (method.take (method.findIdx (· = '.'))) with
    | none => rfl
    | some provider => simp only [requestLoop_eq, Option.bind_some]

/-- The method that is found is the first of its name in its interface. -/
theorem findMethod_eq_find_methodsOf {providers : Providers ρ} {before : Text}
    (hbefore : '.' ∉ before) (after : Text) :
    findMethod providers (before ++ '.' :: after) =
      (methodsOf providers before).find? fun m => m.name = after := by
  rw [findMethod_append hbefore]
  unfold methodsOf
  cases providers.lookup before <;> rfl

/-! ## What a registration changes -/

theorem methodsOf_empty (interface : Text) : methodsOf (∅ : Providers ρ) interface = [] := by
  simp [methodsOf]

theorem methodsOf_insert (providers : Providers ρ) (interface other : Text)
    (provider : Interface ρ) :
    methodsOf (providers.insert interface provider) other =
      if other = interface then provider.methods else methodsOf providers other := by
  unfold methodsOf
  rw [StdMap.lookup_insert_of_eq_or_ne]
  split_ifs <;> rfl

theorem methodsOf_register (providers : Providers ρ) (fullMethod : Text) (callback : ρ)
    (usercb : UInt64) (interface : Text) :
    methodsOf (registerProviderInterface providers fullMethod callback usercb).2 interface =
      if interface = (splitAtDot fullMethod).1 then
        addMethod (methodsOf providers interface)
          ⟨registeredName (splitAtDot fullMethod).2, callback, usercb⟩
      else methodsOf providers interface := by
  simp only [registerProviderInterface]
  split
  · next hnone =>
      rw [methodsOf_insert]
      split_ifs with hinterface
      · have hempty : methodsOf providers interface = [] := by
          rw [methodsOf, hinterface, hnone]
        rw [hempty]
        rfl
      · rfl
  · next i hsome =>
      rw [methodsOf_insert]
      split_ifs with hinterface
      · have hmethods : methodsOf providers interface = i.methods := by
          rw [methodsOf, hinterface, hsome]
        rw [hmethods]
      · rfl

theorem methodsOf_unregister (providers : Providers ρ) (interface method : Text)
    (usercb : UInt64) (other : Text) :
    methodsOf (unregisterProviderInterface providers interface method usercb).2 other =
      if other = interface then
        (methodsOf providers other).eraseP fun m => m.name = method ∧ m.usercb = usercb
      else methodsOf providers other := by
  simp only [unregisterProviderInterface]
  split
  · next hnone =>
      split_ifs with hinterface
      · have hempty : methodsOf providers other = [] := by
          rw [methodsOf, hinterface, hnone]
        rw [hempty]
        rfl
      · rfl
  · next i hsome =>
      rw [methodsOf_insert]
      split_ifs with hinterface
      · have hmethods : methodsOf providers other = i.methods := by
          rw [methodsOf, hinterface, hsome]
        rw [hmethods]
      · rfl

/-- No two methods of the list have the same name and `usercb`. -/
def NoDuplicates (methods : List (Method ρ)) : Prop :=
  methods.Pairwise fun first second =>
    ¬ (first.name = second.name ∧ first.usercb = second.usercb)

theorem NoDuplicates.addMethod {methods : List (Method ρ)} (hdistinct : NoDuplicates methods)
    (method : Method ρ) : NoDuplicates (addMethod methods method) := by
  unfold Server.addMethod
  split
  · next hnone =>
      apply List.pairwise_append.mpr
      refine ⟨hdistinct, List.pairwise_singleton _ _, ?_⟩
      intro first hfirst second hsecond
      obtain rfl := List.mem_singleton.mp hsecond
      simpa using List.find?_eq_none.mp hnone first hfirst
  · exact hdistinct

theorem NoDuplicates.eraseP {methods : List (Method ρ)} (hdistinct : NoDuplicates methods)
    (chosen : Method ρ → Bool) : NoDuplicates (methods.eraseP chosen) :=
  hdistinct.sublist List.eraseP_sublist

/-- Removing the first entry of a key removes the key. -/
theorem NoDuplicates.eraseP_eq_filter {methods : List (Method ρ)}
    (hdistinct : NoDuplicates methods) (key : EntryKey) :
    (methods.eraseP fun m => m.name = key.name ∧ m.usercb = key.usercb) =
      methods.filter fun m => !m.hasKey key := by
  induction methods with
  | nil => rfl
  | cons first rest ih =>
      obtain ⟨hfirst, hrest⟩ := List.pairwise_cons.mp hdistinct
      by_cases hkey : first.name = key.name ∧ first.usercb = key.usercb
      · rw [List.eraseP_cons_of_pos (by simpa using hkey)]
        have hothers : ∀ m ∈ rest, (!m.hasKey key) = true := by
          intro m hm
          have hdifferent : ¬ (m.name = key.name ∧ m.usercb = key.usercb) := fun hsame =>
            hfirst m hm ⟨hkey.1.trans hsame.1.symm, hkey.2.trans hsame.2.symm⟩
          rw [Method.hasKey, decide_eq_false hdifferent]
          rfl
        rw [List.filter_cons_of_neg (by simpa [Method.hasKey] using hkey),
          List.filter_eq_self.mpr hothers]
      · rw [List.eraseP_cons_of_neg (by simpa using hkey), ih hrest,
          List.filter_cons_of_pos (by rw [Method.hasKey, decide_eq_false hkey]; rfl)]

theorem noDuplicates_apply {providers : Providers ρ}
    (hdistinct : ∀ interface, NoDuplicates (methodsOf providers interface))
    (registration : Registration ρ) (interface : Text) :
    NoDuplicates (methodsOf (registration.apply providers) interface) := by
  cases registration with
  | register fullMethod callback usercb =>
      simp only [Registration.apply, methodsOf_register]
      split_ifs
      · exact (hdistinct interface).addMethod _
      · exact hdistinct interface
  | unregister target method usercb =>
      simp only [Registration.apply, methodsOf_unregister]
      split_ifs
      · exact (hdistinct interface).eraseP _
      · exact hdistinct interface

theorem noDuplicates_table (history : List (Registration ρ)) (interface : Text) :
    NoDuplicates (methodsOf (table history) interface) := by
  apply fold_history (motive := fun _ providers =>
    ∀ interface, NoDuplicates (methodsOf (ρ := ρ) providers interface))
  · intro interface
    rw [methodsOf_empty]
    exact List.Pairwise.nil
  · intro _ _ last hdistinct interface
    exact noDuplicates_apply hdistinct last interface

/-! ## Registrations in force -/

/-- After the history there is an entry of the key: some call added one, or found it there, and
no call has removed it since. -/
def Holds (history : List (Registration ρ)) (key : EntryKey) : Prop :=
  Since (fun _ call => ∃ callback, call.registers = some (key, callback))
    (fun later => later.unregisters = some key) history

/-- The call at the position was the registration of the callback under a key that had no entry,
and no later call has unregistered the key. -/
def InForce (history : List (Registration ρ)) (position : ℕ) (key : EntryKey) (callback : ρ) :
    Prop :=
  Since (fun before call => position = before.length ∧ call.registers = some (key, callback) ∧
    ¬ Holds before key) (fun later => later.unregisters = some key) history

section History

variable {history : List (Registration ρ)} {last : Registration ρ} {key : EntryKey}
  {callback : ρ} {position : ℕ}

theorem holds_snoc :
    Holds (history ++ [last]) key ↔
      (∃ callback, last.registers = some (key, callback)) ∨
        Holds history key ∧ last.unregisters ≠ some key :=
  since_snoc

theorem inForce_snoc :
    InForce (history ++ [last]) position key callback ↔
      (position = history.length ∧ last.registers = some (key, callback) ∧
          ¬ Holds history key) ∨
        InForce history position key callback ∧ last.unregisters ≠ some key :=
  since_snoc

theorem InForce.lt_length (hforce : InForce history position key callback) :
    position < history.length := by
  obtain ⟨before, registration, after, rfl, ⟨rfl, _⟩, _⟩ := hforce
  simp

/-- No call both adds and removes an entry. -/
theorem unregisters_of_registers {entry : EntryKey × ρ} (hregisters : last.registers = some entry) :
    last.unregisters = none := by
  cases last with
  | register fullMethod callback usercb => rfl
  | unregister interface method usercb => cases hregisters

/-- There is an entry of the key if and only if a registration of the key is in force. -/
theorem holds_iff_inForce :
    Holds history key ↔ ∃ position callback, InForce history position key callback := by
  induction history using List.reverseRecOn with
  | nil =>
      apply iff_of_false not_since_nil
      intro hforce
      obtain ⟨position, callback, hforce⟩ := hforce
      exact not_since_nil hforce
  | append_singleton prior last ih =>
      simp only [holds_snoc, inForce_snoc]
      constructor
      · rintro (⟨callback, hregisters⟩ | ⟨hholds, hlast⟩)
        · by_cases hholds : Holds prior key
          · obtain ⟨position, older, hforce⟩ := ih.mp hholds
            refine ⟨position, older, .inr ⟨hforce, ?_⟩⟩
            rw [unregisters_of_registers hregisters]
            simp
          · exact ⟨_, callback, .inl ⟨rfl, hregisters, hholds⟩⟩
        · obtain ⟨position, callback, hforce⟩ := ih.mp hholds
          exact ⟨position, callback, .inr ⟨hforce, hlast⟩⟩
      · rintro ⟨position, callback, ⟨_, hregisters, _⟩ | ⟨hforce, hlast⟩⟩
        · exact .inl ⟨callback, hregisters⟩
        · exact .inr ⟨ih.mpr ⟨position, callback, hforce⟩, hlast⟩

end History

/-- A registration in force: its position, its key and its callback. -/
abbrev Standing (ρ : Type u) := ℕ × EntryKey × ρ

/-- The entry a registration in force has in the table. -/
def toMethod (standing : Standing ρ) : Method ρ :=
  ⟨standing.2.1.name, standing.2.2, standing.2.1.usercb⟩

/-- The methods `listed` names for an interface. -/
def methodsListed (listed : List (Standing ρ)) (interface : Text) : List (Method ρ) :=
  (listed.filter fun standing => standing.2.1.interface = interface).map toMethod

/-- The table lists the registrations in force in the order they were made. -/
structure Lists (history : List (Registration ρ)) (providers : Providers ρ)
    (listed : List (Standing ρ)) : Prop where
  sorted : listed.Pairwise fun first second => first.1 < second.1
  mem : ∀ position key callback,
    (position, key, callback) ∈ listed ↔ InForce history position key callback
  methods : ∀ interface, methodsOf providers interface = methodsListed listed interface

section Lists

variable {history : List (Registration ρ)} {providers : Providers ρ}
  {listed : List (Standing ρ)}

/-- The table has an entry of the key if and only if the history holds one. -/
theorem Lists.exists_method_iff (hlists : Lists history providers listed) (key : EntryKey) :
    (∃ m ∈ methodsOf providers key.interface, m.name = key.name ∧ m.usercb = key.usercb) ↔
      Holds history key := by
  rw [holds_iff_inForce, hlists.methods]
  constructor
  · rintro ⟨m, hm, hname, husercb⟩
    obtain ⟨⟨position, other, callback⟩, hlisted, rfl⟩ := List.mem_map.mp hm
    obtain ⟨hmem, hinterface⟩ := List.mem_filter.mp hlisted
    obtain rfl : other = key := by
      cases other
      cases key
      simp_all [toMethod]
    exact ⟨position, callback, (hlists.mem _ _ _).mp hmem⟩
  · rintro ⟨position, callback, hforce⟩
    refine ⟨toMethod (position, key, callback), ?_, rfl, rfl⟩
    exact List.mem_map_of_mem
      (List.mem_filter.mpr ⟨(hlists.mem _ _ _).mpr hforce, by simp⟩)

/-- A registration adds itself to the list, unless the key is in force. -/
theorem Lists.register (hlists : Lists history providers listed) (fullMethod : Text)
    (callback : ρ) (usercb : UInt64) :
    ∃ later, Lists (history ++ [.register fullMethod callback usercb])
      ((Registration.register fullMethod callback usercb).apply providers) later := by
  have hexists := hlists.exists_method_iff
    (Registration.register fullMethod callback usercb).key
  by_cases hholds : Holds history (Registration.register fullMethod callback usercb).key
  · refine ⟨listed, hlists.sorted, ?_, ?_⟩
    · intro position key other
      rw [hlists.mem, inForce_snoc]
      simp only [Registration.registers, Registration.unregisters, Option.some.injEq,
        Prod.mk.injEq]
      constructor
      · exact fun hforce => .inr ⟨hforce, by simp⟩
      · rintro (⟨_, ⟨rfl, _⟩, hnew⟩ | ⟨hforce, _⟩)
        · exact absurd hholds hnew
        · exact hforce
    · intro interface
      rw [Registration.apply, methodsOf_register, ← hlists.methods interface]
      split_ifs with hinterface
      · subst hinterface
        obtain ⟨m, hm, hsame⟩ : ∃ m ∈ methodsOf providers (splitAtDot fullMethod).1,
            m.name = registeredName (splitAtDot fullMethod).2 ∧ m.usercb = usercb :=
          hexists.mpr hholds
        have hsome : ((methodsOf providers (splitAtDot fullMethod).1).find? fun m =>
            m.name = registeredName (splitAtDot fullMethod).2 ∧ m.usercb = usercb).isSome = true :=
          List.find?_isSome.mpr ⟨m, hm, decide_eq_true hsame⟩
        obtain ⟨found, hfound⟩ := Option.isSome_iff_exists.mp hsome
        simp only [addMethod, hfound]
      · rfl
  · refine ⟨listed ++ [(history.length,
      (Registration.register fullMethod callback usercb).key, callback)], ?_, ?_, ?_⟩
    · apply List.pairwise_append.mpr
      refine ⟨hlists.sorted, List.pairwise_singleton _ _, ?_⟩
      rintro ⟨position, key, other⟩ hmem last hlast
      obtain rfl := List.mem_singleton.mp hlast
      exact ((hlists.mem _ _ _).mp hmem).lt_length
    · intro position key other
      rw [List.mem_append, hlists.mem, inForce_snoc, List.mem_singleton]
      simp only [Registration.registers, Registration.unregisters, Registration.key,
        Option.some.injEq, Prod.mk.injEq]
      constructor
      · rintro (hforce | ⟨rfl, rfl, rfl⟩)
        · exact .inr ⟨hforce, by simp⟩
        · exact .inl ⟨rfl, ⟨rfl, rfl⟩, hholds⟩
      · rintro (⟨rfl, ⟨rfl, rfl⟩, _⟩ | ⟨hforce, _⟩)
        · exact .inr ⟨rfl, rfl, rfl⟩
        · exact .inl hforce
    · intro interface
      rw [Registration.apply, methodsOf_register, methodsListed, List.filter_append,
        List.map_append]
      show _ = methodsListed listed interface ++ _
      rw [← hlists.methods interface]
      split_ifs with hinterface
      · subst hinterface
        have hnone : ((methodsOf providers (splitAtDot fullMethod).1).find? fun m =>
            m.name = registeredName (splitAtDot fullMethod).2 ∧ m.usercb = usercb) = none := by
          apply List.find?_eq_none.mpr
          intro m hm hsame
          exact hholds (hexists.mp ⟨m, hm, of_decide_eq_true hsame⟩)
        simp only [addMethod, hnone]
        simp [Registration.key, toMethod]
      · simp [Registration.key, Ne.symm hinterface]

/-- An unregistration takes the key off the list. -/
theorem Lists.unregister (hlists : Lists history providers listed)
    (hdistinct : ∀ interface, NoDuplicates (methodsOf providers interface))
    (target method : Text) (usercb : UInt64) :
    ∃ later, Lists (history ++ [.unregister target method usercb])
      ((Registration.unregister target method usercb).apply providers) later := by
  refine ⟨listed.filter fun standing => standing.2.1 ≠ ⟨target, method, usercb⟩,
    hlists.sorted.sublist List.filter_sublist, ?_, ?_⟩
  · intro position key callback
    rw [List.mem_filter, hlists.mem, inForce_snoc]
    simp only [Registration.registers, Registration.unregisters, decide_eq_true_eq, ne_eq,
      Option.some.injEq]
    constructor
    · exact fun ⟨hforce, hother⟩ => .inr ⟨hforce, fun hsame => hother hsame.symm⟩
    · rintro (⟨_, hnone, _⟩ | ⟨hforce, hother⟩)
      · cases hnone
      · exact ⟨hforce, fun hsame => hother hsame.symm⟩
  · intro interface
    rw [Registration.apply, methodsOf_unregister,
      (hdistinct interface).eraseP_eq_filter ⟨interface, method, usercb⟩, hlists.methods interface,
      methodsListed, methodsListed, List.filter_map, List.filter_filter, List.filter_filter]
    split_ifs with hinterface
    · congr 1
      apply List.filter_congr
      rintro ⟨position, ⟨other, name, owner⟩, callback⟩ _
      rw [Bool.eq_iff_iff]
      by_cases hsame : other = target
      · simp only [Function.comp_apply, Method.hasKey, toMethod, hinterface, hsame,
          Bool.and_eq_true, Bool.not_eq_true', decide_eq_true_eq, ne_eq, EntryKey.mk.injEq,
          true_and, and_true]
        exact decide_eq_false_iff_not
      · simp [hinterface, hsame]
    · congr 1
      apply List.filter_congr
      rintro ⟨position, ⟨other, name, owner⟩, callback⟩ _
      by_cases hsame : other = interface
      · simp [hsame, hinterface]
      · simp [hsame]

theorem lists_nil : Lists ([] : List (Registration ρ)) ∅ [] where
  sorted := List.Pairwise.nil
  mem position key callback := iff_of_false (by simp) not_since_nil
  methods := by simp [methodsOf_empty, methodsListed]

end Lists

/-- After every history, the table lists the registrations in force. -/
theorem exists_lists_table (history : List (Registration ρ)) :
    ∃ listed, Lists history (table history) listed := by
  induction history using List.reverseRecOn with
  | nil => exact ⟨[], lists_nil⟩
  | append_singleton prior last ih =>
      obtain ⟨listed, hlists⟩ := ih
      have htable : table (prior ++ [last]) = last.apply (table prior) := by simp [table]
      rw [htable]
      cases last with
      | register fullMethod callback usercb => exact hlists.register fullMethod callback usercb
      | unregister target method usercb =>
          exact hlists.unregister (noDuplicates_table prior) target method usercb

/-! ## Dispatch -/

/-- A request of the name asks for the entries of the key: the interface is the text before
the first dot, the stored name the text after it. -/
def EntryKey.Matches (key : EntryKey) (method : Text) : Prop :=
  '.' ∉ key.interface ∧ method = key.interface ++ '.' :: key.name

/-- The earliest registration in force that the name asks for. -/
def Earliest (history : List (Registration ρ)) (method : Text) (position : ℕ) (key : EntryKey)
    (callback : ρ) : Prop :=
  InForce history position key callback ∧ key.Matches method ∧
    ∀ other otherKey otherCallback, InForce history other otherKey otherCallback →
      otherKey.Matches method → position ≤ other

/-- If the name asks for any registration in force, it asks for an earliest. -/
theorem exists_earliest {history : List (Registration ρ)} {method : Text}
    (hmatches : ∃ position key callback, InForce history position key callback ∧
      key.Matches method) :
    ∃ position key callback, Earliest history method position key callback := by
  obtain ⟨position, hposition, hleast⟩ := wellFounded_lt.has_min
    {position : ℕ | ∃ key callback, InForce history position key callback ∧ key.Matches method}
    hmatches
  obtain ⟨key, callback, hforce, hkey⟩ := hposition
  refine ⟨position, key, callback, hforce, hkey, ?_⟩
  intro other otherKey otherCallback hother hotherKey
  exact Nat.le_of_not_lt (hleast other ⟨otherKey, otherCallback, hother, hotherKey⟩)

/-- In a list sorted by position, the first element with a property has the least position. -/
theorem find_of_sorted {listed : List (Standing ρ)} (chosen : Standing ρ → Bool)
    (hsorted : listed.Pairwise fun first second => first.1 < second.1) {standing : Standing ρ}
    (hmem : standing ∈ listed) (hchosen : chosen standing = true)
    (hleast : ∀ other ∈ listed, chosen other = true → standing.1 ≤ other.1) :
    listed.find? chosen = some standing := by
  induction listed with
  | nil => cases hmem
  | cons first rest ih =>
      obtain ⟨hfirst, hrest⟩ := List.pairwise_cons.mp hsorted
      rcases List.mem_cons.mp hmem with rfl | htail
      · exact List.find?_cons_of_pos hchosen
      · have hskip : ¬ chosen first = true := by
          intro hfound
          have hle := hleast first List.mem_cons_self hfound
          have hlt := hfirst standing htail
          omega
        rw [List.find?_cons_of_neg hskip]
        exact ih hrest htail fun other hother => hleast other (List.mem_cons_of_mem _ hother)

/-- The method of an interface and a name is that of the earliest registration in force. -/
theorem find_methodsListed {listed : List (Standing ρ)}
    (hsorted : listed.Pairwise fun first second => first.1 < second.1) {standing : Standing ρ}
    (hmem : standing ∈ listed)
    (hleast : ∀ other ∈ listed, other.2.1.interface = standing.2.1.interface →
      other.2.1.name = standing.2.1.name → standing.1 ≤ other.1) :
    (methodsListed listed standing.2.1.interface).find?
        (fun m => m.name = standing.2.1.name) = some (toMethod standing) := by
  rw [methodsListed, List.find?_map]
  have hsublist : (listed.filter fun other => other.2.1.interface = standing.2.1.interface).Sublist
      listed := List.filter_sublist
  have hfind := find_of_sorted
    (fun other => decide ((toMethod other).name = standing.2.1.name))
    (hsorted.sublist hsublist)
    (List.mem_filter.mpr ⟨hmem, by simp⟩) (by simp [toMethod])
    (by
      intro other hother hname
      obtain ⟨hlisted, hinterface⟩ := List.mem_filter.mp hother
      exact hleast other hlisted (by simpa using hinterface) (of_decide_eq_true hname))
  show Option.map toMethod (List.find? _ _) = _
  rw [show (fun m : Method ρ => decide (m.name = standing.2.1.name)) ∘ toMethod = fun other =>
    decide ((toMethod other).name = standing.2.1.name) from rfl, hfind]
  rfl

theorem findMethod_of_earliest {history : List (Registration ρ)} {method : Text} {position : ℕ}
    {key : EntryKey} {callback : ρ} (hearliest : Earliest history method position key callback) :
    findMethod (table history) method = some ⟨key.name, callback, key.usercb⟩ := by
  obtain ⟨hforce, ⟨hdot, rfl⟩, hleast⟩ := hearliest
  obtain ⟨listed, hlists⟩ := exists_lists_table history
  rw [findMethod_eq_find_methodsOf hdot, hlists.methods]
  apply find_methodsListed hlists.sorted ((hlists.mem position key callback).mpr hforce)
  rintro ⟨other, otherKey, otherCallback⟩ hother hinterface hname
  apply hleast other otherKey otherCallback ((hlists.mem _ _ _).mp hother)
  exact ⟨by rw [hinterface]; exact hdot, by rw [hinterface, hname]⟩

theorem findMethod_of_none {history : List (Registration ρ)} {method : Text}
    (hnone : ∀ position key callback, InForce history position key callback →
      ¬ key.Matches method) : findMethod (table history) method = none := by
  by_contra hfound
  obtain ⟨m, interface, provider, hdot, hmethod, hprovider, hm⟩ := findMethod_ne_none_iff.mp hfound
  obtain ⟨listed, hlists⟩ := exists_lists_table history
  have hmem : m ∈ methodsListed listed interface := by
    rw [← hlists.methods, methodsOf, hprovider]
    exact hm
  obtain ⟨⟨position, key, callback⟩, hlisted, rfl⟩ := List.mem_map.mp hmem
  obtain ⟨hstanding, hinterface⟩ := List.mem_filter.mp hlisted
  have hsame : key.interface = interface := by simpa using hinterface
  apply hnone position key callback ((hlists.mem _ _ _).mp hstanding)
  exact ⟨by rw [hsame]; exact hdot, by rw [hsame]; exact hmethod⟩

/-- Removing an element that a filter drops does not show after the filter. -/
theorem filter_eraseP {methods : List (Method ρ)} {chosen kept : Method ρ → Bool}
    (hdropped : ∀ m, chosen m = true → kept m = false) :
    (methods.eraseP chosen).filter kept = methods.filter kept := by
  induction methods with
  | nil => rfl
  | cons first rest ih =>
      by_cases hchosen : chosen first = true
      · rw [List.eraseP_cons_of_pos hchosen,
          List.filter_cons_of_neg (by simp [hdropped first hchosen])]
      · rw [List.eraseP_cons_of_neg hchosen, List.filter_cons, List.filter_cons, ih]

/-- A call leaves the entries of every other key where they are. -/
theorem methodsOf_apply_of_other (registration : Registration ρ) (providers : Providers ρ)
    (interface : Text) :
    ((methodsOf (registration.apply providers) interface).filter fun m =>
        !(interface = registration.key.interface ∧ m.hasKey registration.key)) =
      (methodsOf providers interface).filter fun m =>
        !(interface = registration.key.interface ∧ m.hasKey registration.key) := by
  cases registration with
  | register fullMethod callback usercb =>
      rw [Registration.apply, methodsOf_register]
      split_ifs with hinterface
      · unfold addMethod
        split
        · rw [List.filter_append]
          simp [Registration.key, Method.hasKey, hinterface]
        · rfl
      · rfl
  | unregister target method usercb =>
      rw [Registration.apply, methodsOf_unregister]
      split_ifs with hinterface
      · apply filter_eraseP
        intro m hm
        have hkey : m.name = method ∧ m.usercb = usercb := of_decide_eq_true hm
        simp [Registration.key, Method.hasKey, hinterface, hkey]
      · rfl

/-- **Provider dispatch follows the history.**  A registration is stored under the text before
the first dot and the text after it, of which a leading "on" is taken away and the next letter
written small.  After every history of registrations, a request invokes the lambda of the
earliest registration in force that its name asks for, with that registration's `usercb`, and
sends its result under the request's identifier; there is an earliest when there is any, and
nothing happens when there is none.  No interface holds two entries of one name and `usercb`,
and a call leaves the entries of every other key as they were. -/
theorem dispatch_follows_history (history : List (Registration ρ)) :
    (∀ (interface : Text) (first : Char) (rest : Text) (callback : ρ) (usercb : UInt64),
      '.' ∉ interface →
        (Registration.register (interface ++ '.' :: 'o' :: 'n' :: first :: rest) callback
          usercb).registers = some (⟨interface, first.toLower :: rest, usercb⟩, callback)) ∧
    (∀ (interface method : Text) (callback : ρ) (usercb : UInt64), '.' ∉ interface →
      (∀ first rest, method ≠ 'o' :: 'n' :: first :: rest) →
        (Registration.register (interface ++ '.' :: method) callback usercb).registers =
          some (⟨interface, method, usercb⟩, callback)) ∧
    (∀ method, (∃ position key callback, InForce history position key callback ∧
        key.Matches method) →
      ∃ position key callback, Earliest history method position key callback) ∧
    (∀ (respond : ρ → Text → UInt64 → Text) (id : MessageID) (method parameters : Text),
      (∀ position key callback, Earliest history method position key callback →
        requestEffects respond (table history) id method parameters =
          [.invoke callback (wrapParameters parameters) key.usercb,
            .sendResponse id (respond callback (wrapParameters parameters) key.usercb)]) ∧
      ((∀ position key callback, InForce history position key callback → ¬ key.Matches method) →
        requestEffects respond (table history) id method parameters = [])) ∧
    (∀ interface, NoDuplicates (methodsOf (table history) interface)) ∧
    ∀ (registration : Registration ρ) (interface : Text),
      ((methodsOf (table (history ++ [registration])) interface).filter fun m =>
          !(interface = registration.key.interface ∧ m.hasKey registration.key)) =
        (methodsOf (table history) interface).filter fun m =>
          !(interface = registration.key.interface ∧ m.hasKey registration.key) := by
  refine ⟨?_, ?_, fun _ => exists_earliest, fun respond id method parameters => ⟨?_, ?_⟩,
    noDuplicates_table history, ?_⟩
  · intro interface first rest callback usercb hinterface
    rw [Registration.registers, splitAtDot_append hinterface, registeredName_on]
  · intro interface method callback usercb hinterface hname
    rw [Registration.registers, splitAtDot_append hinterface, registeredName_eq_self hname]
  · intro position key callback hearliest
    rw [requestEffects_eq, findMethod_of_earliest hearliest]
  · intro hnone
    rw [requestEffects_eq, findMethod_of_none hnone]
  · intro registration interface
    rw [table, List.foldl_append]
    exact methodsOf_apply_of_other registration (table history) interface

end FireboltTransport.Server
