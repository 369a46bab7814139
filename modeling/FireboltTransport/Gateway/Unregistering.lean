/-
# Unregistering what was registered

`RegisterProviderInterface` takes the leading `on` off a method name before it
stores it, and `UnregisterProviderInterface` looks for the name it is given.  The
second call undoes the first exactly when the two names agree, or when the entry
that stays behind is hidden by an older one of its name and no request can tell
that another entry went instead.
-/

import FireboltTransport.Gateway.Registrations

namespace FireboltTransport.Server

open Semantics

universe u

variable {ρ : Type u}

/-! ## Names -/

/-- The name is stored in another form. -/
def IsRewritten (method : Text) : Prop :=
  method.length > 2 ∧ method.take 2 = ['o', 'n']

instance (method : Text) : Decidable (IsRewritten method) :=
  inferInstanceAs (Decidable (_ ∧ _))

/-- A name that is rewritten gets shorter. -/
theorem registeredName_ne_iff {method : Text} :
    registeredName method ≠ method ↔ IsRewritten method := by
  unfold registeredName IsRewritten
  split_ifs with hrewritten
  · apply iff_of_true _ hrewritten
    intro hsame
    have hlength := congrArg List.length hsame
    simp only [List.length_drop, List.length_modify] at hlength
    omega
  · exact iff_of_false (fun hdifferent => hdifferent rfl) hrewritten

/-! ## Requests -/

/-- Requests have the same effects under both tables. -/
def SameDispatch (before after : Providers ρ) : Prop :=
  ∀ (respond : ρ → Text → UInt64 → Text) (id : MessageID) (method parameters : Text),
    requestEffects respond after id method parameters =
      requestEffects respond before id method parameters

/-- Under the table, some request invokes the callback. -/
def Invokes (providers : Providers ρ) (callback : ρ) : Prop :=
  ∃ (respond : ρ → Text → UInt64 → Text) (id : MessageID) (method parameters passed : Text)
    (usercb : UInt64), .invoke callback passed usercb ∈
      requestEffects respond providers id method parameters

/-- Every method name is dispatched as before, and a callback that was not invoked is not. -/
structure Undone (before after : Providers ρ) (callback : ρ) : Prop where
  dispatch : SameDispatch before after
  silent : ¬ Invokes before callback → ¬ Invokes after callback

theorem findMethod_name {providers : Providers ρ} {before after : Text} {m : Method ρ}
    (hbefore : '.' ∉ before) (hfound : findMethod providers (before ++ '.' :: after) = some m) :
    m.name = after := by
  rw [findMethod_eq_find_methodsOf hbefore] at hfound
  simpa using List.find?_some hfound

/-- Two tables dispatch alike if and only if they find the same methods in each interface. -/
theorem sameDispatch_iff {before after : Providers ρ} :
    SameDispatch before after ↔ ∀ interface, '.' ∉ interface → ∀ name,
      ((methodsOf after interface).find? fun m => m.name = name) =
        (methodsOf before interface).find? fun m => m.name = name := by
  constructor
  · intro hsame interface hinterface name
    have heffects := hsame (fun _ _ _ => []) 0 (interface ++ '.' :: name) []
    rw [← findMethod_eq_find_methodsOf hinterface, ← findMethod_eq_find_methodsOf hinterface]
    rw [requestEffects_eq, requestEffects_eq] at heffects
    cases hafter : findMethod after (interface ++ '.' :: name) with
    | none =>
        cases hbefore : findMethod before (interface ++ '.' :: name) with
        | none => rfl
        | some m => simp [hafter, hbefore] at heffects
    | some other =>
        cases hbefore : findMethod before (interface ++ '.' :: name) with
        | none => simp [hafter, hbefore] at heffects
        | some m =>
            have hname := (findMethod_name hinterface hafter).trans
              (findMethod_name hinterface hbefore).symm
            cases other
            cases m
            simp_all
  · intro hsame respond id method parameters
    have hfound : findMethod after method = findMethod before method := by
      by_cases hdot : '.' ∈ method
      · obtain ⟨interface, name, hinterface, rfl⟩ := exists_append_of_dot_mem hdot
        rw [findMethod_eq_find_methodsOf hinterface, findMethod_eq_find_methodsOf hinterface]
        exact hsame interface hinterface name
      · simp [findMethod, findIdx_dot_eq_length_iff.mpr hdot]
    rw [requestEffects_eq, requestEffects_eq, hfound]

theorem undone_iff {before after : Providers ρ} {callback : ρ} :
    Undone before after callback ↔ SameDispatch before after := by
  constructor
  · exact Undone.dispatch
  · intro hsame
    refine ⟨hsame, ?_⟩
    intro hsilent hinvokes
    obtain ⟨respond, id, method, parameters, passed, usercb, hmem⟩ := hinvokes
    apply hsilent
    refine ⟨respond, id, method, parameters, passed, usercb, ?_⟩
    rwa [hsame] at hmem

/-! ## The two calls -/

/-- The table after a registration and the unregistration of the same method. -/
def registerUnregister (providers : Providers ρ) (interface method : Text) (callback : ρ)
    (usercb : UInt64) : Providers ρ :=
  (unregisterProviderInterface
    (registerProviderInterface providers (interface ++ '.' :: method) callback usercb).2
    interface method usercb).2

/-- The entry the registration adds. -/
def registeredMethod (method : Text) (callback : ρ) (usercb : UInt64) : Method ρ :=
  ⟨registeredName method, callback, usercb⟩

/-- Unregistering the method takes away no entry that a request finds, unless the next entry of
the name is the same. -/
def Undisturbed (methods : List (Method ρ)) (method : Text) (usercb : UInt64) : Prop :=
  ∀ before entry after, methods = before ++ entry :: after →
    (∀ m ∈ before, m.name ≠ method) → entry.name = method → entry.usercb = usercb →
    (after.find? fun m => m.name = method) = some entry

section Methods

variable {methods : List (Method ρ)} {method : Text} {usercb : UInt64}

/-- Unregistering a method leaves the entries of other names. -/
theorem find_eraseP_of_ne {name : Text} (hother : name ≠ method) :
    ((methods.eraseP fun m => m.name = method ∧ m.usercb = usercb).find? fun m =>
        m.name = name) =
      methods.find? fun m => m.name = name := by
  rw [← List.head?_filter, ← List.head?_filter, filter_eraseP]
  intro m hm
  have hname : m.name = method := (of_decide_eq_true hm).1
  apply decide_eq_false
  rw [hname]
  exact hother.symm

/-- The first entry of the name decides, and it comes first. -/
theorem undisturbed_cons_of_name {first : Method ρ} (hname : first.name = method) :
    Undisturbed (first :: methods) method usercb ↔ (first.usercb = usercb →
      (methods.find? fun m => m.name = method) = some first) := by
  constructor
  · intro hundisturbed howner
    exact hundisturbed [] first methods rfl (by simp) hname howner
  · intro hnext before entry after hsplit hbefore _ howner
    cases before with
    | nil =>
        obtain ⟨rfl, rfl⟩ := List.cons.inj hsplit
        exact hnext howner
    | cons head tail =>
        obtain ⟨rfl, _⟩ := List.cons.inj hsplit
        exact absurd hname (hbefore _ List.mem_cons_self)

/-- An entry of another name does not matter. -/
theorem undisturbed_cons_of_ne {first : Method ρ} (hname : first.name ≠ method) :
    Undisturbed (first :: methods) method usercb ↔ Undisturbed methods method usercb := by
  constructor
  · intro hundisturbed before entry after hsplit hbefore hentry howner
    apply hundisturbed (first :: before) entry after (by rw [hsplit]; rfl) _ hentry howner
    intro m hm
    rcases List.mem_cons.mp hm with rfl | hm
    · exact hname
    · exact hbefore m hm
  · intro hundisturbed before entry after hsplit hbefore hentry howner
    cases before with
    | nil =>
        obtain ⟨rfl, rfl⟩ := List.cons.inj hsplit
        exact absurd hentry hname
    | cons head tail =>
        obtain ⟨rfl, rfl⟩ := List.cons.inj hsplit
        exact hundisturbed tail entry after rfl
          (fun m hm => hbefore m (List.mem_cons_of_mem _ hm)) hentry howner

/-- Where no entry has the name there is none to take away. -/
theorem undisturbed_of_forall_ne (hnone : ∀ m ∈ methods, m.name ≠ method) :
    Undisturbed methods method usercb := by
  rintro before entry after rfl - hname
  exact absurd hname (hnone entry (by simp))

/-- Unregistering a method changes what is found under its name unless it is undisturbed. -/
theorem find_eraseP_iff :
    ((methods.eraseP fun m => m.name = method ∧ m.usercb = usercb).find? fun m =>
        m.name = method) =
      (methods.find? fun m => m.name = method) ↔ Undisturbed methods method usercb := by
  induction methods with
  | nil => simp [Undisturbed]
  | cons first rest ih =>
      by_cases hname : first.name = method
      · rw [undisturbed_cons_of_name hname, List.find?_cons_of_pos (by simp [hname])]
        by_cases husercb : first.usercb = usercb
        · rw [List.eraseP_cons_of_pos (by simp [hname, husercb])]
          simp [husercb]
        · rw [List.eraseP_cons_of_neg (by simp [husercb]),
            List.find?_cons_of_pos (by simp [hname])]
          simp [husercb]
      · rw [undisturbed_cons_of_ne hname, List.eraseP_cons_of_neg (by simp [hname]),
          List.find?_cons_of_neg (by simp [hname]), List.find?_cons_of_neg (by simp [hname]), ih]

end Methods

section Calls

variable {providers : Providers ρ} {interface method : Text} {callback : ρ} {usercb : UInt64}

/-- The methods of the interface after the two calls. -/
theorem methodsOf_registerUnregister (hinterface : '.' ∉ interface)
    (hnew : ∀ m ∈ methodsOf providers interface,
      ¬ (m.name = registeredName method ∧ m.usercb = usercb)) (other : Text) :
    methodsOf (registerUnregister providers interface method callback usercb) other =
      if other = interface then
        (methodsOf providers interface ++ [registeredMethod method callback usercb]).eraseP
          fun m => m.name = method ∧ m.usercb = usercb
      else methodsOf providers other := by
  have hadded : addMethod (methodsOf providers interface)
      ⟨registeredName method, callback, usercb⟩ =
        methodsOf providers interface ++ [registeredMethod method callback usercb] := by
    have hnone : ((methodsOf providers interface).find? fun m =>
        m.name = registeredName method ∧ m.usercb = usercb) = none :=
      List.find?_eq_none.mpr fun m hm hsame => hnew m hm (of_decide_eq_true hsame)
    simp only [addMethod, hnone, registeredMethod]
  rw [registerUnregister, methodsOf_unregister, methodsOf_register, splitAtDot_append hinterface]
  split_ifs with hother
  · subst hother
    rw [hadded]
  · rfl

/-- A name that is stored as it is given is taken away again. -/
theorem sameDispatch_of_not_rewritten (hinterface : '.' ∉ interface)
    (hnew : ∀ m ∈ methodsOf providers interface,
      ¬ (m.name = registeredName method ∧ m.usercb = usercb))
    (hname : ¬ IsRewritten method) :
    SameDispatch providers (registerUnregister providers interface method callback usercb) := by
  have hstored : registeredName method = method := by
    by_contra hdifferent
    exact hname (registeredName_ne_iff.mp hdifferent)
  apply sameDispatch_iff.mpr
  intro other _ name
  rw [methodsOf_registerUnregister hinterface hnew]
  split_ifs with hother
  · rw [hstored] at hnew
    have hkept : ∀ m ∈ methodsOf providers interface,
        ¬ decide (m.name = method ∧ m.usercb = usercb) = true :=
      fun m hm hsame => hnew m hm (of_decide_eq_true hsame)
    rw [List.eraseP_append_right _ hkept,
      List.eraseP_cons_of_pos (by simp [registeredMethod, hstored]), List.append_nil, hother]
  · rfl

/-- A name that is rewritten leaves an entry behind. -/
theorem sameDispatch_iff_of_rewritten (hinterface : '.' ∉ interface)
    (hnew : ∀ m ∈ methodsOf providers interface,
      ¬ (m.name = registeredName method ∧ m.usercb = usercb))
    (hname : IsRewritten method) :
    SameDispatch providers (registerUnregister providers interface method callback usercb) ↔
      (∃ m ∈ methodsOf providers interface, m.name = registeredName method) ∧
        Undisturbed (methodsOf providers interface) method usercb := by
  have hstored : registeredName method ≠ method := registeredName_ne_iff.mpr hname
  -- The new entry is not the one that is taken away.
  have hmethods : ((methodsOf providers interface ++
        [registeredMethod method callback usercb]).eraseP
          fun m => m.name = method ∧ m.usercb = usercb) =
      ((methodsOf providers interface).eraseP fun m => m.name = method ∧ m.usercb = usercb) ++
        [registeredMethod method callback usercb] := by
    rw [List.eraseP_append]
    split_ifs with hany
    · rfl
    · rw [List.eraseP_cons_of_neg (by simp [registeredMethod, hstored]), List.eraseP_nil,
        List.eraseP_of_forall_not]
      intro m hm hsame
      exact hany (List.any_eq_true.mpr ⟨m, hm, hsame⟩)
  have hlookup : ∀ name, ((methodsOf (registerUnregister providers interface method callback
      usercb) interface).find? fun m => m.name = name) =
        (((methodsOf providers interface).eraseP fun m =>
            m.name = method ∧ m.usercb = usercb).find? fun m => m.name = name).or
          (if registeredName method = name then
            some (registeredMethod method callback usercb) else none) := by
    intro name
    rw [methodsOf_registerUnregister hinterface hnew, if_pos rfl, hmethods, List.find?_append]
    congr 1
    split_ifs with hsame <;> simp [registeredMethod, hsame]
  rw [sameDispatch_iff]
  constructor
  · intro hsame
    constructor
    · have hfound := hsame interface hinterface (registeredName method)
      rw [hlookup, if_pos rfl] at hfound
      by_contra hnone
      have hempty : ((methodsOf providers interface).find? fun m =>
          m.name = registeredName method) = none :=
        List.find?_eq_none.mpr fun m hm hnamed => hnone ⟨m, hm, of_decide_eq_true hnamed⟩
      rw [hempty] at hfound
      exact absurd hfound (by simp)
    · have hfound := hsame interface hinterface method
      rw [hlookup, if_neg hstored, Option.or_none] at hfound
      exact find_eraseP_iff.mp hfound
  · rintro ⟨⟨m, hm, hnamed⟩, hundisturbed⟩ other _ name
    by_cases hother : other = interface
    · rw [hother, hlookup]
      by_cases hmethod : name = method
      · rw [hmethod, if_neg hstored, Option.or_none]
        exact find_eraseP_iff.mpr hundisturbed
      · rw [find_eraseP_of_ne hmethod]
        by_cases hsame : registeredName method = name
        · have hsome : ((methodsOf providers interface).find? fun m => m.name = name).isSome :=
            List.find?_isSome.mpr ⟨m, hm, decide_eq_true (hnamed.trans hsame)⟩
          exact Option.or_of_isSome hsome
        · rw [if_neg hsame, Option.or_none]
    · rw [methodsOf_registerUnregister hinterface hnew, if_neg hother]

end Calls

/-- **When unregistering undoes registering.**  After a registration that duplicates no entry
and the unregistration of the same method, every name is dispatched as before if and only if
the name is stored as it is given, or an older entry of the stored name hides the one left
behind and the entry of the given name that is taken away instead makes no difference. -/
theorem undone_registerUnregister_iff (providers : Providers ρ) (interface method : Text)
    (callback : ρ) (usercb : UInt64) (hinterface : '.' ∉ interface)
    (hnew : ∀ m ∈ methodsOf providers interface,
      ¬ (m.name = registeredName method ∧ m.usercb = usercb)) :
    Undone providers (registerUnregister providers interface method callback usercb) callback ↔
      ¬ IsRewritten method ∨
        ((∃ m ∈ methodsOf providers interface, m.name = registeredName method) ∧
          Undisturbed (methodsOf providers interface) method usercb) := by
  rw [undone_iff]
  by_cases hname : IsRewritten method
  · rw [sameDispatch_iff_of_rewritten hinterface hnew hname]
    simp [hname]
  · exact iff_of_true (sameDispatch_of_not_rewritten hinterface hnew hname) (.inl hname)

/-- A table with `A.show`, registered with another callback, and `A.hide`. -/
def showAndHide : Providers Bool :=
  (registerProviderInterface (registerProviderInterface ∅ "A.show".toList false 3).2
    "A.hide".toList false 3).2

/-- Registering and unregistering `A.close` changes nothing, and neither does `A.onShow`, whose
entry stays behind that of `A.show`. -/
theorem undone_show :
    Undone showAndHide (registerUnregister showAndHide "A".toList "close".toList true 7) true ∧
      Undone showAndHide (registerUnregister showAndHide "A".toList "onShow".toList true 7)
        true := by
  constructor
  · refine (undone_registerUnregister_iff showAndHide _ _ true 7 (by decide) (by decide)).mpr ?_
    exact .inl (by decide)
  · refine (undone_registerUnregister_iff showAndHide _ _ true 7 (by decide) (by decide)).mpr ?_
    exact .inr ⟨by decide, undisturbed_of_forall_ne (by decide)⟩

/-- After `A.onShow` was registered and unregistered, `A.show` still invokes the callback. -/
theorem not_undone_onShow :
    ¬ ∀ (providers : Providers Unit) (interface method : Text) (callback : Unit)
      (usercb : UInt64), '.' ∉ interface →
      (∀ m ∈ methodsOf providers interface,
        ¬ (m.name = registeredName method ∧ m.usercb = usercb)) →
      Undone providers (registerUnregister providers interface method callback usercb)
        callback := by
  intro hundone
  have hsame := (hundone ∅ "A".toList "onShow".toList () 7 (by decide)
    (by rw [methodsOf_empty]; simp)).dispatch (fun _ _ _ => []) 1 "A.show".toList []
  revert hsame
  decide

end FireboltTransport.Server
