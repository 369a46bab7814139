/-
# The items of a JSON value

The items of an array are its elements and those of an object the values of its
members; other values have none.  A walk applies a computation to the items of a
value one after the other and puts the results in their places, so its result has
the frame of the value: the same brackets, keys and number of items.

Computations may throw, and may be over only under a large enough bound.
-/

import FireboltTransport.Semantics.Json
import Mathlib.Data.List.Forall2
import Mathlib.Data.Set.Finite.Lattice
import Mathlib.Logic.Relation

namespace FireboltTransport.Semantics

open Relation

namespace Json

def items : Json → List Json
  | .array elements => elements
  | .object members => members.map Prod.snd
  | _ => []

/-- The value of the member with the key, when there is one. -/
def member? (key : List Char) : Json → Option Json
  | .object members => members.lookup key
  | _ => none

/-- The value with `null` in the place of each item. -/
def frame : Json → Json
  | .array elements => .array (elements.map fun _ => .null)
  | .object members => .object (members.map fun member => (member.1, .null))
  | value => value

theorem sizeOf_lt_of_mem_items {value item : Json} (hitem : item ∈ value.items) :
    sizeOf item < sizeOf value := by
  cases value with
  | array elements =>
      have hless : sizeOf item < sizeOf elements := List.sizeOf_lt_of_mem hitem
      simp only [array.sizeOf_spec]
      omega
  | object members =>
      obtain ⟨member, hmember, rfl⟩ := List.mem_map.mp hitem
      have hless := List.sizeOf_lt_of_mem hmember
      have hvalue : sizeOf member.2 < sizeOf member := by
        cases member
        simp only [Prod.mk.sizeOf_spec]
        omega
      simp only [object.sizeOf_spec]
      omega
  | null | bool | number | string => cases hitem

theorem mem_items_of_member? {key : List Char} {value member : Json}
    (hmember : value.member? key = some member) : member ∈ value.items := by
  cases value with
  | object members =>
      obtain ⟨before, after, hsplit, _⟩ := List.lookup_eq_some_iff.mp hmember
      rw [items, hsplit]
      simp
  | null | bool | number | string | array => cases hmember

/-- The keys of a value are those of its frame. -/
theorem member?_frame (key : List Char) (value : Json) :
    value.frame.member? key = (value.member? key).map fun _ => .null := by
  cases value with
  | object members =>
      simp only [frame, member?]
      induction members with
      | nil => rfl
      | cons member rest ih =>
          rw [List.map_cons, List.lookup_cons, List.lookup_cons]
          split
          · rfl
          · exact ih
  | null | bool | number | string | array => rfl

/-! ## Parts at any depth -/

/-- The part is the value, an item of it, an item of an item, and so on. -/
abbrev Part : Json → Json → Prop := ReflTransGen fun value item => item ∈ value.items

/-- A value has finitely many parts. -/
theorem finite_parts (value : Json) : {part | Part value part}.Finite := by
  induction hsize : sizeOf value using Nat.strong_induction_on generalizing value with
  | _ size ih =>
      have hitems : (⋃ item ∈ {item | item ∈ value.items}, {part | Part item part}).Finite := by
        apply Set.Finite.biUnion (List.finite_toSet value.items)
        intro item hitem
        exact ih _ (hsize ▸ sizeOf_lt_of_mem_items hitem) item rfl
      apply (hitems.insert value).subset
      intro part hpart
      rcases ReflTransGen.cases_head hpart with rfl | ⟨item, hitem, hbelow⟩
      · exact Set.mem_insert _ _
      · exact Set.mem_insert_of_mem _ (Set.mem_biUnion hitem hbelow)

/-- No object in the value has a member with the key. -/
def Lacks (key : List Char) (value : Json) : Prop :=
  ∀ part, Part value part → part.member? key = none

theorem Lacks.of_mem_items {key : List Char} {value item : Json} (hlacks : Lacks key value)
    (hitem : item ∈ value.items) : Lacks key item :=
  fun part hpart => hlacks part (hpart.head hitem)

theorem lacks_of_items {key : List Char} {value : Json} (hmember : value.member? key = none)
    (hitems : ∀ item ∈ value.items, Lacks key item) : Lacks key value := by
  intro part hpart
  rcases ReflTransGen.cases_head hpart with rfl | ⟨item, hitem, hbelow⟩
  · exact hmember
  · exact hitems item hitem part hbelow

/-! ## Values related item by item -/

/-- The second value is the first with related items in the places of the items. -/
structure ItemsRelated (related : Json → Json → Prop) (value result : Json) : Prop where
  frame : value.frame = result.frame
  items : ∀ {item other}, (item, other) ∈ value.items.zip result.items → related item other

section ItemsRelated

variable {related : Json → Json → Prop} {value result item other : Json} {key : List Char}

theorem length_items_of_frame (hframe : value.frame = result.frame) :
    value.items.length = result.items.length := by
  have hlength : ∀ json : Json, json.frame.items.length = json.items.length := by
    intro json
    cases json <;> simp [Json.frame, Json.items]
  rw [← hlength value, hframe, hlength result]

theorem ItemsRelated.member?_eq_none_iff (hrelated : ItemsRelated related value result) :
    value.member? key = none ↔ result.member? key = none := by
  have hframes := congrArg (fun json => (json.member? key).isNone) hrelated.frame
  simp only [member?_frame, Option.isNone_map] at hframes
  rw [← Option.isNone_iff_eq_none, hframes, Option.isNone_iff_eq_none]

/-- Relating the items is relating the lists of the items. -/
theorem itemsRelated_iff :
    ItemsRelated related value result ↔
      value.frame = result.frame ∧ List.Forall₂ related value.items result.items := by
  constructor
  · intro hrelated
    exact ⟨hrelated.frame,
      List.forall₂_iff_zip.mpr ⟨length_items_of_frame hrelated.frame, hrelated.items⟩⟩
  · intro hrelated
    exact ⟨hrelated.1, (List.forall₂_iff_zip.mp hrelated.2).2⟩

theorem ItemsRelated.exists_of_mem_left (hrelated : ItemsRelated related value result)
    (hitem : item ∈ value.items) : ∃ other ∈ result.items, related item other := by
  have hlength := length_items_of_frame hrelated.frame
  rw [← List.map_fst_zip hlength.le] at hitem
  obtain ⟨pair, hpair, rfl⟩ := List.mem_map.mp hitem
  exact ⟨pair.2, (List.of_mem_zip hpair).2, hrelated.items hpair⟩

theorem ItemsRelated.exists_of_mem_right (hrelated : ItemsRelated related value result)
    (hother : other ∈ result.items) : ∃ item ∈ value.items, related item other := by
  have hlength := length_items_of_frame hrelated.frame
  rw [← List.map_snd_zip hlength.ge] at hother
  obtain ⟨pair, hpair, rfl⟩ := List.mem_map.mp hother
  exact ⟨pair.1, (List.of_mem_zip hpair).1, hrelated.items hpair⟩

theorem ItemsRelated.imp {weaker : Json → Json → Prop}
    (hrelated : ItemsRelated related value result)
    (himp : ∀ item other, related item other → weaker item other) :
    ItemsRelated weaker value result :=
  ⟨hrelated.frame, fun hpair => himp _ _ (hrelated.items hpair)⟩

/-- There is a value with related items when each item has something to be related to. -/
theorem exists_itemsRelated (hitems : ∀ item ∈ value.items, ∃ other, related item other) :
    ∃ result, ItemsRelated related value result := by
  have hchoice : ∀ item, ∃ other, item ∈ value.items → related item other := by
    intro item
    by_cases hitem : item ∈ value.items
    · obtain ⟨other, hother⟩ := hitems item hitem
      exact ⟨other, fun _ => hother⟩
    · exact ⟨.null, fun h => absurd h hitem⟩
  choose other hother using hchoice
  have hlists : ∀ list : List Json, (∀ item ∈ list, item ∈ value.items) →
      List.Forall₂ related list (list.map other) := by
    intro list hlist
    rw [List.forall₂_map_right_iff, List.forall₂_same]
    exact fun item hitem => hother item (hlist item hitem)
  cases value with
  | array elements =>
      refine ⟨.array (elements.map other), itemsRelated_iff.mpr ⟨?_, ?_⟩⟩
      · rw [Json.frame, Json.frame, List.map_map]
        rfl
      · exact hlists elements fun _ hitem => hitem
  | object members =>
      refine ⟨.object (members.map fun member => (member.1, other member.2)),
        itemsRelated_iff.mpr ⟨?_, ?_⟩⟩
      · simp [Json.frame]
      · have hvalues := hlists (members.map Prod.snd) fun _ hitem => hitem
        simpa [Json.items, List.map_map, Function.comp_def] using hvalues
  | null | bool | number | string => exact ⟨_, rfl, by simp [Json.items]⟩

/-- Items that are each related from some bound on are all related from one bound on. -/
theorem ItemsRelated.exists_bound (related : ℕ → Json → Json → Prop)
    (hmono : ∀ small large item other, small ≤ large → related small item other →
      related large item other)
    (hrelated : ItemsRelated (fun item other => ∃ bound, related bound item other) value result) :
    ∃ bound, ItemsRelated (related bound) value result := by
  have hlists : ∀ pairs : List (Json × Json),
      (∀ pair ∈ pairs, ∃ bound, related bound pair.1 pair.2) →
      ∃ bound, ∀ pair ∈ pairs, related bound pair.1 pair.2 := by
    intro pairs hpairs
    induction pairs with
    | nil => exact ⟨0, by simp⟩
    | cons pair rest ih =>
        obtain ⟨first, hfirst⟩ := hpairs pair List.mem_cons_self
        obtain ⟨second, hsecond⟩ := ih fun other hother => hpairs other (.tail _ hother)
        refine ⟨max first second, ?_⟩
        intro other hother
        rcases List.mem_cons.mp hother with rfl | hother
        · exact hmono _ _ _ _ (le_max_left first second) hfirst
        · exact hmono _ _ _ _ (le_max_right first second) (hsecond other hother)
  obtain ⟨bound, hbound⟩ := hlists (value.items.zip result.items) fun _ hpair =>
    hrelated.items hpair
  exact ⟨bound, hrelated.frame, fun hpair => hbound _ hpair⟩

end ItemsRelated

end Json

/-! ## Computations under a bound -/

/-- What a computation comes to under a bound: it is not over, it throws, or it returns. -/
abbrev Bounded (ε α : Type) := ExceptT ε Option α

namespace Bounded

variable {ε α β : Type}

/-- The computation is not over. -/
def unfinished : Bounded ε α := ExceptT.mk none

theorem unfinished_ne_pure {value : α} : (unfinished : Bounded ε α) ≠ pure value := nofun

theorem throw_ne_pure {error : ε} {value : α} : (throw error : Bounded ε α) ≠ pure value := nofun

theorem pure_inj {first second : α} :
    (pure first : Bounded ε α) = pure second ↔ first = second := by
  constructor
  · intro hequal
    cases hequal
    rfl
  · exact fun hequal => hequal ▸ rfl

theorem bind_eq_pure_iff {first : Bounded ε α} {next : α → Bounded ε β} {result : β} :
    (first >>= next) = pure result ↔ ∃ value, first = pure value ∧ next value = pure result := by
  constructor
  · intro hresult
    match first with
    | none => cases hresult
    | some (.error _) => cases hresult
    | some (.ok value) => exact ⟨value, rfl, hresult⟩
  · intro hresult
    obtain ⟨value, rfl, hnext⟩ := hresult
    exact hnext

/-- A walk over a list returns when every step of it does. -/
theorem mapM_eq_pure_iff {f : α → Bounded ε β} {values : List α} {results : List β} :
    values.mapM f = pure results ↔
      List.Forall₂ (fun value result => f value = pure result) values results := by
  induction values generalizing results with
  | nil =>
      rw [List.mapM_nil, List.forall₂_nil_left_iff, pure_inj, eq_comm]
  | cons value rest ih =>
      rw [List.mapM_cons, bind_eq_pure_iff, List.forall₂_cons_left_iff]
      simp only [bind_eq_pure_iff, pure_inj, ih]
      constructor
      · rintro ⟨first, hfirst, later, hlater, rfl⟩
        exact ⟨first, later, hfirst, hlater, rfl⟩
      · rintro ⟨first, later, hfirst, hlater, rfl⟩
        exact ⟨first, hfirst, later, hlater, rfl⟩

end Bounded

namespace Json

variable {ε : Type}

/-- Apply a computation to the items, one after the other, and put its results in their
places. -/
def mapItems {m : Type → Type} [Monad m] (f : Json → m Json) : Json → m Json
  | .array elements => do return .array (← elements.mapM f)
  | .object members => do return .object (← members.mapM fun member => do
      return (member.1, ← f member.2))
  | value => pure value

/-- Lists of members with the same keys and related values. -/
theorem forall₂_members_iff {related : Json → Json → Prop}
    {members results : List (List Char × Json)} :
    List.Forall₂ (fun member result => member.1 = result.1 ∧ related member.2 result.2)
        members results ↔
      (object members).frame = (object results).frame ∧
        List.Forall₂ related (object members).items (object results).items := by
  simp only [frame, items, object.injEq]
  induction members generalizing results with
  | nil => cases results <;> simp
  | cons member rest ih =>
      cases results with
      | nil => simp
      | cons result later =>
          simp only [List.forall₂_cons, List.map_cons, List.cons.injEq, Prod.mk.injEq, ih]
          tauto

theorem mapItems_eq_pure_iff {f : Json → Bounded ε Json} {value result : Json} :
    value.mapItems f = pure result ↔
      ItemsRelated (fun item other => f item = pure other) value result := by
  rw [itemsRelated_iff]
  cases value with
  | array elements =>
      simp only [mapItems, Bounded.bind_eq_pure_iff, Bounded.mapM_eq_pure_iff, Bounded.pure_inj]
      constructor
      · rintro ⟨results, hresults, rfl⟩
        refine ⟨?_, hresults⟩
        simp [frame, hresults.length_eq]
      · rintro ⟨hframe, hresults⟩
        cases result with
        | array results => exact ⟨results, hresults, rfl⟩
        | null | bool | number | string | object => simp [frame] at hframe
  | object members =>
      simp only [mapItems, Bounded.bind_eq_pure_iff, Bounded.mapM_eq_pure_iff, Bounded.pure_inj]
      cases result with
      | object results =>
          have hmember : ∀ member result : List Char × Json,
              (∃ other, f member.2 = pure other ∧ (member.1, other) = result) ↔
                member.1 = result.1 ∧ f member.2 = pure result.2 := by
            intro member result
            constructor
            · rintro ⟨other, hother, rfl⟩
              exact ⟨rfl, hother⟩
            · rintro ⟨hkey, hother⟩
              exact ⟨result.2, hother, by rw [hkey]⟩
          rw [← forall₂_members_iff]
          simp only [hmember, object.injEq, exists_eq_right]
      | null | bool | number | string | array => simp [frame]
  | null | bool | number | string =>
      simp only [mapItems, Bounded.pure_inj]
      cases result <;> simp [frame, items]

end Json

end FireboltTransport.Semantics
