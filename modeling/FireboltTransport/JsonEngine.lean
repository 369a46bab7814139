/-
# Dereferencing schemas

`JsonEngine` validates the parameters of requests against the schemas of an OpenRPC
document.  A validator sees one schema at a time, so `process_schema` first puts what
a `$ref` refers to in the place of the object that holds it: `resolve_reference`
looks the path up in the document, and the items of what it finds are processed in
turn.  What it finds is not looked at itself, so when that is an object with a `$ref`
again, this `$ref` stays where it is.

A call under a bound on the depth of its recursion is not over when the bound is
reached.  A call that returns under one bound returns the same under a larger one.
The texts of a document are those its parser has read, without escapes.
-/

import FireboltTransport.Common
import FireboltTransport.Semantics.JsonItems
import FireboltTransport.Semantics.Reach

namespace FireboltTransport.JsonEngine

open Semantics Relation

/-! ## The functions -/

/-- The exceptions of the functions. -/
inductive Thrown
  | invalidArgument (what : Text)
  /-- A value that is not a string is converted to one. -/
  | typeError
  deriving DecidableEq

def refKey : Text := "$ref".toList

/-- What `std::getline` reads up to each delimiter, and what is left, unless it is empty. -/
def pathTokens (path : Text) : List Text :=
  let pieces := path.splitOn '/'
  if pieces.getLast? = some [] then pieces.dropLast else pieces

example : pathTokens "a//b/".toList = ["a".toList, [], "b".toList] := by decide

/-- `JsonEngine::resolve_reference`. -/
def resolveReference (fullSchema : Json) (ref : Text) : Except Thrown Json :=
  if ref.take 2 ≠ "#/".toList then
    .error (.invalidArgument "Only internal references supported".toList)
  else
    let path := ref.drop 2
    (pathTokens path).foldlM (fun current token =>
      match current.member? token with
      | some value => .ok value
      | none => .error (.invalidArgument ("Invalid reference path: ".toList ++ ref))) fullSchema

/-- `JsonEngine::process_schema`, with a bound on the depth of its calls. -/
def processSchema : ℕ → Json → Json → Bounded Thrown Json
  | 0, _, _ => .unfinished
  | depth + 1, schema, fullSchema =>
      match schema with
      | .object members =>
          match members.lookup refKey with
          | some (.string ref) => do
              -- A value without items is its own only item, if any, and stays as it is.
              let schema ← ofExcept (resolveReference fullSchema ref)
              schema.mapItems fun value => processSchema depth value fullSchema
          | some _ => throw .typeError
          | none => schema.mapItems fun value => processSchema depth value fullSchema
      | .array _ => schema.mapItems fun value => processSchema depth value fullSchema
      | _ => pure schema

/-- The call is over under some bound, and returns. -/
def Returns (fullSchema schema result : Json) : Prop :=
  ∃ depth, processSchema depth schema fullSchema = pure result

/-! ## References -/

/-- `schema.contains("$ref")`. -/
def isReference (schema : Json) : Bool := (schema.member? refKey).isSome

/-- What the schema refers to. -/
def target? (fullSchema schema : Json) : Option Json :=
  match schema.member? refKey with
  | some (.string ref) => (resolveReference fullSchema ref).toOption
  | _ => none

/-- What is met in one step: what a reference refers to, and the items of other values. -/
def next (fullSchema schema : Json) : List Json :=
  if isReference schema then (target? fullSchema schema).toList else schema.items

abbrev Meets (fullSchema : Json) : Json → Json → Prop :=
  ReflTransGen fun schema value => value ∈ next fullSchema schema

/-- The references met in the schema can be followed to an end. -/
structure WellReferenced (fullSchema schema : Json) : Prop where
  /-- A `$ref` is a text that resolves inside the document. -/
  resolves : ∀ value, Meets fullSchema schema value → isReference value = true →
    ∃ target, target? fullSchema value = some target
  /-- No reference is met again from what it refers to. -/
  acyclic : ∀ value, Meets fullSchema schema value → isReference value = true →
    ¬ TransGen (fun first second => second ∈ next fullSchema first) value value

/-- The value with what each reference refers to in its place, and so on. -/
inductive Dereferenced (fullSchema : Json) : Json → Json → Prop
  | items {schema result : Json} (hplain : isReference schema = false)
      (hframe : schema.frame = result.frame)
      (hitems : ∀ item other, (item, other) ∈ schema.items.zip result.items →
        Dereferenced fullSchema item other) :
      Dereferenced fullSchema schema result
  | reference {schema target result : Json} (htarget : target? fullSchema schema = some target)
      (hresult : Dereferenced fullSchema target result) :
      Dereferenced fullSchema schema result

/-- A call for the schema returns the result, with each reference replaced and no `$ref` at any
depth. -/
structure DereferencesTo (fullSchema schema result : Json) : Prop where
  returns : Returns fullSchema schema result
  lacks : result.Lacks refKey
  dereferenced : Dereferenced fullSchema schema result

/-- The schema is dereferenced to the end. -/
structure Complete (fullSchema schema : Json) : Prop where
  exists_result : ∃ result, DereferencesTo fullSchema schema result
  /-- A reference is processed to what its target is processed to. -/
  replaces : ∀ value target, Meets fullSchema schema value →
    target? fullSchema value = some target →
    ∃ processed, Returns fullSchema target processed ∧ Returns fullSchema value processed

/-- No reference met in the schema refers to a reference. -/
def Direct (fullSchema schema : Json) : Prop :=
  ∀ value target, Meets fullSchema schema value → target? fullSchema value = some target →
    isReference target = false

/-! ## What a call comes to -/

/-- The value whose items a call walks. -/
def walked? (fullSchema schema : Json) : Option Json :=
  if isReference schema then target? fullSchema schema else some schema

section Calls

variable {fullSchema schema target result : Json} {depth : ℕ}

theorem isReference_of_target? (htarget : target? fullSchema schema = some target) :
    isReference schema = true := by
  unfold target? at htarget
  unfold isReference
  split at htarget
  · next ref hmember => rw [hmember]; rfl
  · cases htarget

theorem walked?_of_plain (hplain : isReference schema = false) :
    walked? fullSchema schema = some schema := by
  rw [walked?, hplain]
  rfl

theorem walked?_of_target? (htarget : target? fullSchema schema = some target) :
    walked? fullSchema schema = some target := by
  rw [walked?, isReference_of_target? htarget]
  exact htarget

/-- A call returns when what it walks is there and the calls for the items return. -/
theorem processSchema_succ_eq_pure_iff :
    processSchema (depth + 1) schema fullSchema = pure result ↔
      ∃ source, walked? fullSchema schema = some source ∧
        Json.ItemsRelated (fun item other => processSchema depth item fullSchema = pure other)
          source result := by
  simp only [← Json.mapItems_eq_pure_iff]
  cases schema with
  | object members =>
      simp only [processSchema, walked?, isReference, target?, Json.member?]
      rcases Option.eq_none_or_eq_some (members.lookup refKey) with hnone | ⟨value, hvalue⟩
      · simp [hnone]
      · simp only [hvalue, Option.isSome_some, if_true]
        cases value with
        | string ref =>
            cases hresolved : resolveReference fullSchema ref with
            | ok target =>
                simp [hresolved, ofExcept, Except.toOption]
            | error thrown =>
                simp [hresolved, ofExcept, Bounded.throw_ne_pure, Except.toOption]
        | null | bool | number | array | object => simp [Bounded.throw_ne_pure]
  | array elements => simp [processSchema, walked?, isReference, Json.member?]
  | null | bool | number | string =>
      simp [processSchema, walked?, isReference, Json.member?, Json.mapItems]

theorem processSchema_mono {small large : ℕ} (hbound : small ≤ large)
    (hreturns : processSchema small schema fullSchema = pure result) :
    processSchema large schema fullSchema = pure result := by
  induction small generalizing large schema result with
  | zero => exact absurd hreturns Bounded.unfinished_ne_pure
  | succ small ih =>
      obtain ⟨large, rfl⟩ := Nat.exists_eq_add_of_lt hbound
      obtain ⟨source, hsource, hitems⟩ := processSchema_succ_eq_pure_iff.mp hreturns
      apply processSchema_succ_eq_pure_iff.mpr
      refine ⟨source, hsource, hitems.imp ?_⟩
      intro item other hitem
      exact ih (by omega) hitem

/-- The same over all bounds: one bound is large enough for all items. -/
theorem returns_iff :
    Returns fullSchema schema result ↔
      ∃ source, walked? fullSchema schema = some source ∧
        Json.ItemsRelated (Returns fullSchema) source result := by
  constructor
  · intro hreturns
    obtain ⟨depth, hdepth⟩ := hreturns
    cases depth with
    | zero => exact absurd hdepth Bounded.unfinished_ne_pure
    | succ depth =>
        obtain ⟨source, hsource, hitems⟩ := processSchema_succ_eq_pure_iff.mp hdepth
        exact ⟨source, hsource, hitems.imp fun _ _ hitem => ⟨depth, hitem⟩⟩
  · intro hwalked
    obtain ⟨source, hsource, hitems⟩ := hwalked
    obtain ⟨depth, hdepth⟩ := Json.ItemsRelated.exists_bound
      (fun depth item other => processSchema depth item fullSchema = pure other)
      (fun _ _ _ _ hbound hitem => processSchema_mono hbound hitem) hitems
    exact ⟨depth + 1, processSchema_succ_eq_pure_iff.mpr ⟨source, hsource, hdepth⟩⟩

theorem returns_iff_of_plain (hplain : isReference schema = false) :
    Returns fullSchema schema result ↔ Json.ItemsRelated (Returns fullSchema) schema result := by
  rw [returns_iff, walked?_of_plain hplain]
  simp

/-- The items of the target are processed, not the target. -/
theorem returns_iff_of_target? (htarget : target? fullSchema schema = some target) :
    Returns fullSchema schema result ↔ Json.ItemsRelated (Returns fullSchema) target result := by
  rw [returns_iff, walked?_of_target? htarget]
  simp

/-- A reference to something else than a reference is processed to what that is processed to. -/
theorem returns_iff_returns_target (htarget : target? fullSchema schema = some target)
    (hplain : isReference target = false) :
    Returns fullSchema schema result ↔ Returns fullSchema target result := by
  rw [returns_iff_of_target? htarget, returns_iff_of_plain hplain]

end Calls

/-! ## What is met -/

section Meets

variable {fullSchema schema value target item : Json}

theorem target_mem_next (htarget : target? fullSchema schema = some target) :
    target ∈ next fullSchema schema := by
  rw [next, isReference_of_target? htarget, htarget]
  simp

theorem mem_next_of_mem_items (hplain : isReference schema = false) (hitem : item ∈ schema.items) :
    item ∈ next fullSchema schema := by
  rw [next, hplain]
  exact hitem

theorem mem_next_iff :
    value ∈ next fullSchema schema ↔
      (isReference schema = false ∧ value ∈ schema.items) ∨
        target? fullSchema schema = some value := by
  constructor
  · intro hnext
    unfold next at hnext
    split_ifs at hnext with hreference
    · exact .inr (by simpa using hnext)
    · exact .inl ⟨by simpa using hreference, hnext⟩
  · intro hstep
    rcases hstep with ⟨hplain, hitem⟩ | htarget
    · exact mem_next_of_mem_items hplain hitem
    · exact target_mem_next htarget

/-- What a path resolves to is a part of the document. -/
theorem part_of_resolveReference {ref : Text}
    (hresolved : resolveReference fullSchema ref = .ok target) :
    Json.Part fullSchema target := by
  have hwalk : ∀ (tokens : List Text) (current : Json), Json.Part fullSchema current →
      tokens.foldlM (fun current token =>
        match current.member? token with
        | some value => .ok value
        | none => .error (.invalidArgument ("Invalid reference path: ".toList ++ ref))) current =
          (.ok target : Except Thrown Json) →
      Json.Part fullSchema target := by
    intro tokens
    induction tokens with
    | nil =>
        intro current hpart hend
        cases hend
        exact hpart
    | cons token rest ih =>
        intro current hpart hend
        rw [List.foldlM_cons] at hend
        cases hmember : current.member? token with
        | none =>
            rw [hmember] at hend
            cases hend
        | some value =>
            rw [hmember] at hend
            exact ih value (hpart.tail (Json.mem_items_of_member? hmember)) hend
  unfold resolveReference at hresolved
  split_ifs at hresolved
  exact hwalk _ _ .refl hresolved

theorem part_of_target? (htarget : target? fullSchema schema = some target) :
    Json.Part fullSchema target := by
  unfold target? at htarget
  split at htarget
  · next ref _ =>
      cases hresolved : resolveReference fullSchema ref with
      | ok value =>
          rw [hresolved] at htarget
          cases htarget
          exact part_of_resolveReference hresolved
      | error thrown =>
          rw [hresolved] at htarget
          cases htarget
  · cases htarget

/-- Everything met is a part of the schema or of the document. -/
theorem finite_meets (fullSchema schema : Json) :
    {value | Meets fullSchema schema value}.Finite := by
  apply ((Json.finite_parts schema).union (Json.finite_parts fullSchema)).subset
  intro value hmeets
  induction hmeets with
  | refl => exact .inl .refl
  | tail _ hstep ih =>
      rcases mem_next_iff.mp hstep with ⟨_, hitem⟩ | htarget
      · exact ih.imp (fun hpart => hpart.tail hitem) fun hpart => hpart.tail hitem
      · exact .inr (part_of_target? htarget)

/-- Nothing at all is met again: between two references the values get smaller. -/
theorem WellReferenced.not_cycle (hreferences : WellReferenced fullSchema schema)
    (hmeets : Meets fullSchema schema value) :
    ¬ TransGen (fun first second => second ∈ next fullSchema first) value value := by
  intro hcycle
  have hstep : ∀ first second, second ∈ next fullSchema first →
      isReference first = true ∨ sizeOf second < sizeOf first := by
    intro first second hnext
    rcases mem_next_iff.mp hnext with ⟨_, hitem⟩ | htarget
    · exact .inr (Json.sizeOf_lt_of_mem_items hitem)
    · exact .inl (isReference_of_target? htarget)
  obtain ⟨other, hreference, hpath, hagain⟩ := exists_marked_of_cycle hstep hcycle
  exact hreferences.acyclic other (hmeets.trans hpath) hreference hagain

end Meets

/-! ## Dereferencing to the end -/

section Complete

variable {fullSchema schema value target result : Json}

theorem isReference_eq_false_iff : isReference schema = false ↔ schema.member? refKey = none := by
  rw [isReference, Option.isSome_eq_false_iff, Option.isNone_iff_eq_none]

/-- When no reference refers to a reference, everything met is processed to the end: the
induction goes along what is met, not along the schema. -/
theorem exists_dereferencesTo (hreferences : WellReferenced fullSchema schema)
    (hdirect : Direct fullSchema schema) :
    ∀ value, Meets fullSchema schema value → ∃ result, DereferencesTo fullSchema value result := by
  apply reach_induction (motive := fun value => ∃ result, DereferencesTo fullSchema value result)
    (finite_meets fullSchema schema) fun _ hmeets => hreferences.not_cycle hmeets
  intro value hmeets ih
  cases hreference : isReference value with
  | true =>
      obtain ⟨target, htarget⟩ := hreferences.resolves value hmeets hreference
      obtain ⟨result, hresult⟩ := ih target (target_mem_next htarget)
      have hplain := hdirect value target hmeets htarget
      exact ⟨result, (returns_iff_returns_target htarget hplain).mpr hresult.returns,
        hresult.lacks, .reference htarget hresult.dereferenced⟩
  | false =>
      have hitems : ∀ item ∈ value.items, ∃ other, DereferencesTo fullSchema item other :=
        fun item hitem => ih item (mem_next_of_mem_items hreference hitem)
      obtain ⟨result, hresult⟩ := Json.exists_itemsRelated hitems
      refine ⟨result, ?_, ?_, ?_⟩
      · rw [returns_iff_of_plain hreference]
        exact hresult.imp fun _ _ hitem => hitem.returns
      · apply Json.lacks_of_items
        · rw [← hresult.member?_eq_none_iff]
          exact isReference_eq_false_iff.mp hreference
        · intro other hother
          obtain ⟨item, _, hitem⟩ := hresult.exists_of_mem_right hother
          exact hitem.lacks
      · exact .items hreference hresult.frame fun item other hpair =>
          (hresult.items hpair).dereferenced

theorem complete_of_direct (hreferences : WellReferenced fullSchema schema)
    (hdirect : Direct fullSchema schema) : Complete fullSchema schema where
  exists_result := exists_dereferencesTo hreferences hdirect schema .refl
  replaces := by
    intro value target hmeets htarget
    obtain ⟨processed, hprocessed⟩ := exists_dereferencesTo hreferences hdirect target
      (hmeets.tail (target_mem_next htarget))
    have hplain := hdirect value target hmeets htarget
    exact ⟨processed, hprocessed.returns,
      (returns_iff_returns_target htarget hplain).mpr hprocessed.returns⟩

/-- A reference that refers to a reference leaves a `$ref` where it was. -/
theorem plain_target_of_lacks (htarget : target? fullSchema schema = some target)
    (hreturns : Returns fullSchema schema result) (hlacks : result.Lacks refKey) :
    isReference target = false := by
  have hitems := (returns_iff_of_target? htarget).mp hreturns
  rw [isReference_eq_false_iff, hitems.member?_eq_none_iff]
  exact hlacks result .refl

/-- What is met in one step is processed to a part of the result. -/
theorem exists_lacks_of_mem_next (hnext : value ∈ next fullSchema schema)
    (hreturns : Returns fullSchema schema result) (hlacks : result.Lacks refKey) :
    ∃ processed, Returns fullSchema value processed ∧ processed.Lacks refKey := by
  rcases mem_next_iff.mp hnext with ⟨hplain, hitem⟩ | htarget
  · have hitems := (returns_iff_of_plain hplain).mp hreturns
    obtain ⟨processed, hprocessed, hvalue⟩ := hitems.exists_of_mem_left hitem
    exact ⟨processed, hvalue, hlacks.of_mem_items hprocessed⟩
  · have hplain := plain_target_of_lacks htarget hreturns hlacks
    exact ⟨result, (returns_iff_returns_target htarget hplain).mp hreturns, hlacks⟩

theorem exists_lacks_of_meets (hmeets : Meets fullSchema schema value)
    (hreturns : Returns fullSchema schema result) (hlacks : result.Lacks refKey) :
    ∃ processed, Returns fullSchema value processed ∧ processed.Lacks refKey := by
  induction hmeets with
  | refl => exact ⟨result, hreturns, hlacks⟩
  | tail _ hnext ih =>
      obtain ⟨processed, hprior, hpriorLacks⟩ := ih
      exact exists_lacks_of_mem_next hnext hprior hpriorLacks

theorem direct_of_complete (hcomplete : Complete fullSchema schema) :
    Direct fullSchema schema := by
  intro value target hmeets htarget
  obtain ⟨result, hresult⟩ := hcomplete.exists_result
  obtain ⟨processed, hvalue, hvalueLacks⟩ :=
    exists_lacks_of_meets hmeets hresult.returns hresult.lacks
  exact plain_target_of_lacks htarget hvalue hvalueLacks

/-- **Dereferencing.**  When the references met in a schema resolve inside the document and
can be followed to an end, `process_schema` dereferences the schema to the end if and only if
no reference met in it refers to a reference. -/
theorem complete_iff_direct (hreferences : WellReferenced fullSchema schema) :
    Complete fullSchema schema ↔ Direct fullSchema schema :=
  ⟨direct_of_complete, complete_of_direct hreferences⟩

end Complete

/-! ## Checking documents -/

/-- A walk of bounded depth shows that the references met can be followed to an end. -/
theorem wellReferenced_of_explore {fullSchema schema : Json} (depth : ℕ)
    (hexplored : explore (next fullSchema)
      (fun value => !isReference value || (target? fullSchema value).isSome) depth schema = true) :
    WellReferenced fullSchema schema where
  resolves := by
    intro value hmeets hreference
    have hcheck := check_of_explore hexplored hmeets
    simp only [hreference, Bool.not_true, Bool.false_or] at hcheck
    exact Option.isSome_iff_exists.mp hcheck
  acyclic := fun _ hmeets _ => not_cycle_reached_of_explore hexplored hmeets

/-- It shows that none of them refers to a reference. -/
theorem direct_of_explore {fullSchema schema : Json} (depth : ℕ)
    (hexplored : explore (next fullSchema)
      (fun value => (target? fullSchema value).all fun target => !isReference target)
      depth schema = true) :
    Direct fullSchema schema := by
  intro value target hmeets htarget
  have hcheck := check_of_explore hexplored hmeets
  simpa [htarget] using hcheck

def text (content : String) : Json := .string content.toList

def reference (path : String) : Json := .object [(refKey, text path)]

/-- A parameter of a method. -/
def param (schema : Json) : Json :=
  .object [("name".toList, text "value"), ("schema".toList, schema)]

/-- A document with one method, which has one parameter. -/
def document (param : Json) (schemas : List (Text × Json)) : Json :=
  .object [("components".toList, .object [("schemas".toList, .object schemas)]),
    ("methods".toList, .array [.object [("params".toList, .array [param])]])]

theorem part_document (param : Json) (schemas : List (Text × Json)) :
    Json.Part (document param schemas) param := by
  have hparam : param ∈ (Json.array [param]).items := by simp [Json.items]
  have hparams : Json.array [param] ∈
      (Json.object [("params".toList, .array [param])]).items := by simp [Json.items]
  have hmethod : Json.object [("params".toList, .array [param])] ∈
      (Json.array [.object [("params".toList, .array [param])]]).items := by simp [Json.items]
  have hmethods : Json.array [.object [("params".toList, .array [param])]] ∈
      (document param schemas).items := by simp [document, Json.items]
  exact .head hmethods (.head hmethod (.head hparams (.single hparam)))

/-- The parameter refers to a list of names, and this to a name. -/
def listed : Json :=
  document (param (reference "#/components/schemas/Names"))
    [("Name".toList, .object [("type".toList, text "string")]),
      ("Names".toList, .object [("items".toList,
        .array [reference "#/components/schemas/Name"])])]

/-- A reference in an array of what another reference refers to is replaced. -/
theorem complete_iff_direct_listed :
    WellReferenced listed (param (reference "#/components/schemas/Names")) ∧
      Complete listed (param (reference "#/components/schemas/Names")) := by
  have hreferences : WellReferenced listed (param (reference "#/components/schemas/Names")) :=
    wellReferenced_of_explore 8 (by decide)
  have hdirect : Direct listed (param (reference "#/components/schemas/Names")) :=
    direct_of_explore 8 (by decide)
  exact ⟨hreferences, (complete_iff_direct hreferences).mpr hdirect⟩

/-- The parameter refers to another name of a schema. -/
def aliased : Json :=
  document (param (reference "#/components/schemas/Alias"))
    [("Alias".toList, reference "#/components/schemas/Name"),
      ("Name".toList, .object [("type".toList, text "string")])]

/-- Of two references in a row the second is left in the result. -/
theorem not_complete_aliased :
    Json.Part aliased (param (reference "#/components/schemas/Alias")) ∧
      WellReferenced aliased (param (reference "#/components/schemas/Alias")) ∧
      Returns aliased (param (reference "#/components/schemas/Alias"))
        (param (reference "#/components/schemas/Name")) ∧
      ¬ Complete aliased (param (reference "#/components/schemas/Alias")) := by
  refine ⟨part_document _ _, wellReferenced_of_explore 6 (by decide), ⟨3, rfl⟩, ?_⟩
  intro hcomplete
  have hmeets : Meets aliased (param (reference "#/components/schemas/Alias"))
      (reference "#/components/schemas/Alias") := .single (.tail _ (.head _))
  have hplain := direct_of_complete hcomplete (reference "#/components/schemas/Alias")
    (reference "#/components/schemas/Name") hmeets rfl
  cases hplain

end FireboltTransport.JsonEngine
