/-
# When a schema can be processed

`process_schema` calls itself for the items of a schema, and of what the `$ref` of a
schema resolves to.  It does not look at whether it is in a call for the same schema
already, and what a `$ref` resolves to may hold the `$ref` again, so a call need not
come to an end; and a path that leads nowhere makes it throw.  Neither happens exactly
when each `$ref` that calls come to resolves and none of them leads back to itself.

What paths lead to is settled by the members of objects.  A key that holds a slash is
cut in two, and there is no escape for it; an element of an array has no key.
-/

import FireboltTransport.JsonEngine

namespace FireboltTransport.JsonEngine

open Semantics Relation

/-! ## The calls of a call -/

/-- What a call for the schema calls itself for. -/
def called (fullSchema schema : Json) : List Json :=
  ((walked? fullSchema schema).map Json.items).getD []

/-- What a call for the schema comes to. -/
abbrev Calls (fullSchema : Json) : Json → Json → Prop :=
  ReflTransGen fun schema value => value ∈ called fullSchema schema

/-- The `$ref`s that a call for the schema comes to can be followed. -/
structure Followed (fullSchema schema : Json) : Prop where
  resolves : ∀ value, Calls fullSchema schema value → isReference value = true →
    ∃ target, target? fullSchema value = some target
  /-- No `$ref` is come to again from what it resolves to. -/
  acyclic : ∀ value, Calls fullSchema schema value → isReference value = true →
    ¬ TransGen (fun first second => second ∈ called fullSchema first) value value

section Calls

variable {fullSchema schema value result : Json} {depth : ℕ}

theorem mem_called_iff :
    value ∈ called fullSchema schema ↔
      ∃ source, walked? fullSchema schema = some source ∧ value ∈ source.items := by
  rw [called]
  cases walked? fullSchema schema <;> simp

/-- Everything a call comes to is a part of the schema or of the document. -/
theorem finite_calls (fullSchema schema : Json) :
    {value | Calls fullSchema schema value}.Finite := by
  apply ((Json.finite_parts schema).union (Json.finite_parts fullSchema)).subset
  intro value hcalls
  induction hcalls with
  | refl => exact .inl .refl
  | @tail caller item _ hcalled ih =>
      obtain ⟨source, hsource, hitem⟩ := mem_called_iff.mp hcalled
      cases hreference : isReference caller with
      | true =>
          rw [walked?, hreference] at hsource
          exact .inr ((part_of_target? hsource).tail hitem)
      | false =>
          rw [walked?_of_plain hreference] at hsource
          obtain rfl := Option.some.inj hsource
          exact ih.imp (fun hpart => hpart.tail hitem) fun hpart => hpart.tail hitem

/-- Nothing at all is come to again: between two `$ref`s the values get smaller. -/
theorem Followed.not_cycle (hfollowed : Followed fullSchema schema)
    (hcalls : Calls fullSchema schema value) :
    ¬ TransGen (fun first second => second ∈ called fullSchema first) value value := by
  intro hcycle
  have hstep : ∀ first second, second ∈ called fullSchema first →
      isReference first = true ∨ sizeOf second < sizeOf first := by
    intro first second hcalled
    obtain ⟨source, hsource, hitem⟩ := mem_called_iff.mp hcalled
    cases hreference : isReference first with
    | true => exact .inl rfl
    | false =>
        rw [walked?_of_plain hreference] at hsource
        obtain rfl := Option.some.inj hsource
        exact .inr (Json.sizeOf_lt_of_mem_items hitem)
  obtain ⟨other, hreference, hpath, hagain⟩ := exists_marked_of_cycle hstep hcycle
  exact hfollowed.acyclic other (hcalls.trans hpath) hreference hagain

/-- The induction goes along the calls, not along the schema. -/
theorem exists_returns_of_followed (hfollowed : Followed fullSchema schema) :
    ∀ value, Calls fullSchema schema value → ∃ result, Returns fullSchema value result := by
  apply reach_induction (motive := fun value => ∃ result, Returns fullSchema value result)
    (finite_calls fullSchema schema) fun _ hcalls => hfollowed.not_cycle hcalls
  intro value hcalls ih
  obtain ⟨source, hsource⟩ : ∃ source, walked? fullSchema value = some source := by
    cases hreference : isReference value with
    | true =>
        obtain ⟨target, htarget⟩ := hfollowed.resolves value hcalls hreference
        exact ⟨target, walked?_of_target? htarget⟩
    | false => exact ⟨value, walked?_of_plain hreference⟩
  have hitems : ∀ item ∈ source.items, ∃ other, Returns fullSchema item other :=
    fun item hitem => ih item (mem_called_iff.mpr ⟨source, hsource, hitem⟩)
  obtain ⟨result, hresult⟩ := Json.exists_itemsRelated hitems
  exact ⟨result, returns_iff.mpr ⟨source, hsource, hresult⟩⟩

/-- A call that is over under a bound has called itself under smaller ones. -/
theorem exists_returned_of_called
    (hreturned : ∃ result, processSchema depth schema fullSchema = pure result)
    (hcalled : value ∈ called fullSchema schema) :
    ∃ rest < depth, ∃ result, processSchema rest value fullSchema = pure result := by
  obtain ⟨result, hreturned⟩ := hreturned
  cases depth with
  | zero => exact absurd hreturned Bounded.unfinished_ne_pure
  | succ rest =>
      obtain ⟨source, hsource, hitems⟩ := processSchema_succ_eq_pure_iff.mp hreturned
      obtain ⟨other, hother, hitem⟩ := mem_called_iff.mp hcalled
      obtain rfl : source = other := Option.some.inj (hsource.symm.trans hother)
      obtain ⟨processed, _, hprocessed⟩ := hitems.exists_of_mem_left hitem
      exact ⟨rest, rest.lt_succ_self, processed, hprocessed⟩

theorem exists_returns_of_calls (hreturns : ∃ result, Returns fullSchema schema result)
    (hcalls : Calls fullSchema schema value) : ∃ result, Returns fullSchema value result := by
  induction hcalls with
  | refl => exact hreturns
  | tail _ hcalled ih =>
      obtain ⟨prior, depth, hdepth⟩ := ih
      obtain ⟨rest, _, result, hresult⟩ := exists_returned_of_called ⟨prior, hdepth⟩ hcalled
      exact ⟨result, rest, hresult⟩

theorem followed_of_exists_returns (hreturns : ∃ result, Returns fullSchema schema result) :
    Followed fullSchema schema where
  resolves := by
    intro value hcalls hreference
    obtain ⟨result, hresult⟩ := exists_returns_of_calls hreturns hcalls
    obtain ⟨source, hsource, _⟩ := returns_iff.mp hresult
    rw [walked?, hreference] at hsource
    exact ⟨source, hsource⟩
  acyclic := by
    intro value hcalls _
    obtain ⟨result, depth, hdepth⟩ := exists_returns_of_calls hreturns hcalls
    exact not_cycle_of_descends
      (fun depth value => ∃ result, processSchema depth value fullSchema = pure result)
      (fun _ _ _ => exists_returned_of_called) ⟨result, hdepth⟩

end Calls

/-- **When a schema can be processed.**  `process_schema` returns if and only if each `$ref`
that its calls come to is a text that resolves inside the document and is not come to again
from what it resolves to. -/
theorem exists_returns_iff_followed (fullSchema schema : Json) :
    (∃ result, Returns fullSchema schema result) ↔ Followed fullSchema schema :=
  ⟨followed_of_exists_returns, fun hfollowed => exists_returns_of_followed hfollowed schema .refl⟩

/-- An array that refers to itself is processed without end: each call comes to the `$ref`
again. -/
example : ¬ ∃ result, Returns (.object [("a".toList, .array [reference "#/a"])])
    (reference "#/a") result := by
  intro hreturns
  have hagain : reference "#/a" ∈
      called (.object [("a".toList, .array [reference "#/a"])]) (reference "#/a") := .head _
  exact (followed_of_exists_returns hreturns).acyclic _ .refl rfl (.single hagain)

/-! ## What a path leads to -/

/-- What the keys lead to, member by member. -/
def follow (value : Json) (keys : List Text) : Option Json :=
  keys.foldlM (fun current key => current.member? key) value

/-- The text of a reference by the keys. -/
def referenceBy (keys : List Text) : Text := "#/".toList ++ ['/'].intercalate keys

section Paths

variable {fullSchema value : Json} {keys : List Text} {token path ref : Text}

/-- A walk that throws where another has nothing returns what the other does. -/
theorem foldlM_eq_ok_iff {σ τ ε : Type} {step : σ → τ → Except ε σ} {next : σ → τ → Option σ}
    (hstep : ∀ current token after,
      step current token = .ok after ↔ next current token = some after) {tokens : List τ}
    {current last : σ} :
    tokens.foldlM step current = .ok last ↔ tokens.foldlM next current = some last := by
  induction tokens generalizing current with
  | nil =>
      rw [List.foldlM_nil, List.foldlM_nil]
      exact (Except.ok.injEq current last).to_iff.trans (Option.some.injEq current last).to_iff.symm
  | cons token rest ih =>
      rw [List.foldlM_cons, List.foldlM_cons]
      cases hnext : next current token with
      | none =>
          cases hthrown : step current token with
          | ok after => cases hnext.symm.trans ((hstep current token after).mp hthrown)
          | error thrown =>
              constructor
              · intro hreturned
                cases hreturned
              · intro hfound
                cases hfound
      | some after =>
          rw [(hstep current token after).mpr hnext]
          exact ih

theorem not_mem_of_mem_splitOn (htoken : token ∈ path.splitOn '/') : '/' ∉ token := by
  induction path generalizing token with
  | nil =>
      rw [List.splitOn_nil, List.mem_singleton] at htoken
      simp [htoken]
  | cons char rest ih =>
      rw [List.splitOn_cons_eq_if_modifyHead] at htoken
      split_ifs at htoken with hslash
      · rcases List.mem_cons.mp htoken with rfl | hrest
        · simp
        · exact ih hrest
      · obtain ⟨first, later, hpieces⟩ :=
          List.exists_cons_of_ne_nil (List.splitOn_ne_nil '/' rest)
        rw [hpieces, List.modifyHead_cons, List.mem_cons] at htoken
        rcases htoken with rfl | hlater
        · have hfirst : '/' ∉ first := ih (hpieces ▸ List.mem_cons_self)
          have hchar : '/' ≠ char := fun hequal => hslash (by rw [hequal, beq_self_eq_true])
          exact List.not_mem_cons_of_ne_of_not_mem hchar hfirst
        · exact ih (hpieces ▸ List.mem_cons_of_mem first hlater)

/-- No key that a path is cut into holds a slash. -/
theorem not_mem_of_mem_pathTokens (htoken : token ∈ pathTokens path) : '/' ∉ token := by
  rw [pathTokens] at htoken
  split_ifs at htoken
  · exact not_mem_of_mem_splitOn (List.dropLast_subset _ htoken)
  · exact not_mem_of_mem_splitOn htoken

/-- The keys of a path without a slash at its end are read back. -/
theorem pathTokens_intercalate (hslash : ∀ key ∈ keys, '/' ∉ key) (hkeys : keys ≠ [])
    (hlast : keys.getLast? ≠ some []) : pathTokens (['/'].intercalate keys) = keys := by
  simp only [pathTokens, List.splitOn_intercalate '/' hslash hkeys, if_neg hlast]

/-- With a slash at the end of the path, all keys are. -/
theorem pathTokens_intercalate_append (hslash : ∀ key ∈ keys, '/' ∉ key) :
    pathTokens (['/'].intercalate (keys ++ [[]])) = keys := by
  have hpieces : (['/'].intercalate (keys ++ [[]])).splitOn '/' = keys ++ [[]] := by
    apply List.splitOn_intercalate
    · simpa [or_imp, forall_and] using hslash
    · simp
  simp only [pathTokens, hpieces, List.getLast?_concat, if_true, List.dropLast_concat]

theorem resolveReference_eq_ok_iff :
    resolveReference fullSchema ref = .ok value ↔
      ref.take 2 = "#/".toList ∧ follow fullSchema (pathTokens (ref.drop 2)) = some value := by
  rw [resolveReference]
  split_ifs with hprefix
  · refine ⟨fun hthrown => ?_, fun hfollow => absurd hfollow.1 hprefix⟩
    cases hthrown
  · rw [not_not] at hprefix
    rw [and_iff_right hprefix]
    apply foldlM_eq_ok_iff
    intro current token next
    cases current.member? token <;> simp

/-- A reference by keys without slashes, the last of them not empty, resolves to what the keys
lead to. -/
theorem resolveReference_referenceBy (hslash : ∀ key ∈ keys, '/' ∉ key) (hkeys : keys ≠ [])
    (hlast : keys.getLast? ≠ some []) :
    resolveReference fullSchema (referenceBy keys) = .ok value ↔
      follow fullSchema keys = some value := by
  have hpath : (referenceBy keys).drop 2 = ['/'].intercalate keys := rfl
  rw [resolveReference_eq_ok_iff, hpath, pathTokens_intercalate hslash hkeys hlast]
  exact and_iff_right rfl

end Paths

/-- **What can be referred to.**  Some reference resolves to a value if and only if members of
objects lead to it from the document and none of their keys holds a slash. -/
theorem exists_resolveReference_iff (fullSchema value : Json) :
    (∃ ref, resolveReference fullSchema ref = .ok value) ↔
      ∃ keys : List Text, (∀ key ∈ keys, '/' ∉ key) ∧ follow fullSchema keys = some value := by
  constructor
  · intro hresolved
    obtain ⟨ref, hresolved⟩ := hresolved
    obtain ⟨_, hfollow⟩ := resolveReference_eq_ok_iff.mp hresolved
    exact ⟨_, fun _ => not_mem_of_mem_pathTokens, hfollow⟩
  · intro hfollowed
    obtain ⟨keys, hslash, hfollow⟩ := hfollowed
    refine ⟨referenceBy (keys ++ [[]]), resolveReference_eq_ok_iff.mpr ⟨rfl, ?_⟩⟩
    have hpath : (referenceBy (keys ++ [[]])).drop 2 = ['/'].intercalate (keys ++ [[]]) := rfl
    rw [hpath, pathTokens_intercalate_append hslash]
    exact hfollow

end FireboltTransport.JsonEngine
