/-
# Finite maps with erase-while-iterating

Finite maps are Mathlib's association lists, whose keys are duplicate-free by
construction.  What the developments add are the rules for what holds of every
entry, and the loops that walk a map and erase entries as they go: those a
predicate selects, or every one.

An association list is walked in the order of its entries, `std::map` in that of its
keys.  Nothing depends on this: a loop treats each entry by itself, and no proof asks
in which order it comes to them.
-/

import Mathlib.Data.List.AList

namespace FireboltTransport.Semantics

universe u v w

/-- A finite map from `κ` to `ν`. -/
abbrev StdMap (κ : Type u) (ν : Type v) := AList fun _ : κ => ν

namespace StdMap

variable {κ : Type u} {ν : Type v} [DecidableEq κ]

theorem lookup_insert_of_eq_or_ne (key other : κ) (value : ν) (map : StdMap κ ν) :
    (map.insert key value).lookup other = if other = key then some value else map.lookup other := by
  split_ifs with hkey
  · subst hkey
    exact AList.lookup_insert map
  · exact AList.lookup_insert_ne hkey

theorem lookup_erase_of_eq_or_ne (key other : κ) (map : StdMap κ ν) :
    (map.erase key).lookup other = if other = key then none else map.lookup other := by
  split_ifs with hkey
  · subst hkey
    exact AList.lookup_erase _ map
  · exact AList.lookup_erase_ne hkey

/-- What holds of every entry holds after an insertion when it holds of the new one. -/
theorem forall_lookup_insert {property : κ → ν → Prop} {key : κ} {value : ν} {map : StdMap κ ν}
    (hnew : property key value)
    (hall : ∀ other found, map.lookup other = some found → property other found) :
    ∀ other found, (map.insert key value).lookup other = some found → property other found := by
  intro other found hfound
  rw [lookup_insert_of_eq_or_ne] at hfound
  split_ifs at hfound with hother
  · obtain rfl := Option.some.inj hfound
    rw [hother]
    exact hnew
  · exact hall other found hfound

/-- What holds of every entry holds after a removal. -/
theorem forall_lookup_erase {property : κ → ν → Prop} {map : StdMap κ ν} (key : κ)
    (hall : ∀ other found, map.lookup other = some found → property other found) :
    ∀ other found, (map.erase key).lookup other = some found → property other found := by
  intro other found hfound
  rw [lookup_erase_of_eq_or_ne] at hfound
  split_ifs at hfound
  exact hall other found hfound

theorem mem_entries_iff_lookup {key : κ} {value : ν} {map : StdMap κ ν} :
    ⟨key, value⟩ ∈ map.entries ↔ map.lookup key = some value :=
  AList.mem_lookup_iff.symm

/-- A map in which nothing is found is empty. -/
theorem eq_empty_of_lookup {map : StdMap κ ν} (hnone : ∀ key, map.lookup key = none) :
    map = ∅ := by
  apply AList.ext
  apply List.eq_nil_iff_forall_not_mem.mpr
  rintro ⟨key, value⟩ hentry
  rw [mem_entries_iff_lookup, hnone] at hentry
  cases hentry

/-- Erasing a key that was new takes its insertion back. -/
theorem erase_insert_of_lookup_none {key : κ} (value : ν) {map : StdMap κ ν}
    (hnew : map.lookup key = none) : (map.insert key value).erase key = map := by
  have hnot : key ∉ map := AList.lookup_eq_none.mp hnew
  apply AList.ext
  show List.kerase key (map.insert key value).entries = map.entries
  rw [AList.entries_insert_of_notMem hnot]
  exact List.kerase_cons_eq rfl

/-- Erase every entry that `keep` rejects. -/
def filter (keep : κ → ν → Bool) (map : StdMap κ ν) : StdMap κ ν where
  entries := map.entries.filter fun entry => keep entry.1 entry.2
  nodupKeys := map.nodupKeys.sublist List.filter_sublist

theorem lookup_filter (keep : κ → ν → Bool) (map : StdMap κ ν) (key : κ) :
    (map.filter keep).lookup key = (map.lookup key).filter (keep key) := by
  ext value
  rw [← mem_entries_iff_lookup, Option.filter_eq_some_iff,
    ← mem_entries_iff_lookup]
  simp [filter]

theorem lookup_filter_eq_some {keep : κ → ν → Bool} {map : StdMap κ ν} {key : κ} {value : ν} :
    (map.filter keep).lookup key = some value ↔
      map.lookup key = some value ∧ keep key value = true := by
  rw [lookup_filter, Option.filter_eq_some_iff]

/-- The values a predicate selects, in the order the map is walked. -/
def select (chosen : κ → ν → Bool) (map : StdMap κ ν) : List ν :=
  (map.entries.filter fun entry => chosen entry.1 entry.2).map fun entry => entry.2

theorem mem_select {chosen : κ → ν → Bool} {map : StdMap κ ν} {value : ν} :
    value ∈ map.select chosen ↔ ∃ key, map.lookup key = some value ∧ chosen key value = true := by
  simp only [select, List.mem_map, List.mem_filter]
  constructor
  · rintro ⟨⟨key, found⟩, ⟨hentry, hchosen⟩, rfl⟩
    exact ⟨key, mem_entries_iff_lookup.mp hentry, hchosen⟩
  · rintro ⟨key, hlookup, hchosen⟩
    exact ⟨⟨key, value⟩, ⟨mem_entries_iff_lookup.mpr hlookup, hchosen⟩, rfl⟩

/-! ## Emptying a map -/

section Drain

variable {β : Type w} (visit : κ → ν → List β)

/-- Visit the entries of the keys ahead and erase each of them after its visit: what the visits
gave, and what is left of the map. -/
def drain : List κ → StdMap κ ν → List β × StdMap κ ν
  | [], map => ([], map)
  | key :: ahead, map =>
      match map.lookup key with
      | none => drain ahead map
      | some value =>
          let rest := drain ahead (map.erase key)
          (visit key value ++ rest.1, rest.2)

theorem lookup_drain (ahead : List κ) (map : StdMap κ ν) (key : κ) :
    (drain visit ahead map).2.lookup key = if key ∈ ahead then none else map.lookup key := by
  induction ahead generalizing map with
  | nil => simp [drain]
  | cons first ahead ih =>
      unfold drain
      cases hfirst : map.lookup first with
      | none =>
          simp only [ih]
          by_cases hkey : key = first
          · subst hkey
            simp [hfirst]
          · simp [hkey]
      | some value =>
          simp only [ih, lookup_erase_of_eq_or_ne]
          by_cases hkey : key = first <;> simp [hkey]

/-- Draining all keys leaves nothing. -/
theorem drain_keys_snd (map : StdMap κ ν) : (drain visit map.keys map).2 = ∅ := by
  apply eq_empty_of_lookup
  intro key
  rw [lookup_drain]
  split_ifs with hkey
  · rfl
  · exact AList.lookup_eq_none.mpr hkey

/-- Every entry is visited once, in the order of the walk. -/
theorem drain_fst {ahead : List κ} (hnodup : ahead.Nodup) (map : StdMap κ ν) :
    (drain visit ahead map).1 =
      ahead.flatMap fun key => ((map.lookup key).map (visit key)).getD [] := by
  induction ahead generalizing map with
  | nil => rfl
  | cons first ahead ih =>
      obtain ⟨hfirst, hahead⟩ := List.nodup_cons.mp hnodup
      unfold drain
      rw [List.flatMap_cons]
      cases hlookup : map.lookup first with
      | none => exact ih hahead map
      | some value =>
          simp only [ih hahead, Option.map_some, Option.getD_some]
          congr 1
          apply List.flatMap_congr
          intro key hkey
          have hother : key ≠ first := fun hsame => hfirst (hsame ▸ hkey)
          rw [AList.lookup_erase_ne hother]

theorem mem_drain_keys_fst {map : StdMap κ ν} {result : β} :
    result ∈ (drain visit map.keys map).1 ↔
      ∃ key value, map.lookup key = some value ∧ result ∈ visit key value := by
  rw [drain_fst visit map.keys_nodup, List.mem_flatMap]
  constructor
  · intro hresult
    obtain ⟨key, _, hvisit⟩ := hresult
    cases hlookup : map.lookup key with
    | none => simp [hlookup] at hvisit
    | some value => exact ⟨key, value, hlookup, by simpa [hlookup] using hvisit⟩
  · intro hresult
    obtain ⟨key, value, hlookup, hvisit⟩ := hresult
    refine ⟨key, ?_, by simpa [hlookup] using hvisit⟩
    rw [← AList.mem_keys, ← AList.lookup_isSome, hlookup]
    rfl

/-- Visits that give nothing twice, and nothing two entries give, make a list without
duplicates. -/
theorem nodup_drain_keys_fst {map : StdMap κ ν}
    (hvisit : ∀ key value, map.lookup key = some value → (visit key value).Nodup)
    (hdisjoint : ∀ first second value other result, map.lookup first = some value →
      map.lookup second = some other → result ∈ visit first value →
      result ∈ visit second other → first = second) :
    (drain visit map.keys map).1.Nodup := by
  rw [drain_fst visit map.keys_nodup, List.nodup_flatMap]
  constructor
  · intro key _
    cases hlookup : map.lookup key with
    | none => simp
    | some value => simpa using hvisit key value hlookup
  · refine map.keys_nodup.imp ?_
    intro first second hdifferent result hfirst hsecond
    cases hlookup : map.lookup first with
    | none => simp [hlookup] at hfirst
    | some value =>
        cases hother : map.lookup second with
        | none => simp [hother] at hsecond
        | some other =>
            exact hdifferent (hdisjoint first second value other result hlookup hother
              (by simpa [hlookup] using hfirst) (by simpa [hother] using hsecond))

end Drain

end StdMap

end FireboltTransport.Semantics
