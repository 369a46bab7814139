/-
# The asynchronous calls that are recorded

`Async::_methodMap` holds, for each method, the calls in flight under their
`usercb` pointers, so a pair of the two names one call.  A second call under the
same pair is not recorded.

The three critical sections of `_adminLock` are functions of the map.  What they
do is said by the entry of each pair, and no method is left with an empty map.
-/

import FireboltTransport.Common
import FireboltTransport.Semantics.StdMap

namespace FireboltTransport.Async

open Semantics

universe u

/-- `Async::CallbackData`; the dispatch function is that of the job. -/
structure CallbackData (ι : Type u) where
  /-- `job`, when it is valid. -/
  job : Option ι
  deriving DecidableEq

/-- `Async::CallbackMap`. -/
abbrev CallbackMap (ι : Type u) := StdMap UInt64 (CallbackData ι)

/-- `Async::MethodMap`. -/
abbrev MethodMap (ι : Type u) := StdMap Text (CallbackMap ι)

/-- The method and the `usercb` pointer of a call. -/
@[ext]
structure Call where
  method : Text
  usercb : UInt64
  deriving DecidableEq

variable {ι : Type u}

/-- The critical section of `Async::Invoke`. -/
def record (methodMap : MethodMap ι) (call : Call) (callbackData : CallbackData ι) :
    MethodMap ι :=
  match methodMap.lookup call.method with
  | some callbackMap =>
      match callbackMap.lookup call.usercb with
      | none => methodMap.insert call.method (callbackMap.insert call.usercb callbackData)
      | some _ => methodMap
  | none => methodMap.insert call.method ((∅ : CallbackMap ι).insert call.usercb callbackData)

/-- `Async::RemoveEntry`: the job it revokes, and the map after it. -/
def removeEntry (methodMap : MethodMap ι) (call : Call) : Option ι × MethodMap ι :=
  match methodMap.lookup call.method with
  | none => (none, methodMap)
  | some callbackMap =>
      match callbackMap.lookup call.usercb with
      | none => (none, methodMap)
      | some callbackData =>
          let rest := callbackMap.erase call.usercb
          (callbackData.job,
            if rest.keys.length = 0 then methodMap.erase call.method
            else methodMap.insert call.method rest)

/-- `Async::IsActive`. -/
def isActive (methodMap : MethodMap ι) (call : Call) : Bool :=
  match methodMap.lookup call.method with
  | none => false
  | some callbackMap => (callbackMap.lookup call.usercb).isSome

/-! ## The entry of a pair -/

/-- The entry of a pair. -/
def entry (methodMap : MethodMap ι) (call : Call) : Option (CallbackData ι) :=
  (methodMap.lookup call.method).bind fun callbackMap => callbackMap.lookup call.usercb

/-- No method has an empty callback map. -/
def NoneEmpty (methodMap : MethodMap ι) : Prop :=
  ∀ method callbackMap, methodMap.lookup method = some callbackMap → callbackMap ≠ ∅

section Operations

variable {methodMap : MethodMap ι} {call : Call} {callbackData : CallbackData ι}

@[simp]
theorem entry_empty (call : Call) : entry (∅ : MethodMap ι) call = none := rfl

@[simp]
theorem isActive_eq (methodMap : MethodMap ι) (call : Call) :
    isActive methodMap call = (entry methodMap call).isSome := by
  unfold isActive entry
  cases methodMap.lookup call.method <;> rfl

theorem entry_insert (methodMap : MethodMap ι) (method : Text) (callbackMap : CallbackMap ι)
    (call : Call) : entry (methodMap.insert method callbackMap) call =
      if call.method = method then callbackMap.lookup call.usercb else entry methodMap call := by
  unfold entry
  rw [StdMap.lookup_insert_of_eq_or_ne]
  split <;> rfl

theorem entry_erase (methodMap : MethodMap ι) (method : Text) (call : Call) :
    entry (methodMap.erase method) call =
      if call.method = method then none else entry methodMap call := by
  unfold entry
  rw [StdMap.lookup_erase_of_eq_or_ne]
  split <;> rfl

theorem entry_of_lookup {method : Text} {found : Option (CallbackMap ι)}
    (hmethod : methodMap.lookup method = found) (hcall : call.method = method) :
    entry methodMap call = found.bind fun callbackMap => callbackMap.lookup call.usercb := by
  subst hcall
  rw [entry, hmethod]

/-- A call is recorded under its pair unless the pair has an entry. -/
theorem entry_record (methodMap : MethodMap ι) (call other : Call)
    (callbackData : CallbackData ι) : entry (record methodMap call callbackData) other =
      if other = call ∧ entry methodMap call = none then some callbackData
      else entry methodMap other := by
  cases hmethod : methodMap.lookup call.method with
  | none =>
      have hnone : entry methodMap call = none := entry_of_lookup hmethod rfl
      simp only [record, hmethod, entry_insert, StdMap.lookup_insert_of_eq_or_ne,
        AList.lookup_empty, hnone, and_true, Call.ext_iff]
      by_cases hsame : other.method = call.method
      · simp [hsame, entry_of_lookup hmethod hsame]
      · simp [hsame]
  | some callbackMap =>
      cases husercb : callbackMap.lookup call.usercb with
      | none =>
          have hnone : entry methodMap call = none := by
            rw [entry_of_lookup hmethod rfl, Option.bind_some, husercb]
          simp only [record, hmethod, husercb, entry_insert, StdMap.lookup_insert_of_eq_or_ne,
            hnone, and_true, Call.ext_iff]
          by_cases hsame : other.method = call.method
          · simp [hsame, entry_of_lookup hmethod hsame]
          · simp [hsame]
      | some found =>
          have hfound : entry methodMap call = some found := by
            rw [entry_of_lookup hmethod rfl, Option.bind_some, husercb]
          simp [record, hmethod, husercb, hfound]

/-- What is left of a callback map of one element. -/
theorem lookup_eq_none_of_length {callbackMap : CallbackMap ι}
    (hlength : callbackMap.keys.length = 0) (usercb : UInt64) :
    callbackMap.lookup usercb = none := by
  rw [AList.lookup_eq_none, AList.mem_keys, List.length_eq_zero_iff.mp hlength]
  exact List.not_mem_nil

/-- The entry of the pair is removed, and no other. -/
theorem entry_removeEntry (methodMap : MethodMap ι) (call other : Call) :
    entry (removeEntry methodMap call).2 other =
      if other = call then none else entry methodMap other := by
  cases hmethod : methodMap.lookup call.method with
  | none =>
      simp only [removeEntry, hmethod]
      split_ifs with hsame
      · rw [hsame, entry_of_lookup hmethod rfl, Option.bind_none]
      · rfl
  | some callbackMap =>
      cases husercb : callbackMap.lookup call.usercb with
      | none =>
          simp only [removeEntry, hmethod, husercb]
          split_ifs with hsame
          · rw [hsame, entry_of_lookup hmethod rfl, Option.bind_some, husercb]
          · rfl
      | some found =>
          have hrest := fun usercb =>
            StdMap.lookup_erase_of_eq_or_ne call.usercb usercb callbackMap
          simp only [removeEntry, hmethod, husercb, Call.ext_iff]
          by_cases hsame : other.method = call.method
          · rw [entry_of_lookup hmethod hsame, Option.bind_some]
            simp only [hsame, true_and, ← hrest]
            split_ifs with hlast
            · rw [entry_erase, if_pos hsame, lookup_eq_none_of_length hlast]
            · rw [entry_insert, if_pos hsame]
          · simp only [hsame, false_and, if_false]
            split_ifs with hlast
            · rw [entry_erase, if_neg hsame]
            · rw [entry_insert, if_neg hsame]

/-- The job that is revoked is that of the entry. -/
theorem removeEntry_fst (methodMap : MethodMap ι) (call : Call) :
    (removeEntry methodMap call).1 = (entry methodMap call).bind fun found => found.job := by
  unfold removeEntry entry
  cases hmethod : methodMap.lookup call.method with
  | none => rfl
  | some callbackMap =>
      cases husercb : callbackMap.lookup call.usercb with
      | none => simp [husercb]
      | some callbackData => simp [husercb]

/-! ## No empty callback maps -/

theorem noneEmpty_empty : NoneEmpty (∅ : MethodMap ι) := by
  intro method callbackMap hmethod
  cases hmethod

theorem NoneEmpty.insert (hnone : NoneEmpty methodMap) (method : Text)
    {callbackMap : CallbackMap ι} (hcallbackMap : callbackMap ≠ ∅) :
    NoneEmpty (methodMap.insert method callbackMap) :=
  StdMap.forall_lookup_insert hcallbackMap hnone

theorem NoneEmpty.erase (hnone : NoneEmpty methodMap) (method : Text) :
    NoneEmpty (methodMap.erase method) :=
  StdMap.forall_lookup_erase method hnone

theorem insert_ne_empty (callbackMap : CallbackMap ι) (usercb : UInt64)
    (callbackData : CallbackData ι) : callbackMap.insert usercb callbackData ≠ ∅ := by
  intro hempty
  have hlookup := AList.lookup_insert (a := usercb) (b := callbackData) callbackMap
  rw [hempty] at hlookup
  cases hlookup

theorem NoneEmpty.record (hnone : NoneEmpty methodMap) (call : Call)
    (callbackData : CallbackData ι) : NoneEmpty (record methodMap call callbackData) := by
  unfold Async.record
  split
  · split
    · exact hnone.insert _ (insert_ne_empty _ _ _)
    · exact hnone
  · exact hnone.insert _ (insert_ne_empty _ _ _)

theorem NoneEmpty.removeEntry (hnone : NoneEmpty methodMap) (call : Call) :
    NoneEmpty (removeEntry methodMap call).2 := by
  unfold Async.removeEntry
  split
  · exact hnone
  · split
    · exact hnone
    · rename_i callbackMap _ callbackData _
      dsimp only
      split_ifs with hlast
      · exact hnone.erase _
      · refine hnone.insert _ fun hempty => hlast ?_
        rw [hempty]
        rfl

/-- A map without empty callback maps is empty when no pair has an entry. -/
theorem NoneEmpty.eq_empty (hnone : NoneEmpty methodMap)
    (hentries : ∀ call, entry methodMap call = none) : methodMap = ∅ := by
  apply StdMap.eq_empty_of_lookup
  intro method
  by_contra hmethod
  obtain ⟨callbackMap, hcallbackMap⟩ := Option.ne_none_iff_exists'.mp hmethod
  refine hnone method callbackMap hcallbackMap (StdMap.eq_empty_of_lookup fun usercb => ?_)
  simpa [entry, hcallbackMap] using hentries ⟨method, usercb⟩

end Operations

end FireboltTransport.Async
