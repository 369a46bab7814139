/-
# Keeping and clearing the recorded calls

`Invoke` records its call, `RemoveEntry` and `Abort` take one entry out and revoke
its job, and `Clear` walks the two levels of `_methodMap`, revokes every job and
erases what it has passed.  A history of these calls is followed together with the
jobs that were created and those that were revoked; a job is created anew for each
`Invoke`, so no two entries share one.
-/

import FireboltTransport.Async.MethodMap
import FireboltTransport.Semantics.History

namespace FireboltTransport.Async

open Semantics

universe u

section Clear

variable {ι : Type u}

/-- The inner loop of `Clear`: the jobs it revokes, and the callback map after it. -/
def clearCallbacks (callbackMap : CallbackMap ι) : List ι × CallbackMap ι :=
  StdMap.drain (fun _ callbackData => callbackData.job.toList) callbackMap.keys callbackMap

/-- `Async::Clear`: the jobs it revokes, and the map after it.  A method is erased with what the
inner loop has left of its callbacks. -/
def clear (methodMap : MethodMap ι) : List ι × MethodMap ι :=
  StdMap.drain (fun _ callbackMap => (clearCallbacks callbackMap).1) methodMap.keys methodMap

theorem clear_snd (methodMap : MethodMap ι) : (clear methodMap).2 = ∅ :=
  StdMap.drain_keys_snd _ methodMap

theorem mem_clearCallbacks {callbackMap : CallbackMap ι} {job : ι} :
    job ∈ (clearCallbacks callbackMap).1 ↔
      ∃ usercb callbackData, callbackMap.lookup usercb = some callbackData ∧
        callbackData.job = some job := by
  simp only [clearCallbacks, StdMap.mem_drain_keys_fst, Option.mem_toList]

/-- The jobs revoked are those of the entries. -/
theorem mem_clear {methodMap : MethodMap ι} {job : ι} :
    job ∈ (clear methodMap).1 ↔
      ∃ call callbackData, entry methodMap call = some callbackData ∧
        callbackData.job = some job := by
  simp only [clear, StdMap.mem_drain_keys_fst, mem_clearCallbacks]
  constructor
  · intro hjob
    obtain ⟨method, callbackMap, hmethod, usercb, callbackData, husercb, hdata⟩ := hjob
    exact ⟨⟨method, usercb⟩, callbackData, by rw [entry, hmethod]; exact husercb, hdata⟩
  · intro hjob
    obtain ⟨call, callbackData, hentry, hdata⟩ := hjob
    obtain ⟨callbackMap, hmethod, husercb⟩ := Option.bind_eq_some_iff.mp hentry
    exact ⟨call.method, callbackMap, hmethod, call.usercb, callbackData, husercb, hdata⟩

/-- No two entries have the same job. -/
def JobsDistinct (methodMap : MethodMap ι) : Prop :=
  ∀ first second callbackData other job, entry methodMap first = some callbackData →
    entry methodMap second = some other → callbackData.job = some job → other.job = some job →
    first = second

/-- Then each of the jobs is revoked once. -/
theorem nodup_clear {methodMap : MethodMap ι} (hdistinct : JobsDistinct methodMap) :
    (clear methodMap).1.Nodup := by
  have hentry : ∀ {method usercb callbackMap callbackData},
      methodMap.lookup method = some callbackMap →
      callbackMap.lookup usercb = some callbackData →
      entry methodMap ⟨method, usercb⟩ = some callbackData := by
    intro method usercb callbackMap callbackData hmethod husercb
    rw [entry, hmethod]
    exact husercb
  apply StdMap.nodup_drain_keys_fst
  · intro method callbackMap hmethod
    apply StdMap.nodup_drain_keys_fst
    · intro usercb callbackData _
      cases callbackData.job <;> simp
    · intro first second callbackData other job hfirst hsecond hjob hother
      have hsame := hdistinct _ _ _ _ job (hentry hmethod hfirst) (hentry hmethod hsecond)
        (Option.mem_toList.mp hjob) (Option.mem_toList.mp hother)
      exact congrArg Call.usercb hsame
  · intro first second callbackMap other job hfirst hsecond hjob hother
    obtain ⟨usercb, callbackData, husercb, hdata⟩ := mem_clearCallbacks.mp hjob
    obtain ⟨another, otherData, hanother, hotherData⟩ := mem_clearCallbacks.mp hother
    have hsame := hdistinct _ _ _ _ job (hentry hfirst husercb) (hentry hsecond hanother)
      hdata hotherData
    exact congrArg Call.method hsame

end Clear

/-! ## Histories -/

/-- A call that changes the map.  `valid` tells whether `Create` gave `Invoke` a valid job. -/
inductive MapCall
  | invoke (call : Call) (valid : Bool)
  | abort (call : Call)
  | removeEntry (call : Call)
  | clear
  deriving DecidableEq

/-- The map with the jobs around it, which are numbered as they are created. -/
structure Recorded where
  methodMap : MethodMap ℕ
  created : ℕ
  /-- The calls of `IWorkerPool::Revoke`. -/
  revoked : List ℕ

/-- `RemoveEntry`. -/
def Recorded.removeEntry (state : Recorded) (call : Call) : Recorded :=
  let removed := Async.removeEntry state.methodMap call
  { state with
    methodMap := removed.2
    revoked := state.revoked ++ removed.1.toList }

def Recorded.apply (state : Recorded) : MapCall → Recorded
  | .invoke call valid =>
      let job := if valid then some state.created else none
      { state with
        methodMap := record state.methodMap call ⟨job⟩
        created := state.created + 1 }
  -- `Abort` does nothing else.
  | .abort call => state.removeEntry call
  | .removeEntry call => state.removeEntry call
  | .clear =>
      let cleared := Async.clear state.methodMap
      { state with
        methodMap := cleared.2
        revoked := state.revoked ++ cleared.1 }

/-- What a history leaves. -/
def recordedAfter (history : List MapCall) : Recorded :=
  history.foldl Recorded.apply ⟨∅, 0, []⟩

/-- The map is well formed, and its entries have jobs of their own. -/
structure Recorded.WellFormed (state : Recorded) : Prop where
  noneEmpty : NoneEmpty state.methodMap
  distinct : JobsDistinct state.methodMap
  created : ∀ call callbackData job, entry state.methodMap call = some callbackData →
    callbackData.job = some job → job < state.created

section WellFormed

variable {state : Recorded}

/-- The job of an entry after `Invoke` is that of the entry before, or the new one. -/
theorem entry_invoke {call other : Call} {valid : Bool} {callbackData : CallbackData ℕ} {job : ℕ}
    (hentry : entry (state.apply (.invoke call valid)).methodMap other = some callbackData)
    (hjob : callbackData.job = some job) :
    entry state.methodMap other = some callbackData ∨ other = call ∧ job = state.created := by
  simp only [Recorded.apply, entry_record] at hentry
  by_cases hnew : other = call ∧ entry state.methodMap call = none
  · rw [if_pos hnew] at hentry
    obtain rfl := Option.some.inj hentry
    cases valid with
    | true => exact .inr ⟨hnew.1, (Option.some.inj hjob).symm⟩
    | false => cases hjob
  · rw [if_neg hnew] at hentry
    exact .inl hentry

theorem Recorded.WellFormed.invoke (hstate : state.WellFormed) (call : Call) (valid : Bool) :
    (state.apply (.invoke call valid)).WellFormed where
  noneEmpty := hstate.noneEmpty.record call _
  distinct := by
    intro first second callbackData other job hfirst hsecond hjob hother
    rcases entry_invoke hfirst hjob with hold | ⟨rfl, hnew⟩
    · rcases entry_invoke hsecond hother with holder | ⟨rfl, hnew⟩
      · exact hstate.distinct _ _ _ _ _ hold holder hjob hother
      · have hlt := hstate.created _ _ _ hold hjob
        omega
    · rcases entry_invoke hsecond hother with hold | ⟨rfl, _⟩
      · have hlt := hstate.created _ _ _ hold hother
        omega
      · rfl
  created := by
    intro other callbackData job hentry hjob
    show job < state.created + 1
    rcases entry_invoke hentry hjob with hentry | ⟨_, hnew⟩
    · exact Nat.lt_succ_of_lt (hstate.created _ _ _ hentry hjob)
    · omega

/-- The map may lose entries. -/
theorem Recorded.WellFormed.mono {after : Recorded} (hstate : state.WellFormed)
    (hnone : NoneEmpty after.methodMap) (hcreated : after.created = state.created)
    (hentries : ∀ call callbackData, entry after.methodMap call = some callbackData →
      entry state.methodMap call = some callbackData) : after.WellFormed where
  noneEmpty := hnone
  distinct first second callbackData other job hfirst hsecond :=
    hstate.distinct first second callbackData other job (hentries _ _ hfirst)
      (hentries _ _ hsecond)
  created call callbackData job hentry hjob := by
    rw [hcreated]
    exact hstate.created call callbackData job (hentries _ _ hentry) hjob

theorem Recorded.WellFormed.removeEntry (hstate : state.WellFormed) (call : Call) :
    (state.removeEntry call).WellFormed := by
  refine hstate.mono ?_ rfl ?_
  · exact hstate.noneEmpty.removeEntry call
  · intro other callbackData hentry
    simp only [Recorded.removeEntry, entry_removeEntry] at hentry
    split_ifs at hentry with hsame
    exact hentry

theorem Recorded.WellFormed.apply (hstate : state.WellFormed) (mapCall : MapCall) :
    (state.apply mapCall).WellFormed := by
  cases mapCall with
  | invoke call valid => exact hstate.invoke call valid
  | abort call => exact hstate.removeEntry call
  | removeEntry call => exact hstate.removeEntry call
  | clear =>
      have hempty : (state.apply .clear).methodMap = ∅ := clear_snd state.methodMap
      refine hstate.mono ?_ rfl ?_
      · rw [hempty]
        exact noneEmpty_empty
      · intro call callbackData hentry
        rw [hempty, entry_empty] at hentry
        cases hentry

theorem wellFormed_recordedAfter (history : List MapCall) :
    (recordedAfter history).WellFormed := by
  refine fold_history (motive := fun _ (state : Recorded) => state.WellFormed) ?_ ?_ history
  · exact ⟨noneEmpty_empty, by simp [JobsDistinct], by simp⟩
  · intro _ state mapCall hstate
    exact hstate.apply mapCall

end WellFormed

/-- What taking an entry out does: the entry goes, its job is revoked if it is valid, and every
other entry stays. -/
def RemovesExactly (before after : Recorded) (call : Call) : Prop :=
  (∀ other, entry after.methodMap other =
    if other = call then none else entry before.methodMap other) ∧
  after.revoked = before.revoked ++
    ((entry before.methodMap call).bind fun callbackData => callbackData.job).toList

theorem removesExactly_removeEntry (state : Recorded) (call : Call) :
    RemovesExactly state (state.removeEntry call) call := by
  constructor
  · exact entry_removeEntry state.methodMap call
  · rw [← removeEntry_fst]
    rfl

/-- What clearing does: nothing is left, and the jobs of the entries have been revoked, each of
them once. -/
def ClearsExactly (before after : Recorded) : Prop :=
  after.methodMap = ∅ ∧ ∃ jobs : List ℕ, after.revoked = before.revoked ++ jobs ∧ jobs.Nodup ∧
    ∀ job, job ∈ jobs ↔ ∃ call callbackData, entry before.methodMap call = some callbackData ∧
      callbackData.job = some job

/-- What recording a call does: a pair without an entry gets the job that was just created, if it
is valid; every other entry stays, and so does that of a pair which has one. -/
def RecordsExactly (before after : Recorded) (call : Call) (valid : Bool) : Prop :=
  (∀ other, entry after.methodMap other =
    if other = call ∧ entry before.methodMap call = none then
      some ⟨if valid then some before.created else none⟩
    else entry before.methodMap other) ∧
  after.created = before.created + 1 ∧ after.revoked = before.revoked

theorem recordsExactly_invoke (state : Recorded) (call : Call) (valid : Bool) :
    RecordsExactly state (state.apply (.invoke call valid)) call valid :=
  ⟨fun other => entry_record state.methodMap call other _, rfl, rfl⟩

/-- **The map of asynchronous calls.**  After every history no method has an empty callback map;
`Invoke` records its job under a pair that has none, and leaves every other entry; taking an entry
out, by `RemoveEntry` or by `Abort`, removes it, revokes its job and leaves every other entry; and
`Clear` leaves an empty map and has revoked the job of each entry once. -/
theorem methodMap_kept (history : List MapCall) :
    NoneEmpty (recordedAfter history).methodMap ∧
    (∀ call valid, RecordsExactly (recordedAfter history)
      ((recordedAfter history).apply (.invoke call valid)) call valid) ∧
    (∀ call, RemovesExactly (recordedAfter history)
        ((recordedAfter history).apply (.removeEntry call)) call ∧
      RemovesExactly (recordedAfter history)
        ((recordedAfter history).apply (.abort call)) call) ∧
    ClearsExactly (recordedAfter history) ((recordedAfter history).apply .clear) := by
  have hwell := wellFormed_recordedAfter history
  refine ⟨hwell.noneEmpty, ?_, fun call => ⟨?_, ?_⟩, clear_snd _, ?_⟩
  · exact recordsExactly_invoke _
  · exact removesExactly_removeEntry _ call
  · exact removesExactly_removeEntry _ call
  · exact ⟨(clear (recordedAfter history).methodMap).1, rfl, nodup_clear hwell.distinct,
      fun job => mem_clear⟩

/-- Two callbacks of one method and one of another, whose job is not valid.  The second `Invoke`
under a pair is not recorded, and `Abort` revokes the job of the first. -/
def someCalls : List MapCall :=
  [.invoke ⟨['a'], 1⟩ true, .invoke ⟨['a'], 2⟩ true, .invoke ⟨['a'], 1⟩ true,
    .invoke ⟨['b'], 1⟩ false, .abort ⟨['a'], 1⟩]

example : entry (recordedAfter someCalls).methodMap ⟨['a'], 1⟩ = none ∧
    entry (recordedAfter someCalls).methodMap ⟨['a'], 2⟩ = some ⟨some 1⟩ ∧
    entry (recordedAfter someCalls).methodMap ⟨['b'], 1⟩ = some ⟨none⟩ ∧
    (recordedAfter someCalls).revoked = [0] := by decide

example : (recordedAfter (someCalls ++ [.clear])).revoked = [0, 1] := by decide

end FireboltTransport.Async
