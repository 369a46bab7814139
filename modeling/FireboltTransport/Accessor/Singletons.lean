/-
# The singletons

`Accessor`, `Async`, `Event` and `Gateway` each have one instance that `Instance`
creates at its first call and `Dispose` deletes.  The first three keep the
pointer that `Instance` returns in a static variable of the function and delete
through another one, so the static variable goes on pointing to the deleted
object.  The gateway has one pointer for both.

`Connect`, `Disconnect` and the asynchronous calls use the instances of the
other classes; a run is the list of the uses its operations make.
-/

import FireboltTransport.Semantics.History
import Mathlib.Logic.Function.Basic
import Mathlib.Tactic.Common

namespace FireboltTransport.Singletons

/-- The classes with one instance. -/
inductive Class
  | accessor
  | async
  | event
  | gateway
  deriving DecidableEq

/-- The pointers of a class and its objects, numbered as they are constructed. -/
structure Singleton where
  /-- The static variable of `Instance`, once it is initialised. -/
  static : Option ℕ
  /-- `_singleton`, or `Gateway::instance`. -/
  pointer : Option ℕ
  created : ℕ
  /-- The objects deleted, in order. -/
  deleted : List ℕ
  deriving DecidableEq

namespace Singleton

/-- Before the first call. -/
def initial : Singleton := ⟨none, none, 0, []⟩

/-- The constructor registers the new object. -/
def construct (singleton : Singleton) : Singleton :=
  { singleton with pointer := some singleton.created, created := singleton.created + 1 }

/-- `Instance` with a static variable: the object it returns, and the state after it. -/
def instanceStatic (singleton : Singleton) : ℕ × Singleton :=
  match singleton.static with
  | some object => (object, singleton)
  | none => (singleton.created, { singleton.construct with static := some singleton.created })

/-- `Instance` with a pointer that `Dispose` clears. -/
def instancePointer (singleton : Singleton) : ℕ × Singleton :=
  match singleton.pointer with
  | some object => (object, singleton)
  | none => (singleton.created, singleton.construct)

/-- `Dispose`: the destructor, or the function itself, clears the pointer. -/
def dispose (singleton : Singleton) : Singleton :=
  match singleton.pointer with
  | some object =>
      { singleton with pointer := none, deleted := singleton.deleted ++ [object] }
  | none => singleton

end Singleton

/-- `Instance` of the class. -/
def Class.instance : Class → Singleton → ℕ × Singleton
  | .accessor => Singleton.instanceStatic
  | .async => Singleton.instanceStatic
  | .event => Singleton.instanceStatic
  | .gateway => Singleton.instancePointer

/-- A call of one of the static functions. -/
inductive Use
  | getInstance (used : Class)
  | dispose (used : Class)
  deriving DecidableEq

def Use.used : Use → Class
  | .getInstance used | .dispose used => used

/-- The singletons after a use. -/
def perform (state : Class → Singleton) (use : Use) : Class → Singleton :=
  match use with
  | .getInstance used => Function.update state used (used.instance (state used)).2
  | .dispose used => Function.update state used (state used).dispose

/-- The singletons after a list of uses. -/
def after (uses : List Use) : Class → Singleton :=
  uses.foldl perform fun _ => .initial

/-! ## The operations -/

inductive Operation
  | getInstance (used : Class)
  | dispose (used : Class)
  | connect
  | disconnect
  | invoke
  | abort
  /-- A job of `Async::Invoke` makes its request. -/
  | request
  deriving DecidableEq

/-- The uses an operation makes; `transport` says whether the accessor has one. -/
def Operation.uses (transport : Bool) : Operation → List Use
  | .getInstance used => [.getInstance used]
  | .dispose used => [.dispose used]
  -- `Configure`, `TransportUpdated` and `CreateEventHandler`.
  | .connect =>
      [.getInstance .accessor, .getInstance .async, .getInstance .gateway, .getInstance .event]
  | .disconnect =>
      if transport then [.getInstance .accessor, .dispose .async, .getInstance .gateway]
      else [.getInstance .accessor]
  | .invoke => [.getInstance .async]
  | .abort => [.getInstance .async]
  | .request => [.getInstance .gateway]

/-- Whether the accessor has a transport after the operation. -/
def Operation.transport (transport : Bool) : Operation → Bool
  | .connect => true
  | .disconnect => false
  | _ => transport

/-- The uses a sequence of operations makes. -/
def usesOf : Bool → List Operation → List Use
  | _, [] => []
  | transport, operation :: rest =>
      operation.uses transport ++ usesOf (operation.transport transport) rest

/-! ## What they are for -/

/-- `Instance` returns an object that is not deleted, and `Dispose` deletes one object, which
was not deleted before. -/
def Usable (state : Class → Singleton) : Use → Prop
  | .getInstance used =>
      (used.instance (state used)).1 ∉ (used.instance (state used)).2.deleted
  | .dispose used => ∃ object, (state used).dispose.deleted = (state used).deleted ++ [object] ∧
      object < (state used).created ∧ object ∉ (state used).deleted

/-- Every use in the list is usable where it is made. -/
def AllUsable (uses : List Use) : Prop :=
  ∀ before use rest, uses = before ++ use :: rest → Usable (after before) use

/-- Every `Dispose` is of a class whose instance was created. -/
def DisposesCreated (uses : List Use) : Prop :=
  ∀ before used rest, uses = before ++ .dispose used :: rest → .getInstance used ∈ before

/-- The last use of the class. -/
def lastUse (used : Class) (uses : List Use) : Option Use :=
  (uses.filter fun use => use.used = used).getLast?

/-- The class makes a new instance after `Dispose`. -/
def Class.recreates : Class → Bool
  | .gateway => true
  | .accessor | .async | .event => false

/-- `Instance` of a class that does not make a new one is not called after its `Dispose`, and
`Dispose` is called only after `Instance`. -/
def InOrder (before : List Use) : Use → Prop
  | .getInstance used => used.recreates = true ∨ lastUse used before ≠ some (.dispose used)
  | .dispose used => lastUse used before = some (.getInstance used)

/-- The uses of every class are in order. -/
def AllInOrder (uses : List Use) : Prop :=
  ∀ before use rest, uses = before ++ use :: rest → InOrder before use

/-! ## One more use -/

/-- What holds of every element of a list and the elements before it, for one more element. -/
theorem forall_split_concat {α : Type*} {p : List α → α → Prop} {xs : List α} {last : α} :
    (∀ before x rest, xs ++ [last] = before ++ x :: rest → p before x) ↔
      (∀ before x rest, xs = before ++ x :: rest → p before x) ∧ p xs last := by
  constructor
  · intro hall
    refine ⟨fun before x rest hsplit => hall before x (rest ++ [last]) ?_, hall xs last [] rfl⟩
    rw [hsplit, List.append_assoc, List.cons_append]
  · rintro ⟨hinit, hlast⟩ before x rest hsplit
    rcases List.eq_nil_or_concat rest with rfl | ⟨init, final, rfl⟩
    · obtain ⟨rfl, hx⟩ := List.append_inj' hsplit rfl
      obtain rfl := List.head_eq_of_cons_eq hx
      exact hlast
    · rw [List.concat_eq_append, ← List.cons_append, ← List.append_assoc] at hsplit
      exact hinit before x init (List.append_inj' hsplit rfl).1

theorem after_concat (uses : List Use) (use : Use) :
    after (uses ++ [use]) = perform (after uses) use := by
  simp [after]

@[simp] theorem lastUse_nil (used : Class) : lastUse used [] = none := rfl

theorem lastUse_concat (used : Class) (uses : List Use) (use : Use) :
    lastUse used (uses ++ [use]) = if use.used = used then some use else lastUse used uses := by
  by_cases hused : use.used = used <;> simp [lastUse, List.filter_append, hused]

/-! ## The pointers and the last use -/

/-- The pointers are to objects that were constructed. -/
structure Singleton.Constructed (singleton : Singleton) : Prop where
  pointer_lt : ∀ object ∈ singleton.pointer, object < singleton.created
  deleted_lt : ∀ object ∈ singleton.deleted, object < singleton.created

namespace Singleton.Constructed

variable {singleton : Singleton}

theorem construct (hconstructed : singleton.Constructed) : singleton.construct.Constructed := by
  constructor
  · intro object hobject
    obtain rfl := Option.some.inj hobject
    exact Nat.lt_succ_self _
  · intro object hobject
    exact Nat.lt_succ_of_lt (hconstructed.deleted_lt object hobject)

theorem getInstance (hconstructed : singleton.Constructed) (used : Class) :
    (used.instance singleton).2.Constructed := by
  have hnew := hconstructed.construct
  cases used <;> simp only [Class.instance, instanceStatic, instancePointer] <;> split
  all_goals first | exact hconstructed | exact ⟨hnew.pointer_lt, hnew.deleted_lt⟩

theorem dispose (hconstructed : singleton.Constructed) : singleton.dispose.Constructed := by
  unfold Singleton.dispose
  split
  case h_1 object hpointer =>
      constructor
      · intro other hother
        cases hother
      · intro other hother
        rcases List.mem_append.mp hother with hother | hother
        · exact hconstructed.deleted_lt other hother
        · obtain rfl := List.mem_singleton.mp hother
          exact hconstructed.pointer_lt other hpointer
  case h_2 => exact hconstructed

end Singleton.Constructed

theorem constructed_perform {state : Class → Singleton} (hstate : ∀ used, (state used).Constructed)
    (use : Use) (used : Class) : (perform state use used).Constructed := by
  cases use with
  | getInstance called =>
      rcases eq_or_ne used called with rfl | hother
      · simpa [perform] using (hstate used).getInstance used
      · simpa [perform, hother] using hstate used
  | dispose called =>
      rcases eq_or_ne used called with rfl | hother
      · simpa [perform] using (hstate used).dispose
      · simpa [perform, hother] using hstate used

theorem constructed_after (uses : List Use) : ∀ used, (after uses used).Constructed := by
  refine Semantics.fold_history (motive := fun _ (state : Class → Singleton) =>
    ∀ used, (state used).Constructed) ?_ ?_ uses
  · intro used
    constructor <;> intro object hobject <;> cases hobject
  · exact fun _ _ use hstate => constructed_perform hstate use

/-- The pointers of a class, as its last use leaves them. -/
def Matches (used : Class) (singleton : Singleton) : Option Use → Prop
  | none => singleton = .initial
  | some (.getInstance _) => ∃ object, singleton.pointer = some object ∧
      object ∉ singleton.deleted ∧ (used.recreates = false → singleton.static = some object)
  | some (.dispose _) => singleton.pointer = none ∧
      (used.recreates = false → ∃ object ∈ singleton.deleted, singleton.static = some object)

section Uses

variable {used : Class} {singleton : Singleton} {last : Option Use}

theorem instance_of_recreates (hrecreates : used.recreates = true) :
    used.instance = Singleton.instancePointer := by
  cases used <;> first | rfl | cases hrecreates

theorem instance_of_not_recreates (hkeeps : used.recreates = false) :
    used.instance = Singleton.instanceStatic := by
  cases used <;> first | rfl | cases hkeeps

/-- `Instance` in order returns an object that is not deleted. -/
theorem Matches.getInstance (hconstructed : singleton.Constructed)
    (hmatches : Matches used singleton last)
    (horder : used.recreates = true ∨ ∀ disposed, last ≠ some (.dispose disposed)) :
    (used.instance singleton).1 ∉ (used.instance singleton).2.deleted ∧
      Matches used (used.instance singleton).2 (some (.getInstance used)) := by
  rcases last with _ | called | disposed
  · obtain rfl : singleton = .initial := hmatches
    cases used <;>
      simp [Class.instance, Singleton.instanceStatic, Singleton.instancePointer, Matches,
        Singleton.initial, Singleton.construct, Class.recreates]
  · obtain ⟨object, hpointer, hlive, hstatic⟩ := hmatches
    have hsame : used.instance singleton = (object, singleton) := by
      cases hrecreates : used.recreates with
      | true => simp [instance_of_recreates hrecreates, Singleton.instancePointer, hpointer]
      | false =>
          simp [instance_of_not_recreates hrecreates, Singleton.instanceStatic,
            hstatic hrecreates]
    rw [hsame]
    exact ⟨hlive, object, hpointer, hlive, hstatic⟩
  · have hrecreates : used.recreates = true :=
      horder.resolve_right fun hnot => hnot disposed rfl
    have hnew : used.instance singleton = (singleton.created, singleton.construct) := by
      simp [instance_of_recreates hrecreates, Singleton.instancePointer, hmatches.1]
    have hfresh : singleton.created ∉ singleton.deleted := fun hdeleted =>
      absurd (hconstructed.deleted_lt _ hdeleted) (Nat.lt_irrefl _)
    rw [hnew]
    refine ⟨hfresh, singleton.created, rfl, hfresh, fun hkeeps => ?_⟩
    rw [hrecreates] at hkeeps
    cases hkeeps

/-- `Instance` after `Dispose` returns the deleted object unless the class makes a new one. -/
theorem Matches.getInstance_deleted {disposed : Class} (hkeeps : used.recreates = false)
    (hmatches : Matches used singleton (some (.dispose disposed))) :
    (used.instance singleton).1 ∈ (used.instance singleton).2.deleted := by
  obtain ⟨object, hdeleted, hstatic⟩ := hmatches.2 hkeeps
  simpa [instance_of_not_recreates hkeeps, Singleton.instanceStatic, hstatic] using hdeleted

/-- `Dispose` after `Instance` deletes the object. -/
theorem Matches.dispose {called : Class} (hconstructed : singleton.Constructed)
    (hmatches : Matches used singleton (some (.getInstance called))) :
    (∃ object, singleton.dispose.deleted = singleton.deleted ++ [object] ∧
      object < singleton.created ∧ object ∉ singleton.deleted) ∧
      Matches used singleton.dispose (some (.dispose used)) := by
  obtain ⟨object, hpointer, hlive, hstatic⟩ := hmatches
  constructor
  · exact ⟨object, by simp [Singleton.dispose, hpointer], hconstructed.pointer_lt object hpointer,
      hlive⟩
  · simp only [Matches, Singleton.dispose, hpointer, true_and]
    exact fun hkeeps => ⟨object, by simp, hstatic hkeeps⟩

/-- `Dispose` deletes nothing when the last use is not `Instance`. -/
theorem Matches.dispose_deleted (hmatches : Matches used singleton last)
    (hlast : ∀ called, last ≠ some (.getInstance called)) :
    singleton.dispose.deleted = singleton.deleted := by
  rcases last with _ | called | disposed
  · obtain rfl : singleton = .initial := hmatches
    rfl
  · exact absurd rfl (hlast called)
  · simp [Singleton.dispose, hmatches.1]

end Uses

/-- The last use of a class is a use of it. -/
theorem used_of_lastUse {used : Class} {uses : List Use} {use : Use}
    (hlast : lastUse used uses = some use) : use.used = used := by
  have hmem := List.mem_of_getLast? hlast
  simpa using (List.mem_filter.mp hmem).2

/-- While the pointers are as the last uses leave them, a use is usable when it is in order. -/
theorem usable_iff_inOrder {before : List Use} {use : Use}
    (hmatches : ∀ used, Matches used (after before used) (lastUse used before)) :
    Usable (after before) use ↔ InOrder before use := by
  cases use with
  | getInstance used =>
      constructor
      · intro hlive
        by_contra horder
        obtain ⟨hkeeps, hlast⟩ := not_or.mp horder
        have hused := hmatches used
        rw [not_not.mp hlast] at hused
        exact hlive (hused.getInstance_deleted (eq_false_of_ne_true hkeeps))
      · intro horder
        refine ((hmatches used).getInstance (constructed_after before used) ?_).1
        refine horder.imp_right fun hnot disposed hlast => hnot ?_
        obtain rfl : disposed = used := used_of_lastUse hlast
        exact hlast
  | dispose used =>
      constructor
      · rintro ⟨object, hdeleted, -, -⟩
        by_contra horder
        have hnothing := (hmatches used).dispose_deleted fun called hlast => horder (by
          obtain rfl : called = used := used_of_lastUse hlast
          exact hlast)
        rw [hnothing] at hdeleted
        simp at hdeleted
      · intro horder
        have hlast : lastUse used before = some (.getInstance used) := horder
        have hused := hmatches used
        rw [hlast] at hused
        exact (hused.dispose (constructed_after before used)).1

/-- A use in order leaves the pointers as they should be. -/
theorem matches_concat {before : List Use} {use : Use}
    (hmatches : ∀ used, Matches used (after before used) (lastUse used before))
    (horder : InOrder before use) (used : Class) :
    Matches used (after (before ++ [use]) used) (lastUse used (before ++ [use])) := by
  rw [after_concat, lastUse_concat]
  cases use with
  | getInstance called =>
      by_cases hcalled : called = used
      · subst hcalled
        simp only [perform, Function.update_self, Use.used, if_true]
        refine ((hmatches called).getInstance (constructed_after before called) ?_).2
        refine horder.imp_right fun hnot disposed hlast => hnot ?_
        obtain rfl : disposed = called := used_of_lastUse hlast
        exact hlast
      · simpa [perform, Use.used, hcalled, Function.update_of_ne (Ne.symm hcalled)]
          using hmatches used
  | dispose called =>
      by_cases hcalled : called = used
      · subst hcalled
        have hlast : lastUse called before = some (.getInstance called) := horder
        have hused := hmatches called
        rw [hlast] at hused
        simpa [perform, Use.used] using (hused.dispose (constructed_after before called)).2
      · simpa [perform, Use.used, hcalled, Function.update_of_ne (Ne.symm hcalled)]
          using hmatches used

theorem matches_of_allInOrder {uses : List Use} (hinOrder : AllInOrder uses) :
    ∀ used, Matches used (after uses used) (lastUse used uses) := by
  induction uses using List.reverseRecOn with
  | nil => exact fun used => rfl
  | append_singleton uses use ih =>
      obtain ⟨hinit, huse⟩ := forall_split_concat.mp hinOrder
      exact matches_concat (ih hinit) huse

theorem allUsable_iff_allInOrder (uses : List Use) : AllUsable uses ↔ AllInOrder uses := by
  induction uses using List.reverseRecOn with
  | nil => constructor <;> exact fun _ before use rest hsplit => by simp at hsplit
  | append_singleton uses use ih =>
      unfold AllUsable AllInOrder
      rw [forall_split_concat, forall_split_concat]
      constructor
      · rintro ⟨hinit, huse⟩
        have hinOrder := ih.mp hinit
        exact ⟨hinOrder, (usable_iff_inOrder (matches_of_allInOrder hinOrder)).mp huse⟩
      · rintro ⟨hinOrder, huse⟩
        exact ⟨ih.mpr hinOrder, (usable_iff_inOrder (matches_of_allInOrder hinOrder)).mpr huse⟩

/-- **The singletons across reconnects.**  In every sequence of operations, `Instance` returns
an object that is not deleted and `Dispose` deletes the live object if and only if no `Instance`
of `Accessor`, `Async` or `Event` comes after the class's `Dispose` and every `Dispose` comes
after an `Instance` that the class's other `Dispose` calls precede. -/
theorem singletons_usable_iff (operations : List Operation) :
    AllUsable (usesOf false operations) ↔ AllInOrder (usesOf false operations) :=
  allUsable_iff_allInOrder (usesOf false operations)

/-- The second `Connect` gets the `Async` that `Disconnect` deleted. -/
theorem instance_deleted_by_disconnect :
    DisposesCreated (usesOf false [.connect, .disconnect, .connect]) ∧
      ¬ AllUsable (usesOf false [.connect, .disconnect, .connect]) := by
  constructor
  · intro before used rest hsplit
    simp [usesOf, Operation.uses, Operation.transport, List.cons_eq_append_iff] at hsplit
    obtain ⟨⟨_, _, _, rfl, _⟩, rfl, _⟩ := hsplit
    decide
  · intro husable
    have hstale := husable (usesOf false [.connect, .disconnect] ++ [.getInstance .accessor])
      (.getInstance .async) [.getInstance .gateway, .getInstance .event] rfl
    exact hstale (by decide)

end FireboltTransport.Singletons
