/-
# Linearizable histories

Calls on a shared object overlap, and an observer sees each of them begin and end.
Such a history is linearizable when the calls that took effect can be put in one order
which a sequential object accounts for: every answer is the one the object gives in that
order, and a call that had ended before another began comes before it.

The atomic object takes a call's effect in one step between its begin and its end, and
every history of it is linearizable.  A machine is therefore linearizable once each of its
steps is matched by steps of the atomic object that the observer sees in the same way.  A
call that ends without an answer is left open: it may have taken effect, may still do so,
or never will.
-/

import FireboltTransport.Semantics.Run
import Mathlib.Data.List.Nodup
import Mathlib.Logic.Function.Basic

namespace FireboltTransport.Semantics

universe u v w x y

section Trace

variable {σ : Type u} {α : Type v} {ε : Type w} {τ : Type x} {β : Type y}

/-- What an observer of a run sees, step after step. -/
def trace (step : σ → α → Option σ) (observe : σ → α → List ε) : σ → List α → List ε
  | _, [] => []
  | state, action :: rest =>
      observe state action ++
        match step state action with
        | some next => trace step observe next rest
        | none => []

variable {step : σ → α → Option σ} {observe : σ → α → List ε} {start state final : σ}
  {schedule : List α} {action : α}

theorem trace_snoc (hprior : exec step start schedule = some state) {next : σ}
    (htaken : step state action = some next) :
    trace step observe start (schedule ++ [action]) =
      trace step observe start schedule ++ observe state action := by
  induction schedule generalizing start with
  | nil =>
      obtain rfl : start = state := by simpa using hprior
      simp [trace, htaken]
  | cons first rest ih =>
      obtain ⟨second, hfirst, hrest⟩ := exec_cons_eq_some.mp hprior
      simp only [List.cons_append, trace, hfirst, ih hrest, List.append_assoc]

/-- A run is matched by a run with the same observations when each of its steps is.  The match
of a step may look at the run so far, and at what is still to come. -/
theorem exec_refine {abstractStep : τ → β → Option τ} {visible : β → List ε} {initial : τ}
    (relation : List α → σ → τ → Prop) (hstart : relation [] start initial)
    (hmatch : ∀ prior action after state next abstract, schedule = prior ++ action :: after →
      exec step start prior = some state → step state action = some next →
      relation prior state abstract → ∃ labels later,
        exec abstractStep abstract labels = some later ∧
        labels.flatMap visible = observe state action ∧
        relation (prior ++ [action]) next later)
    (hrun : exec step start schedule = some final) :
    ∃ labels later, exec abstractStep initial labels = some later ∧
      labels.flatMap visible = trace step observe start schedule ∧
      relation schedule final later := by
  refine exec_history (motive := fun prior state => ∀ rest, schedule = prior ++ rest →
    ∃ labels later, exec abstractStep initial labels = some later ∧
      labels.flatMap visible = trace step observe start prior ∧ relation prior state later)
    ?_ ?_ hrun [] (List.append_nil schedule).symm
  · intro rest _
    exact ⟨[], initial, rfl, rfl, hstart⟩
  · intro prior state action next hprior ih htaken rest hsplit
    have hsplit' : schedule = prior ++ action :: rest := by simpa using hsplit
    obtain ⟨labels, abstract, hlabels, hseen, hrelated⟩ := ih (action :: rest) hsplit'
    obtain ⟨more, later, hmore, hsame, hnext⟩ :=
      hmatch prior action rest state next abstract hsplit' hprior htaken hrelated
    refine ⟨labels ++ more, later, exec_trans hlabels hmore, ?_, hnext⟩
    rw [List.flatMap_append, hseen, hsame, trace_snoc hprior htaken]

/-- Where each step names the steps it stands for, the steps named are the run that matches. -/
theorem exec_trace_of_match {abstractStep : τ → β → Option τ} {named : σ → α → List β}
    {initial : τ} (relation : σ → τ → Prop) (hstart : relation start initial)
    (hmatch : ∀ state action next abstract, action ∈ schedule → step state action = some next →
      relation state abstract → ∃ later,
        exec abstractStep abstract (named state action) = some later ∧ relation next later)
    (hrun : exec step start schedule = some final) :
    ∃ later, exec abstractStep initial (trace step named start schedule) = some later ∧
      relation final later := by
  obtain ⟨labels, later, hlabels, hnamed, hrelated⟩ : ∃ labels later,
      exec abstractStep initial labels = some later ∧
      labels.flatMap (fun label => [label]) = trace step named start schedule ∧
      relation final later := by
    refine exec_refine (fun _ => relation) hstart ?_ hrun
    intro prior action after state next abstract hsplit _ htaken hrelated
    have hmember : action ∈ schedule := by simp [hsplit]
    obtain ⟨later, hlabels, hnext⟩ := hmatch state action next abstract hmember htaken hrelated
    exact ⟨named state action, later, hlabels, List.flatMap_singleton' _, hnext⟩
  rw [List.flatMap_singleton'] at hnamed
  exact ⟨later, by rwa [← hnamed], hrelated⟩

end Trace

section Object

variable {ι : Type u} {σ : Type v} {ω : Type w} {ρ : Type x}

/-- What an observer sees of a call. -/
inductive Event (ι : Type u) (ρ : Type x)
  | invoke (call : ι)
  | respond (call : ι) (result : ρ)
  deriving DecidableEq

/-- A sequential object: where it starts, and what an operation does and answers. -/
structure SequentialObject (σ : Type v) (ω : Type w) (ρ : Type x) where
  start : σ
  apply : σ → ω → σ × ρ

namespace SequentialObject

variable (object : SequentialObject σ ω ρ) (argument : ι → ω)

/-- The object after some calls, one after the other. -/
def after (calls : List ι) : σ :=
  calls.foldl (fun value call => (object.apply value (argument call)).1) object.start

/-- What the object answers to a call made after some others. -/
def answer (calls : List ι) (call : ι) : ρ :=
  (object.apply (object.after argument calls) (argument call)).2

theorem after_snoc (calls : List ι) (call : ι) :
    object.after argument (calls ++ [call]) =
      (object.apply (object.after argument calls) (argument call)).1 := by
  simp [after]

end SequentialObject

/-- The calls that took effect, in their order, account for the history. -/
structure Linearization (object : SequentialObject σ ω ρ) (argument : ι → ω)
    (history : List (Event ι ρ)) (order : List ι) : Prop where
  /-- No call takes effect twice. -/
  nodup : order.Nodup
  /-- Only calls that were made take effect. -/
  invoked : ∀ call ∈ order, .invoke call ∈ history
  /-- An answer is the one the object gives at the call's place in the order. -/
  answered : ∀ call result, .respond call result ∈ history →
    ∃ before after, order = before ++ call :: after ∧ object.answer argument before call = result
  /-- A call that had ended before another began comes before it. -/
  realTime : ∀ first result second, [.respond first result, .invoke second].Sublist history →
    second ∈ order → [first, second].Sublist order

/-! ## The atomic object -/

/-- Where a call on the atomic object is. -/
inductive Status (ρ : Type x)
  | idle
  | pending
  /-- The call took effect and its answer is `result`. -/
  | committed (result : ρ)
  | responded (result : ρ)
  deriving DecidableEq

/-- The atomic object between two steps. -/
structure Atomic (ι : Type u) (σ : Type v) (ρ : Type x) where
  value : σ
  status : ι → Status ρ
  /-- The calls that took effect, in the order they did. -/
  order : List ι

/-- A step of the atomic object. -/
inductive Label (ι : Type u) (ρ : Type x)
  | invoke (call : ι)
  | commit (call : ι)
  | respond (call : ι) (result : ρ)
  deriving DecidableEq

/-- The observer sees calls begin and end, not when they take effect. -/
def Label.visible : Label ι ρ → List (Event ι ρ)
  | .invoke call => [.invoke call]
  | .commit _ => []
  | .respond call result => [.respond call result]

namespace Atomic

/-- The object before any call. -/
def initial (object : SequentialObject σ ω ρ) : Atomic ι σ ρ where
  value := object.start
  status _ := .idle
  order := []

variable [DecidableEq ι] [DecidableEq ρ]

def setStatus (state : Atomic ι σ ρ) (call : ι) (status : Status ρ) : Atomic ι σ ρ :=
  { state with status := Function.update state.status call status }

omit [DecidableEq ρ] in
@[simp]
theorem setStatus_order (state : Atomic ι σ ρ) (call : ι) (status : Status ρ) :
    (state.setStatus call status).order = state.order := rfl

/-- One step, or `none` when the label is not enabled. -/
def step (object : SequentialObject σ ω ρ) (argument : ι → ω) (state : Atomic ι σ ρ) :
    Label ι ρ → Option (Atomic ι σ ρ)
  | .invoke call =>
      match state.status call with
      | .idle => some (state.setStatus call .pending)
      | _ => none
  | .commit call =>
      match state.status call with
      | .pending =>
          let (value, result) := object.apply state.value (argument call)
          some ({ state with value := value, order := state.order ++ [call] }.setStatus call
            (.committed result))
      | _ => none
  | .respond call result =>
      if state.status call = .committed result then
        some (state.setStatus call (.responded result))
      else none

end Atomic

/-- The order and the history so far, and where every call is, in step. -/
structure Accounted (object : SequentialObject σ ω ρ) (argument : ι → ω)
    (history : List (Event ι ρ)) (state : Atomic ι σ ρ) : Prop extends
    Linearization object argument history state.order where
  value : state.value = object.after argument state.order
  idle : ∀ call, state.status call = .idle → .invoke call ∉ history ∧ call ∉ state.order
  pending : ∀ call, state.status call = .pending → .invoke call ∈ history ∧ call ∉ state.order
  placed : ∀ call result, state.status call = .committed result ∨
    state.status call = .responded result → ∃ before after,
      state.order = before ++ call :: after ∧ object.answer argument before call = result

section Accounted

variable {object : SequentialObject σ ω ρ} {argument : ι → ω} {history : List (Event ι ρ)}
  {state next : Atomic ι σ ρ} {label : Label ι ρ}

theorem accounted_initial :
    Accounted object argument [] (Atomic.initial object : Atomic ι σ ρ) where
  nodup := List.nodup_nil
  invoked := by simp [Atomic.initial]
  answered := by simp
  realTime := by simp
  value := rfl
  idle := by simp [Atomic.initial]
  pending := by simp [Atomic.initial]
  placed := by simp [Atomic.initial]

/-- A pair of events seen in this order that is not there before an event was seen ends in it. -/
theorem sublist_snoc_cases {first second last : Event ι ρ}
    (hsublist : [first, second].Sublist (history ++ [last])) :
    [first, second].Sublist history ∨ second = last := by
  rw [List.sublist_append_iff] at hsublist
  obtain ⟨left, right, hsplit, hleft, hright⟩ := hsublist
  cases right using List.reverseRecOn with
  | nil =>
      left
      rw [hsplit, List.append_nil]
      exact hleft
  | append_singleton front tail =>
      right
      have htail : tail ∈ [last] := hright.subset (by simp)
      have hsecond : second = tail := by
        have hlast := congrArg List.getLast? hsplit
        simpa using hlast
      rw [hsecond]
      simpa using htail

variable [DecidableEq ι]

theorem Accounted.invoke (haccounted : Accounted object argument history state) {call : ι}
    (hstatus : state.status call = .idle) :
    Accounted object argument (history ++ [.invoke call]) (state.setStatus call .pending) where
  nodup := haccounted.nodup
  invoked other hother := List.mem_append_left _ (haccounted.invoked other hother)
  answered other result hother := haccounted.answered other result (by simpa using hother)
  realTime first result second hsublist hsecond := by
    rcases sublist_snoc_cases hsublist with hbefore | hlast
    · exact haccounted.realTime first result second hbefore hsecond
    · -- The call that begins has not taken effect.
      obtain rfl : second = call := by simpa using hlast
      exact absurd hsecond (haccounted.idle second hstatus).2
  value := haccounted.value
  idle other hother := by
    by_cases hcall : other = call
    · subst hcall
      simp [Atomic.setStatus] at hother
    · simp only [Atomic.setStatus, Function.update_of_ne hcall] at hother
      simpa [hcall] using haccounted.idle other hother
  pending other hother := by
    by_cases hcall : other = call
    · subst hcall
      exact ⟨by simp, (haccounted.idle other hstatus).2⟩
    · simp only [Atomic.setStatus, Function.update_of_ne hcall] at hother
      have hpending := haccounted.pending other hother
      exact ⟨List.mem_append_left _ hpending.1, hpending.2⟩
  placed other result hother := by
    by_cases hcall : other = call
    · subst hcall
      simp [Atomic.setStatus] at hother
    · simp only [Atomic.setStatus, Function.update_of_ne hcall] at hother
      exact haccounted.placed other result hother

/-- A call that takes effect goes to the end of the order. -/
theorem Accounted.commit (haccounted : Accounted object argument history state) {call : ι}
    (hstatus : state.status call = .pending) :
    Accounted object argument history
      ({ state with
        value := (object.apply state.value (argument call)).1
        order := state.order ++ [call] }.setStatus call
        (.committed (object.apply state.value (argument call)).2)) where
  nodup := by
    have hnew := (haccounted.pending call hstatus).2
    exact haccounted.nodup.append (List.nodup_singleton call) (by simpa using hnew)
  invoked other hother := by
    rcases List.mem_append.mp hother with hbefore | hlast
    · exact haccounted.invoked other hbefore
    · obtain rfl : other = call := by simpa using hlast
      exact (haccounted.pending other hstatus).1
  answered other result hother := by
    obtain ⟨before, after, horder, hanswer⟩ := haccounted.answered other result hother
    exact ⟨before, after ++ [call], by simp [horder], hanswer⟩
  realTime first result second hsublist hsecond := by
    rcases List.mem_append.mp hsecond with hbefore | hlast
    · exact (haccounted.realTime first result second hsublist hbefore).trans
        (List.sublist_append_left _ _)
    · obtain rfl : second = call := by simpa using hlast
      have hseen : .respond first result ∈ history := hsublist.subset (by simp)
      obtain ⟨before, after, horder, _⟩ := haccounted.answered first result hseen
      have hfirst : [first].Sublist state.order := by simp [horder]
      exact hfirst.append (List.Sublist.refl [second])
  value := by
    change _ = object.after argument (state.order ++ [call])
    rw [SequentialObject.after_snoc, ← haccounted.value]
    rfl
  idle other hother := by
    by_cases hcall : other = call
    · subst hcall
      simp [Atomic.setStatus] at hother
    · simp only [Atomic.setStatus, Function.update_of_ne hcall] at hother
      simpa [hcall] using haccounted.idle other hother
  pending other hother := by
    by_cases hcall : other = call
    · subst hcall
      simp [Atomic.setStatus] at hother
    · simp only [Atomic.setStatus, Function.update_of_ne hcall] at hother
      simpa [hcall] using haccounted.pending other hother
  placed other result hother := by
    by_cases hcall : other = call
    · subst hcall
      refine ⟨state.order, [], rfl, ?_⟩
      rw [SequentialObject.answer, ← haccounted.value]
      simpa [Atomic.setStatus] using hother
    · simp only [Atomic.setStatus, Function.update_of_ne hcall] at hother
      obtain ⟨before, after, horder, hanswer⟩ := haccounted.placed other result hother
      exact ⟨before, after ++ [call], by simp [horder], hanswer⟩

theorem Accounted.respond (haccounted : Accounted object argument history state) {call : ι}
    {result : ρ} (hstatus : state.status call = .committed result) :
    Accounted object argument (history ++ [.respond call result])
      (state.setStatus call (.responded result)) where
  nodup := haccounted.nodup
  invoked other hother := List.mem_append_left _ (haccounted.invoked other hother)
  answered other recorded hother := by
    rcases List.mem_append.mp hother with hbefore | hlast
    · exact haccounted.answered other recorded hbefore
    · obtain ⟨rfl, rfl⟩ : other = call ∧ recorded = result := by simpa using hlast
      exact haccounted.placed other recorded (.inl hstatus)
  realTime first recorded second hsublist hsecond := by
    rcases sublist_snoc_cases hsublist with hbefore | hlast
    · exact haccounted.realTime first recorded second hbefore hsecond
    · cases hlast
  value := haccounted.value
  idle other hother := by
    by_cases hcall : other = call
    · subst hcall
      simp [Atomic.setStatus] at hother
    · simp only [Atomic.setStatus, Function.update_of_ne hcall] at hother
      simpa using haccounted.idle other hother
  pending other hother := by
    by_cases hcall : other = call
    · subst hcall
      simp [Atomic.setStatus] at hother
    · simp only [Atomic.setStatus, Function.update_of_ne hcall] at hother
      simpa using haccounted.pending other hother
  placed other recorded hother := by
    by_cases hcall : other = call
    · subst hcall
      obtain rfl : result = recorded := by simpa [Atomic.setStatus] using hother
      exact haccounted.placed other result (.inl hstatus)
    · simp only [Atomic.setStatus, Function.update_of_ne hcall] at hother
      exact haccounted.placed other recorded hother

variable [DecidableEq ρ]

/-- A step of the atomic object is accounted for. -/
theorem Accounted.step (haccounted : Accounted object argument history state)
    (htaken : Atomic.step object argument state label = some next) :
    Accounted object argument (history ++ label.visible) next := by
  cases label with
  | invoke call =>
      simp only [Atomic.step] at htaken
      split at htaken
      · obtain rfl := Option.some.inj htaken
        exact haccounted.invoke ‹_›
      · cases htaken
  | commit call =>
      simp only [Atomic.step] at htaken
      split at htaken
      · obtain rfl := Option.some.inj htaken
        rw [Label.visible, List.append_nil]
        exact haccounted.commit ‹_›
      · cases htaken
  | respond call result =>
      simp only [Atomic.step] at htaken
      split_ifs at htaken with hstatus
      obtain rfl := Option.some.inj htaken
      exact haccounted.respond hstatus

/-- Whatever the steps of the atomic object, the order of their effects accounts for what is
seen of them. -/
theorem Atomic.accounted {labels : List (Label ι ρ)}
    (hrun : exec (Atomic.step object argument) (Atomic.initial object) labels = some state) :
    Accounted object argument (labels.flatMap Label.visible) state := by
  refine exec_history (motive := fun prior state =>
    Accounted object argument (prior.flatMap Label.visible) state) accounted_initial ?_ hrun
  intro prior state label next _ haccounted htaken
  rw [List.flatMap_append, List.flatMap_singleton]
  exact haccounted.step htaken

end Accounted

end Object

end FireboltTransport.Semantics
