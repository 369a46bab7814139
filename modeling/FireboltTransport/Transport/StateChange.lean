/-
# Telling the observers of a channel

`StateChange` walks `_observers`, a linked list of transports, and calls `Opened` or
`Closed` on each.  What such a call leads to is arbitrary code, which may come back to
`Unregister` on the same thread, since the lock is recursive, and erase any node of
the list.  The walk goes wrong exactly when a call erases the node it was made for.
-/

import FireboltTransport.Semantics.ListWalk
import FireboltTransport.Common

namespace FireboltTransport.StateChange

open Semantics

universe u

/-- A node of `_observers`. -/
structure Observer (τ : Type u) where
  address : UInt64
  client : τ
  deriving DecidableEq

/-- `_observers`; the nodes of a list are at different addresses. -/
structure Observers (τ : Type u) where
  nodes : List (Observer τ)
  nodup : (nodes.map fun observer => observer.address).Nodup

/-- A call of `Opened` or `Closed`. -/
structure Notice (τ : Type u) where
  observer : Observer τ
  opened : Bool
  deriving DecidableEq

/-- The list, and the calls made so far. -/
structure State (τ : Type u) where
  observers : List (Observer τ)
  notices : List (Notice τ)
  deriving DecidableEq

/-- What the callbacks do: the clients unregistered in the last of these calls, one after the
other. -/
abbrev Behaviour (τ : Type u) := List (Notice τ) → List τ

variable {τ : Type u} [DecidableEq τ]

/-- `Unregister`: the first node of the client is erased. -/
def unregister (observers : List (Observer τ)) (client : τ) : List (Observer τ) :=
  observers.eraseP fun observer => observer.client = client

/-- The call made for a node; `isOpen` tells what the channel says each time it is asked. -/
def notify (isOpen : ℕ → Bool) (behaviour : Behaviour τ) (state : State τ)
    (observer : Observer τ) : State τ :=
  let notices := state.notices ++ [⟨observer, isOpen state.notices.length⟩]
  { observers := (behaviour notices).foldl unregister state.observers
    notices := notices }

/-- `StateChange`.  The walk takes a turn for each observer at most, and one to find the end. -/
def stateChange (isOpen : ℕ → Bool) (behaviour : Behaviour τ) (observers : Observers τ) :
    Option (WalkOutcome (State τ)) :=
  walk State.observers (notify isOpen behaviour) (observers.nodes.length + 1)
    observers.nodes.head? ⟨observers.nodes, []⟩

/-- Each observer of the list is notified when its turn comes, if it is still registered. -/
def notifiedInTurn (isOpen : ℕ → Bool) (behaviour : Behaviour τ) (observers : Observers τ) :
    State τ :=
  inTurn State.observers (notify isOpen behaviour) observers.nodes ⟨observers.nodes, []⟩

/-- `StateChange` ends, without advancing from an erased node; it has notified those observers
that were still registered when their turn came, and none of them twice. -/
structure ReachesObservers (isOpen : ℕ → Bool) (behaviour : Behaviour τ)
    (observers : Observers τ) : Prop where
  ends : stateChange isOpen behaviour observers =
    some (.done (notifiedInTurn isOpen behaviour observers))
  once : ((notifiedInTurn isOpen behaviour observers).notices.map
    fun notice => notice.observer).Nodup

/-- No call unregisters the observer it was made for. -/
def SparesOwn (isOpen : ℕ → Bool) (behaviour : Behaviour τ) (observers : Observers τ) : Prop :=
  VisitsLeaveOwn State.observers (notify isOpen behaviour) observers.nodes ⟨observers.nodes, []⟩

instance (isOpen : ℕ → Bool) (behaviour : Behaviour τ) (observers : Observers τ) :
    Decidable (SparesOwn isOpen behaviour observers) :=
  VisitsLeaveOwn.decidable _ _ _ _

/-! ## What a call does to the list -/

section Notify

variable {isOpen : ℕ → Bool} {behaviour : Behaviour τ}

theorem sublist_foldl_unregister (clients : List τ) (observers : List (Observer τ)) :
    (clients.foldl unregister observers).Sublist observers := by
  induction clients generalizing observers with
  | nil => exact .refl _
  | cons client clients ih => exact (ih _).trans List.eraseP_sublist

/-- A call adds no observer. -/
theorem sublist_notify (state : State τ) (observer : Observer τ) :
    (notify isOpen behaviour state observer).observers.Sublist state.observers :=
  sublist_foldl_unregister _ _

omit [DecidableEq τ] in
theorem Observers.nodup_nodes (observers : Observers τ) : observers.nodes.Nodup :=
  observers.nodup.of_map _

/-- The walk in turn notifies nodes that are ahead of it, in their order. -/
theorem notices_inTurn (ahead : List (Observer τ)) (state : State τ) :
    ∃ notified, notified.Sublist ahead ∧
      ((inTurn State.observers (notify isOpen behaviour) ahead state).notices.map
        fun notice => notice.observer) =
        (state.notices.map fun notice => notice.observer) ++ notified := by
  induction ahead generalizing state with
  | nil => exact ⟨[], .slnil, by simp [inTurn]⟩
  | cons observer ahead ih =>
      simp only [inTurn]
      split_ifs with hthere
      · obtain ⟨notified, hsub, hnotices⟩ := ih (notify isOpen behaviour state observer)
        refine ⟨observer :: notified, hsub.cons_cons observer, ?_⟩
        rw [hnotices]
        simp [notify]
      · obtain ⟨notified, hsub, hnotices⟩ := ih state
        exact ⟨notified, hsub.cons observer, hnotices⟩

end Notify

/-- **When a state change reaches the observers.**  For every list of observers and every
behaviour of their callbacks, `StateChange` notifies the observers that are registered when
their turn comes, each of them once, if and only if no call unregisters the observer it was
made for. -/
theorem reachesObservers_iff (isOpen : ℕ → Bool) (behaviour : Behaviour τ)
    (observers : Observers τ) :
    ReachesObservers isOpen behaviour observers ↔ SparesOwn isOpen behaviour observers := by
  have hwalk : (SparesOwn isOpen behaviour observers →
      stateChange isOpen behaviour observers =
        some (.done (notifiedInTurn isOpen behaviour observers))) ∧
      (¬ SparesOwn isOpen behaviour observers →
        ∃ stopped, stateChange isOpen behaviour observers = some (.undefined stopped)) :=
    walk_from sublist_notify (List.nil_append observers.nodes).symm observers.nodup_nodes
      (Nat.lt_succ_self _)
  constructor
  · intro hreaches
    by_contra hnot
    obtain ⟨stopped, hstopped⟩ := hwalk.2 hnot
    have hends := hreaches.ends
    rw [hstopped] at hends
    cases hends
  · intro hspares
    refine ⟨hwalk.1 hspares, ?_⟩
    obtain ⟨notified, hsub, hnotices⟩ : ∃ notified : List (Observer τ),
        notified.Sublist observers.nodes ∧
          ((notifiedInTurn isOpen behaviour observers).notices.map
            fun notice => notice.observer) = [] ++ notified :=
      notices_inTurn observers.nodes ⟨observers.nodes, []⟩
    rw [hnotices]
    exact hsub.nodup observers.nodup_nodes

/-- The only observer unregisters when it is told that the channel is closed. -/
theorem not_reachesObservers_leaving :
    ¬ ∀ (isOpen : ℕ → Bool) (behaviour : Behaviour Unit) (observers : Observers Unit),
      ReachesObservers isOpen behaviour observers := by
  intro hreaches
  have hends := (hreaches (fun _ => false) (fun _ => [()]) ⟨[⟨16, ()⟩], by decide⟩).ends
  exact absurd hends (by decide)

end FireboltTransport.StateChange
