/-
# The timeout sweep

`Timed` walks `_pendingQueue` under the lock, erases the asynchronous entries that
have expired after telling their callbacks, and folds the least expiry of the
others into `result`, whose start value `~0` also stands for "none".  The map is
unordered, so the walk is taken in any order of the identifiers it holds.
-/

import FireboltTransport.Transport.PendingIds
import FireboltTransport.Transport.Sections

namespace FireboltTransport.Transport

/-- `Entry::ToMessage`. -/
def toMessage (codes : CoreErrors) (errorAsyncAborted : UInt32) (id : MessageID)
    (error : UInt32) : Message :=
  { Message.empty with
    id := ⟨true, id⟩
    error := ⟨true, error.toInt32,
      if error = errorAsyncAborted then "Pending a-sync call has been aborted".toList
      else if error = codes.errorTimedout then "Pending a-sync call has timed out".toList
      else []⟩ }

/-- The message a callback is invoked with. -/
def Completion.message (codes : CoreErrors) (errorAsyncAborted : UInt32) (id : MessageID) :
    Completion → Message
  | .aborted => toMessage codes errorAsyncAborted id errorAsyncAborted
  | .timedout => toMessage codes errorAsyncAborted id codes.errorTimedout

end FireboltTransport.Transport

namespace FireboltTransport.Sections

open Semantics Transport

universe u v

variable {τ : Type u} {κ : Type v}

/-- The callbacks that were invoked: the identifier of the entry, and the message. -/
def State.told (codes : CoreErrors) (errorAsyncAborted : UInt32) (state : State τ κ) :
    List (MessageID × Message) :=
  state.completions.map fun completion =>
    (completion.1, completion.2.message codes errorAsyncAborted completion.1)

/-- `Timed`, when the iterator comes to the identifiers in this order: the state it leaves and
what it returns. -/
def State.timed (state : State τ κ) (currentTime : UInt64) (order : List MessageID) :
    State τ κ × UInt64 :=
  let (pending, result, completions) :=
    timedLoop currentTime order state.pendingQueue (-1)
  let scheduledTime := if result ≠ -1 then result else 0
  ({ state with
      pendingQueue := pending
      scheduledTime := scheduledTime
      completions := state.completions ++ completions }, scheduledTime)

/-- The body of the section is the sweep in one of the orders. -/
theorem body_sweep [DecidableEq κ] (codes : CoreErrors) (state : State τ κ) (op : κ)
    (currentTime : UInt64) :
    (Body.sweep currentTime).run codes state op =
      let swept := state.timed currentTime state.pendingQueue.keys
      (swept.1, .goOn (.leave (.finish (.scheduled swept.2)))) := rfl

/-! ## What a sweep is for -/

/-- The entry is asynchronous and not later than the current time. -/
def Node.Expired (currentTime : UInt64) (node : Node κ) : Prop :=
  ∃ waitTime, node.entry = .asynchronous waitTime ∧ waitTime ≤ currentTime

instance (currentTime : UInt64) (node : Node κ) : Decidable (node.Expired currentTime) :=
  match hentry : node.entry with
  | .synchronous _ _ => isFalse (by simp [Node.Expired, hentry])
  | .asynchronous waitTime =>
      decidable_of_iff (waitTime ≤ currentTime) (by simp [Node.Expired, hentry])

/-- The expiries of the asynchronous entries. -/
def expiries (pending : StdMap MessageID (Node κ)) : Set UInt64 :=
  {waitTime | ∃ id node, pending.lookup id = some node ∧ node.entry = .asynchronous waitTime}

/-- The message says that the call of the identifier has timed out, and says nothing else. -/
structure SaysTimedout (codes : CoreErrors) (id : MessageID) (message : Message) : Prop where
  id : message.id = ⟨true, id⟩
  isError : message.error.isSet = true
  code : message.error.value.code = codes.errorTimedout.toInt32
  noResult : message.result.isSet = false
  noDesignator : message.designator.isSet = false

/-- What the sweep at `currentTime` should make of a state, and return. -/
structure SweptExactly (codes : CoreErrors) (errorAsyncAborted : UInt32) (currentTime : UInt64)
    (before : State τ κ) (result : State τ κ × UInt64) : Prop where
  /-- The expired entries are removed, and no other is changed. -/
  removed : ∀ id, result.1.pendingQueue.lookup id =
    (before.pendingQueue.lookup id).filter fun node => ¬ node.Expired currentTime
  /-- Each expired entry is told once, under its own identifier and with `ERROR_TIMEDOUT`, and
  nothing else is told. -/
  completed : ∃ told : List (MessageID × Message),
    result.1.told codes errorAsyncAborted = before.told codes errorAsyncAborted ++ told ∧
    (told.map Prod.fst).Nodup ∧
    (∀ id, id ∈ told.map Prod.fst ↔ ∃ node, before.pendingQueue.lookup id = some node ∧
      node.Expired currentTime) ∧
    ∀ id message, (id, message) ∈ told → SaysTimedout codes id message ∧
      message = toMessage codes errorAsyncAborted id codes.errorTimedout
  /-- The next expiry is returned. -/
  least : (expiries result.1.pendingQueue).Nonempty →
    IsLeast (expiries result.1.pendingQueue) result.2
  none : expiries result.1.pendingQueue = ∅ → result.2 = 0
  stored : result.1.scheduledTime = result.2

/-! ## The loop -/

section Loop

variable {currentTime : UInt64} {pending : StdMap MessageID (Node κ)} {id : MessageID}
  {node : Node κ}

/-- `Entry::Expired` on an entry that has expired. -/
theorem entry_expired_of_expired (hexpired : node.Expired currentTime) (nextTime : UInt64) :
    node.entry.expired id currentTime nextTime = (true, nextTime, [(id, .timedout)]) := by
  obtain ⟨waitTime, hentry, hle⟩ := hexpired
  rw [hentry, Entry.expired, if_neg (UInt64.not_lt.mpr hle)]

/-- `nextTime` after `Entry::Expired` on an entry that has not. -/
def Node.nextTime (node : Node κ) (nextTime : UInt64) : UInt64 :=
  match node.entry with
  | .synchronous _ _ => nextTime
  | .asynchronous waitTime => if waitTime < nextTime then waitTime else nextTime

/-- `Entry::Expired` on any other entry. -/
theorem entry_expired_of_not_expired (hkept : ¬ node.Expired currentTime) (nextTime : UInt64) :
    node.entry.expired id currentTime nextTime = (false, node.nextTime nextTime, []) := by
  unfold Node.nextTime
  cases hentry : node.entry with
  | synchronous signalled response => rfl
  | asynchronous waitTime =>
      have hlater : waitTime > currentTime := by
        rw [gt_iff_lt, ← UInt64.not_le]
        exact fun hle => hkept ⟨waitTime, hentry, hle⟩
      rw [Entry.expired, if_pos hlater]

theorem timedLoop_absent (habsent : pending.lookup id = none) (ahead : List MessageID)
    (result : UInt64) :
    timedLoop currentTime (id :: ahead) pending result =
      timedLoop currentTime ahead pending result := by
  rw [timedLoop, habsent]

theorem timedLoop_expired (hnode : pending.lookup id = some node)
    (hexpired : node.Expired currentTime) (ahead : List MessageID) (result : UInt64) :
    timedLoop currentTime (id :: ahead) pending result =
      let rest := timedLoop currentTime ahead (pending.erase id) result
      (rest.1, rest.2.1, (id, .timedout) :: rest.2.2) := by
  rw [timedLoop, hnode]
  simp only [entry_expired_of_expired hexpired]
  rfl

theorem timedLoop_kept (hnode : pending.lookup id = some node)
    (hkept : ¬ node.Expired currentTime) (ahead : List MessageID) (result : UInt64) :
    timedLoop currentTime (id :: ahead) pending result =
      timedLoop currentTime ahead pending (node.nextTime result) := by
  rw [timedLoop, hnode]
  simp only [entry_expired_of_not_expired hkept]
  rfl

/-- What is erased. -/
theorem lookup_timedLoop (ahead : List MessageID) (pending : StdMap MessageID (Node κ))
    (result : UInt64) (id : MessageID) :
    (timedLoop currentTime ahead pending result).1.lookup id =
      if id ∈ ahead then (pending.lookup id).filter fun node => ¬ node.Expired currentTime
      else pending.lookup id := by
  induction ahead generalizing pending result with
  | nil => simp [timedLoop]
  | cons first ahead ih =>
      cases hnode : pending.lookup first with
      | none =>
          rw [timedLoop_absent hnode, ih]
          by_cases hfirst : id = first
          · subst hfirst
            simp [hnode]
          · simp [hfirst]
      | some node =>
          by_cases hexpired : node.Expired currentTime
          · rw [timedLoop_expired hnode hexpired]
            show (timedLoop currentTime ahead (pending.erase first) result).1.lookup id = _
            rw [ih, StdMap.lookup_erase_of_eq_or_ne]
            by_cases hfirst : id = first
            · subst hfirst
              simp [hnode, hexpired, Option.filter_some]
            · simp [hfirst]
          · rw [timedLoop_kept hnode hexpired, ih]
            by_cases hfirst : id = first
            · subst hfirst
              simp [hnode, hexpired, Option.filter_some]
            · simp [hfirst]

/-- The entry of the identifier has expired. -/
def expiredAt (currentTime : UInt64) (pending : StdMap MessageID (Node κ)) (id : MessageID) :
    Bool :=
  (pending.lookup id).any fun node => node.Expired currentTime

theorem expiredAt_erase_of_ne {first : MessageID} (hfirst : id ≠ first) :
    expiredAt currentTime (pending.erase first) id = expiredAt currentTime pending id := by
  rw [expiredAt, StdMap.lookup_erase_of_eq_or_ne, if_neg hfirst, expiredAt]

/-- Who is told. -/
theorem called_timedLoop {ahead : List MessageID} (hnodup : ahead.Nodup)
    (pending : StdMap MessageID (Node κ)) (result : UInt64) :
    (timedLoop currentTime ahead pending result).2.2 =
      (ahead.filter (expiredAt currentTime pending)).map fun id => (id, .timedout) := by
  induction ahead generalizing pending result with
  | nil => rfl
  | cons first ahead ih =>
      obtain ⟨hfirst, hahead⟩ := List.nodup_cons.mp hnodup
      cases hnode : pending.lookup first with
      | none =>
          have hnot : expiredAt currentTime pending first = false := by simp [expiredAt, hnode]
          rw [timedLoop_absent hnode, ih hahead, List.filter_cons, hnot]
          rfl
      | some node =>
          by_cases hexpired : node.Expired currentTime
          · have htrue : expiredAt currentTime pending first = true := by
              simp [expiredAt, hnode, hexpired]
            have hrest : ahead.filter (expiredAt currentTime (pending.erase first)) =
                ahead.filter (expiredAt currentTime pending) := by
              apply List.filter_congr
              intro id hid
              exact expiredAt_erase_of_ne fun hsame => hfirst (hsame ▸ hid)
            rw [timedLoop_expired hnode hexpired, List.filter_cons, htrue]
            simp only [ih hahead, hrest, if_true, List.map_cons]
          · have hnot : expiredAt currentTime pending first = false := by
              simp [expiredAt, hnode, hexpired]
            rw [timedLoop_kept hnode hexpired, ih hahead, List.filter_cons, hnot]
            rfl

/-- The expiries that are ahead of the iterator and stay. -/
def laterExpiries (currentTime : UInt64) (ahead : List MessageID)
    (pending : StdMap MessageID (Node κ)) : Set UInt64 :=
  {waitTime | ∃ id ∈ ahead, ∃ node, pending.lookup id = some node ∧
    node.entry = .asynchronous waitTime ∧ ¬ node.Expired currentTime}

/-- An entry that stays takes part in the minimum, if it is asynchronous. -/
theorem laterExpiries_kept (hnode : pending.lookup id = some node)
    (hkept : ¬ node.Expired currentTime) (ahead : List MessageID) :
    laterExpiries currentTime (id :: ahead) pending =
      {waitTime | node.entry = .asynchronous waitTime} ∪
        laterExpiries currentTime ahead pending := by
  ext waitTime
  simp only [laterExpiries, List.mem_cons, Set.mem_union, Set.mem_ofPred_eq]
  constructor
  · intro hlater
    obtain ⟨other, rfl | hother, found, hfound, hentry, hstays⟩ := hlater
    · obtain rfl : node = found := Option.some.inj (hnode.symm.trans hfound)
      exact .inl hentry
    · exact .inr ⟨other, hother, found, hfound, hentry, hstays⟩
  · intro hlater
    obtain hentry | ⟨other, hother, hfound⟩ := hlater
    · exact ⟨id, .inl rfl, node, hnode, hentry, hkept⟩
    · exact ⟨other, .inr hother, hfound⟩

/-- One that does not stay takes no part. -/
theorem laterExpiries_gone {rest : StdMap MessageID (Node κ)} {ahead : List MessageID}
    (hgone : ∀ node, pending.lookup id = some node → node.Expired currentTime)
    (hrest : ∀ other ∈ ahead, rest.lookup other = pending.lookup other) :
    laterExpiries currentTime (id :: ahead) pending = laterExpiries currentTime ahead rest := by
  ext waitTime
  simp only [laterExpiries, List.mem_cons, Set.mem_ofPred_eq]
  constructor
  · intro hlater
    obtain ⟨other, rfl | hother, found, hfound, hentry, hstays⟩ := hlater
    · exact absurd (hgone found hfound) hstays
    · exact ⟨other, hother, found, (hrest other hother).trans hfound, hentry, hstays⟩
  · intro hlater
    obtain ⟨other, hother, found, hfound, hentry, hstays⟩ := hlater
    exact ⟨other, .inr hother, found, (hrest other hother).symm.trans hfound, hentry, hstays⟩

/-- The comparison of `Entry::Expired` takes the entry into the minimum. -/
theorem isLeast_nextTime {later : Set UInt64} {result least : UInt64}
    (hleast : IsLeast (insert (node.nextTime result) later) least) :
    IsLeast (insert result ({waitTime | node.entry = .asynchronous waitTime} ∪ later)) least := by
  obtain ⟨hmem, hlower⟩ := hleast
  have hnext : least ≤ node.nextTime result := hlower (Set.mem_insert _ _)
  have hlater : ∀ waitTime ∈ later, least ≤ waitTime := fun waitTime hwait =>
    hlower (Set.mem_insert_of_mem _ hwait)
  unfold Node.nextTime at hmem hnext
  cases hentry : node.entry with
  | synchronous signalled response =>
      simp only [hentry] at hmem hnext
      constructor
      · rcases hmem with rfl | hmem
        · exact .inl rfl
        · exact .inr (.inr hmem)
      · intro waitTime hwait
        rcases hwait with rfl | hown | hwait
        · exact hnext
        · cases hown
        · exact hlater waitTime hwait
  | asynchronous own =>
      simp only [hentry] at hmem hnext
      have hboth : least ≤ own ∧ least ≤ result := by
        split_ifs at hnext with hlt
        · exact ⟨hnext, UInt64.le_trans hnext (UInt64.le_of_lt hlt)⟩
        · exact ⟨UInt64.le_trans hnext (UInt64.not_lt.mp hlt), hnext⟩
      constructor
      · rcases hmem with hmem | hmem
        · split_ifs at hmem with hlt
          · exact .inr (.inl (by rw [hmem]; rfl))
          · exact .inl hmem
        · exact .inr (.inr hmem)
      · intro waitTime hwait
        rcases hwait with rfl | hown | hwait
        · exact hboth.2
        · obtain rfl := Entry.asynchronous.inj hown
          exact hboth.1
        · exact hlater waitTime hwait

/-- What the minimum is taken over. -/
theorem isLeast_timedLoop {ahead : List MessageID} (hnodup : ahead.Nodup)
    (pending : StdMap MessageID (Node κ)) (result : UInt64) :
    IsLeast (insert result (laterExpiries currentTime ahead pending))
      (timedLoop currentTime ahead pending result).2.1 := by
  induction ahead generalizing pending result with
  | nil => simp [timedLoop, laterExpiries, IsLeast, lowerBounds]
  | cons first ahead ih =>
      obtain ⟨hfirst, hahead⟩ := List.nodup_cons.mp hnodup
      cases hnode : pending.lookup first with
      | none =>
          rw [timedLoop_absent hnode,
            laterExpiries_gone (by simp [hnode]) (fun other _ => rfl)]
          exact ih hahead pending result
      | some node =>
          by_cases hexpired : node.Expired currentTime
          · rw [timedLoop_expired hnode hexpired]
            have hgone : ∀ found, pending.lookup first = some found →
                found.Expired currentTime := by
              intro found hfound
              rwa [Option.some.inj (hfound.symm.trans hnode)]
            have hrest : ∀ other ∈ ahead,
                (pending.erase first).lookup other = pending.lookup other := by
              intro other hother
              exact AList.lookup_erase_ne fun hsame => hfirst (hsame ▸ hother)
            rw [laterExpiries_gone hgone hrest]
            exact ih hahead (pending.erase first) result
          · rw [timedLoop_kept hnode hexpired, laterExpiries_kept hnode hexpired]
            exact isLeast_nextTime (ih hahead pending (node.nextTime result))

end Loop

/-! ## The sweep -/

section Sweep

variable {state : State τ κ} {currentTime : UInt64} {order : List MessageID}
  (horder : order.Perm state.pendingQueue.keys)

include horder

theorem mem_order {id : MessageID} :
    id ∈ order ↔ ∃ node, state.pendingQueue.lookup id = some node := by
  rw [horder.mem_iff, ← AList.mem_keys, ← AList.lookup_isSome, Option.isSome_iff_exists]

theorem lookup_timed (id : MessageID) :
    (state.timed currentTime order).1.pendingQueue.lookup id =
      (state.pendingQueue.lookup id).filter fun node => ¬ node.Expired currentTime := by
  show (timedLoop currentTime order state.pendingQueue (-1)).1.lookup id = _
  rw [lookup_timedLoop]
  split_ifs with hid
  · rfl
  · have hnone : state.pendingQueue.lookup id = none := by
      rw [Option.eq_none_iff_forall_ne_some]
      exact fun node hnode => hid ((mem_order horder).mpr ⟨node, hnode⟩)
    rw [hnone]
    rfl

/-- The expiries that remain are those the minimum is taken over. -/
theorem expiries_timed :
    expiries (state.timed currentTime order).1.pendingQueue =
      laterExpiries currentTime order state.pendingQueue := by
  ext waitTime
  simp only [expiries, laterExpiries, lookup_timed horder, Set.mem_ofPred_eq,
    Option.filter_eq_some_iff, decide_eq_true_eq]
  constructor
  · intro hexpiry
    obtain ⟨id, node, ⟨hnode, hkept⟩, hentry⟩ := hexpiry
    exact ⟨id, (mem_order horder).mpr ⟨node, hnode⟩, node, hnode, hentry, hkept⟩
  · intro hexpiry
    obtain ⟨id, _, node, hnode, hentry, hkept⟩ := hexpiry
    exact ⟨id, node, ⟨hnode, hkept⟩, hentry⟩

/-- The identifiers of the entries that are told. -/
theorem mem_filter_expiredAt {id : MessageID} :
    id ∈ order.filter (expiredAt currentTime state.pendingQueue) ↔
      ∃ node, state.pendingQueue.lookup id = some node ∧ node.Expired currentTime := by
  rw [List.mem_filter, mem_order horder, expiredAt, Option.any_eq_true]
  constructor
  · intro hboth
    obtain ⟨node, hnode, hexpired⟩ := hboth.2
    exact ⟨node, hnode, of_decide_eq_true hexpired⟩
  · intro hexpired
    obtain ⟨node, hnode, hexpired⟩ := hexpired
    exact ⟨⟨node, hnode⟩, node, hnode, decide_eq_true hexpired⟩

/-- What they are told. -/
theorem completions_timed :
    (state.timed currentTime order).1.completions = state.completions ++
      (order.filter (expiredAt currentTime state.pendingQueue)).map fun id => (id, .timedout) := by
  have hnodup : order.Nodup := horder.nodup_iff.mpr state.pendingQueue.keys_nodup
  rw [← called_timedLoop hnodup state.pendingQueue (-1)]
  rfl

end Sweep

/-- What an entry that has expired is told. -/
theorem saysTimedout_toMessage (codes : CoreErrors) (errorAsyncAborted : UInt32) (id : MessageID) :
    SaysTimedout codes id (toMessage codes errorAsyncAborted id codes.errorTimedout) :=
  ⟨rfl, rfl, rfl, rfl, rfl⟩

/-- **The sweep is exact.**  At every time and in every order of the walk, `Timed` removes the
expired asynchronous entries and no other, tells each of them once, under its own identifier and
with `ERROR_TIMEDOUT`, and returns the least expiry that remains, or zero. -/
theorem timed_sweptExactly (codes : CoreErrors) (errorAsyncAborted : UInt32)
    (state : State τ κ) (currentTime : UInt64) (order : List MessageID)
    (horder : order.Perm state.pendingQueue.keys)
    (hexpiry : ∀ waitTime ∈ expiries state.pendingQueue, waitTime.toNat < 2 ^ 64 - 1) :
    SweptExactly codes errorAsyncAborted currentTime state (state.timed currentTime order) := by
  have hnodup : order.Nodup := horder.nodup_iff.mpr state.pendingQueue.keys_nodup
  have hleast : IsLeast (insert (-1) (laterExpiries currentTime order state.pendingQueue))
      (timedLoop currentTime order state.pendingQueue (-1)).2.1 :=
    isLeast_timedLoop hnodup state.pendingQueue (-1)
  rw [← expiries_timed horder] at hleast
  have hsentinel : ∀ waitTime ∈ expiries (state.timed currentTime order).1.pendingQueue,
      waitTime.toNat < 2 ^ 64 - 1 := by
    intro waitTime hwait
    rw [expiries_timed horder] at hwait
    obtain ⟨id, _, node, hnode, hentry, _⟩ := hwait
    exact hexpiry waitTime ⟨id, node, hnode, hentry⟩
  have hreturned : (state.timed currentTime order).2 =
      if (timedLoop currentTime order state.pendingQueue (-1)).2.1 ≠ -1 then
        (timedLoop currentTime order state.pendingQueue (-1)).2.1 else 0 := rfl
  generalize (timedLoop currentTime order state.pendingQueue (-1)).2.1 = result at hleast hreturned
  constructor
  · exact lookup_timed horder
  · let told := (order.filter (expiredAt currentTime state.pendingQueue)).map fun id =>
      (id, toMessage codes errorAsyncAborted id codes.errorTimedout)
    have hids : told.map Prod.fst = order.filter (expiredAt currentTime state.pendingQueue) := by
      rw [List.map_map]
      exact List.map_id _
    refine ⟨told, ?_, ?_, ?_, ?_⟩
    · rw [State.told, completions_timed horder, List.map_append, List.map_map]
      rfl
    · rw [hids]
      exact hnodup.filter _
    · rw [hids]
      exact fun id => mem_filter_expiredAt horder
    · intro id message hmember
      obtain ⟨other, _, hsame⟩ := List.mem_map.mp hmember
      obtain ⟨rfl, rfl⟩ := Prod.mk.inj hsame
      exact ⟨saysTimedout_toMessage codes errorAsyncAborted other, rfl⟩
  · intro hsome
    have hnot : result ≠ -1 := by
      rintro rfl
      obtain ⟨waitTime, hwait⟩ := hsome
      have hle := UInt64.le_iff_toNat_le.mp (hleast.2 (Set.mem_insert_of_mem _ hwait))
      have hlt := hsentinel waitTime hwait
      have hvalue : (-1 : UInt64).toNat = 2 ^ 64 - 1 := rfl
      omega
    rw [hreturned, if_pos hnot]
    refine ⟨hleast.1.resolve_left hnot, ?_⟩
    intro waitTime hwait
    exact hleast.2 (Set.mem_insert_of_mem _ hwait)
  · intro hnone
    rw [hnone] at hleast
    have hresult : result = -1 := by simpa using hleast.1
    rw [hreturned, hresult]
    rfl
  · rfl

/-- A synchronous entry and two asynchronous ones. -/
def mixedQueue : StdMap MessageID (Node Unit) :=
  (((∅ : StdMap MessageID (Node Unit)).insert 1 ⟨(), .new⟩).insert 2
    ⟨(), .asynchronous 50⟩).insert 3 ⟨(), .asynchronous 200⟩

/-- At time 100 the entry that expires at 50 is told, under its identifier and with the code of
`ERROR_TIMEDOUT`, and the next sweep is due at 200. -/
theorem timed_sweptExactly_mixedQueue :
    ∃ swept : State Unit Unit × UInt64,
      ({ initial with pendingQueue := mixedQueue } : State Unit Unit).timed 100 [2, 1, 3] = swept ∧
      SweptExactly exampleCodes 40 100
        ({ initial with pendingQueue := mixedQueue } : State Unit Unit) swept ∧
      (swept.1.told exampleCodes 40).map
        (fun told => (told.1, told.2.id, told.2.error.value.code)) =
          [(2, ⟨true, 2⟩, exampleCodes.errorTimedout.toInt32)] ∧
      swept.2 = 200 := by
  refine ⟨_, rfl, timed_sweptExactly exampleCodes 40 _ 100 [2, 1, 3] (by decide) ?_, by decide,
    by decide⟩
  intro waitTime hexpiry
  obtain ⟨id, node, hnode, hentry⟩ := hexpiry
  have hmem : (⟨id, node⟩ : (_ : MessageID) × Node Unit) ∈ mixedQueue.entries :=
    StdMap.mem_entries_iff_lookup.mpr hnode
  have hall : ∀ entry ∈ mixedQueue.entries, entry.2.entry = .new ∨
      entry.2.entry = .asynchronous 50 ∨ entry.2.entry = .asynchronous 200 := by decide
  rcases hall _ hmem with hnew | hfirst | hsecond
  · rw [hentry] at hnew
    cases hnew
  · obtain rfl := Entry.asynchronous.inj (hentry.symm.trans hfirst)
    decide
  · obtain rfl := Entry.asynchronous.inj (hentry.symm.trans hsecond)
    decide

end FireboltTransport.Sections
