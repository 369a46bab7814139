/-
# References into the pending queue

`WaitForResponse` and `Abort` look an identifier up under `_adminLock`, keep a
reference to the entry, and use it after the unlock.  Nothing tells a section that
erases entries which of them are in use: a wait that has timed out erases its own
entry under an `Abort` that has found it, and `Closed` erases all of them.  An
`Abort` sets the signal of the entry and gives it no response, so the wait that
wakes up reads the front of an empty list.
-/

import FireboltTransport.Transport.AdminLock
import FireboltTransport.Transport.Sweep

namespace FireboltTransport.Sections

open Semantics Transport

universe u v

variable {τ : Type u} {κ : Type v}

/-- The entry that is used after the unlock. -/
def Rest.reference : Rest κ → Option (MessageID × κ)
  | .wait id owner | .read id owner | .abort id owner => some (id, owner)
  | .submit _ | .refuse | .notify | .finish _ => none

def Stage.reference : Stage κ → Option (MessageID × κ)
  | .leave rest | .outside rest => rest.reference
  | .check _ _ _ | .enter _ | .inside _ => none

/-- The reference an operation holds. -/
def Phase.reference : Phase τ κ → Option (MessageID × κ)
  | .running _ _ stage => stage.reference
  | .idle | .returned _ _ _ _ | .undefined => none

section Sound

variable [DecidableEq κ]

/-- What an operation that has come this far must not have done. -/
structure Phase.Sound (state : State τ κ) (phase : Phase τ κ) : Prop where
  /-- It has not used the end iterator, an erased entry or the front of an empty list. -/
  defined : phase ≠ .undefined
  /-- The entry it waits on, reads or aborts exists. -/
  live : ∀ id owner, phase.reference = some (id, owner) → state.entry id owner ≠ none
  /-- It evaluates `Response()` on an entry that has one. -/
  answered : ∀ thread entered id owner,
    phase = .running thread entered (.outside (.read id owner)) →
      ∃ signalled first rest, state.entry id owner = some (.synchronous signalled (first :: rest))
  /-- A wait that has ended without a response has returned an error; no response reaches an entry
  in the runs of these operations. -/
  failed : ∀ thread entered left error filled,
    phase = .returned thread entered left (.response error filled) → error ≠ .none

/-- Every operation reads entries that exist. -/
def ReadsExisting (state : State τ κ) : Prop :=
  ∀ op, (state.phase op).Sound state

/-! ## When references are kept -/

/-- The section looks up what is there, and erases nothing another operation refers to. -/
def Body.KeepsReferences (state : State τ κ) : Body → Prop
  | .find id _ => state.pendingQueue.lookup id ≠ none
  | .erase id _ _ => ∀ op, ∀ reference ∈ (state.phase op).reference, reference.1 ≠ id
  | .abortAll => ∀ op, (state.phase op).reference = none
  | .emplace _ _ _ | .revoke _ | .sweep _ => True

/-- The signal of the entry is set. -/
def State.Signalled (state : State τ κ) (id : MessageID) (owner : κ) : Prop :=
  ∃ response, state.entry id owner = some (.synchronous true response)

/-- The wait is not ended by a signal. -/
def Stage.KeepsReferences (state : State τ κ) : Stage κ → Prop
  | .inside body => body.KeepsReferences state
  | .outside (.wait id owner) => ¬ state.Signalled id owner
  | .check _ _ _ | .enter _ | .leave _ | .outside _ => True

/-- The step takes no entry away that is in use, and uses none that is not there. -/
def KeepsReferences (state : State τ κ) : Action τ κ → Prop
  | .next op =>
      match state.phase op with
      | .running _ _ stage => stage.KeepsReferences state
      | .idle | .returned _ _ _ _ | .undefined => True
  | .suspend _ | .start _ _ _ | .expire _ => True

instance (state : State τ κ) (id : MessageID) (owner : κ) :
    Decidable (state.Signalled id owner) :=
  match hentry : state.entry id owner with
  | some (.synchronous true response) => isTrue ⟨response, hentry⟩
  | some (.synchronous false _) => isFalse (by simp [State.Signalled, hentry])
  | some (.asynchronous _) => isFalse (by simp [State.Signalled, hentry])
  | none => isFalse (by simp [State.Signalled, hentry])

instance [Fintype κ] (state : State τ κ) : ∀ body : Body, Decidable (body.KeepsReferences state)
  | .find id _ => inferInstanceAs (Decidable (state.pendingQueue.lookup id ≠ none))
  | .erase id _ _ => decidable_of_iff
      (∀ op, ((state.phase op).reference.all fun reference => reference.1 ≠ id) = true)
      (forall_congr' fun op => by cases (state.phase op).reference <;> simp)
  | .abortAll => inferInstanceAs (Decidable (∀ op, (state.phase op).reference = none))
  | .emplace _ _ _ | .revoke _ | .sweep _ => isTrue trivial

instance [Fintype κ] (state : State τ κ) :
    ∀ stage : Stage κ, Decidable (stage.KeepsReferences state)
  | .inside body => inferInstanceAs (Decidable (body.KeepsReferences state))
  | .outside (.wait id owner) => inferInstanceAs (Decidable (¬ state.Signalled id owner))
  | .outside (.submit _) | .outside .refuse | .outside (.read _ _) | .outside (.abort _ _)
  | .outside .notify | .outside (.finish _) => isTrue trivial
  | .check _ _ _ | .enter _ | .leave _ => isTrue trivial

instance [Fintype κ] (state : State τ κ) : ∀ action, Decidable (KeepsReferences state action)
  | .next op =>
      match hphase : state.phase op with
      | .running _ _ stage => decidable_of_iff (stage.KeepsReferences state)
          (by simp only [KeepsReferences, hphase])
      | .idle | .returned _ _ _ _ | .undefined => isTrue (by simp only [KeepsReferences, hphase])
  | .suspend _ | .start _ _ _ | .expire _ => isTrue trivial

/-! ## What the sections keep -/

/-- What comes after a wait is a report of an error, and never the evaluation of `Response()`. -/
def Rest.Fails : Rest κ → Prop
  | .read _ _ => False
  | .finish (.response error _) => error ≠ .none
  | .finish _ | .submit _ | .refuse | .wait _ _ | .abort _ _ | .notify => True

def Stage.Fails (codes : CoreErrors) : Stage κ → Prop
  | .enter (.erase _ result _) | .inside (.erase _ result _) =>
      codes.fireboltErrorValue result ≠ .none
  | .leave rest | .outside rest => rest.Fails
  | .enter _ | .inside _ | .check _ _ _ => True

/-- Every entry is synchronous and has no response. -/
def Unanswered (pending : StdMap MessageID (Node κ)) : Prop :=
  ∀ id node, pending.lookup id = some node → ∃ signalled, node.entry = .synchronous signalled []

structure Referenced (codes : CoreErrors) (state : State τ κ) : Prop where
  reads : ReadsExisting state
  fails : ∀ op thread entered stage, state.phase op = .running thread entered stage →
    stage.Fails codes
  channel : state.channel ≠ none
  unanswered : Unanswered state.pendingQueue

theorem referenced_initial (codes : CoreErrors) : Referenced codes (initial : State τ κ) where
  reads := fun _ => ⟨by simp [initial], by simp [initial, Phase.reference],
    by simp [initial], by simp [initial]⟩
  fails := by simp [initial]
  channel := by simp [initial]
  unanswered := by simp [Unanswered, initial]

variable {codes : CoreErrors} {state after next : State τ κ} {op : κ}

theorem entry_congr {id : MessageID} (owner : κ)
    (hlookup : after.pendingQueue.lookup id = state.pendingQueue.lookup id) :
    after.entry id owner = state.entry id owner := by
  rw [State.entry, hlookup, State.entry]

/-- A reference names the entry under its identifier. -/
theorem entry_ne_none_iff {id : MessageID} {owner : κ} :
    state.entry id owner ≠ none ↔
      ∃ node, state.pendingQueue.lookup id = some node ∧ node.owner = owner := by
  unfold State.entry
  cases state.pendingQueue.lookup id with
  | none => simp
  | some node => by_cases howner : node.owner = owner <;> simp [howner]

/-- An entry that is alive has no response. -/
theorem Unanswered.entry_cases (hunanswered : Unanswered state.pendingQueue) {id : MessageID}
    {owner : κ} (hlive : state.entry id owner ≠ none) :
    ∃ node signalled, state.pendingQueue.lookup id = some node ∧ node.owner = owner ∧
      state.entry id owner = some (.synchronous signalled []) := by
  obtain ⟨node, hlookup, rfl⟩ := entry_ne_none_iff.mp hlive
  obtain ⟨signalled, hentry⟩ := hunanswered id node hlookup
  exact ⟨node, signalled, hlookup, rfl, by simp [State.entry, hlookup, hentry]⟩

/-- A step of one operation keeps the references of all when the entries they name stay. -/
theorem Referenced.setPhase (hreferenced : Referenced codes state) {phase : Phase τ κ}
    (hphase : after.phase = state.phase) (hchannel : after.channel ≠ none)
    (hunanswered : Unanswered after.pendingQueue)
    (hlive : ∀ other id owner, (state.phase other).reference = some (id, owner) →
      after.entry id owner ≠ none)
    (hsound : phase.Sound after)
    (hfails : ∀ thread entered stage, phase = .running thread entered stage →
      stage.Fails codes) :
    Referenced codes (after.setPhase op phase) where
  reads := by
    intro other
    by_cases hop : other = op
    · subst hop
      rw [State.setPhase_phase]
      exact ⟨hsound.defined, hsound.live, hsound.answered, hsound.failed⟩
    · have hother := hreferenced.reads other
      rw [after.setPhase_phase_of_ne hop, hphase]
      refine ⟨hother.defined, hlive other, ?_, hother.failed⟩
      intro thread entered id owner hread
      exact (hreferenced.fails other thread entered _ hread).elim
  fails := by
    intro other thread entered stage hother
    by_cases hop : other = op
    · subst hop
      rw [State.setPhase_phase] at hother
      exact hfails thread entered stage hother
    · rw [after.setPhase_phase_of_ne hop, hphase] at hother
      exact hreferenced.fails other thread entered stage hother
  channel := hchannel
  unanswered := hunanswered

/-- An operation goes on soundly to a stage whose reference is alive. -/
theorem sound_running {stage : Stage κ} {thread : τ} {entered : ℕ}
    (hlive : ∀ id owner, stage.reference = some (id, owner) → state.entry id owner ≠ none)
    (hfails : stage.Fails codes) : (Phase.running thread entered stage).Sound state where
  defined := by simp
  live := hlive
  answered := by
    rintro which times id owner ⟨⟩
    exact hfails.elim
  failed := by simp

theorem sound_returned {result : Result} {thread : τ} {entered left : ℕ}
    (hresult : ∀ error filled, result = .response error filled → error ≠ .none) :
    (Phase.returned thread entered left result).Sound state where
  defined := by simp
  live := by simp [Phase.reference]
  answered := by simp
  failed := by
    rintro which times last error filled ⟨⟩
    exact hresult error filled rfl

/-- The outcome of a step, in the state after it, is one an operation may come to. -/
def Outcome.Keeps (codes : CoreErrors) (after : State τ κ) : Outcome κ → Prop
  | .goOn stage => stage.Fails codes ∧
      ∀ id owner, stage.reference = some (id, owner) → after.entry id owner ≠ none
  | .return result => ∀ error filled, result = .response error filled → error ≠ .none
  | .undefined => False

/-- An operation may come to an unlock after which it uses no entry. -/
theorem keeps_leave {rest : Rest κ} (hfails : rest.Fails) (hnone : rest.reference = none) :
    (Outcome.goOn (.leave rest)).Keeps codes after :=
  ⟨hfails, by simp [Stage.reference, hnone]⟩

/-- What a step of one operation leaves alone. -/
structure Kept (codes : CoreErrors) (state after : State τ κ) (outcome : Outcome κ) : Prop where
  phase : after.phase = state.phase
  channel : after.channel = state.channel
  unanswered : Unanswered after.pendingQueue
  live : ∀ op id owner, (state.phase op).reference = some (id, owner) → after.entry id owner ≠ none
  outcome : outcome.Keeps codes after

section Run

variable {outcome : Outcome κ}

/-- A step that erases what no operation refers to. -/
theorem Referenced.kept_erased (hreferenced : Referenced codes state)
    (hphase : after.phase = state.phase) (hchannel : after.channel = state.channel)
    (herased : ∀ id, after.pendingQueue.lookup id = state.pendingQueue.lookup id ∨
      after.pendingQueue.lookup id = none ∧
        ∀ op, ∀ reference ∈ (state.phase op).reference, reference.1 ≠ id)
    (houtcome : outcome.Keeps codes after) : Kept codes state after outcome where
  phase := hphase
  channel := hchannel
  unanswered := by
    intro id node hnode
    obtain hsame | ⟨hgone, _⟩ := herased id
    · rw [hsame] at hnode
      exact hreferenced.unanswered id node hnode
    · rw [hgone] at hnode
      cases hnode
  live := by
    intro op id owner hreference
    obtain hsame | ⟨_, hunused⟩ := herased id
    · rw [entry_congr owner hsame]
      exact (hreferenced.reads op).live id owner hreference
    · exact absurd rfl (hunused op (id, owner) hreference)
  outcome := houtcome

/-- A step that does not change the queue. -/
theorem Referenced.kept (hreferenced : Referenced codes state) (hphase : after.phase = state.phase)
    (hchannel : after.channel = state.channel)
    (hlookup : ∀ id, after.pendingQueue.lookup id = state.pendingQueue.lookup id)
    (houtcome : outcome.Keeps codes after) : Kept codes state after outcome :=
  hreferenced.kept_erased hphase hchannel (fun id => .inl (hlookup id)) houtcome

/-- A step that puts an entry without a response where there was none or one of the same owner. -/
theorem Referenced.kept_insert (hreferenced : Referenced codes state) {id : MessageID}
    {node : Node κ} (hphase : after.phase = state.phase) (hchannel : after.channel = state.channel)
    (hqueue : after.pendingQueue = state.pendingQueue.insert id node)
    (hnode : ∃ signalled, node.entry = .synchronous signalled [])
    (howner : ∀ old, state.pendingQueue.lookup id = some old → old.owner = node.owner)
    (houtcome : outcome.Keeps codes after) : Kept codes state after outcome where
  phase := hphase
  channel := hchannel
  unanswered := by
    rw [hqueue]
    exact StdMap.forall_lookup_insert hnode hreferenced.unanswered
  live := by
    intro op other owner hreference
    obtain ⟨old, hold, hsame⟩ :=
      entry_ne_none_iff.mp ((hreferenced.reads op).live other owner hreference)
    rw [entry_ne_none_iff, hqueue, StdMap.lookup_insert_of_eq_or_ne]
    split_ifs with hid
    · subst hid
      exact ⟨node, rfl, (howner old hold).symm.trans hsame⟩
    · exact ⟨old, hold, hsame⟩
  outcome := houtcome

/-- `Timed` erases nothing: the entries are synchronous. -/
theorem Referenced.lookup_sweep (hreferenced : Referenced codes state) (currentTime : UInt64)
    (order : List MessageID) (result : UInt64) (id : MessageID) :
    (timedLoop currentTime order state.pendingQueue result).1.lookup id =
      state.pendingQueue.lookup id := by
  rw [lookup_timedLoop]
  split_ifs
  · cases hnode : state.pendingQueue.lookup id with
    | none => rfl
    | some node =>
        obtain ⟨signalled, hentry⟩ := hreferenced.unanswered id node hnode
        simp [Node.Expired, hentry, Option.filter_some]
  · rfl

/-- A section that meets the condition. -/
theorem body_kept (hreferenced : Referenced codes state) (op : κ) {body : Body}
    (hkeeps : body.KeepsReferences state) (hfails : (Stage.inside body : Stage κ).Fails codes) :
    Kept codes state (body.run codes state op).1 (body.run codes state op).2 := by
  cases body with
  | emplace id message answer =>
      simp only [Body.run]
      cases hlookup : state.pendingQueue.lookup id with
      | none =>
          exact hreferenced.kept_insert rfl rfl rfl ⟨false, rfl⟩ (by simp [hlookup])
            (keeps_leave trivial rfl)
      | some node =>
          cases answer with
          | true => exact hreferenced.kept rfl rfl (fun _ => rfl) (keeps_leave trivial rfl)
          | false => exact hreferenced.kept rfl rfl (fun _ => rfl) (by simp [Outcome.Keeps])
  | find id use =>
      simp only [Body.run]
      cases hlookup : state.pendingQueue.lookup id with
      | none => exact absurd hlookup hkeeps
      | some node =>
          have hlive : state.entry id node.owner ≠ none :=
            entry_ne_none_iff.mpr ⟨node, hlookup, rfl⟩
          apply hreferenced.kept rfl rfl (fun _ => rfl)
          cases use with
          | wait => exact ⟨trivial, by rintro _ _ ⟨⟩; exact hlive⟩
          | abort => exact ⟨trivial, by rintro _ _ ⟨⟩; exact hlive⟩
  | erase id result filled =>
      refine hreferenced.kept_erased rfl rfl ?_ (keeps_leave hfails rfl)
      intro other
      show (state.pendingQueue.erase id).lookup other = _ ∨
        (state.pendingQueue.erase id).lookup other = none ∧ _
      rw [StdMap.lookup_erase_of_eq_or_ne]
      split_ifs with hid
      · subst hid
        exact .inr ⟨rfl, hkeeps⟩
      · exact .inl rfl
  | revoke eventName =>
      exact hreferenced.kept rfl rfl (fun _ => rfl) (keeps_leave trivial rfl)
  | sweep currentTime =>
      exact hreferenced.kept rfl rfl (hreferenced.lookup_sweep currentTime _ _)
        (keeps_leave trivial rfl)
  | abortAll =>
      refine hreferenced.kept_erased rfl rfl ?_ (keeps_leave trivial rfl)
      intro other
      refine .inr ⟨?_, ?_⟩
      · show (closedLoop state.pendingQueue.keys state.pendingQueue).1.lookup other = none
        rw [closedLoop_keys, AList.lookup_empty]
      · intro holder reference hreference
        rw [hkeeps holder] at hreference
        cases hreference

/-- A step after the unlock. -/
theorem rest_kept (hreferenced : Referenced codes state) {rest : Rest κ}
    (hlive : ∀ id owner, rest.reference = some (id, owner) → state.entry id owner ≠ none)
    (hkeeps : (Stage.outside rest).KeepsReferences state) (hfails : rest.Fails)
    (hrun : rest.run codes state op = some (after, outcome)) :
    Kept codes state after outcome := by
  cases rest with
  | submit message =>
      cases hrun
      exact hreferenced.kept rfl rfl (fun _ => rfl) (by simp [Outcome.Keeps])
  | refuse =>
      cases hrun
      exact hreferenced.kept rfl rfl (fun _ => rfl) (by simp [Outcome.Keeps])
  | wait id owner =>
      obtain ⟨node, signalled, hlookup, rfl, hread⟩ :=
        hreferenced.unanswered.entry_cases (hlive id owner rfl)
      simp only [Rest.run, hread] at hrun
      split_ifs at hrun with hsignalled
      subst hsignalled
      exact absurd ⟨[], hread⟩ hkeeps
  | read id owner => exact hfails.elim
  | abort id owner =>
      obtain ⟨node, signalled, hlookup, rfl, hread⟩ :=
        hreferenced.unanswered.entry_cases (hlive id owner rfl)
      simp only [Rest.run, hread] at hrun
      cases hrun
      refine hreferenced.kept_insert rfl rfl rfl ⟨true, rfl⟩ ?_ (by simp [Outcome.Keeps])
      intro old hold
      rw [Option.some.inj (hold.symm.trans hlookup)]
  | notify =>
      cases hrun
      exact hreferenced.kept rfl rfl (fun _ => rfl) (by simp [Outcome.Keeps])
  | finish result =>
      cases hrun
      refine hreferenced.kept rfl rfl (fun _ => rfl) ?_
      rintro error filled rfl
      exact hfails

variable [DecidableEq τ] {thread : τ} {entered : ℕ} {stage : Stage κ}

/-- A step of an operation that meets the condition. -/
theorem stage_kept (hreferenced : Referenced codes state)
    (hphase : state.phase op = .running thread entered stage)
    (hkeeps : stage.KeepsReferences state)
    (hrun : stage.run codes state op thread = some (after, outcome)) :
    Kept codes state after outcome := by
  have hfails := hreferenced.fails op thread entered stage hphase
  have hlive : ∀ id owner, stage.reference = some (id, owner) → state.entry id owner ≠ none := by
    have hsound := (hreferenced.reads op).live
    rw [hphase] at hsound
    exact hsound
  cases stage with
  | check id message answer =>
      simp only [Stage.run] at hrun
      split_ifs at hrun with hchannel hsuspended
      · exact absurd hchannel hreferenced.channel
      · cases hrun
        exact hreferenced.kept rfl rfl (fun _ => rfl) (by simp [Outcome.Keeps])
      · cases hrun
        exact hreferenced.kept rfl rfl (fun _ => rfl) ⟨trivial, by simp [Stage.reference]⟩
  | enter body =>
      obtain ⟨held, _, hpair⟩ := Option.map_eq_some_iff.mp hrun
      cases hpair
      exact hreferenced.kept rfl rfl (fun _ => rfl)
        ⟨by cases body <;> exact hfails, by simp [Stage.reference]⟩
  | inside body =>
      have hkept := body_kept hreferenced op hkeeps hfails
      rw [Option.some.inj hrun] at hkept
      exact hkept
  | leave rest =>
      cases hrun
      exact hreferenced.kept rfl rfl (fun _ => rfl) ⟨hfails, hlive⟩
  | outside rest => exact rest_kept hreferenced hlive hkeeps hfails hrun

/-- What a step leaves alone is enough for the references. -/
theorem Referenced.proceed (hreferenced : Referenced codes state)
    (hkept : Kept codes state after outcome) :
    Referenced codes (after.proceed op thread entered outcome) := by
  have hchannel : after.channel ≠ none := by
    rw [hkept.channel]
    exact hreferenced.channel
  have houtcome := hkept.outcome
  cases outcome with
  | goOn next =>
      refine hreferenced.setPhase hkept.phase hchannel hkept.unanswered hkept.live
        (sound_running houtcome.2 houtcome.1) ?_
      rintro _ _ _ ⟨⟩
      exact houtcome.1
  | «return» result =>
      apply hreferenced.setPhase
      · exact hkept.phase
      · exact hchannel
      · exact hkept.unanswered
      · exact hkept.live
      · exact sound_returned houtcome
      · simp
  | undefined => exact houtcome.elim

end Run

section Step

variable [DecidableEq τ] {parse : Text → Message} {action : Action τ κ}

omit [DecidableEq τ] [DecidableEq κ] in
/-- An operation begins without a reference, and draws from a channel that is there. -/
theorem first_kept (codes : CoreErrors) {operation : Operation} {channel later : Option Channel}
    {stage : Stage κ} (hchannel : channel ≠ none)
    (hfirst : operation.first parse channel = some (stage, later)) :
    later ≠ none ∧ stage.Fails codes ∧ stage.reference = none := by
  cases operation with
  | invokeAsync method parameters =>
      obtain ⟨current, _, hpair⟩ := Option.map_eq_some_iff.mp hfirst
      cases hpair
      exact ⟨by simp, trivial, rfl⟩
  | _ =>
      cases hfirst
      exact ⟨hchannel, trivial, rfl⟩

/-- A step that meets the condition keeps the references. -/
theorem Referenced.step (hreferenced : Referenced codes state)
    (hkeeps : KeepsReferences state action) (hstep : Step codes parse state action next) :
    Referenced codes next := by
  have hlive := fun op id owner => (hreferenced.reads op).live id owner
  cases hstep with
  | suspend suspended =>
      refine ⟨?_, hreferenced.fails, hreferenced.channel, hreferenced.unanswered⟩
      intro op
      have hsound := hreferenced.reads op
      exact ⟨hsound.defined, hsound.live, hsound.answered, hsound.failed⟩
  | start op thread operation stage channel hphase hbusy hfirst =>
      obtain ⟨hchannel, hfails, hreference⟩ := first_kept codes hreferenced.channel hfirst
      refine hreferenced.setPhase rfl hchannel hreferenced.unanswered hlive
        (sound_running (by simp [hreference]) hfails) ?_
      rintro _ _ _ ⟨⟩
      exact hfails
  | startUndefined op thread operation hphase hbusy hfirst =>
      cases operation with
      | invokeAsync method parameters =>
          exact absurd (Option.map_eq_none_iff.mp hfirst) hreferenced.channel
      | _ => cases hfirst
  | next op thread entered stage after outcome hphase hrun =>
      simp only [KeepsReferences, hphase] at hkeeps
      exact hreferenced.proceed (stage_kept hreferenced hphase hkeeps hrun)
  | expire op thread entered id owner signalled response hphase hentry =>
      have hfails : (Stage.enter (.erase id codes.errorTimedout none) : Stage κ).Fails codes := by
        rw [Stage.Fails, codes.fireboltErrorValue_errorTimedout]
        exact Error.timedout_ne_none
      refine hreferenced.setPhase rfl hreferenced.channel hreferenced.unanswered hlive
        (sound_running (by simp [Stage.reference]) hfails) ?_
      rintro _ _ _ ⟨⟩
      exact hfails

omit [DecidableEq τ] in
/-- What an operation refers to is in the queue. -/
theorem ReadsExisting.lookup (hreads : ReadsExisting state) {reference : MessageID × κ}
    (hreference : (state.phase op).reference = some reference) :
    state.pendingQueue.lookup reference.1 ≠ none := by
  obtain ⟨node, hnode, _⟩ := entry_ne_none_iff.mp ((hreads op).live _ _ hreference)
  simp [hnode]

/-- A step that does not meet it takes an entry away from its user, or reads one without a
response. -/
theorem Referenced.keepsReferences (hreferenced : Referenced codes state)
    (hstep : Step codes parse state action next) (hnext : ReadsExisting next) :
    KeepsReferences state action := by
  cases hstep with
  | next op thread entered stage after outcome hphase hrun =>
      simp only [KeepsReferences, hphase]
      -- An operation that refers to an entry is not the one that erases, and is not moved.
      have hstays : ∀ other reference, stage.reference = none →
          (state.phase other).reference = some reference →
            (after.proceed op thread entered outcome).pendingQueue.lookup reference.1 ≠ none := by
        intro other reference hnone hreference
        have hop : other ≠ op := by
          rintro rfl
          rw [hphase, Phase.reference, hnone] at hreference
          cases hreference
        have hstill : ((after.proceed op thread entered outcome).phase other).reference =
            some reference := by
          rw [after.proceed_phase_of_ne hop, (run_frame hrun).1, hreference]
        exact hnext.lookup hstill
      cases stage with
      | inside body =>
          have hpair := Option.some.inj hrun
          cases body with
          | find id use =>
              intro hlookup
              have hundefined : outcome = .undefined := by
                simp only [Body.run, hlookup] at hpair
                exact (Prod.mk.inj hpair).2.symm
              subst hundefined
              exact (hnext op).defined (by simp [State.proceed])
          | erase id result filled =>
              intro other reference hreference hid
              cases hpair
              subst hid
              exact hstays other reference rfl hreference (by simp [State.proceed])
          | abortAll =>
              intro other
              cases hreference : (state.phase other).reference with
              | none => rfl
              | some reference =>
                  cases hpair
                  exact (hstays other reference rfl hreference
                    (by simp [State.proceed, closedLoop_keys])).elim
          | _ => trivial
      | outside rest =>
          cases rest with
          | wait id owner =>
              rintro ⟨response, hentry⟩
              simp only [Stage.run, Rest.run, hentry, if_true] at hrun
              cases hrun
              obtain ⟨signalled, first, later, hread⟩ :=
                (hnext op).answered thread entered id owner (by simp [State.proceed])
              have hempty : state.entry id owner = _ := hread
              have hlive : state.entry id owner ≠ none := by simp [hentry]
              obtain ⟨node, set, _, _, hunanswered⟩ := hreferenced.unanswered.entry_cases hlive
              rw [hunanswered] at hempty
              cases hempty
          | _ => trivial
      | _ => trivial
  | _ => trivial

end Step

end Sound

/-- **Which entries are read.**  In every run of the operations from the construction of the
transport, no operation uses the end iterator, waits on, reads or aborts an erased entry or
evaluates `Response()` on an entry without one, and every wait that ends without a response
returns an error, if and only if every section looks up what is there and erases nothing another
operation refers to, and no wait is ended by a signal. -/
theorem readsExisting_throughout_iff [DecidableEq τ] [DecidableEq κ] {codes : CoreErrors}
    {parse : Text → Message} {schedule : List (Action τ κ)} {final : State τ κ}
    (hrun : exec (step codes parse) initial schedule = some final) :
    Throughout (step codes parse) initial schedule ReadsExisting ↔
      Meets (step codes parse) KeepsReferences initial schedule :=
  throughout_iff_meets (referenced_initial codes) (fun _ hreferenced => hreferenced.reads)
    (fun _ _ _ hreferenced hkeeps htaken => hreferenced.step hkeeps (step_cases htaken))
    (fun _ _ _ hreferenced htaken hnext =>
      hreferenced.keepsReferences (step_cases htaken) hnext) hrun

/-- An identifier is drawn and waited for in vain, and `Closed` comes afterwards. -/
theorem readsExisting_throughout_timedout :
    Throughout (step exampleCodes fun _ => .empty) (initial : State Bool (Fin 3))
      (runs 0 false (.invokeAsync [] []) 5 ++ runs 1 false (.waitForResponse 1) 3 ++
        [.expire 1, .next 1, .next 1, .next 1, .next 1] ++ runs 2 true .closed 4)
      ReadsExisting := by
  obtain ⟨final, hrun, _⟩ : ∃ final : State Bool (Fin 3),
      exec (step exampleCodes fun _ => .empty) initial
          (runs 0 false (.invokeAsync [] []) 5 ++ runs 1 false (.waitForResponse 1) 3 ++
            [.expire 1, .next 1, .next 1, .next 1, .next 1] ++ runs 2 true .closed 4) =
          some final ∧
        decide (final.phase 1 = .returned false 0 0 (.response .timedout none)) = true :=
    exists_exec_of_any (by decide)
  exact (readsExisting_throughout_iff hrun).mpr (by decide)

/-- A wait that is ended by an `Abort` evaluates `Response()` on an empty list. -/
theorem not_readsExisting_aborted :
    ¬ Throughout (step exampleCodes fun _ => .empty) (initial : State Bool (Fin 3))
      (runs 0 false (.invokeAsync [] []) 5 ++ runs 1 false (.waitForResponse 1) 3 ++
        runs 2 true (.abort 1) 4 ++ [.next 1, .next 1]) ReadsExisting := by
  intro hreads
  obtain ⟨final, hrun, hundefined⟩ : ∃ final : State Bool (Fin 3),
      exec (step exampleCodes fun _ => .empty) initial
          (runs 0 false (.invokeAsync [] []) 5 ++ runs 1 false (.waitForResponse 1) 3 ++
            runs 2 true (.abort 1) 4 ++ [.next 1, .next 1]) = some final ∧
        decide (final.phase 1 = .undefined) = true :=
    exists_exec_of_any (by decide)
  exact (hreads.last hrun 1).defined (of_decide_eq_true hundefined)

end FireboltTransport.Sections
