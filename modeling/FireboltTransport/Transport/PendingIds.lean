/-
# Identifiers of both directions in one map

Requests of our own are recorded under identifiers of the channel's counter,
answers to the peer under identifiers the peer has chosen, and both in
`_pendingQueue`, from which nothing on this path removes them.  An operation
fails exactly when its identifier has been recorded before.

Identifiers of our own are pairwise distinct.  Every operation is therefore
served exactly when no answer carries the identifier of another operation.
-/

import FireboltTransport.Transport.Operations

namespace FireboltTransport.Transport

open Semantics

universe u v

variable {τ : Type u} {κ : Type v}

namespace Phase

/-- The identifier and the call of an operation that has begun. -/
def request : Phase τ → Option (MessageID × Call)
  | .idle => none
  | .begun _ id call | .checked _ id call | .recorded id call | .returned id call _ =>
      some (id, call)

/-- The identifier an operation has drawn from the channel. -/
def drawnId (phase : Phase τ) : Option MessageID :=
  match phase.request with
  | some (id, .send _ _) => some id
  | _ => none

/-- The operation answers a request of the peer. -/
def isAnswer (phase : Phase τ) : Bool :=
  match phase.request with
  | some (_, .sendResponse _ _) => true
  | _ => false

/-- The identifier an operation has tried to record. -/
def attemptedId : Phase τ → Option MessageID
  | .recorded id _ | .returned id _ _ => some id
  | _ => none

/-- The identifier an operation has recorded. -/
def acceptedId : Phase τ → Option MessageID
  | .recorded id _ => some id
  | .returned id _ status => if status = .none then some id else none
  | _ => none

/-- What the operation has submitted if it was served. -/
def expected (parse : Text → Message) : Phase τ → List Message
  | .returned id call status => if status = .none then [call.message parse id] else []
  | _ => []

theorem drawnId_or_isAnswer {phase : Phase τ} {id : MessageID}
    (hattempted : phase.attemptedId = some id) :
    phase.drawnId = some id ∨ phase.isAnswer = true := by
  cases phase with
  | idle | begun thread other call | checked thread other call => cases hattempted
  | recorded other call | returned other call status =>
      cases hattempted
      cases call with
      | send method parameters => exact .inl rfl
      | sendResponse peer response => exact .inr rfl

theorem attemptedId_of_acceptedId {phase : Phase τ} {id : MessageID}
    (haccepted : phase.acceptedId = some id) : phase.attemptedId = some id := by
  cases phase with
  | returned other call status =>
      simp only [acceptedId] at haccepted
      split_ifs at haccepted
      exact haccepted
  | recorded other call => exact haccepted
  | _ => cases haccepted

end Phase

variable [DecidableEq κ]

/-- What the channel was asked to submit by one operation. -/
def State.submissions (state : State τ κ) (op : κ) : List Message :=
  (state.submitted.filter fun entry => entry.1 = op).map fun entry => entry.2

variable {codes : CoreErrors} {parse : Text → Message}

/-- Every operation that has returned was successful and has submitted its message once,
and every operation in progress can take its next step. -/
structure Served [DecidableEq τ] (codes : CoreErrors) (parse : Text → Message)
    (state : State τ κ) : Prop where
  returned : ∀ op id call status, state.phase op = .returned id call status →
    status = .none ∧ state.submissions op = [call.message parse id]
  check : ∀ op thread id call, state.phase op = .begun thread id call →
    (step codes parse state (.check op)).isSome
  record : ∀ op thread id call, state.phase op = .checked thread id call →
    (step codes parse state (.record op)).isSome
  submit : ∀ op id call, state.phase op = .recorded id call →
    (step codes parse state (.submit op)).isSome

/-- An answer carries no identifier that another operation has tried to record. -/
def AnswersApart (state : State τ κ) : Prop :=
  ∀ answer other id, (state.phase answer).isAnswer = true →
    (state.phase answer).attemptedId = some id → (state.phase other).attemptedId = some id →
    answer = other

/-- The invariant: `_pendingQueue` holds the identifiers of the accepted operations, one
operation each, and only operations that came second were refused. -/
structure Accounted (parse : Text → Message) (state : State τ κ) : Prop where
  valid : state.channel.isSome = true
  active : state.suspended = false
  pending_iff : ∀ id, (state.pendingQueue.lookup id).isSome = true ↔
    ∃ op, (state.phase op).acceptedId = some id
  accepted_injective : ∀ first second id, (state.phase first).acceptedId = some id →
    (state.phase second).acceptedId = some id → first = second
  refused : ∀ op id call status, state.phase op = .returned id call status → status ≠ .none →
    ∃ other, other ≠ op ∧ (state.phase other).acceptedId = some id
  submissions : ∀ op, state.submissions op = (state.phase op).expected parse
  unlocked : state.adminLock ≠ .free →
    ∃ op id call status, state.phase op = .returned id call status ∧ status ≠ .none

theorem accounted_initial : Accounted parse (initial : State τ κ) where
  valid := rfl
  active := rfl
  pending_iff := by simp [initial, Phase.acceptedId]
  accepted_injective := by simp [initial, Phase.acceptedId]
  refused := by simp [initial]
  submissions := by simp [initial, State.submissions, Phase.expected]
  unlocked := by simp [initial]

/-! ## What one step does to the recorded identifiers -/

/-- An operation whose new phase records what the old one did changes nothing for anybody. -/
theorem acceptedId_update {phases : κ → Phase τ} {op : κ} {phase : Phase τ}
    (hsame : phase.acceptedId = (phases op).acceptedId) (other : κ) :
    (Function.update phases op phase other).acceptedId = (phases other).acceptedId := by
  by_cases hother : other = op
  · subst hother
    simpa using hsame
  · simp [hother]

section Step

variable [DecidableEq τ] {state next : State τ κ} {action : Action τ κ}

/-- A step changes nothing, or one operation records its identifier for the first time. -/
theorem acceptedId_step (hstep : Step codes parse state action next)
    (hvalid : state.channel.isSome = true) :
    (next.pendingQueue = state.pendingQueue ∧
      ∀ op, (next.phase op).acceptedId = (state.phase op).acceptedId) ∨
    ∃ op id, state.pendingQueue.lookup id = none ∧
      next.pendingQueue = state.pendingQueue.insert id .new ∧
      (state.phase op).acceptedId = none ∧
      ∀ other, (next.phase other).acceptedId =
        if other = op then some id else (state.phase other).acceptedId := by
  cases hstep with
  | suspend suspended => exact .inl ⟨rfl, fun op => rfl⟩
  | unavailable op thread id call hphase hchannel => simp [hchannel] at hvalid
  | send op thread method parameters channel hphase | sendResponse op thread id response hphase
  | refuse op thread id call hphase | check op thread id call hphase
  | clashSend op thread id method parameters entry held hphase
  | clashResponse op thread id peer response entry held hphase
  | submit op id call hphase =>
      exact .inl ⟨rfl, acceptedId_update (by simp [hphase, Phase.acceptedId])⟩
  | record op thread id call held hphase hlock hunused =>
      refine .inr ⟨op, id, hunused, rfl, by simp [hphase, Phase.acceptedId], fun other => ?_⟩
      by_cases hother : other = op
      · simp [State.setPhase, hother, Phase.acceptedId]
      · simp [State.setPhase, hother]

/-- What is accepted stays accepted. -/
theorem acceptedId_mono (hstep : Step codes parse state action next)
    (hvalid : state.channel.isSome = true) {op : κ} {id : MessageID}
    (haccepted : (state.phase op).acceptedId = some id) :
    (next.phase op).acceptedId = some id := by
  rcases acceptedId_step hstep hvalid with
    ⟨_, hsame⟩ | ⟨recorder, own, _, _, hnone, hnext⟩
  · rw [hsame]
    exact haccepted
  · have hne : op ≠ recorder := by
      rintro rfl
      rw [hnone] at haccepted
      cases haccepted
    rw [hnext, if_neg hne]
    exact haccepted

theorem pending_iff_step (hstep : Step codes parse state action next)
    (haccounted : Accounted parse state) (id : MessageID) :
    (next.pendingQueue.lookup id).isSome = true ↔
      ∃ op, (next.phase op).acceptedId = some id := by
  have hprior := haccounted.pending_iff id
  rcases acceptedId_step hstep haccounted.valid with
    ⟨hqueue, hsame⟩ | ⟨recorder, own, _, hqueue, hnone, hnext⟩
  · simp only [hqueue, hsame]
    exact hprior
  · rw [hqueue, StdMap.lookup_insert_of_eq_or_ne]
    by_cases hid : id = own
    · simp only [hid, if_true, Option.isSome_some, true_iff]
      exact ⟨recorder, by rw [hnext, if_pos rfl]⟩
    · rw [if_neg hid, hprior]
      refine exists_congr fun op => ?_
      rw [hnext]
      by_cases hop : op = recorder
      · simp [hop, hnone, Ne.symm hid]
      · rw [if_neg hop]

theorem accepted_injective_step (hstep : Step codes parse state action next)
    (haccounted : Accounted parse state) (first second : κ) (id : MessageID)
    (hfirst : (next.phase first).acceptedId = some id)
    (hsecond : (next.phase second).acceptedId = some id) : first = second := by
  rcases acceptedId_step hstep haccounted.valid with
    ⟨_, hsame⟩ | ⟨recorder, own, hunused, _, _, hnext⟩
  · rw [hsame] at hfirst hsecond
    exact haccounted.accepted_injective first second id hfirst hsecond
  · -- Nobody else has recorded the identifier that is new.
    have hnobody : ∀ op, (state.phase op).acceptedId ≠ some own := by
      intro op haccepted
      have hsome := (haccounted.pending_iff own).mpr ⟨op, haccepted⟩
      simp [hunused] at hsome
    rw [hnext] at hfirst hsecond
    split_ifs at hfirst hsecond with hfirstOp hsecondOp hsecondOp
    · rw [hfirstOp, hsecondOp]
    · rw [← hfirst] at hsecond
      exact absurd hsecond (hnobody second)
    · rw [← hsecond] at hfirst
      exact absurd hfirst (hnobody first)
    · exact haccounted.accepted_injective first second id hfirst hsecond

/-- How an operation comes to have returned: it had before, it submits its message, or it
finds its identifier in the map. -/
theorem returned_step (hstep : Step codes parse state action next)
    (haccounted : Accounted parse state) {op : κ} {id : MessageID} {call : Call} {status : Error}
    (hreturned : next.phase op = .returned id call status) :
    state.phase op = .returned id call status ∨
      (state.phase op = .recorded id call ∧ status = .none) ∨
      ∃ thread entry, state.phase op = .checked thread id call ∧
        state.pendingQueue.lookup id = some entry := by
  have hvalid := haccounted.valid
  have hactive := haccounted.active
  cases hstep with
  | suspend suspended => exact .inl hreturned
  | unavailable actor thread own ownCall hphase hchannel => simp [hchannel] at hvalid
  | refuse actor thread own ownCall hphase hsuspended => simp [hactive] at hsuspended
  | send actor thread method parameters channel hphase
  | sendResponse actor thread own response hphase | check actor thread own ownCall hphase
  | record actor thread own ownCall held hphase =>
      have hne : op ≠ actor := by
        rintro rfl
        simp [State.setPhase] at hreturned
      left
      simpa [State.setPhase, hne] using hreturned
  | clashSend actor thread own method parameters entry held hphase hlock hused
  | clashResponse actor thread own peer response entry held hphase hlock hused =>
      by_cases hop : op = actor
      · subst hop
        simp only [State.setPhase, Function.update_self] at hreturned
        cases hreturned
        exact .inr (.inr ⟨thread, entry, hphase, hused⟩)
      · left
        simpa [State.setPhase, hop] using hreturned
  | submit actor own ownCall hphase =>
      by_cases hop : op = actor
      · subst hop
        simp only [State.setPhase, Function.update_self, CoreErrors.fireboltErrorValue_errorNone]
          at hreturned
        cases hreturned
        exact .inr (.inl ⟨hphase, rfl⟩)
      · left
        simpa [State.setPhase, hop] using hreturned

theorem refused_step (hstep : Step codes parse state action next)
    (haccounted : Accounted parse state) (op : κ) (id : MessageID) (call : Call) (status : Error)
    (hreturned : next.phase op = .returned id call status) (hstatus : status ≠ .none) :
    ∃ other, other ≠ op ∧ (next.phase other).acceptedId = some id := by
  rcases returned_step hstep haccounted hreturned with
    hbefore | ⟨_, hnone⟩ | ⟨thread, entry, hphase, hused⟩
  · obtain ⟨other, hother, haccepted⟩ := haccounted.refused op id call status hbefore hstatus
    exact ⟨other, hother, acceptedId_mono hstep haccounted.valid haccepted⟩
  · exact absurd hnone hstatus
  · obtain ⟨other, haccepted⟩ := (haccounted.pending_iff id).mp (by simp [hused])
    refine ⟨other, ?_, acceptedId_mono hstep haccounted.valid haccepted⟩
    rintro rfl
    rw [hphase] at haccepted
    cases haccepted

/-- What has returned stays returned. -/
theorem returned_mono (hstep : Step codes parse state action next) {op : κ} {id : MessageID}
    {call : Call} {status : Error} (hreturned : state.phase op = .returned id call status) :
    next.phase op = .returned id call status := by
  cases hstep with
  | suspend suspended => exact hreturned
  | send actor thread method parameters channel hphase
  | sendResponse actor thread own response hphase | unavailable actor thread own ownCall hphase
  | refuse actor thread own ownCall hphase | check actor thread own ownCall hphase
  | record actor thread own ownCall held hphase
  | clashSend actor thread own method parameters entry held hphase
  | clashResponse actor thread own peer response entry held hphase
  | submit actor own ownCall hphase =>
      have hne : op ≠ actor := by
        rintro rfl
        rw [hphase] at hreturned
        cases hreturned
      simpa [State.setPhase, hne] using hreturned

theorem submissions_step (hstep : Step codes parse state action next)
    (haccounted : Accounted parse state) (op : κ) :
    next.submissions op = (next.phase op).expected parse := by
  have hprior := haccounted.submissions op
  have hvalid := haccounted.valid
  have hactive := haccounted.active
  cases hstep with
  | suspend suspended => exact hprior
  | unavailable actor thread own ownCall hphase hchannel => simp [hchannel] at hvalid
  | refuse actor thread own ownCall hphase hsuspended => simp [hactive] at hsuspended
  | send actor thread method parameters channel hphase
  | sendResponse actor thread own response hphase | check actor thread own ownCall hphase
  | record actor thread own ownCall held hphase
  | clashSend actor thread own method parameters entry held hphase
  | clashResponse actor thread own peer response entry held hphase =>
      change state.submissions op = _
      rw [hprior]
      by_cases hop : op = actor
      · subst hop
        simp [State.setPhase, hphase, Phase.expected]
      · simp [State.setPhase, hop]
  | submit actor own ownCall hphase =>
      by_cases hop : op = actor
      · subst hop
        rw [hphase] at hprior
        simp only [State.submissions, Phase.expected] at hprior
        simp [State.submissions, State.setPhase, List.filter_append, hprior, Phase.expected]
      · simp only [State.submissions] at hprior
        simp [State.submissions, State.setPhase, List.filter_append, hprior, hop, Ne.symm hop]

theorem unlocked_step (hstep : Step codes parse state action next)
    (haccounted : Accounted parse state) (hlocked : next.adminLock ≠ .free) :
    ∃ op id call status, next.phase op = .returned id call status ∧ status ≠ .none := by
  by_cases hsame : next.adminLock = state.adminLock
  · obtain ⟨op, id, call, status, hreturned, hstatus⟩ := haccounted.unlocked (hsame ▸ hlocked)
    exact ⟨op, id, call, status, returned_mono hstep hreturned, hstatus⟩
  · cases hstep with
    | clashSend op thread id method parameters entry held hphase =>
        exact ⟨op, id, .send method parameters, _, by simp [State.setPhase],
          codes.fireboltErrorValue_errorAsyncFailed_ne_none⟩
    | _ => exact absurd rfl hsame

/-- Every step but a suspension keeps the account. -/
theorem Accounted.step (haccounted : Accounted parse state)
    (hstep : Step codes parse state action next) (haction : action ≠ .suspend true) :
    Accounted parse next where
  valid := by
    cases hstep with
    | send op thread method parameters channel hphase => rfl
    | _ => exact haccounted.valid
  active := by
    cases hstep with
    | suspend suspended =>
        cases suspended with
        | true => exact absurd rfl haction
        | false => rfl
    | _ => exact haccounted.active
  pending_iff := pending_iff_step hstep haccounted
  accepted_injective := accepted_injective_step hstep haccounted
  refused := refused_step hstep haccounted
  submissions := submissions_step hstep haccounted
  unlocked := unlocked_step hstep haccounted

end Step

/-! ## Identifiers of our own -/

/-- The step draws an identifier from the channel. -/
def Action.isSend : Action τ κ → Bool
  | .start _ _ (.send _ _) => true
  | _ => false

/-- How many identifiers a schedule draws. -/
def drawCount (schedule : List (Action τ κ)) : ℕ := schedule.countP Action.isSend

variable [DecidableEq τ]

theorem numbered_step {state next : State τ κ} {action : Action τ κ} {draws : ℕ}
    (hnumbered : Numbered draws state.channel fun op => (state.phase op).drawnId)
    (hstep : Step codes parse state action next) :
    Numbered (draws + drawCount [action]) next.channel fun op => (next.phase op).drawnId := by
  have hsame : ∀ (op : κ) (phase : Phase τ), phase.drawnId = (state.phase op).drawnId →
      (fun other => (Function.update state.phase op phase other).drawnId) =
        fun other => (state.phase other).drawnId := by
    intro op phase hkept
    funext other
    by_cases hother : other = op
    · subst hother
      simpa using hkept
    · simp [hother]
  cases hstep with
  | suspend suspended => exact hnumbered
  | send op thread method parameters channel hphase hchannel =>
      rw [hchannel] at hnumbered
      apply hnumbered.draw op
      · simp [State.setPhase, Phase.drawnId, Phase.request]
      · intro other hother
        simp [State.setPhase, hother]
  | sendResponse op thread id response hphase | unavailable op thread id call hphase
  | refuse op thread id call hphase | check op thread id call hphase
  | record op thread id call held hphase
  | clashSend op thread id method parameters entry held hphase
  | clashResponse op thread id peer response entry held hphase | submit op id call hphase =>
      show Numbered draws state.channel _
      simp only [State.setPhase]
      rw [hsame _ _ (by simp [hphase, Phase.drawnId, Phase.request])]
      exact hnumbered

theorem numbered_of_exec {schedule : List (Action τ κ)} {final : State τ κ}
    (hrun : exec (step codes parse) initial schedule = some final) :
    Numbered (drawCount schedule) final.channel fun op => (final.phase op).drawnId := by
  refine exec_count (motive := fun draws state =>
    Numbered draws state.channel fun op => (state.phase op).drawnId) ?_ ?_ hrun
  · apply Numbered.start
    · intro channel hchannel
      exact (Option.some.inj hchannel).symm
    · intro op
      rfl
  · intro draws state action next hnumbered htaken
    exact numbered_step hnumbered (step_cases htaken)

/-! ## Served operations -/

theorem accounted_of_exec {schedule : List (Action τ κ)} {final : State τ κ}
    (hsuspend : .suspend true ∉ schedule)
    (hrun : exec (step codes parse) initial schedule = some final) : Accounted parse final := by
  refine exec_history (motive := fun prior state =>
    (.suspend true ∉ prior) → Accounted parse state) ?_ ?_ hrun hsuspend
  · intro _
    exact accounted_initial
  · intro prior state action next _ hprior htaken hmem
    simp only [List.mem_append, List.mem_singleton, not_or] at hmem
    exact (hprior hmem.1).step (step_cases htaken) (Ne.symm hmem.2)

/-- A state without refused operations has its lock free and everybody can go on. -/
theorem served_of_not_refused {state : State τ κ} (haccounted : Accounted parse state)
    (hreturned : ∀ op id call status, state.phase op = .returned id call status →
      status = .none) : Served codes parse state where
  returned := by
    intro op id call status hphase
    obtain rfl := hreturned op id call status hphase
    refine ⟨rfl, ?_⟩
    rw [haccounted.submissions op, hphase]
    simp [Phase.expected]
  check := by
    intro op thread id call hphase
    simp only [step, hphase]
    split_ifs <;> rfl
  record := by
    intro op thread id call hphase
    have hfree : state.adminLock = .free := by
      by_contra hlocked
      obtain ⟨other, otherId, otherCall, status, hother, hstatus⟩ := haccounted.unlocked hlocked
      exact hstatus (hreturned other otherId otherCall status hother)
    simp [step, hphase, hfree, CriticalSection.lock]
  submit := by
    intro op id call hphase
    simp [step, hphase]

/-- **Own and peer identifiers.**  In every run on a valid channel that is never suspended,
with fewer than `2 ^ 32` identifiers drawn from it, every operation submits its message
exactly once and succeeds if and only if no answer to the peer carries the identifier of
another operation, be that a request of our own or another answer. -/
theorem served_iff_answersApart {schedule : List (Action τ κ)} {final : State τ κ}
    (hsuspend : .suspend true ∉ schedule) (hdraws : drawCount schedule < 2 ^ 32)
    (hrun : exec (step codes parse) initial schedule = some final) :
    Served codes parse final ↔ AnswersApart final := by
  have haccounted := accounted_of_exec hsuspend hrun
  constructor
  · intro hserved answer other id _ hanswer hother
    have haccepted : ∀ op, (final.phase op).attemptedId = some id →
        (final.phase op).acceptedId = some id := by
      intro op hattempted
      cases hphase : final.phase op with
      | returned own call status =>
          rw [hphase] at hattempted
          have hnone := (hserved.returned op own call status hphase).1
          simpa [Phase.attemptedId, Phase.acceptedId, hnone] using hattempted
      | recorded own call =>
          rw [hphase] at hattempted
          exact hattempted
      | idle | begun thread own call | checked thread own call =>
          rw [hphase] at hattempted
          cases hattempted
    exact haccounted.accepted_injective answer other id (haccepted answer hanswer)
      (haccepted other hother)
  · intro hapart
    apply served_of_not_refused haccounted
    intro op id call status hphase
    by_contra hstatus
    -- Somebody else recorded the identifier before: an answer, or a request of our own.
    obtain ⟨other, hother, haccepted⟩ := haccounted.refused op id call status hphase hstatus
    have hotherId := Phase.attemptedId_of_acceptedId haccepted
    have hopId : (final.phase op).attemptedId = some id := by rw [hphase]; rfl
    rcases Phase.drawnId_or_isAnswer hotherId with hotherDrawn | hanswer
    · rcases Phase.drawnId_or_isAnswer hopId with hopDrawn | hanswer
      · exact hother ((numbered_of_exec hrun).injective hdraws hotherDrawn hopDrawn)
      · exact hother (hapart op other id hanswer hopId hotherId).symm
    · exact hother (hapart other op id hanswer hotherId hopId)

/-- Result codes as a switch over them needs them. -/
def exampleCodes : CoreErrors where
  errorNone := 0
  errorGeneral := 1
  errorUnavailable := 2
  errorAsyncFailed := 3
  errorTimedout := 11
  errorNone_eq := rfl
  distinct := by decide

/-- A request of our own, under identifier 1, and an answer to the peer's request `id`. -/
def sendThenAnswer (id : MessageID) (first second : κ) (own answer : τ) :
    List (Action τ κ) :=
  [.start first own (.send ['m'] []), .check first, .record first,
    .start second answer (.sendResponse id []), .check second, .submit first, .record second]

/-- The peer's identifier is one that we do not use, and both messages are submitted. -/
theorem served_iff_answersApart_sendThenAnswer :
    ∃ final, exec (step exampleCodes fun _ => Message.empty) initial
        (sendThenAnswer 7 (0 : Fin 2) 1 (0 : Fin 2) 1 ++ [.submit 1]) = some final ∧
      final.submitted.map (fun entry => entry.1) = [0, 1] ∧
      Served exampleCodes (fun _ => Message.empty) final := by
  obtain ⟨final, hrun, hfacts⟩ : ∃ final : State (Fin 2) (Fin 2),
      exec (step exampleCodes fun _ => Message.empty) initial
        (sendThenAnswer 7 (0 : Fin 2) 1 (0 : Fin 2) 1 ++ [.submit 1]) = some final ∧
      decide (final.submitted.map (fun entry => entry.1) = [0, 1] ∧
        (final.phase 0).attemptedId = some 1 ∧ (final.phase 1).attemptedId = some 7) = true :=
    exists_exec_of_any (by decide)
  obtain ⟨hsubmitted, hfirst, hsecond⟩ := of_decide_eq_true hfacts
  have hne : (final.phase 0).attemptedId ≠ (final.phase 1).attemptedId := by
    rw [hfirst, hsecond]
    decide
  have hapart : AnswersApart final := by
    intro answer other id _ hanswer hother
    have hsame := hanswer.trans hother.symm
    fin_cases answer <;> fin_cases other
    · rfl
    · exact absurd hsame hne
    · exact absurd hsame hne.symm
    · rfl
  exact ⟨final, hrun, hsubmitted,
    (served_iff_answersApart (by decide) (by decide) hrun).mpr hapart⟩

/-- The peer numbers its requests from one as well, and its first request is not answered. -/
theorem answer_refused_after_send :
    ∃ final : State (Fin 2) (Fin 2),
      exec (step exampleCodes fun _ => Message.empty) initial (sendThenAnswer 1 0 1 0 1) =
        some final ∧
      final.phase 1 = .returned 1 (.sendResponse 1 []) ⟨3⟩ ∧
      (final.submitted.map fun entry => entry.1) = [0] ∧
      ¬ Served exampleCodes (fun _ => Message.empty) final := by
  obtain ⟨final, hrun, hfacts⟩ : ∃ final : State (Fin 2) (Fin 2),
      exec (step exampleCodes fun _ => Message.empty) initial (sendThenAnswer 1 0 1 0 1) =
        some final ∧
      decide (final.phase 1 = .returned 1 (.sendResponse 1 []) ⟨3⟩ ∧
        (final.submitted.map fun entry => entry.1) = [0]) = true :=
    exists_exec_of_any (by decide)
  obtain ⟨hreturned, hsubmitted⟩ := of_decide_eq_true hfacts
  refine ⟨final, hrun, hreturned, hsubmitted, fun hserved => ?_⟩
  have hnone := (hserved.returned 1 _ _ _ hreturned).1
  exact absurd hnone (by decide)

end FireboltTransport.Transport
