/-
# Identifiers that come round

A channel draws identifiers from a counter of 32 bits, so a client that runs long enough
draws the same ones again.  This does no harm as long as no call keeps its identifier for
a whole round: when fewer than `2 ^ 32` identifiers are drawn between the draw of a call
and the end of its entry in the queue, the identifiers in use are distinct at every
moment, however often the counter has come round before.
-/

import FireboltTransport.Gateway.Orphan

namespace FireboltTransport.Client

open Semantics

universe u

variable {ι : Type u}

/-- The call has drawn an identifier, and its entry is not erased yet. -/
def Phase.holdsId : Phase → Bool
  | .drawn _ | .created | .inserted | .waiting | .woken => true
  | _ => false

theorem Phase.holdsId_of_isRegistered {phase : Phase} (hregistered : phase.isRegistered = true) :
    phase.holdsId = true := by
  cases phase with
  | inserted | waiting | woken => rfl
  | _ => cases hregistered

theorem State.exists_drawnId_of_holdsId {state : State ι} {call : ι}
    (hholds : (state.phase call).holdsId = true) : ∃ id, state.drawnId call = some id := by
  rw [drawnId]
  cases hphase : state.phase call with
  | drawn id => exact ⟨id, rfl⟩
  | created | inserted | waiting | woken => exact ⟨_, rfl⟩
  | _ =>
      rw [hphase] at hholds
      cases hholds

theorem drawCount_append (first second : List (Action ι)) :
    drawCount (first ++ second) = drawCount first + drawCount second :=
  List.countP_append

theorem drawCount_cons_draw (call : ι) (schedule : List (Action ι)) :
    drawCount (.draw call :: schedule) = drawCount schedule + 1 :=
  List.countP_cons_of_pos rfl

/-- Two numbers less than a round apart name different identifiers. -/
theorem eq_of_ofNat_eq {first second : ℕ} (hle : first ≤ second)
    (hround : second - first < UInt32.size) (hsame : UInt32.ofNat first = UInt32.ofNat second) :
    first = second := by
  have hmod : second % UInt32.size = first % UInt32.size := by
    simpa only [UInt32.toNat_ofNat'] using congrArg UInt32.toNat hsame.symm
  have hdiff : (second - first) % UInt32.size = 0 := Nat.sub_mod_eq_zero_of_mod_eq hmod
  rw [Nat.mod_eq_of_lt hround] at hdiff
  omega

variable [DecidableEq ι]

/-- While a call holds its identifier, fewer than a round of others are drawn. -/
def HeldBriefly (start : State ι) (schedule : List (Action ι)) : Prop :=
  ∀ before during after call state, schedule = before ++ .draw call :: during ++ after →
    exec step start (before ++ .draw call :: during) = some state →
      (state.phase call).holdsId = true → drawCount during < 2 ^ 32

theorem HeldBriefly.of_append {start : State ι} {before after : List (Action ι)}
    (hbriefly : HeldBriefly start (before ++ after)) : HeldBriefly start before := by
  rintro earlier during rest call state rfl hprior hholds
  refine hbriefly earlier during (rest ++ after) call state ?_ hprior hholds
  simp only [List.append_assoc]

/-- A run of fewer than a round of draws is one. -/
theorem heldBriefly_of_drawCount {start : State ι} {schedule : List (Action ι)}
    (hdraws : drawCount schedule < 2 ^ 32) : HeldBriefly start schedule := by
  rintro before during after call state rfl - -
  refine Nat.lt_of_le_of_lt ?_ hdraws
  refine List.Sublist.countP_le ?_
  exact ((List.sublist_cons_self _ _).trans (List.sublist_append_right _ _)).trans
    (List.sublist_append_left _ _)

section Runs

variable {transport : Option Channel} {clock : Timestamp} {state : State ι}
  {schedule : List (Action ι)}

/-- The identifier of a call is the number of its draw. -/
theorem exists_draw_of_drawnId
    (htransport : ∀ channel, transport = some channel → channel = .new)
    (hset : ∀ action ∈ schedule, action.isSetTransport = false)
    (hrun : exec step (initial transport clock) schedule = some state) :
    ∀ call id, state.drawnId call = some id → ∃ before during,
      schedule = before ++ .draw call :: during ∧ id = UInt32.ofNat (drawCount before + 1) := by
  refine exec_history (motive := fun prior state =>
    (∀ action ∈ prior, action.isSetTransport = false) → ∀ call id, state.drawnId call = some id →
      ∃ before during, prior = before ++ .draw call :: during ∧
        id = UInt32.ofNat (drawCount before + 1)) ?_ ?_ hrun hset
  · intro _ call id hdrawn
    cases hdrawn
  · intro prior state action next hprior hdraws htaken hset call id hdrawn
    have hsetPrior : ∀ action ∈ prior, action.isSetTransport = false :=
      fun other hother => hset other (List.mem_append_left _ hother)
    rcases drawnId_step (step_cases htaken) call with hkept | ⟨channel, rfl, _, hchannel, hnew⟩
    · rw [hkept] at hdrawn
      obtain ⟨before, during, rfl, hid⟩ := hdraws hsetPrior call id hdrawn
      exact ⟨before, during ++ [action], by simp, hid⟩
    · refine ⟨prior, [], by simp, ?_⟩
      obtain ⟨number, hnumbering⟩ := numbered_of_exec htransport hsetPrior hprior
      rw [hnew] at hdrawn
      rw [← Option.some.inj hdrawn, Channel.sequence_fst, hnumbering.counter channel hchannel,
        UInt32.ofNat_add]
      rfl

/-- Fewer than a round after its draw, no later draw gives the identifier again. -/
theorem eq_of_draw_draw {before during before' during' : List (Action ι)} {first second : ι}
    (hsame : UInt32.ofNat (drawCount before + 1) = UInt32.ofNat (drawCount before' + 1))
    (hsplit : before ++ .draw first :: during = before' ++ .draw second :: during')
    (hle : before.length ≤ before'.length) (hround : drawCount during < 2 ^ 32) :
    first = second := by
  rcases List.append_eq_append_iff.mp hsplit with ⟨between, rfl, hrest⟩ | ⟨between, rfl, hrest⟩
  · cases between with
    | nil =>
        rw [List.nil_append, List.cons.injEq] at hrest
        exact Action.draw.inj hrest.1
    | cons action between =>
        rw [List.cons_append, List.cons.injEq] at hrest
        obtain ⟨rfl, rfl⟩ := hrest
        -- The second draw is counted among those after the first.
        have hcount : drawCount (before ++ .draw first :: between) =
            drawCount before + (drawCount between + 1) := by
          rw [drawCount_append, drawCount_cons_draw]
        have hlater : drawCount (between ++ .draw second :: during') =
            drawCount between + (drawCount during' + 1) := by
          rw [drawCount_append, drawCount_cons_draw]
        have heq := eq_of_ofNat_eq (by omega) (by rw [UInt32.size]; omega) hsame
        omega
  · have hnil : between = [] := by
      rw [List.length_append] at hle
      exact List.eq_nil_of_length_eq_zero (by omega)
    rw [hnil, List.nil_append, List.cons.injEq] at hrest
    exact (Action.draw.inj hrest.1).symm

/-- Two calls that hold one identifier are the same. -/
theorem eq_of_drawnId_eq (htransport : ∀ channel, transport = some channel → channel = .new)
    (hset : ∀ action ∈ schedule, action.isSetTransport = false)
    (hbriefly : HeldBriefly (initial transport clock) schedule)
    (hrun : exec step (initial transport clock) schedule = some state) {first second : ι}
    (hfirst : (state.phase first).holdsId = true) (hsecond : (state.phase second).holdsId = true)
    (hsame : state.drawnId first = state.drawnId second) : first = second := by
  obtain ⟨id, hfirstId⟩ := State.exists_drawnId_of_holdsId hfirst
  obtain ⟨before, during, hsplit, hid⟩ :=
    exists_draw_of_drawnId htransport hset hrun first id hfirstId
  obtain ⟨before', during', hsplit', hid'⟩ :=
    exists_draw_of_drawnId htransport hset hrun second id (hsame ▸ hfirstId)
  have hround : drawCount during < 2 ^ 32 :=
    hbriefly before during [] first state (by simpa using hsplit) (hsplit ▸ hrun) hfirst
  have hround' : drawCount during' < 2 ^ 32 :=
    hbriefly before' during' [] second state (by simpa using hsplit') (hsplit' ▸ hrun) hsecond
  have hboth := hsplit.symm.trans hsplit'
  rcases Nat.le_total before.length before'.length with hle | hle
  · exact eq_of_draw_draw (hid.symm.trans hid') hboth hle hround
  · exact (eq_of_draw_draw (hid'.symm.trans hid) hboth.symm hle hround').symm

/-- No call is inserted under an identifier in use. -/
theorem meets_of_heldBriefly (htransport : ∀ channel, transport = some channel → channel = .new)
    (hset : ∀ action ∈ schedule, action.isSetTransport = false)
    (hbriefly : HeldBriefly (initial transport clock) schedule)
    (hrun : exec step (initial transport clock) schedule = some state) :
    Meets step InsertsUnusedId (initial transport clock) schedule := by
  apply meets_of_forall_taken hrun
  rintro before action after state next rfl hbefore htaken
  cases step_cases htaken with
  | insert call hphase =>
      intro other hother hid
      have hotherId : state.drawnId other = some (state.caller other).id :=
        State.drawnId_of_not_isBefore (Phase.isBefore_of_isRegistered hother)
      have hcallId : state.drawnId call = some (state.caller call).id :=
        State.drawnId_of_created hphase
      have hsame : other = call := by
        refine eq_of_drawnId_eq htransport (fun other hmem => ?_) hbriefly.of_append hbefore
          (Phase.holdsId_of_isRegistered hother) (by rw [hphase]; rfl)
          (by rw [hotherId, hcallId, hid])
        exact hset other (List.mem_append_left _ hmem)
      rw [hsame, hphase] at hother
      cases hother
  | _ => trivial

end Runs

/-- **The counter may come round.**  In every run on one channel, of any length, in which
no call holds its identifier while `2 ^ 32` others are drawn, the identifiers held are
distinct in the final state, and a call that waits is the one stored under its own or is
about to be marked, and can be completed, critical section after critical section. -/
theorem distinct_of_heldBriefly {transport : Option Channel} {clock : Timestamp}
    {final : State ι} {schedule : List (Action ι)}
    (htransport : ∀ channel, transport = some channel → channel = .new)
    (hset : ∀ action ∈ schedule, action.isSetTransport = false)
    (hbriefly : HeldBriefly (initial transport clock) schedule)
    (hrun : exec step (initial transport clock) schedule = some final) :
    (∀ first second, (final.phase first).holdsId = true → (final.phase second).holdsId = true →
      final.drawnId first = final.drawnId second → first = second) ∧
    (∀ call, final.phase call = .waiting → (final.caller call).ready = false →
      final.IsHeld call) ∧
    ∀ call, final.phase call = .waiting → Completable final call := by
  have hseparated : Separated final :=
    exec_invariant_of_meets
      (fun _ _ _ hprior hunused htaken => hprior.step (step_cases htaken) hunused)
      (separated_initial transport clock) (meets_of_heldBriefly htransport hset hbriefly hrun) hrun
  refine ⟨fun first second hfirst hsecond hsame =>
    eq_of_drawnId_eq htransport hset hbriefly hrun hfirst hsecond hsame,
    hseparated.noOrphan, fun call hwaiting => ?_⟩
  cases hready : (final.caller call).ready with
  | true => exact ⟨[], final, rfl, hready⟩
  | false => exact completable_of_isHeld hwaiting (hseparated.noOrphan call hwaiting hready)

/-! ## A run in which the counter comes round -/

/-- A call that has begun stays begun. -/
theorem phase_ne_idle_step {state next : State ι} {action : Action ι}
    (hstep : Step state action next) {call : ι} (hbegun : state.phase call ≠ .idle) :
    next.phase call ≠ .idle := by
  by_cases hactor : action.actor = some call
  · cases hstep <;> simp_all [Action.actor, State.setPhase]
  · rwa [phase_step hstep hactor]

/-- A call that has begun and holds no identifier never holds one again. -/
theorem holdsId_step {state next : State ι} {action : Action ι} (hstep : Step state action next)
    {call : ι} (hbegun : state.phase call ≠ .idle) (hfree : (state.phase call).holdsId = false) :
    (next.phase call).holdsId = false := by
  by_cases hactor : action.actor = some call
  · cases hstep with
    | refuse actor hphase | draw actor channel hphase =>
        obtain rfl : actor = call := Option.some.inj hactor
        exact absurd hphase hbegun
    | create actor id hphase | insert actor hphase | send actor hphase
    | sendFailed actor result hphase | wake actor hphase | erase actor hphase =>
        obtain rfl : actor = call := Option.some.inj hactor
        rw [hphase] at hfree
        cases hfree
    | check actor hphase | readResponse actor hphase | readError actor hphase =>
        obtain rfl : actor = call := Option.some.inj hactor
        simp only [State.setPhase, Function.update_self]
        rfl
    | _ => cases hactor
  · rwa [phase_step hstep hactor]

/-- A call that has drawn has begun. -/
theorem phase_ne_idle_of_draw {start state : State ι} {before during : List (Action ι)} {call : ι}
    (hrun : exec step start (before ++ .draw call :: during) = some state) :
    state.phase call ≠ .idle := by
  obtain ⟨reached, _, hlast⟩ := exec_append_eq_some.mp hrun
  obtain ⟨next, htaken, hduring⟩ := exec_cons_eq_some.mp hlast
  have hdrawn : next.phase call ≠ .idle := by
    cases step_cases htaken <;> simp [State.setPhase]
  exact exec_invariant (motive := fun state => state.phase call ≠ .idle)
    (fun _ _ _ hbegun htaken => phase_ne_idle_step (step_cases htaken) hbegun) hdrawn hduring

/-- Calls that have let go of their identifiers before a few more are drawn held them briefly. -/
theorem HeldBriefly.append {start middle : State ι} {before after : List (Action ι)}
    (hbriefly : HeldBriefly start before) (hbefore : exec step start before = some middle)
    (hfree : ∀ call, middle.phase call ≠ .idle → (middle.phase call).holdsId = false)
    (hdraws : drawCount after < 2 ^ 32) : HeldBriefly start (before ++ after) := by
  rintro earlier during rest call state hsplit hrun hholds
  have hafter : ∀ between more, after = more ++ rest → more = between ++ .draw call :: during →
      drawCount during < 2 ^ 32 := by
    rintro between more rfl rfl
    rw [drawCount_append, drawCount_append, drawCount_cons_draw] at hdraws
    omega
  have hsplit' : before ++ after = (earlier ++ .draw call :: during) ++ rest := by
    simpa using hsplit
  rcases List.append_eq_append_iff.mp hsplit' with ⟨more, hdrawn, hmore⟩ | ⟨more, rfl, -⟩
  · rcases List.append_eq_append_iff.mp hdrawn with ⟨between, rfl, htail⟩ | ⟨between, -, htail⟩
    · cases between with
      | nil => exact hafter [] more hmore htail.symm
      | cons action between =>
          -- The call has drawn in `before`, and has let go of its identifier since.
          obtain ⟨rfl, rfl⟩ := List.cons.inj htail
          have hbegun := phase_ne_idle_of_draw hbefore
          rw [hdrawn] at hrun
          obtain ⟨reached, hreached, hlast⟩ := exec_append_eq_some.mp hrun
          obtain rfl : middle = reached := Option.some.inj (hbefore.symm.trans hreached)
          obtain ⟨-, hfinal⟩ := exec_invariant (motive := fun state : State ι =>
            state.phase call ≠ .idle ∧ (state.phase call).holdsId = false)
            (fun _ _ _ hprior htaken => ⟨phase_ne_idle_step (step_cases htaken) hprior.1,
              holdsId_step (step_cases htaken) hprior.1 hprior.2⟩)
            ⟨hbegun, hfree call hbegun⟩ hlast
          rw [hfinal] at hholds
          cases hholds
    · exact hafter between more hmore htail
  · exact hbriefly earlier during more call state rfl hrun hholds

/-- Calls whose `Send` fails, one after the other. -/
def failedCalls : ℕ → List (Action ℕ)
  | 0 => []
  | call + 1 =>
      failedCalls call ++ [.draw call, .create call, .insert call, .send call .general]

/-- What such calls leave behind: each has ended, the first has drawn the identifier one, and
the counter stands at the number of the last. -/
structure AfterFailed (calls : ℕ) (state : State ℕ) : Prop where
  transport : state.transport = some ⟨UInt32.ofNat calls⟩
  ended : ∀ call < calls, state.phase call = .failed .general
  idle : ∀ call, calls ≤ call → state.phase call = .idle
  first : 0 < calls → state.drawnId 0 = some 1

theorem AfterFailed.holdsId_eq_false {calls : ℕ} {state : State ℕ}
    (hafter : AfterFailed calls state) {call : ℕ} (hbegun : state.phase call ≠ .idle) :
    (state.phase call).holdsId = false := by
  have hlt : call < calls := by
    by_contra hle
    exact hbegun (hafter.idle call (not_lt.mp hle))
  rw [hafter.ended call hlt]
  rfl

theorem exists_failedCall {state : State ℕ} {call : ℕ} {channel : Channel}
    (htransport : state.transport = some channel) (hidle : state.phase call = .idle) :
    ∃ next, exec step state [.draw call, .create call, .insert call, .send call .general] =
        some next ∧
      next.transport = some channel.sequence.2 ∧ next.drawnId call = some channel.sequence.1 ∧
      next.phase = Function.update state.phase call (.failed .general) := by
  refine ⟨_, by
    simp [exec_cons, step, htransport, hidle, State.setPhase, State.setCaller]
    rfl, rfl, ?_, ?_⟩
  · simp [State.drawnId, Caller.new]
  · simp

theorem exists_failedCalls (calls : ℕ) :
    ∃ state, exec step (initial (some .new) .zero) (failedCalls calls) = some state ∧
      AfterFailed calls state ∧ HeldBriefly (initial (some .new) .zero) (failedCalls calls) ∧
      ∀ action ∈ failedCalls calls, action.isSetTransport = false := by
  induction calls with
  | zero =>
      refine ⟨_, rfl, ⟨rfl, by simp, fun _ _ => rfl, by simp⟩, heldBriefly_of_drawCount ?_,
        by simp [failedCalls]⟩
      simp [failedCalls, drawCount]
  | succ call ih =>
      obtain ⟨state, hrun, hafter, hbriefly, hset⟩ := ih
      obtain ⟨next, hcall, htransport, hdrawn, hphase⟩ :=
        exists_failedCall hafter.transport (hafter.idle call le_rfl)
      refine ⟨next, exec_trans hrun hcall, ⟨?_, ?_, ?_, ?_⟩, ?_, ?_⟩
      · rw [htransport, UInt32.ofNat_add]
        rfl
      · intro other hother
        rw [hphase]
        rcases Nat.lt_succ_iff_lt_or_eq.mp hother with hlt | rfl
        · rw [Function.update_of_ne hlt.ne, hafter.ended other hlt]
        · rw [Function.update_self]
      · intro other hother
        rw [hphase, Function.update_of_ne (by omega)]
        exact hafter.idle other (by omega)
      · intro _
        cases call with
        | zero => exact hdrawn
        | succ previous =>
            exact exec_invariant (motive := fun state => state.drawnId 0 = some 1)
              (fun _ _ _ hdrawn htaken => drawnId_kept (step_cases htaken) hdrawn)
              (hafter.first (Nat.succ_pos previous)) hcall
      · refine hbriefly.append hrun (fun other hbegun => hafter.holdsId_eq_false hbegun) ?_
        change 1 < 2 ^ 32
        omega
      · intro action hmem
        rcases List.mem_append.mp hmem with hbefore | hlast
        · exact hset action hbefore
        · simp only [List.mem_cons, List.not_mem_nil, or_false] at hlast
          rcases hlast with rfl | rfl | rfl | rfl <;> rfl

/-- Two calls hold their identifiers at one time and are inserted in the other order. -/
def crossedCalls (first second : ι) : List (Action ι) :=
  [.draw first, .create first, .draw second, .create second, .insert second, .insert first,
    .send second .none, .send first .none]

theorem exists_crossedCalls {state : State ι} {first second : ι} {channel : Channel}
    (hne : first ≠ second) (htransport : state.transport = some channel)
    (hfirst : state.phase first = .idle) (hsecond : state.phase second = .idle) :
    ∃ next, exec step state (crossedCalls first second) = some next ∧
      next.drawnId first = some channel.sequence.1 ∧ next.phase first = .waiting ∧
      next.phase second = .waiting := by
  refine ⟨_, by
    simp [exec_cons, crossedCalls, step, htransport, hfirst, hsecond, State.setPhase,
      State.setCaller, hne, hne.symm]
    rfl, ?_, ?_, ?_⟩
  · simp [State.drawnId, Caller.new, hne]
  · simp
  · simp [hne.symm]

/-- Two calls hold identifiers at one time after the counter has come round; the first has the
one that the very first call drew. -/
theorem distinct_of_heldBriefly_crossedCalls :
    ∃ final, exec step (initial (some .new) .zero)
        (failedCalls (2 ^ 32) ++ crossedCalls (2 ^ 32) (2 ^ 32 + 1)) = some final ∧
      final.drawnId (2 ^ 32) = final.drawnId 0 ∧
      final.phase (2 ^ 32) = .waiting ∧ final.phase (2 ^ 32 + 1) = .waiting ∧
      final.drawnId (2 ^ 32) ≠ final.drawnId (2 ^ 32 + 1) ∧
      Completable final (2 ^ 32) ∧ Completable final (2 ^ 32 + 1) := by
  obtain ⟨state, hround, hafter, hbriefly, hset⟩ := exists_failedCalls (2 ^ 32)
  obtain ⟨final, hcrossed, hdrawn, hfirst, hsecond⟩ :=
    exists_crossedCalls (by omega : 2 ^ 32 ≠ 2 ^ 32 + 1) hafter.transport
      (hafter.idle _ (by omega)) (hafter.idle _ (by omega))
  have hrun := exec_trans hround hcrossed
  have hdraws : drawCount (crossedCalls (2 ^ 32) (2 ^ 32 + 1)) < 2 ^ 32 := by
    change 2 < 2 ^ 32
    omega
  have hboth := hbriefly.append hround (fun call hbegun => hafter.holdsId_eq_false hbegun) hdraws
  have hkept : final.drawnId 0 = some 1 :=
    exec_invariant (motive := fun state => state.drawnId 0 = some 1)
      (fun _ _ _ hdrawn htaken => drawnId_kept (step_cases htaken) hdrawn)
      (hafter.first (by omega)) hcrossed
  have hsetBoth : ∀ action ∈ failedCalls (2 ^ 32) ++ crossedCalls (2 ^ 32) (2 ^ 32 + 1),
      action.isSetTransport = false := by
    intro action hmem
    rcases List.mem_append.mp hmem with hbefore | hlast
    · exact hset action hbefore
    · simp only [crossedCalls, List.mem_cons, List.not_mem_nil, or_false] at hlast
      rcases hlast with rfl | rfl | rfl | rfl | rfl | rfl | rfl | rfl <;> rfl
  obtain ⟨hdistinct, -, hcompletable⟩ :=
    distinct_of_heldBriefly (fun _ hnew => (Option.some.inj hnew).symm) hsetBoth hboth hrun
  refine ⟨final, hrun, ?_, hfirst, hsecond, fun hsame => ?_, hcompletable _ hfirst,
    hcompletable _ hsecond⟩
  · rw [hdrawn, hkept]
    rfl
  · have hequal := hdistinct _ _ (by rw [hfirst]; rfl) (by rw [hsecond]; rfl) hsame
    omega

end FireboltTransport.Client
