/-
# Aborting asynchronous calls

`Abort` removes the entry of a pair.  A job under the pair that has started
cannot tell an entry made later from its own: if the pair is used again before
that job is done, the job invokes its callback after all, and then removes the
entry of the later call and revokes its job.  When no call is made under a pair
that is still in use, `Abort` does what it is for, except for a callback about
to be invoked while it runs.
-/

import FireboltTransport.Async.Reports

namespace FireboltTransport.Async

open Semantics

universe u v

variable {ι : Type u} {ψ : Type v} [DecidableEq ι]

/-- The call of a job that can still pass its check, or has passed it and not yet ended. -/
def Phase.live : Phase ψ → Option Call
  | .recorded call | .queued call | .running call | .active call _ | .called call _ => some call
  | .answered call outcome => if outcome.status = .none then some call else none
  | .idle | .ended _ _ | .revoked _ => none

/-- `Invoke` has returned. -/
def Phase.Submitted (phase : Phase ψ) (call : Call) : Prop :=
  phase.call = some call ∧ phase ≠ .recorded call

/-- No call is made under the pair while a job under it is live. -/
def InvokedAlone (call : Call) (state : State ι ψ) : Action ι ψ → Prop
  | .invoke _ invoked => invoked = call → ∀ op, (state.phase op).live ≠ some call
  | _ => True

/-- What an `Abort`, made in the state `aborted`, is for: the calls made under the pair before
it are not reported any more; and those made after it, and not aborted in turn, are not
revoked, and reported once with their own response if their request succeeds. -/
structure AbortKept (call : Call) (aborted : State ι ψ) (after : List (Action ι ψ))
    (final : State ι ψ) : Prop where
  silent : ∀ op, (aborted.phase op).Submitted call → final.reportsOf op = aborted.reportsOf op
  kept : ∀ mid op rest, after = mid ++ .invoke op call :: rest → .abort call ∉ rest →
    ∀ revoked, final.phase op ≠ .revoked revoked
  reported : ∀ mid op rest, after = mid ++ .invoke op call :: rest → .abort call ∉ rest →
    ∀ outcome, final.phase op = .ended call outcome → outcome.status = .none →
      final.reportsOf op = [outcome.report call]

/-! ## Live jobs -/

section Live

variable {state next : State ι ψ} {action : Action ι ψ} {call : Call} {op : ι}

/-- A job becomes live when its call is made. -/
theorem live_step (hstep : Step state action next) (hlive : (next.phase op).live = some call) :
    (state.phase op).live = some call ∨ state.phase op = .idle ∧ action = .invoke op call := by
  rcases phase_step hstep op with hsame | hmoved
  · rw [← hsame, hlive]
    exact .inl rfl
  · generalize next.phase op = phase at hmoved hlive
    cases hmoved with
    | invoke _ hphase =>
        obtain rfl := Option.some.inj hlive
        exact .inr ⟨hphase, rfl⟩
    | answer _ outcome hphase =>
        simp only [Phase.live] at hlive
        split_ifs at hlive
        rw [hphase]
        exact .inl hlive
    | pass _ outcome hphase hstatus =>
        rw [hphase]
        exact .inl (by simpa [Phase.live, hstatus] using hlive)
    | submit _ hphase | start _ hphase | callback _ _ hphase =>
        rw [hphase]
        exact .inl hlive
    | skip | remove | revoke => cases hlive

end Live

/-! ## The calls before -/

/-- A call made before the `Abort`: it is not about to be reported, and as long as it is live
its pair has no entry. -/
structure Silenced (call : Call) (op : ι) (reports : List (Report ψ)) (state : State ι ψ) :
    Prop where
  call_eq : (state.phase op).call = some call
  inactive : ∀ outcome, state.phase op ≠ .active call outcome
  entry_none : (state.phase op).live = some call → entry state.methodMap call = none
  reports_eq : state.reportsOf op = reports

section Silence

variable {state next : State ι ψ} {action : Action ι ψ} {call : Call} {op : ι}
  {reports : List (Report ψ)}

theorem Silenced.step (hsilenced : Silenced call op reports state)
    (hstep : Step state action next) (halone : InvokedAlone call state action) :
    Silenced call op reports next where
  call_eq := call_step hstep hsilenced.call_eq
  inactive := by
    intro outcome hactive
    rcases phase_step hstep op with hsame | hmoved
    · exact hsilenced.inactive outcome (hsame ▸ hactive)
    · rw [hactive] at hmoved
      cases hmoved with
      | pass _ _ hphase hstatus hentry =>
          exact hentry (hsilenced.entry_none (by simp [hphase, Phase.live, hstatus]))
  entry_none := by
    intro hlive
    have hprior : (state.phase op).live = some call := by
      rcases live_step hstep hlive with hprior | ⟨hidle, -⟩
      · exact hprior
      · have hcall := hsilenced.call_eq
        rw [hidle] at hcall
        cases hcall
    rcases entry_step hstep call with hsame | ⟨other, rfl, -⟩ | ⟨-, hnone⟩
    · rw [hsame, hsilenced.entry_none hprior]
    · exact absurd hprior (halone rfl op)
    · exact hnone
  reports_eq := by
    rcases reportsOf_step hstep op with ⟨-, hreports⟩ | ⟨other, outcome, -, hactive, -⟩
    · rw [hreports, hsilenced.reports_eq]
    · have hcall := hsilenced.call_eq
      rw [hactive] at hcall
      obtain rfl := Option.some.inj hcall
      exact absurd hactive (hsilenced.inactive outcome)

end Silence

/-! ## The calls after -/

/-- How far a call has come that is not disturbed: its pair has an entry until it is reported,
and it is reported if its request succeeds. -/
def Phase.Served (call : Call) (recorded : Prop) (reports : List (Report ψ)) : Phase ψ → Prop
  | .recorded own | .queued own | .running own => own = call ∧ recorded ∧ reports = []
  | .answered own outcome => own = call ∧ (outcome.status = .none → recorded) ∧ reports = []
  | .active own _ => own = call ∧ reports = []
  | .called own outcome => own = call ∧ reports = [outcome.report call]
  | .ended own outcome => own = call ∧ (outcome.status = .none → reports = [outcome.report call])
  | .idle | .revoked _ => False

theorem Phase.Served.mono {call : Call} {recorded later : Prop} {reports : List (Report ψ)}
    {phase : Phase ψ} (hserved : phase.Served call recorded reports)
    (hlater : phase.live = some call → (∀ outcome, phase ≠ .called call outcome) →
      recorded → later) : phase.Served call later reports := by
  cases phase with
  | recorded | queued | running =>
      obtain ⟨rfl, hrecorded, hreports⟩ := hserved
      exact ⟨rfl, hlater rfl nofun hrecorded, hreports⟩
  | answered own outcome =>
      obtain ⟨rfl, hrecorded, hreports⟩ := hserved
      refine ⟨rfl, fun hstatus => ?_, hreports⟩
      exact hlater (by simp [Phase.live, hstatus]) nofun (hrecorded hstatus)
  | active | called | ended | idle | revoked => exact hserved

/-- A call made after the `Abort`: while it is live no other call under its pair is. -/
structure Serving (call : Call) (op : ι) (state : State ι ψ) : Prop where
  served : (state.phase op).Served call (entry state.methodMap call ≠ none) (state.reportsOf op)
  alone : (state.phase op).live = some call →
    ∀ other, other ≠ op → (state.phase other).live ≠ some call

section Service

variable {state next : State ι ψ} {action : Action ι ψ} {call : Call} {op : ι}

/-- The entry of an undisturbed call stays until the call removes it. -/
theorem Serving.entry_kept (hserving : Serving call op state) (hstep : Step state action next)
    (habort : action ≠ .abort call) (hlive : (state.phase op).live = some call)
    (hown : ∀ outcome, state.phase op ≠ .called call outcome)
    (hentry : entry state.methodMap call ≠ none) : entry next.methodMap call ≠ none := by
  rcases entry_step hstep call with hsame | ⟨_, _, _, hnew⟩ | ⟨hremoves, -⟩
  · rwa [hsame]
  · rw [hnew]
    exact Option.some_ne_none _
  · rcases hremoves with habort' | ⟨other, outcome, -, hcalled⟩
    · exact absurd habort' habort
    · have hother : other ≠ op := by
        rintro rfl
        exact hown outcome hcalled
      exact absurd (by rw [hcalled]; rfl) (hserving.alone hlive other hother)

theorem Serving.served_step (hserving : Serving call op state) (hstep : Step state action next)
    (howns : OwnsEntries state) (habort : action ≠ .abort call) :
    (next.phase op).Served call (entry next.methodMap call ≠ none) (next.reportsOf op) := by
  have hkept := hserving.entry_kept hstep habort
  rcases reportsOf_step hstep op with ⟨haction, hreports⟩ | ⟨_, _, -, hactive, hcalled, hreports⟩
  · rw [hreports]
    rcases phase_step hstep op with hsame | hmoved
    · rw [hsame]
      exact hserving.served.mono hkept
    · have hserved := hserving.served
      generalize next.phase op = phase at hmoved
      cases hmoved with
      | callback => exact absurd rfl haction
      | invoke _ hphase => rw [hphase] at hserved; exact hserved.elim
      | submit _ hphase | start _ hphase =>
          rw [hphase] at hserved hkept
          obtain ⟨rfl, hentry, hreports⟩ := hserved
          exact ⟨rfl, hkept rfl nofun hentry, hreports⟩
      | answer _ outcome hphase =>
          rw [hphase] at hserved hkept
          obtain ⟨rfl, hentry, hreports⟩ := hserved
          exact ⟨rfl, fun _ => hkept rfl nofun hentry, hreports⟩
      | pass _ outcome hphase hstatus hactive =>
          rw [hphase] at hserved
          exact ⟨hserved.1, hserved.2.2⟩
      | skip _ outcome hphase hfailed =>
          rw [hphase] at hserved
          obtain ⟨rfl, hentry, hreports⟩ := hserved
          exact ⟨rfl, fun hstatus => absurd (hfailed hstatus) (hentry hstatus)⟩
      | remove _ outcome hphase =>
          rw [hphase] at hserved
          exact ⟨hserved.1, fun _ => hserved.2⟩
      | revoke _ queued removed hphase hremoves hentry =>
          -- The entry is that of the call, and nobody else removes it.
          rw [hphase] at hserved hkept
          obtain ⟨rfl, hrecorded, -⟩ := hserved
          have hpair := howns removed op hentry
          rw [hphase] at hpair
          obtain rfl := Option.some.inj hpair
          exact absurd (entry_of_removes hstep hremoves) (hkept rfl nofun hrecorded)
  · have hserved := hserving.served
    rw [hactive] at hserved
    rw [hcalled, hreports]
    obtain ⟨rfl, hnone⟩ := hserved
    exact ⟨rfl, by rw [hnone, List.nil_append]⟩

theorem Serving.step (hserving : Serving call op state) (hstep : Step state action next)
    (howns : OwnsEntries state) (habort : action ≠ .abort call)
    (halone : InvokedAlone call state action) : Serving call op next where
  served := hserving.served_step hstep howns habort
  alone := by
    intro hlive other hother hotherLive
    have hprior : (state.phase op).live = some call := by
      rcases live_step hstep hlive with hprior | ⟨hidle, -⟩
      · exact hprior
      · have hserved := hserving.served
        rw [hidle] at hserved
        exact hserved.elim
    rcases live_step hstep hotherLive with hotherPrior | ⟨-, rfl⟩
    · exact hserving.alone hprior other hother hotherPrior
    · exact halone rfl op hprior

/-- A call that nobody disturbs is served from the start. -/
theorem serving_of_invoke (hunreported : state.reportsOf op = [])
    (hstep : Step state (.invoke op call) next)
    (halone : InvokedAlone call state (.invoke op call)) : Serving call op next := by
  cases hstep with
  | invoke _ _ hphase =>
      constructor
      · simp only [State.setPhase, Function.update_self, Phase.Served, true_and]
        refine ⟨?_, hunreported⟩
        rw [entry_record]
        split_ifs with hnone
        · exact Option.some_ne_none _
        · exact fun hentry => hnone ⟨rfl, hentry⟩
      · intro _ other hother
        simpa [State.setPhase, hother] using halone rfl other

theorem Serving.exec {rest : List (Action ι ψ)} {final : State ι ψ}
    (hserving : Serving call op state) (howns : OwnsEntries state) (habort : .abort call ∉ rest)
    (halone : Meets Async.step (InvokedAlone call) state rest)
    (hrun : exec Async.step state rest = some final) : Serving call op final := by
  have hapart : Meets Async.step (fun _ action => action ≠ .abort call) state rest :=
    meets_of_forall_mem fun action hmem _ haction => habort (haction ▸ hmem)
  refine (exec_invariant_of_meets (motive := fun later => Serving call op later ∧
    OwnsEntries later) ?_ ⟨hserving, howns⟩ (halone.and hapart) hrun).1
  rintro later action next ⟨hserving, howns⟩ ⟨halone, habort⟩ htaken
  have hstep := step_cases htaken
  exact ⟨hserving.step hstep howns habort halone, howns.step hstep⟩

end Service

/-- `Abort` silences the calls made before it that are not about to be reported. -/
theorem silenced_of_abort {aborted next : State ι ψ} {call : Call} {op : ι}
    (hcall : (aborted.phase op).call = some call)
    (hnone : ∀ outcome, aborted.phase op ≠ .active call outcome)
    (hstep : Step aborted (.abort call) next) :
    Silenced call op (aborted.reportsOf op) next where
  call_eq := call_step hstep hcall
  inactive := by
    intro outcome hactive
    rcases phase_step hstep op with hsame | hmoved
    · exact hnone outcome (hsame ▸ hactive)
    · rw [hactive] at hmoved
      cases hmoved
  entry_none _ := entry_of_removes hstep (.inl rfl)
  reports_eq := by
    rcases reportsOf_step hstep op with ⟨-, hreports⟩ | ⟨_, _, haction, -⟩
    · exact hreports
    · cases haction

/-- **Abort.**  If no callback of a call under the pair is about to be invoked when `Abort`
removes the entry, and from then on no call is made under the pair while another one is live,
then no call made before is reported after the `Abort`, and every later call that is not
aborted in turn keeps its job and is reported with its own response. -/
theorem abort_kept_of_invokedAlone {before after : List (Action ι ψ)} {call : Call}
    {aborted final : State ι ψ} (hbefore : exec step initial before = some aborted)
    (hnone : ∀ op outcome, aborted.phase op ≠ .active call outcome)
    (halone : Meets step (InvokedAlone call) aborted (.abort call :: after))
    (hrun : exec step aborted (.abort call :: after) = some final) :
    AbortKept call aborted after final := by
  obtain ⟨next, htaken, hafter⟩ := exec_cons_eq_some.mp hrun
  have haloneAfter := ((meets_cons_of_step htaken).mp halone).2
  have hnext : exec step initial (before ++ [.abort call]) = some next :=
    exec_snoc hbefore htaken
  have hserving : ∀ mid op rest, after = mid ++ .invoke op call :: rest → .abort call ∉ rest →
      Serving call op final := by
    rintro mid op rest rfl habort
    obtain ⟨middle, hmiddle, hinvoke⟩ := exec_append_eq_some.mp hafter
    obtain ⟨invoked, hinvoked, hrest⟩ := exec_cons_eq_some.mp hinvoke
    have haloneMiddle := ((meets_append hmiddle).mp haloneAfter).2
    have hreached := exec_trans hnext hmiddle
    have hstep := step_cases hinvoked
    have hunreported : middle.reportsOf op = [] := by
      cases hstep with
      | invoke _ _ hidle =>
          rcases reportsOf_of_exec hreached op with hreports | ⟨_, _, hended⟩
          · rw [hreports, hidle]
            rfl
          · rw [hidle] at hended
            cases hended
    exact (serving_of_invoke hunreported hstep haloneMiddle.1).exec
      ((ownsEntries_of_exec hreached).step hstep) habort
      ((meets_cons_of_step hinvoked).mp haloneMiddle).2 hrest
  refine ⟨?_, ?_, ?_⟩
  · rintro op ⟨hcall, -⟩
    have hsilenced := silenced_of_abort hcall (hnone op) (step_cases htaken)
    refine (exec_invariant_of_meets (motive := Silenced call op (aborted.reportsOf op)) ?_
      hsilenced haloneAfter hafter).reports_eq
    intro state action later hprior halone htaken
    exact hprior.step (step_cases htaken) halone
  · intro mid op rest hsplit habort revoked hrevoked
    have hserved := (hserving mid op rest hsplit habort).served
    rw [hrevoked] at hserved
    exact hserved
  · intro mid op rest hsplit habort outcome hended hstatus
    have hserved := (hserving mid op rest hsplit habort).served
    rw [hended] at hserved
    exact hserved.2 hstatus

instance [Fintype ι] (call : Call) (state : State ι ψ) :
    ∀ action, Decidable (InvokedAlone call state action)
  | .invoke _ invoked =>
      inferInstanceAs (Decidable (invoked = call → ∀ op, (state.phase op).live ≠ some call))
  | .submit _ | .start _ | .answer _ _ | .check _ | .callback _ | .remove _ | .abort _ =>
      isTrue trivial

/-- A job that makes its request. -/
def requesting (op : ι) (call : Call) : List (Action ι ψ) :=
  [.invoke op call, .submit op, .start op]

/-- The pair is used again after the aborted job has ended. -/
theorem abort_kept_of_invokedAlone_usedAgain :
    ∃ aborted final : State (Fin 2) ℕ,
      exec step initial (requesting 0 ⟨['m'], 5⟩) = some aborted ∧
      exec step aborted (.abort ⟨['m'], 5⟩ :: ([.answer 0 ⟨.none, 17⟩, .check 0] ++
        answeredCall 1 ⟨['m'], 5⟩ ⟨.none, 18⟩)) = some final ∧
      AbortKept ⟨['m'], 5⟩ aborted ([.answer 0 ⟨.none, 17⟩, .check 0] ++
        answeredCall 1 ⟨['m'], 5⟩ ⟨.none, 18⟩) final ∧
      final.reported = [(1, ⟨5, 18, .none⟩)] := by
  obtain ⟨aborted, hbefore, hfacts⟩ : ∃ aborted : State (Fin 2) ℕ,
      exec step initial (requesting 0 ⟨['m'], 5⟩) = some aborted ∧
        decide (aborted.phase 0 = .running ⟨['m'], 5⟩ ∧ aborted.phase 1 = .idle) = true :=
    exists_exec_of_any (by decide)
  obtain ⟨hrunning, hidle⟩ := of_decide_eq_true hfacts
  obtain ⟨final, hrun, hreported⟩ : ∃ final : State (Fin 2) ℕ,
      exec step initial (requesting 0 ⟨['m'], 5⟩ ++ (.abort ⟨['m'], 5⟩ ::
        ([.answer 0 ⟨.none, 17⟩, .check 0] ++ answeredCall 1 ⟨['m'], 5⟩ ⟨.none, 18⟩))) =
          some final ∧ decide (final.reported = [(1, ⟨5, 18, .none⟩)]) = true :=
    exists_exec_of_any (by decide)
  have hmeets : Meets step (InvokedAlone ⟨['m'], 5⟩) (initial : State (Fin 2) ℕ)
      (requesting 0 ⟨['m'], 5⟩ ++ (.abort ⟨['m'], 5⟩ ::
        ([.answer 0 ⟨.none, 17⟩, .check 0] ++ answeredCall 1 ⟨['m'], 5⟩ ⟨.none, 18⟩))) := by
    decide
  obtain ⟨middle, hmiddle, hafter⟩ := exec_append_eq_some.mp hrun
  obtain rfl := Option.some.inj (hbefore.symm.trans hmiddle)
  refine ⟨aborted, final, hbefore, hafter, ?_, of_decide_eq_true hreported⟩
  refine abort_kept_of_invokedAlone hbefore ?_ ((meets_append hbefore).mp hmeets).2 hafter
  intro op outcome hactive
  fin_cases op
  · exact absurd (hactive.symm.trans hrunning) nofun
  · exact absurd (hactive.symm.trans hidle) nofun

/-- The pair is used again while the aborted job is running: that job is reported, and it
revokes the job of the later call. -/
theorem aborted_call_disturbs_later :
    ∃ aborted final : State (Fin 2) ℕ,
      exec step initial (requesting 0 ⟨['m'], 5⟩) = some aborted ∧
      exec step aborted (.abort ⟨['m'], 5⟩ :: [.invoke 1 ⟨['m'], 5⟩, .submit 1,
        .answer 0 ⟨.none, 17⟩, .check 0, .callback 0, .remove 0]) = some final ∧
      (aborted.phase 0).Submitted ⟨['m'], 5⟩ ∧ aborted.reported = [] ∧
      final.reported = [(0, ⟨5, 17, .none⟩)] ∧ final.phase 1 = .revoked ⟨['m'], 5⟩ ∧
      ¬ AbortKept ⟨['m'], 5⟩ aborted [.invoke 1 ⟨['m'], 5⟩, .submit 1,
        .answer 0 ⟨.none, 17⟩, .check 0, .callback 0, .remove 0] final := by
  obtain ⟨final, hrun, hfacts⟩ : ∃ final : State (Fin 2) ℕ,
      exec step initial (requesting 0 ⟨['m'], 5⟩ ++ (.abort ⟨['m'], 5⟩ ::
        [.invoke 1 ⟨['m'], 5⟩, .submit 1, .answer 0 ⟨.none, 17⟩, .check 0, .callback 0,
          .remove 0])) = some final ∧
        decide (final.reported = [(0, ⟨5, 17, .none⟩)] ∧
          final.phase 1 = .revoked ⟨['m'], 5⟩) = true :=
    exists_exec_of_any (by decide)
  obtain ⟨hreported, hrevoked⟩ := of_decide_eq_true hfacts
  obtain ⟨aborted, hbefore, hstart⟩ : ∃ aborted : State (Fin 2) ℕ,
      exec step initial (requesting 0 ⟨['m'], 5⟩) = some aborted ∧
        decide (aborted.phase 0 = .running ⟨['m'], 5⟩ ∧ aborted.reported = []) = true :=
    exists_exec_of_any (by decide)
  obtain ⟨hrunning, hnone⟩ := of_decide_eq_true hstart
  obtain ⟨middle, hmiddle, hafter⟩ := exec_append_eq_some.mp hrun
  obtain rfl := Option.some.inj (hbefore.symm.trans hmiddle)
  have hsubmitted : (aborted.phase 0).Submitted ⟨['m'], 5⟩ := by
    rw [hrunning]
    exact ⟨rfl, nofun⟩
  refine ⟨aborted, final, hbefore, hafter, hsubmitted, hnone, hreported, hrevoked, ?_⟩
  intro hkept
  exact hkept.kept [] 1 _ rfl (by decide) _ hrevoked

end FireboltTransport.Async
