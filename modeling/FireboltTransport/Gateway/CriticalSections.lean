/-
# The critical sections of the client are its steps

The client with its mutexes takes many moves for what is one step of the coarse client.
Here the two are compared run by run: the critical sections of a run, in the order in
which they change the data, are a run of the coarse client that ends with the same data.
What is proved of every run of the coarse client therefore holds of the client with its
mutexes, the order of the replies included.
-/

import FireboltTransport.Gateway.ClientLocks
import FireboltTransport.Semantics.Linearizable

namespace FireboltTransport.ClientLocks

open Semantics Client

variable {ι ρ : Type} [DecidableEq ι]

/-- The step of the coarse client that a thread takes when it moves from a point, if any. -/
def coarseMove (client : Client.State ι) :
    (thread : Thread ι ρ) → thread.Point → List (Client.Action ι)
  | .request call, point =>
      match point with
      | .insertHolds => [.insert call]
      | .waitHolds => if (client.caller call).ready then [.wake call] else []
      | .eraseHolds => [.erase call]
      | _ => []
  | .visitor _, point =>
      match point with
      -- Without a receiver the reply ends here.
      | .replyHolds message =>
          if (client.queue.lookup message.id.value).isNone then [.response message] else []
      | .replyOwns message _ => [.response message]
      | _ => []
  | .watchdog, point =>
      match point with
      | .sweepHolds => [.collect]
      | .markHolds _ => [.mark]
      | _ => []

/-- The step of the coarse client that a step of the model takes, if any. -/
def coarse (state : State ι ρ) : Action ι ρ → List (Client.Action ι)
  | .outside action => [action]
  | .start _ _ => []
  | .move thread => coarseMove state.client thread (state.locks.point thread)

/-- A move changes the data as the coarse client does. -/
theorem exec_coarseMove {client : Client.State ι} {thread : Thread ι ρ} {point : thread.Point}
    {move : Move ι thread.Point} (hfact : Fact client thread point)
    (hfree : ∀ call, holds thread point (.mtx call) → thread ≠ .request call →
      client.phase call ≠ .woken)
    (hmove : moveAt client thread point = some move) :
    exec Client.step client (coarseMove client thread point) = some move.client := by
  cases thread with
  | request call =>
      cases requestMove_cases hmove with
      | insert => exact exec_single (step_of_cases (.insert call hfact.1))
      | wake hready =>
          simp only [coarseMove, hready, if_true]
          exact exec_single (step_of_cases (.wake call hfact.1 hready))
      | block hready => simp [coarseMove, hready]
      | erase => exact exec_single (step_of_cases (.erase call hfact.1))
      | _ => rfl
  | visitor visitor =>
      cases visitorMove_cases hmove with
      | noReceiver message hlookup =>
          simp only [coarseMove, hlookup, Option.isNone_none, if_true]
          exact exec_single (step_of_cases (.ignore message hlookup))
      | find message call hlookup => simp [coarseMove, hlookup]
      | complete message call =>
          exact exec_single (step_of_cases
            (.response message call hfact (hfree call (.inr rfl) (by simp))))
      | _ => rfl
  | watchdog =>
      cases watchdogMove_cases hmove with
      | collect now hwatchdog => exact exec_single (step_of_cases (.collect now hwatchdog))
      | mark call head rest hwatchdog =>
          obtain ⟨others, hmarking⟩ := hfact
          obtain ⟨rfl, rfl⟩ : head = call ∧ rest = others := by
            simpa [hwatchdog] using hmarking
          exact exec_single (step_of_cases
            (.mark head rest hwatchdog (hfree head rfl (by simp))))
      | _ => rfl

variable [DecidableEq ρ]

theorem exec_coarse {state next : State ι ρ} {action : Action ι ρ} (hconsistent : Consistent state)
    (hstep : Step state action next) :
    exec Client.step state.client (coarse state action) = some next.client := by
  cases hstep with
  | outside action client houtside hclient => exact exec_single (step_of_cases hclient)
  | start visitor job locks hpoint hlocks => rfl
  | move thread move locks hmove hlocks =>
      exact exec_coarseMove (hconsistent.fact thread)
        (fun _ hholds hthread => hconsistent.not_woken hholds hthread) hmove

/-- **The client with its mutexes refines the coarse client.**  However its threads take and
release their mutexes, the critical sections they execute are, in that order, a run of the
coarse client, and both end with the same data. -/
theorem exec_trace_coarse {transport : Option Channel} {clock : Timestamp}
    {schedule : List (Action ι ρ)} {final : State ι ρ}
    (hrun : exec step (initial transport clock) schedule = some final) :
    exec Client.step (Client.initial transport clock)
      (trace step coarse (initial transport clock) schedule) = some final.client := by
  obtain ⟨_, hcoarse, _, rfl⟩ : ∃ client,
      exec Client.step (Client.initial transport clock)
        (trace step coarse (initial transport clock) schedule) = some client ∧
      Consistent final ∧ client = final.client := by
    refine exec_trace_of_match (fun state client => Consistent state ∧ client = state.client)
      ⟨consistent_initial transport clock, rfl⟩ ?_ hrun
    rintro state action next client _ htaken ⟨hconsistent, rfl⟩
    have hstep := step_cases htaken
    exact ⟨next.client, exec_coarse hconsistent hstep, hconsistent.step hstep, rfl⟩
  exact hcoarse

/-- A call blocks before its reply comes, and is woken by it. -/
def blockedCall (call : ι) (visitor : ρ) : List (Action ι ρ) :=
  [.outside (.draw call), .outside (.create call),
    .move (.request call), .move (.request call), .move (.request call), .move (.request call),
    .outside (.send call .none),
    .move (.request call), .move (.request call), .move (.request call),
    .start visitor (.response (.reply 1 ['a'])),
    .move (.visitor visitor), .move (.visitor visitor), .move (.visitor visitor),
    .move (.visitor visitor), .move (.request call), .move (.visitor visitor),
    .move (.request call), .move (.visitor visitor), .move (.request call)]

theorem exec_trace_coarse_blockedCall :
    ∃ final : State (Fin 1) (Fin 1),
      exec step (initial (some .new) .zero) (blockedCall 0 0) = some final ∧
      exec Client.step (Client.initial (some .new) .zero)
        [.draw 0, .create 0, .insert 0, .send 0 .none, .response (.reply 1 ['a']), .wake 0] =
          some final.client := by
  obtain ⟨final, hrun, _⟩ : ∃ final : State (Fin 1) (Fin 1),
      exec step (initial (some .new) .zero) (blockedCall 0 0) = some final ∧
        decide (final.client.phase 0 = .woken) = true :=
    exists_exec_of_any (by decide)
  have htrace : trace step coarse (initial (some .new) .zero : State (Fin 1) (Fin 1))
      (blockedCall 0 0) =
      [.draw 0, .create 0, .insert 0, .send 0 .none, .response (.reply 1 ['a']), .wake 0] := by
    decide
  refine ⟨final, hrun, ?_⟩
  rw [← htrace]
  exact exec_trace_coarse hrun

end FireboltTransport.ClientLocks
