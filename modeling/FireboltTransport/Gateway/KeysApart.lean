/-
# The events of one key are on their own

All subscriptions share the event map, the transport and the peer, and their calls
interleave.  What the calls for one key do is nevertheless decided by these calls:
the steps of a run that are about the key are a run by themselves, which ends with
the same results, the same subscription under the key and the same state of the
peer.  Of the other calls nothing remains, not even their requests on the wire.

The changes of the transport are about every key.
-/

import FireboltTransport.Gateway.Agreement
import FireboltTransport.Semantics.Linearizable

namespace FireboltTransport.Listening

open Semantics Server GatewayImpl

universe u v

variable {β : Type u} {κ : Type v}

/-- A phase as the calls for `key` see it: other calls have not begun. -/
def Phase.under (key : Text) (phase : Phase β) : Phase β :=
  match phase.call with
  | some call => if call.key = key then phase else .idle
  | none => .idle

/-- The operation makes, or has made, a call for `key`. -/
def State.concerns (state : State β κ) (key : Text) (op : κ) : Bool :=
  (state.phase op).call.any fun call => call.key = key

/-- A step that is about `key`. -/
def State.about (state : State β κ) (key : Text) : Action β κ → Bool
  | .setTransport _ => true
  | .start _ call => call.key = key
  | .peer => state.wire.head?.any fun message => getKeyFromEvent message.event = key
  | .update op | .send op | .complete op _ | .settle op | .rollback op => state.concerns key op

/-- The step, where it is about `key`. -/
def own (key : Text) (state : State β κ) (action : Action β κ) : List (Action β κ) :=
  if state.about key action then [action] else []

/-- What there is of a state under `key`. -/
structure SeenUnder (key : Text) (state alone : State β κ) : Prop where
  connected : alone.connected = state.connected
  eventMap : alone.eventMap.lookup key = state.eventMap.lookup key
  wire : alone.wire = state.wire.filter fun message => getKeyFromEvent message.event = key
  listening : ∀ event, getKeyFromEvent event = key →
    alone.listening event = state.listening event
  phase : ∀ op, alone.phase op = (state.phase op).under key

/-- A request on the wire is that of the call its operation makes. -/
def Requested (state : State β κ) : Prop :=
  ∀ message ∈ state.wire, ∃ call, (state.phase message.op).call = some call ∧
    call.request message.op = message

theorem seenUnder_initial (key : Text) (connected : Bool) :
    SeenUnder key (initial connected : State β κ) (initial connected) :=
  ⟨rfl, rfl, rfl, fun _ _ => rfl, fun _ => rfl⟩

theorem requested_initial (connected : Bool) : Requested (initial connected : State β κ) := by
  simp [Requested, initial]

namespace Phase

variable {key : Text} {phase : Phase β} {call : Call β}

theorem under_of_key (hcall : phase.call = some call) (hkey : call.key = key) :
    phase.under key = phase := by
  simp [under, hcall, hkey]

theorem under_of_ne (hcall : phase.call = some call) (hkey : call.key ≠ key) :
    phase.under key = .idle := by
  simp [under, hcall, hkey]

end Phase

/-! ## The event map -/

section Map

variable {eventMap alone : EventMap β} {call : Call β} {key : Text}

/-- The local update of a call looks at its own key only. -/
theorem update_congr (hsame : alone.lookup call.key = eventMap.lookup call.key) :
    (call.update alone).1 = (call.update eventMap).1 ∧
      (call.update alone).2.lookup call.key = (call.update eventMap).2.lookup call.key := by
  cases call with
  | subscribe event callbackData =>
      simp only [Call.key, Call.event] at hsame ⊢
      by_cases hfree : eventMap.lookup (getKeyFromEvent event) = none
      · have halone := hsame.trans hfree
        simp [Call.update, Server.subscribe_of_free hfree, Server.subscribe_of_free halone]
      · have halone : alone.lookup (getKeyFromEvent event) ≠ none := by rwa [hsame]
        simp [Call.update, Server.subscribe_of_taken hfree, Server.subscribe_of_taken halone,
          hsame]
  | unsubscribe event =>
      simp only [Call.key, Call.event] at hsame ⊢
      by_cases hfree : eventMap.lookup (getKeyFromEvent event) = none
      · have halone := hsame.trans hfree
        simp [Call.update, Server.unsubscribe_of_free hfree, Server.unsubscribe_of_free halone,
          hsame]
      · have halone : alone.lookup (getKeyFromEvent event) ≠ none := by rwa [hsame]
        simp [Call.update, Server.unsubscribe_of_taken hfree,
          Server.unsubscribe_of_taken halone]

/-- It leaves the other keys alone. -/
theorem update_of_ne (eventMap : EventMap β) (hkey : call.key ≠ key) :
    (call.update eventMap).2.lookup key = eventMap.lookup key := by
  cases call with
  | subscribe event callbackData =>
      by_cases hfree : eventMap.lookup (getKeyFromEvent event) = none
      · simp only [Call.update, Server.subscribe_of_free hfree]
        exact AList.lookup_insert_ne (Ne.symm hkey)
      · simp only [Call.update, Server.subscribe_of_taken hfree]
  | unsubscribe event =>
      have hother : key ≠ getKeyFromEvent event := Ne.symm hkey
      simp only [Call.update]
      rw [Server.lookup_unsubscribe, if_neg hother]

end Map

/-! ## One step -/

section Step

variable [DecidableEq κ] {state alone next : State β κ} {action : Action β κ} {key : Text}
  {op : κ} {call : Call β} {phase : Phase β}

theorem setPhase_phase (state : State β κ) (op : κ) (phase : Phase β) :
    (state.setPhase op phase).phase op = phase :=
  Function.update_self _ _ _

theorem setPhase_phase_of_ne (state : State β κ) {op other : κ} (hop : other ≠ op)
    (phase : Phase β) : (state.setPhase op phase).phase other = state.phase other :=
  Function.update_of_ne hop _ _

/-- A call that moves in both states. -/
theorem SeenUnder.setPhase (hseen : SeenUnder key state alone) (op : κ)
    (hcall : phase.call = some call) (hkey : call.key = key) :
    SeenUnder key (state.setPhase op phase) (alone.setPhase op phase) where
  connected := hseen.connected
  eventMap := hseen.eventMap
  wire := hseen.wire
  listening := hseen.listening
  phase := by
    intro other
    by_cases hop : other = op
    · subst hop
      rw [setPhase_phase, setPhase_phase, Phase.under_of_key hcall hkey]
    · rw [setPhase_phase_of_ne _ hop, setPhase_phase_of_ne _ hop]
      exact hseen.phase other

/-- A call for another key that moves. -/
theorem SeenUnder.setPhase_of_ne (hseen : SeenUnder key state alone)
    (hcall : phase.call = some call) (hkey : call.key ≠ key)
    (hbefore : (state.phase op).under key = .idle) :
    SeenUnder key (state.setPhase op phase) alone where
  connected := hseen.connected
  eventMap := hseen.eventMap
  wire := hseen.wire
  listening := hseen.listening
  phase := by
    intro other
    by_cases hop : other = op
    · subst hop
      rw [setPhase_phase, Phase.under_of_ne hcall hkey, hseen.phase, hbefore]
    · rw [setPhase_phase_of_ne _ hop]
      exact hseen.phase other

/-- The call of an operation stays its call. -/
theorem call_mono (hstep : Step state action next) (hcall : (state.phase op).call = some call) :
    (next.phase op).call = some call := by
  cases hstep with
  | setTransport connected => exact hcall
  | peerLate message rest hwire hphase => exact hcall
  | refuse actor other hphase | start actor other hphase =>
      have hop : op ≠ actor := by
        rintro rfl
        rw [hphase] at hcall
        cases hcall
      rw [setPhase_phase_of_ne _ hop]
      exact hcall
  | update actor other eventMap hphase | updateFailed actor other hphase
  | send actor other hphase | settle actor other outcome hphase
  | settleFailed actor other outcome hphase | rollback actor other status hphase =>
      by_cases hop : op = actor
      · subst hop
        rw [hphase] at hcall
        rw [setPhase_phase]
        exact hcall
      · rw [setPhase_phase_of_ne _ hop]
        exact hcall
  | peer message rest other hwire hphase =>
      by_cases hop : op = message.op
      · subst hop
        rw [hphase] at hcall
        rw [setPhase_phase]
        exact hcall
      · rw [setPhase_phase_of_ne _ hop]
        exact hcall
  | complete actor other outcome hphase =>
      by_cases hop : op = actor
      · subst hop
        rw [setPhase_phase]
        rcases hphase with hphase | hphase
        · rw [hphase] at hcall
          exact hcall
        · rw [hphase] at hcall
          exact hcall
      · rw [setPhase_phase_of_ne _ hop]
        exact hcall

/-- Only a sending puts a request on the wire. -/
theorem wire_step (hstep : Step state action next) {message : Listen κ}
    (hmessage : message ∈ next.wire) :
    message ∈ state.wire ∨ ∃ op call, state.phase op = .updated call ∧
      message = call.request op := by
  cases hstep with
  | send op call hphase hconnected =>
      rcases List.mem_append.mp hmessage with hold | hnew
      · exact .inl hold
      · exact .inr ⟨op, call, hphase, List.mem_singleton.mp hnew⟩
  | peer head rest call hwire hphase | peerLate head rest hwire hphase =>
      left
      rw [hwire]
      exact List.mem_cons_of_mem _ hmessage
  | _ => exact .inl hmessage

theorem Requested.step (hrequested : Requested state) (hstep : Step state action next) :
    Requested next := by
  intro message hmessage
  rcases wire_step hstep hmessage with hold | ⟨op, call, hphase, rfl⟩
  · obtain ⟨call, hcall, hrequest⟩ := hrequested message hold
    exact ⟨call, call_mono hstep hcall, hrequest⟩
  · exact ⟨call, call_mono hstep (by rw [Call.request, hphase, Phase.call]), rfl⟩

/-- A step that moves one call to another phase of it, on a state that agrees with the one
before under the key. -/
theorem SeenUnder.move {changed : State β κ} (hseen : SeenUnder key state alone) (call : Call β)
    (hcall : (state.phase op).call = some call) (hafter : phase.call = some call)
    (habout : state.about key action = decide (call.key = key))
    (hphase : changed.phase = state.phase)
    (hown : call.key = key → alone.phase op = state.phase op →
      ∃ later, step alone action = some (later.setPhase op phase) ∧ SeenUnder key changed later)
    (hother : call.key ≠ key → SeenUnder key changed alone) :
    ∃ later, exec step alone (own key state action) = some later ∧
      SeenUnder key (changed.setPhase op phase) later := by
  by_cases hkey : call.key = key
  · have hsame : alone.phase op = state.phase op := by
      rw [hseen.phase, Phase.under_of_key hcall hkey]
    obtain ⟨later, htaken, hlater⟩ := hown hkey hsame
    refine ⟨later.setPhase op phase, ?_, hlater.setPhase op hafter hkey⟩
    rw [own, habout, decide_eq_true hkey, if_pos rfl]
    exact exec_single htaken
  · refine ⟨alone, ?_, (hother hkey).setPhase_of_ne hafter hkey ?_⟩
    · rw [own, habout, decide_eq_false hkey]
      rfl
    · rw [hphase]
      exact Phase.under_of_ne hcall hkey

/-- A call that begins, in the state and under its key. -/
theorem SeenUnder.begin (hseen : SeenUnder key state alone) (hidle : state.phase op = .idle)
    (hafter : phase.call = some call)
    (hown : alone.phase op = .idle → step alone (.start op call) = some (alone.setPhase op phase)) :
    ∃ later, exec step alone (own key state (.start op call)) = some later ∧
      SeenUnder key (state.setPhase op phase) later := by
  by_cases hkey : call.key = key
  · have hsame : alone.phase op = .idle := by
      rw [hseen.phase, hidle]
      rfl
    refine ⟨alone.setPhase op phase, ?_, hseen.setPhase op hafter hkey⟩
    simp only [own, State.about, hkey, decide_true, if_true]
    exact exec_single (hown hsame)
  · refine ⟨alone, by simp [own, State.about, hkey], ?_⟩
    apply hseen.setPhase_of_ne hafter hkey
    rw [hidle]
    rfl

omit [DecidableEq κ] in
/-- The peer comes to a request. -/
theorem SeenUnder.process (hseen : SeenUnder key state alone) {message : Listen κ}
    {rest : List (Listen κ)} (hwire : state.wire = message :: rest) :
    SeenUnder key
      { state with
        wire := rest
        listening := Function.update state.listening message.event message.listen }
      (if getKeyFromEvent message.event = key then
        { alone with
          wire := rest.filter fun later => getKeyFromEvent later.event = key
          listening := Function.update alone.listening message.event message.listen }
      else alone) := by
  have hfilter := hseen.wire
  rw [hwire] at hfilter
  by_cases hkey : getKeyFromEvent message.event = key
  · rw [if_pos hkey]
    refine ⟨hseen.connected, hseen.eventMap, rfl, ?_, hseen.phase⟩
    intro event hevent
    by_cases hsame : event = message.event
    · subst hsame
      simp
    · simp only [Function.update_of_ne hsame]
      exact hseen.listening event hevent
  · rw [if_neg hkey]
    refine ⟨hseen.connected, hseen.eventMap, ?_, ?_, hseen.phase⟩
    · rw [hfilter, List.filter_cons_of_neg (by simpa using hkey)]
    · intro event hevent
      have hne : event ≠ message.event := by
        rintro rfl
        exact hkey hevent
      simp only [Function.update_of_ne hne]
      exact hseen.listening event hevent

/-- Each step is one under the key, or none. -/
theorem SeenUnder.step (hseen : SeenUnder key state alone) (hrequested : Requested state)
    (hstep : Step state action next) :
    ∃ later, exec step alone (own key state action) = some later ∧ SeenUnder key next later := by
  cases hstep with
  | setTransport connected =>
      refine ⟨{ alone with connected := connected }, rfl, rfl, hseen.eventMap, hseen.wire,
        hseen.listening, hseen.phase⟩
  | refuse op call hphase hcall hconnected =>
      apply hseen.begin hphase rfl
      intro hidle
      have hsame := hseen.connected.trans hconnected
      cases call with
      | subscribe event callbackData => simp [Listening.step, hidle, hsame]
      | unsubscribe event => cases hcall
  | start op call hphase hstart =>
      apply hseen.begin hphase rfl
      intro hidle
      cases call with
      | subscribe event callbackData =>
          have hsame : alone.connected = true := by
            rw [hseen.connected]
            simpa [Call.listen] using hstart
          simp [Listening.step, hidle, hsame]
      | unsubscribe event => simp [Listening.step, hidle]
  | update op call eventMap hphase hupdate =>
      refine hseen.move call (by rw [hphase]; rfl) rfl
        (by simp [State.about, State.concerns, hphase, Phase.call]) rfl ?_ ?_
      · rintro rfl hsame
        obtain ⟨hstatus, hlookup⟩ := update_congr hseen.eventMap
        rw [hupdate] at hstatus hlookup
        refine ⟨{ alone with eventMap := (call.update alone.eventMap).2 }, ?_, hseen.connected,
          hlookup, hseen.wire, hseen.listening, hseen.phase⟩
        simp [Listening.step, hsame, hphase, hstatus]
      · intro hkey
        have hlookup := update_of_ne state.eventMap hkey
        rw [hupdate] at hlookup
        exact ⟨hseen.connected, hseen.eventMap.trans hlookup.symm, hseen.wire, hseen.listening,
          hseen.phase⟩
  | updateFailed op call hphase hfailed =>
      refine hseen.move call (by rw [hphase]; rfl) rfl
        (by simp [State.about, State.concerns, hphase, Phase.call]) rfl ?_ ?_
      · rintro rfl hsame
        have hstatus := (update_congr hseen.eventMap).1
        refine ⟨alone, ?_, hseen⟩
        simp [Listening.step, hsame, hphase, hstatus, hfailed]
      · exact fun _ => hseen
  | send op call hphase hconnected =>
      refine hseen.move call (by rw [hphase]; rfl) rfl
        (by simp [State.about, State.concerns, hphase, Phase.call]) rfl ?_ ?_
      · rintro rfl hsame
        have hopen := hseen.connected.trans hconnected
        refine ⟨{ alone with wire := alone.wire ++ [call.request op] }, ?_, hseen.connected,
          hseen.eventMap, ?_, hseen.listening, hseen.phase⟩
        · simp [Listening.step, hsame, hphase, hopen]
        · simp [hseen.wire, List.filter_append, Call.request, Call.key]
      · intro hkey
        refine ⟨hseen.connected, hseen.eventMap, ?_, hseen.listening, hseen.phase⟩
        have hevent : getKeyFromEvent (call.request op).event ≠ key := hkey
        simp [hseen.wire, List.filter_append, hevent]
  | peer message rest call hwire hphase =>
      obtain ⟨made, hmade, hrequest⟩ := hrequested message (by simp [hwire])
      obtain rfl : call = made := by
        rw [hphase] at hmade
        exact Option.some.inj hmade
      have hevent : getKeyFromEvent message.event = call.key := by
        rw [← hrequest]
        rfl
      have hprocess := hseen.process hwire
      rw [hevent] at hprocess
      refine hseen.move call (by rw [hphase]; rfl) rfl
        (by simp [State.about, hwire, hevent]) rfl ?_ ?_
      · rintro rfl hsame
        rw [if_pos rfl] at hprocess
        refine ⟨_, ?_, hprocess⟩
        have hfirst : alone.wire = message ::
            rest.filter fun later => getKeyFromEvent later.event = call.key := by
          rw [hseen.wire, hwire, List.filter_cons_of_pos (by simpa using hevent)]
        simp [Listening.step, hfirst, hsame, hphase]
      · intro hkey
        rwa [if_neg hkey] at hprocess
  | peerLate message rest hwire hphase =>
      have hprocess := hseen.process hwire
      by_cases hkey : getKeyFromEvent message.event = key
      · rw [if_pos hkey] at hprocess
        refine ⟨_, ?_, hprocess⟩
        have hfirst : alone.wire = message ::
            rest.filter fun later => getKeyFromEvent later.event = key := by
          rw [hseen.wire, hwire, List.filter_cons_of_pos (by simpa using hkey)]
        have hlate : ∀ call, alone.phase message.op ≠ .sent call := by
          intro call hsent
          rw [hseen.phase, Phase.under] at hsent
          split at hsent
          · split_ifs at hsent
            exact hphase call hsent
          · cases hsent
        simp only [own, State.about, hwire, List.head?_cons, Option.any_some, hkey, decide_true,
          if_true]
        apply exec_single
        simp only [Listening.step, hfirst]
      · rw [if_neg hkey] at hprocess
        exact ⟨alone, by simp [own, State.about, hwire, hkey], hprocess⟩
  | complete op call outcome hphase =>
      have hcall : (state.phase op).call = some call := by
        rcases hphase with hphase | hphase <;> rw [hphase] <;> rfl
      refine hseen.move call hcall rfl
        (by simp [State.about, State.concerns, hcall]) rfl ?_ ?_
      · intro _ hsame
        refine ⟨alone, ?_, hseen⟩
        rcases hphase with hphase | hphase <;> simp [Listening.step, hsame, hphase]
      · exact fun _ => hseen
  | settle op call outcome hphase hreturns =>
      refine hseen.move call (by rw [hphase]; rfl) rfl
        (by simp [State.about, State.concerns, hphase, Phase.call]) rfl ?_ ?_
      · intro _ hsame
        refine ⟨alone, ?_, hseen⟩
        cases call with
        | subscribe event callbackData =>
            have hstatus : outcome.status = .none := by simpa [Call.listen] using hreturns
            simp [Listening.step, hsame, hphase, hstatus]
        | unsubscribe event => simp [Listening.step, hsame, hphase]
      · exact fun _ => hseen
  | settleFailed op call outcome hphase hstatus hcall =>
      refine hseen.move call (by rw [hphase]; rfl) rfl
        (by simp [State.about, State.concerns, hphase, Phase.call]) rfl ?_ ?_
      · intro _ hsame
        refine ⟨alone, ?_, hseen⟩
        cases call with
        | subscribe event callbackData =>
            rw [Call.status_eq] at hstatus
            simp [Listening.step, hsame, hphase, hstatus]
        | unsubscribe event => cases hcall
      · exact fun _ => hseen
  | rollback op call status hphase =>
      refine hseen.move call (by rw [hphase]; rfl) rfl
        (by simp [State.about, State.concerns, hphase, Phase.call]) rfl ?_ ?_
      · rintro rfl hsame
        refine ⟨{ alone with eventMap := (Server.unsubscribe alone.eventMap call.event).2 }, ?_,
          hseen.connected, ?_, hseen.wire, hseen.listening, hseen.phase⟩
        · simp [Listening.step, hsame, hphase]
        · rw [Server.lookup_unsubscribe, Server.lookup_unsubscribe, hseen.eventMap]
      · intro hkey
        refine ⟨hseen.connected, ?_, hseen.wire, hseen.listening, hseen.phase⟩
        have hother : key ≠ getKeyFromEvent call.event := Ne.symm hkey
        rw [Server.lookup_unsubscribe, if_neg hother]
        exact hseen.eventMap

end Step

/-- **The events of one key are on their own.**  For every key and every run of any calls, the
steps about the key are a run by themselves.  It ends with the results the calls for the key have
in the whole run, with the same callback registered under the key and with a peer that listens for
the same events of the key. -/
theorem exec_own [DecidableEq κ] {connected : Bool} {schedule : List (Action β κ)}
    {final : State β κ} (key : Text)
    (hrun : exec step (initial connected) schedule = some final) :
    ∃ alone, exec step (initial connected)
        (trace step (own key) (initial connected) schedule) = some alone ∧
      SeenUnder key final alone := by
  obtain ⟨alone, halone, _, hseen⟩ : ∃ alone,
      exec step (initial connected)
        (trace step (own key) (initial connected) schedule) = some alone ∧
      Requested final ∧ SeenUnder key final alone := by
    refine exec_trace_of_match (fun state alone => Requested state ∧ SeenUnder key state alone)
      ⟨requested_initial connected, seenUnder_initial key connected⟩ ?_ hrun
    rintro state action next alone _ htaken ⟨hrequested, hseen⟩
    have hstep := step_cases htaken
    obtain ⟨later, hlabels, hlater⟩ := hseen.step hrequested hstep
    exact ⟨later, hlabels, hrequested.step hstep, hlater⟩
  exact ⟨alone, halone, hseen⟩

def otherEvent : Text := ['C', '.', 'd']

/-- Two subscriptions that interleave; the first fails and is taken back. -/
def interleaved (first second : κ) : List (Action Unit κ) :=
  [.start first exampleSubscribe, .start second (.subscribe otherEvent ⟨(), 0, 0⟩),
    .update second, .update first, .send first, .complete first ⟨.timedout, ⟨false, false⟩⟩,
    .send second, .peer, .settle first, .peer, .rollback first, .settle second]

theorem exec_own_interleaved :
    ∃ final alone : State Unit (Fin 2),
      exec step (initial true) (interleaved 0 1) = some final ∧
      exec step (initial true)
        [.start 1 (.subscribe otherEvent ⟨(), 0, 0⟩), .update 1, .send 1, .peer, .settle 1] =
          some alone ∧
      alone.phase 1 = final.phase 1 := by
  obtain ⟨final, hrun, hreturned⟩ : ∃ final : State Unit (Fin 2),
      exec step (initial true) (interleaved 0 1) = some final ∧
        decide (final.phase 1 = .returned (.subscribe otherEvent ⟨(), 0, 0⟩) .none) = true :=
    exists_exec_of_any (by decide)
  have htrace : trace step (own otherEvent) (initial true : State Unit (Fin 2))
      (interleaved 0 1) =
      [.start 1 (.subscribe otherEvent ⟨(), 0, 0⟩), .update 1, .send 1, .peer, .settle 1] := by
    decide
  obtain ⟨alone, halone, hseen⟩ := exec_own otherEvent hrun
  rw [htrace] at halone
  refine ⟨final, alone, hrun, halone, ?_⟩
  rw [hseen.phase, of_decide_eq_true hreturned]
  rfl

end FireboltTransport.Listening
