/-
# The parameters a provider gets

`Server::Request` puts the text of the parameters between `{ "parameters":` and `}`.
Around a JSON text that makes an object with the one member, whatever the text is.
Around the empty text, which stands for absent parameters, it makes no JSON text.
-/

import FireboltTransport.Gateway.Answers
import FireboltTransport.Gateway.Registrations
import FireboltTransport.Semantics.Json

namespace FireboltTransport.Server

open Semantics Json

universe u

variable {ρ : Type u}

/-- What a message makes the server do. -/
def effects (respond : ρ → Text → UInt64 → Text) (providers : Providers ρ) :
    GatewayImpl.Received → List (Effect ρ)
  | .request id method parameters => requestEffects respond providers id method parameters
  | .notify _ _ | .response _ => []

/-- The name of the member. -/
def parametersName : Text := "parameters".toList

/-- The parameters are absent, which reads as the empty text, or are any JSON text. -/
def IsParameters (parameters : Field Text) : Prop :=
  (parameters.isSet = false ∧ parameters.value = []) ∨
    parameters.isSet = true ∧ ∃ value, Reads parameters.value value

/-- The value gives the parameters back; absent ones as null or an empty value. -/
def GivesBack (parameters : Field Text) (value : Json) : Prop :=
  if parameters.isSet then Reads parameters.value value
  else value = .null ∨ value = .string [] ∨ value = .array [] ∨ value = .object []

/-- The text reads as an object with exactly the member `parameters`, which gives them back. -/
def CarriesParameters (parameters : Field Text) (text : Text) : Prop :=
  ∃ value, GivesBack parameters value ∧
    ∀ read, Reads text read ↔ read = .object [(parametersName, value)]

/-- The text that is built, character by character. -/
theorem wrapParameters_eq (parameters : Text) :
    wrapParameters parameters =
      '{' :: ' ' :: '"' :: (parametersName ++ '"' :: ':' :: (parameters ++ ['}'])) := rfl

theorem isPlain_parametersName : ∀ c ∈ parametersName, isPlain c :=
  List.all_eq_true.mp rfl

theorem carriesParameters_of_reads {parameters : Field Text} (hset : parameters.isSet = true)
    {value : Json} (hreads : Reads parameters.value value) :
    CarriesParameters parameters (wrapParameters parameters.value) := by
  have hobject := hreads.singleton isPlain_parametersName
  refine ⟨value, by rw [GivesBack, if_pos hset]; exact hreads, ?_⟩
  intro read
  rw [wrapParameters_eq]
  constructor
  · exact fun hread => hobject.unique hread
  · rintro rfl
    exact hobject

theorem not_carriesParameters_nil (parameters : Field Text) :
    ¬ CarriesParameters parameters (wrapParameters []) := by
  rintro ⟨value, _, hreads⟩
  exact not_reads_missing isPlain_parametersName _ ((hreads _).mpr rfl)

/-- **What providers get.**  For every message with a method and an identifier that a provider
serves, whose parameters are absent or any JSON text, every text that is passed to a provider
is an object with exactly the member `parameters`, which gives the parameters back, if and only
if the message has parameters. -/
theorem carriesParameters_iff (respond : ρ → Text → UInt64 → Text) {providers : Providers ρ}
    (message : Message) {m : Method ρ} (hdesignator : message.designator.isSet = true)
    (hid : message.id.isSet = true)
    (hserved : findMethod providers message.designator.value = some m)
    (hparameters : IsParameters message.parameters) :
    (∀ lambda text usercb,
      .invoke lambda text usercb ∈ effects respond providers (GatewayImpl.receive message) →
        CarriesParameters message.parameters text) ↔ message.parameters.isSet = true := by
  have heffects : effects respond providers (GatewayImpl.receive message) =
      [.invoke m.lambda (wrapParameters message.parameters.value) m.usercb,
        .sendResponse message.id.value
          (respond m.lambda (wrapParameters message.parameters.value) m.usercb)] := by
    rw [GatewayImpl.receive_request hdesignator hid, effects, requestEffects_eq, hserved]
  constructor
  · intro hcarries
    obtain ⟨_, hempty⟩ | ⟨hset, _⟩ := hparameters
    · have hpassed := hcarries m.lambda (wrapParameters message.parameters.value) m.usercb
        (by simp [heffects])
      rw [hempty] at hpassed
      exact absurd hpassed (not_carriesParameters_nil message.parameters)
    · exact hset
  · intro hset lambda text usercb hinvoke
    obtain ⟨hunset, _⟩ | ⟨_, value, hreads⟩ := hparameters
    · simp [hset] at hunset
    · obtain rfl : text = wrapParameters message.parameters.value := by
        simp only [heffects, List.mem_cons, Effect.invoke.injEq, reduceCtorEq, List.not_mem_nil,
          or_false] at hinvoke
        exact hinvoke.2.1
      exact carriesParameters_of_reads hset hreads

/-- A table with one method. -/
def wallpaper : Providers Unit :=
  (registerProviderInterface ∅ "Wallpaper.onSet".toList () 7).2

/-- A request to it. -/
def setWallpaper (parameters : Field Text) : Message :=
  { Message.empty with
    id := ⟨true, 3⟩
    designator := ⟨true, "Wallpaper.set".toList⟩
    parameters := parameters }

/-- The parameters are a list with one number. -/
theorem carriesParameters_list :
    CarriesParameters ⟨true, "[ 12]".toList⟩ (wrapParameters "[ 12]".toList) := by
  have hreads : Reads "[ 12]".toList (.array [.number ['1', '2']]) :=
    ⟨[.beginArray, .number ['1', '2'], .endArray], rfl,
      .array _ _ _ (.lastElement _ _ _ (.number _ _))⟩
  have hserved : findMethod wallpaper "Wallpaper.set".toList = some ⟨"set".toList, (), 7⟩ := by
    decide
  exact (carriesParameters_iff (fun _ text _ => text) (setWallpaper ⟨true, "[ 12]".toList⟩) rfl rfl
    hserved (.inr ⟨rfl, _, hreads⟩)).mpr rfl () _ 7 (by decide)

/-- Without parameters the provider gets `{ "parameters":}`. -/
theorem not_carriesParameters_absent :
    ¬ ∀ lambda text usercb, .invoke lambda text usercb ∈
      effects (fun _ text _ => text) wallpaper (GatewayImpl.receive (setWallpaper ⟨false, []⟩)) →
      CarriesParameters ⟨false, []⟩ text := by
  intro hcarries
  have hpassed := hcarries () (wrapParameters []) 7 (by decide)
  exact not_carriesParameters_nil _ hpassed

end FireboltTransport.Server
