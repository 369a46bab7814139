/-
# Shared data of the transport

Error codes, message identifiers, steady-clock readings, the JSON-RPC message
and the text values it carries.  A JSON member is seen through the two
questions the sources ask of it, `IsSet()` and `Value()`.

The numeric codes of the underlying framework are not part of the sources.
They enter as a record that keeps what a `switch` over them needs: the labels
are distinct and only "no error" is zero.
-/

import Mathlib

namespace FireboltTransport

/-- A `std::string`, as the sequence of its characters. -/
abbrev Text := List Char

/-- Two texts that are equal have the same text before the first occurrence of a character, and
the same text after it. -/
theorem append_cons_inj {c : Char} {first second rest other : Text} (hfirst : c ∉ first)
    (hsecond : c ∉ second) (hequal : first ++ c :: rest = second ++ c :: other) :
    first = second ∧ rest = other := by
  induction first generalizing second with
  | nil =>
      cases second with
      | nil => exact ⟨rfl, (List.cons.inj hequal).2⟩
      | cons d second =>
          obtain ⟨rfl, _⟩ := List.cons.inj hequal
          exact absurd List.mem_cons_self hsecond
  | cons d first ih =>
      cases second with
      | nil =>
          obtain ⟨rfl, _⟩ := List.cons.inj hequal
          exact absurd List.mem_cons_self hfirst
      | cons e second =>
          obtain ⟨rfl, htail⟩ := List.cons.inj hequal
          obtain ⟨rfl, hrest⟩ := ih (fun hmem => hfirst (List.mem_cons_of_mem _ hmem))
            (fun hmem => hsecond (List.mem_cons_of_mem _ hmem)) htail
          exact ⟨rfl, hrest⟩

/-- `uint32_t` message identifiers. -/
abbrev MessageID := UInt32

/-- `Firebolt::Error`.  Its underlying type is `int32_t` and codes of the peer are
cast into it, so every 32-bit code is a value. -/
structure Error where
  code : Int32
  deriving DecidableEq, Repr

namespace Error

def none : Error := ⟨0⟩
def general : Error := ⟨1⟩
def timedout : Error := ⟨2⟩
def notConnected : Error := ⟨3⟩

@[simp]
theorem timedout_ne_none : timedout ≠ none := by decide

@[simp]
theorem general_ne_none : general ≠ none := by decide

@[simp]
theorem notConnected_ne_none : notConnected ≠ none := by decide

theorem mk_ne_none {code : Int32} (hcode : code ≠ 0) : (⟨code⟩ : Error) ≠ none := by
  simpa [none] using hcode

end Error

/-- The framework's result codes that the transport names. -/
structure CoreErrors where
  errorNone : UInt32
  errorGeneral : UInt32
  errorUnavailable : UInt32
  errorAsyncFailed : UInt32
  errorTimedout : UInt32
  errorNone_eq : errorNone = 0
  distinct : [errorNone, errorGeneral, errorUnavailable, errorAsyncFailed, errorTimedout].Nodup

/-- `Transport::FireboltErrorValue`. -/
def CoreErrors.fireboltErrorValue (codes : CoreErrors) (error : UInt32) : Error :=
  if error = codes.errorNone then .none
  else if error = codes.errorGeneral ∨ error = codes.errorUnavailable then .general
  else if error = codes.errorTimedout then .timedout
  else ⟨error.toInt32⟩

@[simp]
theorem CoreErrors.fireboltErrorValue_errorNone (codes : CoreErrors) :
    codes.fireboltErrorValue codes.errorNone = .none := by
  simp [fireboltErrorValue]

/-- No failing code is reported as success. -/
theorem CoreErrors.fireboltErrorValue_eq_none_iff (codes : CoreErrors) (error : UInt32) :
    codes.fireboltErrorValue error = .none ↔ error = codes.errorNone := by
  have hzero : (⟨error.toInt32⟩ : Error) = .none ↔ error = 0 := by
    simp only [Error.none, Error.mk.injEq]
    exact ⟨fun h => congrArg Int32.toUInt32 h, fun h => congrArg UInt32.toInt32 h⟩
  unfold fireboltErrorValue
  split_ifs with hnone hgeneral htimedout
  · exact ⟨fun _ => hnone, fun _ => rfl⟩
  · exact ⟨fun h => absurd h Error.general_ne_none, fun h => absurd h hnone⟩
  · exact ⟨fun h => absurd h Error.timedout_ne_none, fun h => absurd h hnone⟩
  · rw [hzero, codes.errorNone_eq]

/-- The codes of the failures are not that of success. -/
theorem CoreErrors.ne_errorNone (codes : CoreErrors) {error : UInt32}
    (hfailure : error ∈ [codes.errorGeneral, codes.errorUnavailable, codes.errorAsyncFailed,
      codes.errorTimedout]) : error ≠ codes.errorNone := by
  rintro rfl
  exact (List.nodup_cons.mp codes.distinct).1 hfailure

/-- A failed asynchronous operation is not reported as success. -/
@[simp]
theorem CoreErrors.fireboltErrorValue_errorAsyncFailed_ne_none (codes : CoreErrors) :
    codes.fireboltErrorValue codes.errorAsyncFailed ≠ .none := by
  rw [ne_eq, codes.fireboltErrorValue_eq_none_iff]
  exact codes.ne_errorNone (by simp)

/-- Neither is an operation that found no channel. -/
@[simp]
theorem CoreErrors.fireboltErrorValue_errorUnavailable_ne_none (codes : CoreErrors) :
    codes.fireboltErrorValue codes.errorUnavailable ≠ .none := by
  rw [ne_eq, codes.fireboltErrorValue_eq_none_iff]
  exact codes.ne_errorNone (by simp)

@[simp]
theorem CoreErrors.fireboltErrorValue_errorTimedout (codes : CoreErrors) :
    codes.fireboltErrorValue codes.errorTimedout = .timedout := by
  have hdistinct := codes.distinct
  simp only [List.nodup_cons, List.mem_cons, not_or] at hdistinct
  have hnone : codes.errorTimedout ≠ codes.errorNone := codes.ne_errorNone (by simp)
  have hgeneral := Ne.symm hdistinct.2.1.2.2.1
  have hunavailable := Ne.symm hdistinct.2.2.1.2.1
  rw [fireboltErrorValue, if_neg hnone, if_neg (not_or.mpr ⟨hgeneral, hunavailable⟩), if_pos rfl]

/-- A member of a JSON object: whether it was set, and what `Value()` reads. -/
structure Field (α : Type) where
  isSet : Bool
  value : α
  deriving DecidableEq, Repr

/-- The `error` member of a JSON-RPC message. -/
structure ErrorInfo where
  code : Int32
  text : Text
  deriving DecidableEq, Repr

/-- `WPEFramework::Core::JSONRPC::Message`. -/
structure Message where
  id : Field MessageID
  designator : Field Text
  parameters : Field Text
  result : Field Text
  error : Field ErrorInfo
  deriving DecidableEq, Repr

namespace Message

/-- A message none of whose members is set. -/
def empty : Message where
  id := ⟨false, 0⟩
  designator := ⟨false, []⟩
  parameters := ⟨false, []⟩
  result := ⟨false, []⟩
  error := ⟨false, ⟨0, []⟩⟩

/-- A reply that carries a result. -/
def reply (id : MessageID) (result : Text) : Message :=
  { empty with id := ⟨true, id⟩, result := ⟨true, result⟩ }

/-- A reply that carries an error. -/
def errorReply (id : MessageID) (code : Int32) : Message :=
  { empty with id := ⟨true, id⟩, error := ⟨true, ⟨code, []⟩⟩ }

end Message

/-- A reading of `std::chrono::steady_clock`: nanoseconds in a signed 64-bit
count, from an epoch that no reading precedes. -/
structure Timestamp where
  ticks : Int64
  nonneg : 0 ≤ ticks
  deriving DecidableEq, Repr

namespace Timestamp

/-- The epoch. -/
def zero : Timestamp := ⟨0, by decide⟩

theorem toInt_nonneg (time : Timestamp) : 0 ≤ time.ticks.toInt := by
  simpa [Int64.le_iff_toInt_le] using time.nonneg

/-- `duration_cast<milliseconds>(now - since).count()`. -/
def ageCount (now since : Timestamp) : Int64 := (now.ticks - since.ticks) / 1000000

/-- The age of `since` at `now` in whole milliseconds, rounded toward zero. -/
def wholeMilliseconds (now since : Timestamp) : ℤ :=
  (now.ticks.toInt - since.ticks.toInt).tdiv 1000000

/-- The 64-bit count is the age: neither operation overflows. -/
theorem toInt_ageCount (now since : Timestamp) :
    (now.ageCount since).toInt = now.wholeMilliseconds since := by
  have hnow := now.toInt_nonneg
  have hsince := since.toInt_nonneg
  have hnowLt := now.ticks.toInt_lt
  have hsinceLt := since.ticks.toInt_lt
  have hsub : (now.ticks - since.ticks).toInt = now.ticks.toInt - since.ticks.toInt := by
    rw [Int64.toInt_sub]
    apply Int.bmod_eq_of_le <;> omega
  rw [ageCount, Int64.toInt_div_of_ne_right _ _ (by decide), hsub]
  rfl

end Timestamp

namespace Config

/-- `Config::watchdogThreshold_ms`. -/
def watchdogThreshold_ms : UInt64 := 3000

/-- The comparison the watchdog makes: a signed count against an unsigned
threshold, so the count is converted to unsigned first. -/
def exceedsThreshold (age : Int64) : Bool :=
  decide (age.toUInt64 > watchdogThreshold_ms)

/-- A count that is not negative is compared as it stands. -/
theorem exceedsThreshold_of_nonneg {age : Int64} (hage : 0 ≤ age.toInt) :
    exceedsThreshold age = true ↔ (watchdogThreshold_ms.toNat : ℤ) < age.toInt := by
  have hvalue := BitVec.toInt_eq_toNat_cond age.toBitVec
  change age.toInt = _ at hvalue
  rw [Int64.toNat_toBitVec] at hvalue
  have hlt := age.toUInt64.toNat_lt
  rw [exceedsThreshold, decide_eq_true_eq, gt_iff_lt, UInt64.lt_iff_toNat_lt]
  split at hvalue <;> omega

/-- A negative count becomes huge, so it always exceeds the threshold. -/
theorem exceedsThreshold_of_neg {age : Int64} (hage : age.toInt < 0) :
    exceedsThreshold age = true := by
  have hvalue := BitVec.toInt_eq_toNat_cond age.toBitVec
  change age.toInt = _ at hvalue
  rw [Int64.toNat_toBitVec] at hvalue
  have hthreshold : watchdogThreshold_ms.toNat = 3000 := rfl
  rw [exceedsThreshold, decide_eq_true_eq, gt_iff_lt, UInt64.lt_iff_toNat_lt, hthreshold]
  split at hvalue <;> omega

end Config

end FireboltTransport
