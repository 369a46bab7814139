/-
# Message identifiers of a channel

`CommunicationChannel::Sequence` increments a 32-bit counter and returns the
new value, so a channel numbers its messages from one and wraps.  Fewer than
`2 ^ 32` draws are pairwise distinct; a second channel counts from one again.
-/

import FireboltTransport.Common
import Mathlib.Logic.Function.Basic

namespace FireboltTransport

/-- The part of a `CommunicationChannel` its clients draw identifiers from. -/
structure Channel where
  /-- `_sequence`, the last identifier drawn. -/
  counter : MessageID
  deriving DecidableEq, Repr

namespace Channel

/-- A channel as its constructor leaves it. -/
def new : Channel := ⟨0⟩

/-- `CommunicationChannel::Sequence`: the identifier drawn and the channel after the draw. -/
def sequence (channel : Channel) : MessageID × Channel :=
  (channel.counter + 1, ⟨channel.counter + 1⟩)

@[simp]
theorem sequence_fst (channel : Channel) : channel.sequence.1 = channel.counter + 1 := rfl

@[simp]
theorem sequence_snd_counter (channel : Channel) :
    channel.sequence.2.counter = channel.counter + 1 := rfl

/-- Two numbers below `2 ^ 32` that name the same identifier are equal. -/
theorem ofNat_injOn {first second : ℕ} (hfirst : first < 2 ^ 32) (hsecond : second < 2 ^ 32)
    (hequal : UInt32.ofNat first = UInt32.ofNat second) : first = second := by
  have hvalue := congrArg UInt32.toNat hequal
  rwa [UInt32.toNat_ofNat_of_lt' hfirst, UInt32.toNat_ofNat_of_lt' hsecond] at hvalue

end Channel

universe u

variable {κ : Type u}

/-- The operations that have drawn an identifier, `drawn`, are numbered in the order of
their draws, and the channel's counter is the number of the last. -/
structure Numbering (draws : ℕ) (channel : Option Channel) (drawn : κ → Option MessageID)
    (number : κ → ℕ) : Prop where
  counter : ∀ current, channel = some current → current.counter = UInt32.ofNat draws
  drawn_id : ∀ op id, drawn op = some id → id = UInt32.ofNat (number op)
  le : ∀ op id, drawn op = some id → number op ≤ draws
  injective : ∀ first second firstId secondId, drawn first = some firstId →
    drawn second = some secondId → number first = number second → first = second

/-- Some numbering exists. -/
def Numbered (draws : ℕ) (channel : Option Channel) (drawn : κ → Option MessageID) : Prop :=
  ∃ number, Numbering draws channel drawn number

namespace Numbered

variable {draws : ℕ} {channel : Option Channel} {drawn later : κ → Option MessageID}

/-- Nobody has drawn from a fresh channel. -/
theorem start (hchannel : ∀ current, channel = some current → current = .new)
    (hdrawn : ∀ op, drawn op = none) : Numbered 0 channel drawn := by
  refine ⟨fun _ => 0, ?_, by simp [hdrawn], by simp [hdrawn], by simp [hdrawn]⟩
  intro current hcurrent
  rw [hchannel current hcurrent]
  rfl

/-- An attempt to draw without a channel draws nothing. -/
theorem miss (hnumbered : Numbered draws none drawn) : Numbered (draws + 1) none drawn := by
  obtain ⟨number, hnumbering⟩ := hnumbered
  exact ⟨number, by simp, hnumbering.drawn_id,
    fun op id hid => Nat.le_succ_of_le (hnumbering.le op id hid), hnumbering.injective⟩

/-- The next draw gets the next number. -/
theorem draw [DecidableEq κ] {current : Channel}
    (hnumbered : Numbered draws (some current) drawn) (op : κ)
    (hown : later op = some current.sequence.1)
    (hothers : ∀ other, other ≠ op → later other = drawn other) :
    Numbered (draws + 1) (some current.sequence.2) later := by
  obtain ⟨number, hnumbering⟩ := hnumbered
  have hcounter := hnumbering.counter current rfl
  have hnext : current.counter + 1 = UInt32.ofNat (draws + 1) := by
    rw [hcounter, UInt32.ofNat_add]
    rfl
  refine ⟨Function.update number op (draws + 1), ?_, ?_, ?_, ?_⟩
  · intro last hlast
    rw [← Option.some.inj hlast]
    exact hnext
  · intro other id hid
    by_cases hother : other = op
    · subst hother
      rw [hown] at hid
      rw [Function.update_self, ← Option.some.inj hid]
      exact hnext
    · rw [hothers other hother] at hid
      rw [Function.update_of_ne hother]
      exact hnumbering.drawn_id other id hid
  · intro other id hid
    by_cases hother : other = op
    · subst hother
      simp
    · rw [hothers other hother] at hid
      rw [Function.update_of_ne hother]
      exact Nat.le_succ_of_le (hnumbering.le other id hid)
  · intro first second firstId secondId hfirst hsecond hequal
    by_cases hfirstOp : first = op <;> by_cases hsecondOp : second = op
    · rw [hfirstOp, hsecondOp]
    · rw [hothers second hsecondOp] at hsecond
      have hle := hnumbering.le second secondId hsecond
      rw [hfirstOp, Function.update_self, Function.update_of_ne hsecondOp] at hequal
      omega
    · rw [hothers first hfirstOp] at hfirst
      have hle := hnumbering.le first firstId hfirst
      rw [hsecondOp, Function.update_self, Function.update_of_ne hfirstOp] at hequal
      omega
    · rw [hothers first hfirstOp] at hfirst
      rw [hothers second hsecondOp] at hsecond
      rw [Function.update_of_ne hfirstOp, Function.update_of_ne hsecondOp] at hequal
      exact hnumbering.injective first second firstId secondId hfirst hsecond hequal

/-- **Distinct identifiers.**  Fewer than `2 ^ 32` draws from one channel are pairwise distinct. -/
theorem injective (hnumbered : Numbered draws channel drawn) (hdraws : draws < 2 ^ 32)
    {first second : κ} {id : MessageID} (hfirst : drawn first = some id)
    (hsecond : drawn second = some id) : first = second := by
  obtain ⟨number, hnumbering⟩ := hnumbered
  apply hnumbering.injective first second id id hfirst hsecond
  have hle := hnumbering.le first id hfirst
  have hleSecond := hnumbering.le second id hsecond
  apply Channel.ofNat_injOn (by omega) (by omega)
  rw [← hnumbering.drawn_id first id hfirst, hnumbering.drawn_id second id hsecond]

end Numbered

end FireboltTransport
