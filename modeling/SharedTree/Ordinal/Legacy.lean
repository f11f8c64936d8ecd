import SharedTree.Ordinal.Basic
import SharedTree.Ordinal.Digits

/-!
Positions of the older kind, sixty-four-bit integers, as ordinals. The integer line is moved up by
half its length, so that the least integer becomes zero, and written as eight digits. Zero itself is
no ordinal; it gets a ninth digit, which keeps it below the next integer.
-/

namespace SharedTree.Ordinal

open Digits

/-- Half the number of integer positions. -/
def legacyShift : Int := 0x8000000000000000

/-- An integer position counted from the least one. -/
def legacyRank (position : Int64) : Nat :=
  (position.toInt + legacyShift).toNat

theorem legacyRank_lt (position : Int64) : legacyRank position < 256 ^ minimumLength := by
  have high := Int64.toInt_lt position
  simp only [legacyRank, legacyShift, minimumLength]
  omega

/-- The digits of an integer position. -/
def legacyDigits (position : Int64) : List UInt8 :=
  let rank := legacyRank position
  if rank = 0 then ofNat minimumLength rank ++ [128] else ofNat minimumLength rank

theorem fault?_legacyDigits (position : Int64) : fault? (legacyDigits position) = none := by
  unfold legacyDigits
  dsimp only
  split
  · rename_i zero
    rw [zero]
    decide +kernel
  · rename_i nonzero
    rw [fault?_eq_none_iff]
    refine ⟨by simp, ?_, by simp⟩
    have positive : value (ofNat minimumLength (legacyRank position)) ≠ 0 := by
      rwa [value_ofNat (legacyRank_lt position)]
    rw [Ne, value_eq_zero_iff] at positive
    simpa using positive

/-- The ordinal of an integer position. -/
def ofLegacy (position : Int64) : Ordinal :=
  ⟨legacyDigits position, fault?_legacyDigits position⟩

/-- The integer position at or below an ordinal, read off its first eight digits. -/
def toLegacy (a : Ordinal) : Int64 :=
  Int64.ofInt (value (a.digits.take minimumLength) - legacyShift)

end SharedTree.Ordinal
