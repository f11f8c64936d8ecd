import SharedTree.Ordinal.Legacy
import SharedTree.Proofs.Midpoint

/-! Integer positions among the ordinals. An ordinal of any length falls on the number that
its first eight digits denote, and it falls on it exactly if it has no more than these. So
the ordinals of integers, which have eight digits but for the least one, divide the line of
all ordinals into stretches, and reading off an integer finds the stretch. -/
namespace SharedTree.Ordinal
open Digits

/-- The number that the first eight digits denote. -/
def rank (a : Ordinal) : Nat := value (a.digits.take minimumLength)

theorem length_take (a : Ordinal) : (a.digits.take minimumLength).length = minimumLength := by
  rw [List.length_take, Nat.min_eq_left a.minimumLength_le]

theorem rank_lt (a : Ordinal) : a.rank < 256 ^ minimumLength :=
  a.length_take ▸ value_lt (a.digits.take minimumLength)

/-! ## The rank and the order -/

/-- The digits after the eighth count for less than one unit of the eighth. -/
theorem rank_eq_div {a : Ordinal} {width : Nat} (fits : a.digits.length ≤ width) :
    a.rank = value (pad a.digits width) / 256 ^ (width - minimumLength) := by
  have long := a.minimumLength_le
  have rest : (a.digits.drop minimumLength).length ≤ width - minimumLength := by
    rw [List.length_drop]
    omega
  have split : pad a.digits width =
      a.digits.take minimumLength ++ pad (a.digits.drop minimumLength) (width - minimumLength) := by
    have zeros : width - a.digits.length =
        width - minimumLength - (a.digits.drop minimumLength).length := by
      rw [List.length_drop]
      omega
    rw [pad, pad, ← zeros, ← List.append_assoc, List.take_append_drop]
  have below := value_lt (pad (a.digits.drop minimumLength) (width - minimumLength))
  rw [length_pad rest] at below
  rw [split, value_append, length_pad rest, Nat.mul_comm, Nat.mul_add_div (Nat.zero_lt_of_lt below),
    Nat.div_eq_of_lt below]
  rfl

theorem rank_le_of_le {a b : Ordinal} (ordered : a ≤ b) : a.rank ≤ b.rank := by
  rcases lt_or_eq_or_gt a b with less | rfl | greater
  · have fitsA := Nat.le_max_left a.digits.length b.digits.length
    have fitsB := Nat.le_max_right a.digits.length b.digits.length
    rw [rank_eq_div fitsA, rank_eq_div fitsB]
    exact Nat.div_le_div_right ((lt_iff_value_lt fitsA fitsB).mp less).le
  · exact Nat.le_refl _
  · exact absurd greater (le_iff_not_lt.mp ordered)

/-- Below an ordinal of eight digits are those that fall on a lesser number. -/
theorem lt_iff_rank_lt {a b : Ordinal} (short : b.digits.length = minimumLength) :
    a < b ↔ a.rank < b.rank := by
  have fits : b.digits.length ≤ a.digits.length := short ▸ a.minimumLength_le
  have exact : value (pad b.digits a.digits.length) =
      b.rank * 256 ^ (a.digits.length - minimumLength) := by
    rw [pad, value_append, List.length_replicate, value_replicate_zero, short, rank, ← short,
      List.take_length, short]
    rfl
  rw [lt_iff_value_lt (Nat.le_refl _) fits, exact, rank_eq_div (Nat.le_refl a.digits.length),
    Nat.div_lt_iff_lt_mul (Nat.pow_pos (by decide))]

/-! ## The rank of an integer position -/

theorem legacyRank_eq (x : Int64) : (legacyRank x : Int) = x.toInt + legacyShift := by
  have low := x.le_toInt
  simp only [legacyRank, legacyShift]
  omega

/-- The ninth digit of the least integer's ordinal makes no difference to its rank. -/
theorem rank_ofLegacy (x : Int64) : (ofLegacy x).rank = legacyRank x := by
  have eight : (ofNat minimumLength (legacyRank x)).length = minimumLength := length_ofNat _ _
  have head : (ofLegacy x).digits.take minimumLength = ofNat minimumLength (legacyRank x) := by
    change (legacyDigits x).take minimumLength = _
    unfold legacyDigits
    dsimp only
    split
    · exact List.take_left' eight
    · exact List.take_of_length_le eight.le
  rw [rank, head, value_ofNat (legacyRank_lt x)]

theorem length_ofLegacy {x : Int64} (positive : legacyRank x ≠ 0) :
    (ofLegacy x).digits.length = minimumLength := by
  change (legacyDigits x).length = _
  rw [legacyDigits, if_neg positive, length_ofNat]

theorem toInt_toLegacy (a : Ordinal) : (toLegacy a).toInt = a.rank - legacyShift := by
  have bound := a.rank_lt
  change (Int64.ofInt (a.rank - legacyShift)).toInt = _
  simp only [minimumLength, legacyShift] at bound ⊢
  exact Int64.toInt_ofInt_of_le (by omega) (by omega)

theorem toLegacy_eq_iff {a : Ordinal} {x : Int64} : toLegacy a = x ↔ a.rank = legacyRank x := by
  have position := legacyRank_eq x
  rw [← Int64.toInt_inj, toInt_toLegacy]
  omega

theorem lt_iff_legacyRank_lt {x y : Int64} : x < y ↔ legacyRank x < legacyRank y := by
  have first := legacyRank_eq x
  have second := legacyRank_eq y
  rw [Int64.lt_iff_toInt_lt]
  omega

/-! ## The sign bit -/

/-- The bit of a word that makes a number negative. -/
def signBit : UInt64 := 0x8000000000000000

/-- Flipping the highest of the bits moves a number up or down by half the line. -/
theorem toNat_xor_signBit (word : UInt64) :
    (word ^^^ signBit).toNat = (word.toNat + 2 ^ 63) % 2 ^ 64 := by
  have bound := word.toNat_lt
  have low : (word.toNat ^^^ 2 ^ 63) % 2 ^ 63 = word.toNat % 2 ^ 63 := by
    rw [Nat.xor_mod_two_pow, Nat.mod_self, Nat.xor_zero]
  have high : (word.toNat ^^^ 2 ^ 63) / 2 ^ 63 = 1 - word.toNat / 2 ^ 63 := by
    rw [Nat.xor_div_two_pow, Nat.div_self (by decide)]
    rcases (show word.toNat / 2 ^ 63 = 0 ∨ word.toNat / 2 ^ 63 = 1 by omega) with zero | one
    · rw [zero]; rfl
    · rw [one]; rfl
  have whole : (word ^^^ signBit).toNat = word.toNat ^^^ 2 ^ 63 := UInt64.toNat_xor _ _
  rw [whole]
  omega

/-- An integer's rank is its word with the sign bit flipped. -/
theorem legacyRank_eq_xor (x : Int64) : legacyRank x = (x.toUInt64 ^^^ signBit).toNat := by
  have bound := x.toUInt64.toNat_lt
  have signed : x.toInt = if 2 * x.toUInt64.toNat < 2 ^ 64 then (x.toUInt64.toNat : Int)
      else x.toUInt64.toNat - (2 ^ 64 : Nat) := x.toBitVec.toInt_eq_toNat_cond
  rw [toNat_xor_signBit, legacyRank, signed, legacyShift]
  split <;> omega

/-- The integer that is read off is the word of the first eight digits with the sign bit
flipped. -/
theorem toLegacy_eq_xor (a : Ordinal) :
    toLegacy a = (UInt64.ofNat a.rank ^^^ signBit).toInt64 := by
  have same := legacyRank_eq_xor (toLegacy a)
  rw [← toLegacy_eq_iff.mp rfl] at same
  rw [same, UInt64.ofNat_toNat, UInt64.xor_assoc, UInt64.xor_self, UInt64.xor_zero]
  rfl

/-! ## Out and back -/

theorem ofLegacy_lt_iff {x y : Int64} : ofLegacy x < ofLegacy y ↔ x < y := by
  rw [lt_iff_legacyRank_lt]
  by_cases positive : legacyRank y = 0
  · -- nothing comes before the least integer's ordinal, which has nine digits
    rw [positive]
    refine iff_of_false (fun less => ?_) (Nat.not_lt_zero _)
    by_cases least : legacyRank x = 0
    · have same : ofLegacy x = ofLegacy y :=
        Ordinal.ext (by simp only [ofLegacy, legacyDigits, least, positive])
      exact lt_irrefl _ (same ▸ less)
    · refine lt_asymm less ((lt_iff_rank_lt (length_ofLegacy least)).mpr ?_)
      rw [rank_ofLegacy, rank_ofLegacy]
      omega
  · rw [lt_iff_rank_lt (length_ofLegacy positive), rank_ofLegacy, rank_ofLegacy]

theorem toLegacy_ofLegacy (x : Int64) : toLegacy (ofLegacy x) = x :=
  toLegacy_eq_iff.mpr (rank_ofLegacy x)

theorem toLegacy_le_of_le {a b : Ordinal} (ordered : a ≤ b) : toLegacy a ≤ toLegacy b := by
  have ranks := rank_le_of_le ordered
  rw [Int64.le_iff_toInt_le, toInt_toLegacy, toInt_toLegacy]
  omega

/-- Between the ordinals of an integer and the next one all others fall on that integer. -/
theorem toLegacy_eq_of_between {x : Int64} (inner : x < Int64.maxValue) {a : Ordinal}
    (above : ofLegacy x ≤ a) (below : a < ofLegacy (x + 1)) : toLegacy a = x := by
  have top : x.toInt < 2 ^ 63 - 1 := Int64.lt_iff_toInt_lt.mp inner
  have low := x.le_toInt
  have next : (x + 1).toInt = x.toInt + 1 := by
    rw [Int64.toInt_add, show (1 : Int64).toInt = 1 from rfl, Int.bmod_def]
    omega
  have rank := legacyRank_eq x
  have nextRank := legacyRank_eq (x + 1)
  have least := rank_le_of_le above
  rw [lt_iff_rank_lt (length_ofLegacy (by simp only [legacyShift] at *; omega)),
    rank_ofLegacy] at below
  rw [rank_ofLegacy] at least
  rw [toLegacy_eq_iff]
  omega

/-- Integer positions embed in the ordinals. The digits that an integer's word is written
with, its sign bit flipped, are an ordinal, in the order of the integers; the integer is read
off again, and it is read off every ordinal up to the next integer's. From an ordinal of any
length the integer can be read, since there are eight digits to read, and a later ordinal
gives no lesser one. -/
theorem ofLegacy_faithful :
    (∀ x, ofDigits (legacyDigits x) = .ok (ofLegacy x) ∧
      (ofLegacy x).rank = (x.toUInt64 ^^^ signBit).toNat ∧ toLegacy (ofLegacy x) = x) ∧
    (∀ x y, x < y ↔ ofLegacy x < ofLegacy y) ∧
    (∀ a, (a.digits.take minimumLength).length = minimumLength ∧
      toLegacy a = (UInt64.ofNat a.rank ^^^ signBit).toInt64) ∧
    (∀ a b, a ≤ b → toLegacy a ≤ toLegacy b) ∧
    ∀ x a, x < Int64.maxValue → ofLegacy x ≤ a → a < ofLegacy (x + 1) → toLegacy a = x := by
  refine ⟨fun x => ⟨ofDigits_digits (ofLegacy x), ?_, toLegacy_ofLegacy x⟩,
    fun x y => ofLegacy_lt_iff.symm, fun a => ⟨a.length_take, toLegacy_eq_xor a⟩,
    fun a b => toLegacy_le_of_le,
    fun x a inner above below => toLegacy_eq_of_between inner above below⟩
  exact (rank_ofLegacy x).trans (legacyRank_eq_xor x)

/-- A position after the least integer's ordinal. -/
def afterLeast : Ordinal := ⟨[0, 0, 0, 0, 0, 0, 0, 0, 200, 7], by decide⟩

theorem ofLegacy_faithful_least :
    Int64.minValue < Int64.maxValue ∧ ofLegacy Int64.minValue ≤ afterLeast ∧
      afterLeast < ofLegacy (Int64.minValue + 1) ∧ toLegacy afterLeast = Int64.minValue ∧
      toLegacy (ofLegacy Int64.minValue) ≤ toLegacy afterLeast := by
  obtain ⟨-, -, -, monotone, between⟩ := ofLegacy_faithful
  have inner : Int64.minValue < Int64.maxValue := by decide
  have above : ofLegacy Int64.minValue ≤ afterLeast := by decide +kernel
  have below : afterLeast < ofLegacy (Int64.minValue + 1) := by decide +kernel
  exact ⟨inner, above, below, between _ _ inner above below, monotone _ _ above⟩

end SharedTree.Ordinal
