import Mathlib.Order.Compare
import SharedTree.Proofs.Midpoint

/-! The ordinals are the fractions between zero and one that have an end in base 256.
Digit order is the order of the fractions, since an ordinal that continues another one
ends in a digit that counts. Each such fraction has digits that end, and without the zeros
at the end that an ordinal does not need there is one way to write them. -/
namespace SharedTree

namespace Digits

theorem fraction_pos_iff (ds : List UInt8) : 0 < fraction ds ↔ ∃ d ∈ ds, d ≠ 0 := by
  have unit : (0 : ℚ) < (256 : ℚ) ^ ds.length := by positivity
  rw [fraction_eq_value_div, div_pos_iff_of_pos_right unit, Nat.cast_pos, Nat.pos_iff_ne_zero, Ne,
    value_eq_zero_iff]
  simp

theorem fraction_lt_one (ds : List UInt8) : fraction ds < 1 := by
  have unit : (0 : ℚ) < (256 : ℚ) ^ ds.length := by positivity
  rw [fraction_eq_value_div, div_lt_one unit]
  exact_mod_cast value_lt ds

/-- Every fraction below one whose denominator is a power of the base has digits. -/
theorem exists_fraction_eq {m n : Nat} (below : (m : ℚ) / 256 ^ n < 1) :
    ∃ ds, fraction ds = (m : ℚ) / 256 ^ n := by
  have unit : (0 : ℚ) < (256 : ℚ) ^ n := by positivity
  have fits : m < 256 ^ n := by
    rw [div_lt_one unit] at below
    exact_mod_cast below
  exact ⟨ofNat n m, by rw [fraction_eq_value_div, value_ofNat fits, length_ofNat]⟩

end Digits

namespace Ordinal
open Digits

/-! ## Order -/

theorem fraction_lt_iff {a b : Ordinal} : a.fraction < b.fraction ↔ a < b := by
  have fitsA := Nat.le_max_left a.digits.length b.digits.length
  have fitsB := Nat.le_max_right a.digits.length b.digits.length
  have unit : (0 : ℚ) < (256 : ℚ) ^ max a.digits.length b.digits.length := by positivity
  rw [fraction_eq_value_pad fitsA, fraction_eq_value_pad fitsB, div_lt_div_iff_of_pos_right unit,
    Nat.cast_lt, lt_iff_value_lt fitsA fitsB]

theorem fraction_injective : Function.Injective fraction := by
  intro a b same
  rcases lt_or_eq_or_gt a b with less | equal | greater
  · exact absurd same (fraction_lt_iff.mpr less).ne
  · exact equal
  · exact absurd same (fraction_lt_iff.mpr greater).ne'

theorem compare_eq_compare_fraction (a b : Ordinal) :
    compare a b = compare a.fraction b.fraction := by
  rcases lt_or_eq_or_gt a b with less | rfl | greater
  · rw [compare_lt_iff_lt.mpr (fraction_lt_iff.mpr less)]
    exact less
  · rw [compare_eq_iff_eq.mpr rfl]
    exact Std.ReflCmp.compare_self
  · rw [compare_gt_iff_gt.mpr (fraction_lt_iff.mpr greater)]
    exact Std.OrientedCmp.gt_iff_lt.mpr greater

/-! ## The fractions that have an ordinal -/

theorem fraction_pos (a : Ordinal) : 0 < a.fraction :=
  (fraction_pos_iff a.digits).mpr a.exists_ne_zero

theorem fraction_shortest (digits : List UInt8) :
    Digits.fraction (shortest digits) = Digits.fraction digits := by
  obtain ⟨dropped, whole⟩ := exists_eq_shortest_append digits
  conv_rhs => rw [whole]
  exact (fraction_append_zeros _ _).symm

/-- Digits that denote anything denote what an ordinal does. -/
theorem exists_fraction_eq_of_pos {digits : List UInt8} (positive : 0 < Digits.fraction digits) :
    ∃ a : Ordinal, a.fraction = Digits.fraction digits := by
  have long : minimumLength ≤ (pad digits (max minimumLength digits.length)).length := by
    rw [length_pad (Nat.le_max_right _ _)]
    exact Nat.le_max_left _ _
  have same : Digits.fraction (pad digits (max minimumLength digits.length)) =
      Digits.fraction digits := fraction_append_zeros _ _
  rw [← same, fraction_pos_iff] at positive
  exact ⟨⟨_, fault?_shortest long positive⟩, (fraction_shortest _).trans same⟩

theorem ofDigits_eq_ok_iff {digits : List UInt8} {a : Ordinal} :
    ofDigits digits = .ok a ↔ digits = a.digits := by
  refine ⟨fun accepted => ?_, ?_⟩
  · unfold ofDigits at accepted
    split at accepted
    · cases accepted
      rfl
    · cases accepted
  · rintro rfl
    exact ofDigits_digits a

/-- Accepted digits compare as the fractions that they denote, and are told apart by them. The
fractions strictly between zero and one whose digits have an end are those that accepted digits
denote, each of them in exactly one way. -/
theorem ofDigits_fraction_exact :
    (∀ (as bs : List UInt8) (a b : Ordinal), ofDigits as = .ok a → ofDigits bs = .ok b →
      compare a b = compare (Digits.fraction as) (Digits.fraction bs) ∧
      (Digits.fraction as = Digits.fraction bs → as = bs)) ∧
    ∀ q : ℚ, (0 < q ∧ q < 1 ∧ ∃ m n : ℕ, q = m / 256 ^ n) ↔
      ∃! digits : List UInt8, (∃ a, ofDigits digits = .ok a) ∧ Digits.fraction digits = q := by
  constructor
  · intro as bs a b acceptedA acceptedB
    obtain rfl := ofDigits_eq_ok_iff.mp acceptedA
    obtain rfl := ofDigits_eq_ok_iff.mp acceptedB
    exact ⟨compare_eq_compare_fraction a b, fun same => congrArg digits (fraction_injective same)⟩
  · intro q
    constructor
    · rintro ⟨positive, below, m, n, rfl⟩
      obtain ⟨written, denotes⟩ := exists_fraction_eq below
      obtain ⟨a, same⟩ := exists_fraction_eq_of_pos (denotes ▸ positive)
      refine ⟨a.digits, ⟨⟨a, ofDigits_digits a⟩, same.trans denotes⟩, ?_⟩
      rintro other ⟨⟨b, accepted⟩, equal⟩
      obtain rfl := ofDigits_eq_ok_iff.mp accepted
      exact congrArg digits (fraction_injective (equal.trans (same.trans denotes).symm))
    · rintro ⟨digits, ⟨⟨a, accepted⟩, rfl⟩, -⟩
      obtain rfl := ofDigits_eq_ok_iff.mp accepted
      exact ⟨a.fraction_pos, fraction_lt_one _, _, _, fraction_eq_value_div _⟩

/-- The zeros that a position of eight digits ends in count for nothing, but a further digit does;
one half, too, is written with seven such zeros and in no other way. -/
theorem ofDigits_fraction_exact_twig :
    compare stem twig = .lt ∧
    compare (Digits.fraction stem.digits) (Digits.fraction twig.digits) = .lt ∧
    Digits.fraction stem.digits ≠ Digits.fraction twig.digits ∧
    ∃! digits : List UInt8, (∃ a, ofDigits digits = .ok a) ∧ Digits.fraction digits = 1 / 2 := by
  obtain ⟨compares, denotes⟩ := ofDigits_fraction_exact
  obtain ⟨same, apart⟩ := compares _ _ stem twig (ofDigits_digits stem) (ofDigits_digits twig)
  have before : compare stem twig = .lt := by decide
  refine ⟨before, same ▸ before, fun equal => absurd (apart equal) (by decide), ?_⟩
  exact (denotes (1 / 2)).mp ⟨by norm_num, by norm_num, 128, 1, by norm_num⟩

end Ordinal

end SharedTree
