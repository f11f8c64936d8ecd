import Mathlib.Data.Rat.Floor
import Mathlib.Tactic.FieldSimp
import Mathlib.Tactic.Ring
import SharedTree.Proofs.OrdinalOrder

/-! Digits after the point, read as the fractions that they denote. The midpoint of
two bounds is the lower one and half the gap, rounded down to the digits that the
bounds have, where the gap has room for that; else it is the exact middle, and has
one digit more. One width after another is tried until one has room, and no more
than two ever are. -/
namespace SharedTree

namespace Digits

/-- The fraction that digits denote after the point. -/
def fraction : List UInt8 → ℚ
  | [] => 0
  | d :: ds => (d.toNat + fraction ds) / 256

theorem fraction_append_zeros (ds : List UInt8) (n : Nat) :
    fraction (ds ++ List.replicate n 0) = fraction ds := by
  induction ds with
  | nil =>
    induction n with
    | zero => rfl
    | succ n ih => simpa [List.replicate_succ, fraction] using ih
  | cons d ds ih => rw [List.cons_append, fraction, fraction, ih]

/-- A fraction counts the units of its last digit. -/
theorem fraction_eq_value_div (ds : List UInt8) :
    fraction ds = value ds / (256 : ℚ) ^ ds.length := by
  induction ds with
  | nil => simp [fraction]
  | cons d ds ih =>
    rw [fraction, ih, value_cons, List.length_cons]
    push_cast
    field_simp
    ring

end Digits

namespace Ordinal
open Digits

/-- The number strictly between zero and one that an ordinal denotes. -/
def fraction (a : Ordinal) : ℚ := Digits.fraction a.digits

/-- Written to any width that holds it, an ordinal counts units of that width. -/
theorem fraction_eq_value_pad {a : Ordinal} {width : Nat} (fits : a.digits.length ≤ width) :
    a.fraction = value (pad a.digits width) / (256 : ℚ) ^ width := by
  have padded := fraction_eq_value_div (pad a.digits width)
  rwa [length_pad fits, pad, fraction_append_zeros, ← pad] at padded

/-- The number at a lower bound; a missing one is zero. -/
def lowerEnd (lower : Option Ordinal) : ℚ := lower.elim 0 fraction

/-- The number at an upper bound; a missing one is one. -/
def upperEnd (upper : Option Ordinal) : ℚ := upper.elim 1 fraction

section Bounds
variable {lower upper : Option Ordinal} {width : Nat} (wide : commonWidth lower upper ≤ width)
include wide

theorem length_lower_le {lo : Ordinal} (given : lo ∈ lower) : lo.digits.length ≤ width := by
  cases given
  simp only [commonWidth, Option.elim_some, length] at wide
  omega

theorem length_upper_le {hi : Ordinal} (given : hi ∈ upper) : hi.digits.length ≤ width := by
  cases given
  simp only [commonWidth, Option.elim_some, length] at wide
  omega

theorem lowerEnd_eq : lowerEnd lower = value (lowerDigits lower width) / (256 : ℚ) ^ width := by
  cases lower with
  | none => simp [lowerEnd, lowerDigits, value_cons]
  | some lo =>
    have own := fraction_eq_value_pad (length_lower_le wide rfl)
    simpa [lowerEnd, lowerDigits, value_cons] using own

theorem upperEnd_eq : upperEnd upper = value (upperDigits upper width) / (256 : ℚ) ^ width := by
  cases upper with
  | none => simp [upperEnd, upperDigits, value_cons]
  | some hi =>
    have own := fraction_eq_value_pad (length_upper_le wide rfl)
    simpa [upperEnd, upperDigits, value_cons] using own

end Bounds

/-! ## The search for a width -/

/-- One width after another is tried until the gap has room there: from this width
on, after so many rounds, with these digits. The digits before the point are zero,
so that they can be dropped. -/
inductive Search (lower upper : Option Ordinal) : Nat → Nat → List UInt8 → Prop where
  | room {width : Nat} (wide : isAtLeastTwo (gap lower upper width) = true)
      (below : (add (lowerDigits lower width) (halve (gap lower upper width))).head? = some 0) :
      Search lower upper width 1
        (shortest (add (lowerDigits lower width) (halve (gap lower upper width))).tail)
  | wider {width rounds : Nat} {digits : List UInt8}
      (narrow : isAtLeastTwo (gap lower upper width) = false)
      (later : Search lower upper (width + 1) rounds digits) :
      Search lower upper width (rounds + 1) digits

section Ordered
variable {lower upper : Option Ordinal} (ordered : Ordered lower upper)
include ordered

theorem head?_rawMidpoint : (rawMidpoint lower upper).head? = some 0 := by
  have same := value_tail_rawMidpoint ordered
  have length := length_rawMidpoint lower upper
  cases digits : rawMidpoint lower upper with
  | nil => rw [digits] at length; simp at length
  | cons d ds =>
    rw [digits, List.tail_cons, value_cons] at same
    have positive : 0 < 256 ^ ds.length := Nat.pow_pos (by decide)
    have zero : d.toNat = 0 := by
      by_contra nonzero
      have := Nat.le_mul_of_pos_left (256 ^ ds.length) (Nat.pos_of_ne_zero nonzero)
      omega
    rw [List.head?_cons, Option.some.injEq]
    exact UInt8.toNat_inj.mp zero

theorem search_between : ∃ rounds ≤ 2,
    Search lower upper (commonWidth lower upper) rounds (between lower upper ordered).digits := by
  have head := head?_rawMidpoint ordered
  change ∃ rounds ≤ 2, Search lower upper (commonWidth lower upper) rounds
    (shortest (rawMidpoint lower upper).tail)
  have room := isAtLeastTwo_gap_midpointWidth ordered
  unfold rawMidpoint at head ⊢
  dsimp only at head ⊢
  cases test : isAtLeastTwo (gap lower upper (commonWidth lower upper)) with
  | true =>
    have width : midpointWidth lower upper = commonWidth lower upper := by
      simp [midpointWidth, test]
    rw [width] at head room ⊢
    exact ⟨1, by omega, .room room head⟩
  | false =>
    have width : midpointWidth lower upper = commonWidth lower upper + 1 := by
      simp [midpointWidth, test]
    rw [width] at head room ⊢
    exact ⟨2, by omega, .wider test (.room room head)⟩

/-- The gap has room at the bounds' own width exactly where it is two units of it. -/
theorem isAtLeastTwo_gap_iff :
    isAtLeastTwo (gap lower upper (commonWidth lower upper)) = true ↔
      2 / (256 : ℚ) ^ commonWidth lower upper ≤ upperEnd upper - lowerEnd lower := by
  have wide : commonWidth lower upper ≤ commonWidth lower upper := Nat.le_refl _
  have less := lower_lt_upper ordered wide
  have positive : (0 : ℚ) < (256 : ℚ) ^ commonWidth lower upper := by positivity
  rw [isAtLeastTwo_iff, value_gap ordered wide, lowerEnd_eq wide, upperEnd_eq wide, ← sub_div,
    div_le_div_iff_of_pos_right positive, ← Nat.cast_sub less.le]
  exact_mod_cast Iff.rfl

/-- Where there is room, half the gap is rounded down. -/
theorem fraction_between_of_room
    (room : isAtLeastTwo (gap lower upper (commonWidth lower upper)) = true) :
    (between lower upper ordered).fraction = lowerEnd lower +
      ⌊(upperEnd upper - lowerEnd lower) / 2 * (256 : ℚ) ^ commonWidth lower upper⌋ /
        (256 : ℚ) ^ commonWidth lower upper := by
  have wide : commonWidth lower upper ≤ commonWidth lower upper := Nat.le_refl _
  have less := lower_lt_upper ordered wide
  have width : midpointWidth lower upper = commonWidth lower upper := by simp [midpointWidth, room]
  have fits := length_between_le ordered
  have denotes := value_between ordered
  rw [width] at fits denotes
  rw [fraction_eq_value_pad fits, denotes, lowerEnd_eq wide, upperEnd_eq wide]
  generalize value (lowerDigits lower (commonWidth lower upper)) = l at less ⊢
  generalize value (upperDigits upper (commonWidth lower upper)) = u at less ⊢
  have unit : (256 : ℚ) ^ commonWidth lower upper ≠ 0 := by positivity
  have half : ((u : ℚ) / 256 ^ commonWidth lower upper - l / 256 ^ commonWidth lower upper) / 2 *
      256 ^ commonWidth lower upper = ((u - l : ℕ) : ℚ) / (2 : ℕ) := by
    rw [Nat.cast_sub less.le]
    field_simp
    simp
  have rounded : ⌊((u - l : ℕ) : ℚ) / (2 : ℕ)⌋ = ((u - l) / 2 : ℕ) :=
    Rat.floor_natCast_div_natCast _ _
  rw [half, rounded, Int.cast_natCast, Nat.cast_add, add_div]

/-- Where the bounds are a single unit apart, the middle takes one digit more. -/
theorem fraction_between_of_narrow
    (narrow : isAtLeastTwo (gap lower upper (commonWidth lower upper)) = false) :
    (between lower upper ordered).fraction = (lowerEnd lower + upperEnd upper) / 2 ∧
      (between lower upper ordered).length = commonWidth lower upper + 1 := by
  have wide : commonWidth lower upper ≤ commonWidth lower upper := Nat.le_refl _
  have less := lower_lt_upper ordered wide
  have width : midpointWidth lower upper = commonWidth lower upper + 1 := by
    simp [midpointWidth, narrow]
  have fits := length_between_le ordered
  have denotes := value_between ordered
  have single : ¬ 2 ≤ value (gap lower upper (commonWidth lower upper)) := by
    rw [← isAtLeastTwo_iff, narrow]
    exact Bool.false_ne_true
  rw [value_gap ordered wide] at single
  rw [width] at fits denotes
  rw [value_lowerDigits_succ wide, value_upperDigits_succ wide] at denotes
  rw [fraction_eq_value_pad fits, lowerEnd_eq wide, upperEnd_eq wide]
  constructor
  · have next : value (upperDigits upper (commonWidth lower upper)) =
        value (lowerDigits lower (commonWidth lower upper)) + 1 := by omega
    rw [next] at denotes ⊢
    have middle : value (pad (between lower upper ordered).digits (commonWidth lower upper + 1)) =
        256 * value (lowerDigits lower (commonWidth lower upper)) + 128 := by omega
    rw [middle]
    push_cast
    field_simp
    ring
  · -- a shorter string would denote a multiple of 256 units of the last digit
    by_contra shorter
    have short : (between lower upper ordered).digits.length ≤ commonWidth lower upper := by
      simp only [length] at shorter
      omega
    rw [value_pad_succ short] at denotes
    omega

end Ordered

theorem ofDigits_digits (a : Ordinal) : ofDigits a.digits = .ok a := by
  unfold ofDigits
  split
  · rfl
  · rename_i fault faulty
    cases a.wellFormed.symm.trans faulty

theorem between?_eq_error {lo hi : Ordinal} (unordered : ¬ lo < hi) :
    between? (some lo) (some hi) = .error ⟨lo, hi⟩ :=
  dif_neg fun ordered => unordered (ordered lo rfl hi rfl)

theorem le_iff_not_lt {a b : Ordinal} : a ≤ b ↔ ¬ b < a := by
  have swap : compare b a = (compare a b).swap := Std.OrientedCmp.eq_swap
  change (compare a b).isLE ↔ ¬ compare b a = .lt
  rw [swap]
  cases compare a b <;> simp

/-- A position between two bounds is refused exactly where they are given in the
wrong order. Otherwise at most two widths are tried, and the position found is an
ordinal strictly between the bounds: their middle, rounded down to the digits that
they have if they lie at least two units of the last digit apart. -/
theorem between?_midpoint (lower upper : Option Ordinal) :
    ((∃ disorder, between? lower upper = .error disorder) ↔
      ∃ lo ∈ lower, ∃ hi ∈ upper, hi ≤ lo) ∧
    ∀ mid, between? lower upper = .ok mid →
      (∃ rounds ≤ 2, Search lower upper (commonWidth lower upper) rounds mid.digits) ∧
      ofDigits mid.digits = .ok mid ∧
      (∀ lo ∈ lower, lo < mid) ∧ (∀ hi ∈ upper, mid < hi) ∧
      if 2 / (256 : ℚ) ^ commonWidth lower upper ≤ upperEnd upper - lowerEnd lower then
        mid.fraction = lowerEnd lower +
          ⌊(upperEnd upper - lowerEnd lower) / 2 * (256 : ℚ) ^ commonWidth lower upper⌋ /
            (256 : ℚ) ^ commonWidth lower upper
      else
        mid.fraction = (lowerEnd lower + upperEnd upper) / 2 ∧
          mid.length = commonWidth lower upper + 1 := by
  have refused : ¬ Ordered lower upper ↔ ∃ lo ∈ lower, ∃ hi ∈ upper, hi ≤ lo := by
    simp [Ordered, le_iff_not_lt]
  rw [← refused]
  by_cases ordered : Ordered lower upper
  · rw [between?_eq_ok ordered]
    refine ⟨by simp [ordered], ?_⟩
    rintro mid ⟨⟩
    refine ⟨search_between ordered, ofDigits_digits _, fun lo => lt_between ordered,
      fun hi => between_lt ordered, ?_⟩
    have test := isAtLeastTwo_gap_iff ordered
    split
    · rename_i far
      exact fraction_between_of_room ordered (test.mpr far)
    · rename_i near
      exact fraction_between_of_narrow ordered
        (Bool.eq_false_iff.mpr fun room => near (test.mp room))
  · obtain ⟨lo, isLower, hi, isUpper, reversed⟩ := refused.mp ordered
    cases isLower
    cases isUpper
    rw [between?_eq_error (le_iff_not_lt.mp reversed)]
    simp [ordered]

/-- A position and the first one that continues it by a digit. -/
def stem : Ordinal := ⟨[5, 0, 0, 0, 0, 0, 0, 0], by decide⟩

def twig : Ordinal := ⟨[5, 0, 0, 0, 0, 0, 0, 0, 1], by decide⟩

/-- There is nothing of nine digits between them, so that their middle has ten. -/
theorem between?_midpoint_twig :
    ∃ mid, between? (some stem) (some twig) = .ok mid ∧
      mid.digits = [5, 0, 0, 0, 0, 0, 0, 0, 0, 128] ∧ stem < mid ∧ mid < twig ∧
      ∃ rounds ≤ 2, Search (some stem) (some twig) 9 rounds mid.digits := by
  have ordered : Ordered (some stem) (some twig) := by decide
  have found := between?_eq_ok ordered
  have digits : midpoint (some stem) (some twig) = [5, 0, 0, 0, 0, 0, 0, 0, 0, 128] := by
    decide +kernel
  obtain ⟨search, -, above, below, -⟩ := (between?_midpoint _ _).2 _ found
  exact ⟨_, found, digits, above _ rfl, below _ rfl, search⟩

end Ordinal

end SharedTree
