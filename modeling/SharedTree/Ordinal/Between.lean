import SharedTree.Ordinal.Basic
import SharedTree.Ordinal.Digits

/-!
A position strictly between two others. Bounds are written with one digit in front of the point, so
that a missing upper bound is the number one, and padded to a common width; the result is the lower
bound plus half the gap, without the trailing zeros that an ordinal does not need.

Where the gap at the bounds' own width is a single unit there is no string of that width inside it.
One more digit makes the gap 256 units wide, so that two widths are all that is ever tried:
`isAtLeastTwo_gap_succ`. `fault?_midpoint` says that the result is an ordinal whenever the bounds
are in order.
-/

namespace SharedTree.Ordinal

open Digits

/-- The digits written to a width, with zeros after the last of them. -/
def pad (digits : List UInt8) (width : Nat) : List UInt8 :=
  digits ++ List.replicate (width - digits.length) 0

/-- A lower bound with its integer digit; none is zero. -/
def lowerDigits (lower : Option Ordinal) (width : Nat) : List UInt8 :=
  match lower with
  | some lo => 0 :: pad lo.digits width
  | none => 0 :: List.replicate width 0

/-- An upper bound with its integer digit; none is one. -/
def upperDigits (upper : Option Ordinal) (width : Nat) : List UInt8 :=
  match upper with
  | some hi => 0 :: pad hi.digits width
  | none => 1 :: List.replicate width 0

/-- What lies between the bounds, at a width. -/
def gap (lower upper : Option Ordinal) (width : Nat) : List UInt8 :=
  subtract (upperDigits upper width) (lowerDigits lower width)

/-- The width at which both bounds are written in full. -/
def commonWidth (lower upper : Option Ordinal) : Nat :=
  max minimumLength (max (lower.elim 0 length) (upper.elim 0 length))

/-- The width at which the gap has room for a digit string of its own. -/
def midpointWidth (lower upper : Option Ordinal) : Nat :=
  let width := commonWidth lower upper
  if isAtLeastTwo (gap lower upper width) then width else width + 1

/-- The digits without the zeros at the end that go beyond the minimum length. -/
def shortest (digits : List UInt8) : List UInt8 :=
  digits.take minimumLength ++ ((digits.drop minimumLength).reverse.dropWhile (· = 0)).reverse

/-- The digits of the midpoint: its integer digit is dropped, for it is zero. -/
def midpoint (lower upper : Option Ordinal) : List UInt8 :=
  let width := midpointWidth lower upper
  shortest (add (lowerDigits lower width) (halve (gap lower upper width))).tail

/-- The bounds are in order, a missing one being at the end of the line. -/
def Ordered (lower upper : Option Ordinal) : Prop :=
  ∀ lo ∈ lower, ∀ hi ∈ upper, lo < hi

instance (lower upper : Option Ordinal) : Decidable (Ordered lower upper) :=
  match lower, upper with
  | none, _ => isTrue nofun
  | some _, none => isTrue nofun
  | some lo, some hi =>
    if h : lo < hi then isTrue (by simpa [Ordered] using h)
    else isFalse (by simpa [Ordered] using h)

/-! ## The bounds as numbers -/

theorem length_pad {digits : List UInt8} {width : Nat} (fits : digits.length ≤ width) :
    (pad digits width).length = width := by
  simp [pad]; omega

/-- Strings in digit order denote numbers in order once written to one width, unless the longer of
them adds only zeros to the shorter. -/
theorem value_pad_lt {as bs : List UInt8} {width : Nat} (before : compare as bs = .lt)
    (fitsA : as.length ≤ width) (fitsB : bs.length ≤ width)
    (ends : as.length < bs.length → bs.getLast? ≠ some 0) :
    value (pad as width) < value (pad bs width) := by
  induction as generalizing bs width with
  | nil =>
    cases bs with
    | nil => simp at before
    | cons b bs =>
      have last := ends (by simp)
      have zero : value (pad [] width) = 0 := by simp [pad]
      rw [zero, Nat.pos_iff_ne_zero, Ne, value_eq_zero_iff]
      intro zeros
      apply last
      rw [List.getLast?_eq_some_getLast (by simp)]
      exact congrArg some (zeros _ (List.mem_append_left _ (List.getLast_mem _)))
  | cons a as ih =>
    cases bs with
    | nil => simp at before
    | cons b bs =>
      obtain ⟨width, rfl⟩ : ∃ w, width = w + 1 := ⟨width - 1, by simp at fitsA; omega⟩
      have shortA : as.length ≤ width := by simpa using fitsA
      have shortB : bs.length ≤ width := by simpa using fitsB
      have restA : pad (a :: as) (width + 1) = a :: pad as width := by simp [pad]
      have restB : pad (b :: bs) (width + 1) = b :: pad bs width := by simp [pad]
      rw [restA, restB, value_cons, value_cons, length_pad shortA, length_pad shortB]
      rw [List.compare_eq_compareLex, List.compareLex_cons_cons, Ordering.then_eq_lt] at before
      rcases before with less | ⟨same, later⟩
      · have digit : a.toNat + 1 ≤ b.toNat := by
          exact UInt8.lt_iff_toNat_lt.1 (compareOfLessAndEq_eq_lt.1 less)
        have scaled := Nat.mul_le_mul_right (256 ^ width) digit
        have bound := value_lt (pad as width)
        rw [length_pad shortA] at bound
        rw [Nat.add_mul] at scaled
        omega
      · have equal : a = b := Std.LawfulEqOrd.eq_of_compare same
        subst equal
        have rest := ih (by rw [List.compare_eq_compareLex]; exact later) shortA shortB (by
          intro shorter
          have last := ends (by simpa using shorter)
          cases bs with
          | nil => simp at shorter
          | cons c bs => simpa using last)
        omega

theorem lower_lt_upper {lower upper : Option Ordinal} (ordered : Ordered lower upper) {width : Nat}
    (wide : commonWidth lower upper ≤ width) :
    value (lowerDigits lower width) < value (upperDigits upper width) := by
  cases lower with
  | none =>
    cases upper with
    | none =>
      have positive : 0 < 256 ^ width := Nat.pow_pos (by decide)
      simp only [lowerDigits, upperDigits, value_cons, value_replicate_zero, List.length_replicate]
      simp only [UInt8.toNat_zero, UInt8.toNat_one, Nat.zero_mul, Nat.one_mul, Nat.add_zero]
      exact positive
    | some hi =>
      obtain ⟨d, member, nonzero⟩ := hi.exists_ne_zero
      have positive : value (pad hi.digits width) ≠ 0 := by
        rw [Ne, value_eq_zero_iff]
        exact fun zeros => nonzero (zeros d (List.mem_append_left _ member))
      simp only [lowerDigits, upperDigits, value_cons, value_replicate_zero]
      simp only [UInt8.toNat_zero, Nat.zero_mul, Nat.zero_add]
      omega
  | some lo =>
    have fits : lo.digits.length ≤ width := by
      simp only [commonWidth, Option.elim_some, length] at wide
      omega
    cases upper with
    | none =>
      have bound := value_lt (pad lo.digits width)
      rw [length_pad fits] at bound
      simpa [lowerDigits, upperDigits, value_cons] using bound
    | some hi =>
      have fitsHi : hi.digits.length ≤ width := by
        simp only [commonWidth, Option.elim_some, length] at wide
        omega
      have less := value_pad_lt (lt_def.1 (ordered lo rfl hi rfl)) fits fitsHi
        (fun shorter => hi.getLast?_ne (by have := lo.minimumLength_le; omega))
      simpa [lowerDigits, upperDigits, value_cons] using less

theorem length_lowerDigits {lower upper : Option Ordinal} {width : Nat}
    (wide : commonWidth lower upper ≤ width) : (lowerDigits lower width).length = width + 1 := by
  cases lower with
  | none => simp [lowerDigits]
  | some lo =>
    have fits : lo.digits.length ≤ width := by
      simp only [commonWidth, Option.elim_some, length] at wide
      omega
    simp [lowerDigits, length_pad fits]

theorem length_upperDigits {lower upper : Option Ordinal} {width : Nat}
    (wide : commonWidth lower upper ≤ width) : (upperDigits upper width).length = width + 1 := by
  cases upper with
  | none => simp [upperDigits]
  | some hi =>
    have fits : hi.digits.length ≤ width := by
      simp only [commonWidth, Option.elim_some, length] at wide
      omega
    simp [upperDigits, length_pad fits]

/-- The gap is the difference of the bounds. -/
theorem value_gap {lower upper : Option Ordinal} (ordered : Ordered lower upper) {width : Nat}
    (wide : commonWidth lower upper ≤ width) :
    value (gap lower upper width) =
      value (upperDigits upper width) - value (lowerDigits lower width) :=
  value_subtract (by rw [length_upperDigits wide, length_lowerDigits wide])
    (Nat.le_of_lt (lower_lt_upper ordered wide))

/-- A bound written one digit wider denotes 256 times as many units. -/
theorem value_pad_succ {digits : List UInt8} {width : Nat} (fits : digits.length ≤ width) :
    value (pad digits (width + 1)) = 256 * value (pad digits width) := by
  have longer : pad digits (width + 1) = pad digits width ++ [0] := by
    rw [pad, pad, List.append_assoc,
      show width + 1 - digits.length = (width - digits.length) + 1 by omega, List.replicate_succ']
  rw [longer, value_append]
  simp [value_cons]
  omega

theorem value_lowerDigits_succ {lower upper : Option Ordinal} {width : Nat}
    (wide : commonWidth lower upper ≤ width) :
    value (lowerDigits lower (width + 1)) = 256 * value (lowerDigits lower width) := by
  cases lower with
  | none => simp [lowerDigits, value_cons]
  | some lo =>
    have fits : lo.digits.length ≤ width := by
      simp only [commonWidth, Option.elim_some, length] at wide
      omega
    simp [lowerDigits, value_cons, value_pad_succ fits]

theorem value_upperDigits_succ {lower upper : Option Ordinal} {width : Nat}
    (wide : commonWidth lower upper ≤ width) :
    value (upperDigits upper (width + 1)) = 256 * value (upperDigits upper width) := by
  cases upper with
  | none => simp [upperDigits, value_cons, Nat.pow_succ]; omega
  | some hi =>
    have fits : hi.digits.length ≤ width := by
      simp only [commonWidth, Option.elim_some, length] at wide
      omega
    simp [upperDigits, value_cons, value_pad_succ fits]

/-- One digit more than the bounds need always leaves room between them. -/
theorem isAtLeastTwo_gap_succ {lower upper : Option Ordinal} (ordered : Ordered lower upper) :
    isAtLeastTwo (gap lower upper (commonWidth lower upper + 1)) = true := by
  have wide : commonWidth lower upper ≤ commonWidth lower upper := Nat.le_refl _
  have less := lower_lt_upper ordered wide
  rw [isAtLeastTwo_iff, value_gap ordered (Nat.le_succ _), value_lowerDigits_succ wide,
    value_upperDigits_succ wide]
  omega

theorem isAtLeastTwo_gap_midpointWidth {lower upper : Option Ordinal}
    (ordered : Ordered lower upper) :
    isAtLeastTwo (gap lower upper (midpointWidth lower upper)) = true := by
  unfold midpointWidth
  dsimp only
  split
  · assumption
  · exact isAtLeastTwo_gap_succ ordered

theorem commonWidth_le_midpointWidth (lower upper : Option Ordinal) :
    commonWidth lower upper ≤ midpointWidth lower upper := by
  unfold midpointWidth
  dsimp only
  split <;> omega

/-! ## The midpoint is an ordinal -/

/-- The lower bound plus half the gap, before the zeros at its end are dropped. -/
def rawMidpoint (lower upper : Option Ordinal) : List UInt8 :=
  let width := midpointWidth lower upper
  add (lowerDigits lower width) (halve (gap lower upper width))

theorem midpoint_eq (lower upper : Option Ordinal) :
    midpoint lower upper = shortest (rawMidpoint lower upper).tail := rfl

theorem value_upperDigits_le {lower upper : Option Ordinal} {width : Nat}
    (wide : commonWidth lower upper ≤ width) : value (upperDigits upper width) ≤ 256 ^ width := by
  cases upper with
  | none => simp [upperDigits, value_cons]
  | some hi =>
    have fits : hi.digits.length ≤ width := by
      simp only [commonWidth, Option.elim_some, length] at wide
      omega
    have bound := value_lt (pad hi.digits width)
    rw [length_pad fits] at bound
    simp [upperDigits, value_cons]
    omega

theorem length_rawMidpoint (lower upper : Option Ordinal) :
    (rawMidpoint lower upper).length = midpointWidth lower upper + 1 := by
  have wide := commonWidth_le_midpointWidth lower upper
  have lowerLength := length_lowerDigits wide
  have upperLength := length_upperDigits wide
  have gapLength : (gap lower upper (midpointWidth lower upper)).length =
      midpointWidth lower upper + 1 := by
    rw [gap, length_subtract (by rw [upperLength, lowerLength]), upperLength]
  rw [rawMidpoint, length_add (by rw [length_halve, gapLength, lowerLength]), lowerLength]

/-- The sum that makes the midpoint has no carry out of its integer digit. -/
theorem value_rawMidpoint {lower upper : Option Ordinal} (ordered : Ordered lower upper) :
    value (rawMidpoint lower upper) =
      value (lowerDigits lower (midpointWidth lower upper)) +
        (value (upperDigits upper (midpointWidth lower upper)) -
          value (lowerDigits lower (midpointWidth lower upper))) / 2 := by
  have wide := commonWidth_le_midpointWidth lower upper
  have lowerLength := length_lowerDigits wide
  have upperLength := length_upperDigits wide
  have gapLength : (gap lower upper (midpointWidth lower upper)).length =
      midpointWidth lower upper + 1 := by
    rw [gap, length_subtract (by rw [upperLength, lowerLength]), upperLength]
  have less := lower_lt_upper ordered wide
  have top := value_lt (upperDigits upper (midpointWidth lower upper))
  rw [rawMidpoint, value_add (by rw [length_halve, gapLength, lowerLength]), value_halve,
    value_gap ordered wide, Nat.mod_eq_of_lt]
  rw [lowerLength]
  rw [upperLength] at top
  omega

/-- Dropping the integer digit of the midpoint drops a zero. -/
theorem value_tail_rawMidpoint {lower upper : Option Ordinal} (ordered : Ordered lower upper) :
    value (rawMidpoint lower upper).tail = value (rawMidpoint lower upper) := by
  have wide := commonWidth_le_midpointWidth lower upper
  have less := lower_lt_upper ordered wide
  have room := (isAtLeastTwo_iff _).1 (isAtLeastTwo_gap_midpointWidth ordered)
  rw [value_gap ordered wide] at room
  have top := value_upperDigits_le wide
  have denotes := value_rawMidpoint ordered
  have length := length_rawMidpoint lower upper
  cases digits : rawMidpoint lower upper with
  | nil => rw [digits] at length; simp at length
  | cons d ds =>
    rw [digits] at length denotes
    rw [value_cons] at denotes ⊢
    have tail : ds.length = midpointWidth lower upper := by simpa using length
    rw [tail] at denotes ⊢
    have zero : d.toNat = 0 := by
      apply Nat.eq_zero_of_not_pos
      intro positive
      have scaled := Nat.mul_le_mul_right (256 ^ midpointWidth lower upper) positive
      omega
    rw [zero]
    simp

theorem exists_ne_zero_shortest {digits : List UInt8} (nonzero : ∃ d ∈ digits, d ≠ 0) :
    ∃ d ∈ shortest digits, d ≠ 0 := by
  obtain ⟨d, member, apart⟩ := nonzero
  rw [← List.take_append_drop minimumLength digits, List.mem_append] at member
  rcases member with early | late
  · exact ⟨d, List.mem_append_left _ early, apart⟩
  · refine ⟨d, List.mem_append_right _ ?_, apart⟩
    rw [List.mem_reverse]
    have split := List.takeWhile_append_dropWhile (p := fun x : UInt8 => x = 0)
      (l := (digits.drop minimumLength).reverse)
    rw [← List.mem_reverse, ← split, List.mem_append] at late
    rcases late with taken | kept
    · have zero := List.all_eq_true.1 List.all_takeWhile d taken
      exact absurd (by simpa using zero) apart
    · exact kept

theorem fault?_shortest {digits : List UInt8} (long : minimumLength ≤ digits.length)
    (nonzero : ∃ d ∈ digits, d ≠ 0) : fault? (shortest digits) = none := by
  rw [fault?_eq_none_iff]
  have head_length : (digits.take minimumLength).length = minimumLength := by
    rw [List.length_take]; omega
  refine ⟨?_, exists_ne_zero_shortest nonzero, ?_⟩
  · rw [shortest, List.length_append, head_length]; omega
  · intro longer last
    rw [shortest, List.length_append, head_length] at longer
    have kept : (digits.drop minimumLength).reverse.dropWhile (· = 0) ≠ [] := by
      intro empty
      rw [empty] at longer
      simp at longer
    rw [shortest, List.getLast?_append, List.getLast?_reverse] at last
    rw [List.head?_eq_some_head kept] at last
    have first := List.head_dropWhile_not (p := fun x : UInt8 => x = 0)
      (l := (digits.drop minimumLength).reverse) kept
    simp only [Option.some_or, Option.some.injEq] at last
    rw [last] at first
    simp at first

/-- Between bounds in order the midpoint is an ordinal. -/
theorem fault?_midpoint {lower upper : Option Ordinal} (ordered : Ordered lower upper) :
    fault? (midpoint lower upper) = none := by
  have wide := commonWidth_le_midpointWidth lower upper
  have less := lower_lt_upper ordered wide
  have room := (isAtLeastTwo_iff _).1 (isAtLeastTwo_gap_midpointWidth ordered)
  rw [value_gap ordered wide] at room
  have denotes := value_rawMidpoint ordered
  have tail := value_tail_rawMidpoint ordered
  rw [midpoint_eq]
  apply fault?_shortest
  · rw [List.length_tail, length_rawMidpoint]
    simp only [commonWidth] at wide
    omega
  · have positive : value (rawMidpoint lower upper).tail ≠ 0 := by omega
    rw [Ne, value_eq_zero_iff] at positive
    simpa using positive

/-- An ordinal strictly between bounds in order. -/
def between (lower upper : Option Ordinal) (ordered : Ordered lower upper) : Ordinal :=
  ⟨midpoint lower upper, fault?_midpoint ordered⟩

/-- Bounds given in the wrong order. -/
structure Disorder where
  lower : Ordinal
  upper : Ordinal
  deriving DecidableEq

/-- The text that reports bounds in the wrong order. -/
def Disorder.message (bounds : Disorder) : String :=
  s!"create_between needs lower < upper (got {bounds.lower.text} and {bounds.upper.text})"

/-- An ordinal strictly between two bounds, refused where both are given and out of order. -/
def between? (lower upper : Option Ordinal) : Except Disorder Ordinal :=
  match lower, upper with
  | some lo, some hi =>
    if h : Ordered (some lo) (some hi) then .ok (between (some lo) (some hi) h)
    else .error ⟨lo, hi⟩
  | some lo, none => .ok (between (some lo) none nofun)
  | none, upper => .ok (between none upper nofun)

/-- An ordinal before this one. -/
def before (a : Ordinal) : Ordinal := between none (some a) nofun

/-- An ordinal after this one. -/
def after (a : Ordinal) : Ordinal := between (some a) none nofun

end SharedTree.Ordinal
