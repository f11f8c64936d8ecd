import SharedTree.Ordinal.Between

/-! The order of ordinals is the order of the numbers that they denote, at any
width that holds both. The midpoint of two bounds therefore lies strictly
between them, however many of its trailing zeros are dropped. -/
namespace SharedTree.Ordinal
open Digits

theorem lt_irrefl (a : Ordinal) : ¬ a < a := by
  intro less
  have same : compare a.digits a.digits = .eq := Std.ReflCmp.compare_self
  cases same.symm.trans (lt_def.1 less)

theorem lt_trans {a b c : Ordinal} (first : a < b) (second : b < c) : a < c :=
  lt_def.2 (Std.TransCmp.lt_trans (lt_def.1 first) (lt_def.1 second))

theorem lt_asymm {a b : Ordinal} (less : a < b) : ¬ b < a :=
  fun greater => lt_irrefl a (lt_trans less greater)

/-- Of two ordinals one comes first, unless they are the same. -/
theorem lt_or_eq_or_gt (a b : Ordinal) : a < b ∨ a = b ∨ b < a := by
  cases order : compare a b with
  | lt => exact .inl order
  | eq => exact .inr (.inl (Std.LawfulEqOrd.eq_of_compare order))
  | gt => exact .inr (.inr (Std.OrientedCmp.gt_iff_lt.mp order))

/-- Ordinals compare as the numbers that they denote at a common width. -/
theorem lt_iff_value_lt {a b : Ordinal} {width : Nat} (fitsA : a.digits.length ≤ width)
    (fitsB : b.digits.length ≤ width) :
    a < b ↔ value (pad a.digits width) < value (pad b.digits width) := by
  have forward {a b : Ordinal} (fitsA : a.digits.length ≤ width)
      (fitsB : b.digits.length ≤ width) (less : a < b) :
      value (pad a.digits width) < value (pad b.digits width) :=
    value_pad_lt (lt_def.1 less) fitsA fitsB fun shorter =>
      b.getLast?_ne (by have := a.minimumLength_le; omega)
  refine ⟨forward fitsA fitsB, fun less => ?_⟩
  rcases lt_or_eq_or_gt a b with before | rfl | after
  · exact before
  · exact absurd less (Nat.lt_irrefl _)
  · exact absurd (forward fitsB fitsA after) (by omega)

/-- What `shortest` drops are zeros at the end. -/
theorem exists_eq_shortest_append (digits : List UInt8) :
    ∃ dropped, digits = shortest digits ++ List.replicate dropped 0 := by
  have whole := List.takeWhile_append_dropWhile (p := fun x : UInt8 => x = 0)
    (l := (digits.drop minimumLength).reverse)
  have zeros : ((digits.drop minimumLength).reverse.takeWhile (· = 0)) =
      List.replicate ((digits.drop minimumLength).reverse.takeWhile (· = 0)).length 0 := by
    apply List.eq_replicate_of_mem
    intro d member
    simpa using List.all_eq_true.1 List.all_takeWhile d member
  refine ⟨((digits.drop minimumLength).reverse.takeWhile (· = 0)).length, ?_⟩
  have tail : digits.drop minimumLength =
      ((digits.drop minimumLength).reverse.dropWhile (· = 0)).reverse ++
        ((digits.drop minimumLength).reverse.takeWhile (· = 0)).reverse := by
    rw [← List.reverse_append, whole, List.reverse_reverse]
  calc digits = digits.take minimumLength ++ digits.drop minimumLength :=
        (List.take_append_drop ..).symm
    _ = shortest digits ++ ((digits.drop minimumLength).reverse.takeWhile (· = 0)).reverse := by
        rw [shortest, List.append_assoc, ← tail]
    _ = _ := by rw [zeros, List.reverse_replicate, List.length_replicate]

/-- Written to a width, the shortest form has the digits of the long one. -/
theorem pad_shortest {digits : List UInt8} {width : Nat} (fits : digits.length ≤ width) :
    pad (shortest digits) width = pad digits width := by
  obtain ⟨dropped, whole⟩ := exists_eq_shortest_append digits
  have length := congrArg List.length whole
  rw [List.length_append, List.length_replicate] at length
  have room : width - (shortest digits).length = dropped + (width - digits.length) := by omega
  calc pad (shortest digits) width
      = shortest digits ++ (List.replicate dropped 0 ++
          List.replicate (width - digits.length) 0) := by
        rw [pad, room, List.replicate_append_replicate]
    _ = pad digits width := by rw [pad, ← List.append_assoc, ← whole]

theorem length_shortest_le (digits : List UInt8) : (shortest digits).length ≤ digits.length := by
  obtain ⟨dropped, whole⟩ := exists_eq_shortest_append digits
  have length := congrArg List.length whole
  rw [List.length_append] at length
  omega

section Between
variable {lower upper : Option Ordinal} (ordered : Ordered lower upper)

theorem length_between_le :
    (between lower upper ordered).digits.length ≤ midpointWidth lower upper := by
  have shorter := length_shortest_le (rawMidpoint lower upper).tail
  rw [List.length_tail, length_rawMidpoint] at shorter
  exact shorter

/-- The midpoint denotes the lower bound plus half the gap. -/
theorem value_between :
    value (pad (between lower upper ordered).digits (midpointWidth lower upper)) =
      value (lowerDigits lower (midpointWidth lower upper)) +
        (value (upperDigits upper (midpointWidth lower upper)) -
          value (lowerDigits lower (midpointWidth lower upper))) / 2 := by
  have full : (rawMidpoint lower upper).tail.length = midpointWidth lower upper := by
    rw [List.length_tail, length_rawMidpoint]; omega
  change value (pad (shortest (rawMidpoint lower upper).tail) _) = _
  rw [pad_shortest (by omega), pad, full, Nat.sub_self, List.replicate_zero, List.append_nil,
    value_tail_rawMidpoint ordered, value_rawMidpoint ordered]

/-- Half of a gap of two units or more lies inside it. -/
theorem value_between_bounds :
    value (lowerDigits lower (midpointWidth lower upper)) <
        value (pad (between lower upper ordered).digits (midpointWidth lower upper)) ∧
      value (pad (between lower upper ordered).digits (midpointWidth lower upper)) <
        value (upperDigits upper (midpointWidth lower upper)) := by
  have room := (isAtLeastTwo_iff _).1 (isAtLeastTwo_gap_midpointWidth ordered)
  rw [value_gap ordered (commonWidth_le_midpointWidth lower upper)] at room
  rw [value_between ordered]
  omega

theorem lt_between {lo : Ordinal} (given : lo ∈ lower) : lo < between lower upper ordered := by
  cases given
  have wide := commonWidth_le_midpointWidth (some lo) upper
  have fits : lo.digits.length ≤ midpointWidth (some lo) upper := by
    simp only [commonWidth, Option.elim_some, length] at wide
    omega
  rw [lt_iff_value_lt fits (length_between_le ordered)]
  simpa [lowerDigits, value_cons] using (value_between_bounds ordered).1

theorem between_lt {hi : Ordinal} (given : hi ∈ upper) : between lower upper ordered < hi := by
  cases given
  have wide := commonWidth_le_midpointWidth lower (some hi)
  have fits : hi.digits.length ≤ midpointWidth lower (some hi) := by
    simp only [commonWidth, Option.elim_some, length] at wide
    omega
  rw [lt_iff_value_lt (length_between_le ordered) fits]
  simpa [upperDigits, value_cons] using (value_between_bounds ordered).2

end Between

/-- Bounds in order are never refused. -/
theorem between?_eq_ok {lower upper : Option Ordinal} (ordered : Ordered lower upper) :
    between? lower upper = .ok (between lower upper ordered) := by
  cases lower with
  | none => rfl
  | some lo =>
    cases upper with
    | none => rfl
    | some hi => exact dif_pos ordered

end SharedTree.Ordinal
