import Std.Data.ExtTreeMap
import SharedTree.Text.Hex

/-!
Positions among siblings. An ordinal is a base-256 fraction written without its point: the digit
string `80 00 00 00 00 00 00 00` is one half. Digit strings compare digit by digit, and every
ordinal is written in its shortest form of at least eight digits, so that this order is the order of
the fractions.

`Ordinal.fault?` finds what is wrong with a digit string, in the order in which faults are reported,
and an `Ordinal` is a string without fault.
-/

namespace SharedTree

namespace Ordinal

/-- The number of digits that every ordinal has at least. -/
def minimumLength : Nat := 8

/-- Why a digit string is not an ordinal. -/
inductive Fault where
  /-- There are fewer digits than the minimum. -/
  | tooShort (length : Nat)
  /-- Every digit is zero, so that nothing could be placed before it. -/
  | allZero
  /-- A zero ends a string longer than the minimum, so that a shorter string denotes the same. -/
  | trailingZero
  deriving DecidableEq, Repr

def Fault.name : Fault → String
  | .tooShort _ => "TooShort"
  | .allZero => "AllZero"
  | .trailingZero => "TrailingZero"

/-- The text that reports a fault. -/
def Fault.message : Fault → String
  | .tooShort length => s!"ordinal too short: {length} digits (minimum {minimumLength})"
  | .allZero => "ordinal must contain a non-zero digit"
  | .trailingZero => "ordinal has a trailing zero digit beyond the minimum length"

/-- The first fault of a digit string. -/
def fault? (digits : List UInt8) : Option Fault :=
  if digits.length < minimumLength then some (.tooShort digits.length)
  else if digits.all (· = 0) then some .allZero
  else if minimumLength < digits.length ∧ digits.getLast? = some 0 then some .trailingZero
  else none

theorem fault?_eq_none_iff {digits : List UInt8} :
    fault? digits = none ↔
      minimumLength ≤ digits.length ∧ (∃ d ∈ digits, d ≠ 0) ∧
        (minimumLength < digits.length → digits.getLast? ≠ some 0) := by
  unfold fault?
  split
  · simp; omega
  · split
    · rename_i zeros
      simp only [List.all_eq_true, decide_eq_true_eq] at zeros
      simp only [reduceCtorEq, false_iff, not_and]
      rintro - ⟨d, member, nonzero⟩
      exact absurd (zeros d member) nonzero
    · rename_i long nonzero
      have some_nonzero : ∃ d ∈ digits, d ≠ 0 := by simpa using nonzero
      split
      · rename_i trailing
        simp only [reduceCtorEq, false_iff]
        rintro ⟨_, _, free⟩
        exact free trailing.1 trailing.2
      · rename_i free
        simp only [true_iff]
        exact ⟨by omega, some_nonzero, fun longer last => free ⟨longer, last⟩⟩

end Ordinal

/-- A position among siblings. -/
structure Ordinal where
  /-- The digits of the fraction, the most significant first. -/
  digits : List UInt8
  wellFormed : Ordinal.fault? digits = none
  deriving DecidableEq

namespace Ordinal

@[ext] theorem ext {a b : Ordinal} (same : a.digits = b.digits) : a = b := by
  cases a; cases b; cases same; rfl

instance : Ord Ordinal := ⟨fun a b => compare a.digits b.digits⟩

instance : Std.TransOrd Ordinal where
  eq_swap := Std.OrientedOrd.eq_swap (α := List UInt8)
  isLE_trans := Std.TransOrd.isLE_trans (α := List UInt8)

instance : Std.LawfulEqOrd Ordinal where
  eq_of_compare same := Ordinal.ext (Std.LawfulEqOrd.eq_of_compare (α := List UInt8) same)

instance : LT Ordinal := ltOfOrd
instance : LE Ordinal := leOfOrd

instance (a b : Ordinal) : Decidable (a < b) := inferInstanceAs (Decidable (compare a b = .lt))

theorem lt_def {a b : Ordinal} : a < b ↔ compare a.digits b.digits = .lt := Iff.rfl

/-- The ordinal with these digits, or what is wrong with them. -/
def ofDigits (digits : List UInt8) : Except Fault Ordinal :=
  match fits : fault? digits with
  | none => .ok ⟨digits, fits⟩
  | some fault => .error fault

/-- One half: the first position handed out where there are no siblings. -/
def initial : Ordinal := ⟨[0x80, 0, 0, 0, 0, 0, 0, 0], by decide⟩

/-- The number of digits. -/
def length (a : Ordinal) : Nat := a.digits.length

def isEmpty (a : Ordinal) : Bool := a.digits.isEmpty

/-- The digits in hexadecimal, as messages show an ordinal. -/
def text (a : Ordinal) : String := Hex.encode a.digits

/-- An ordinal as descriptions show it. -/
def describe (a : Ordinal) : String := "Ordinal(" ++ a.text ++ ")"

theorem minimumLength_le (a : Ordinal) : minimumLength ≤ a.digits.length :=
  (fault?_eq_none_iff.1 a.wellFormed).1

theorem exists_ne_zero (a : Ordinal) : ∃ d ∈ a.digits, d ≠ 0 :=
  (fault?_eq_none_iff.1 a.wellFormed).2.1

theorem getLast?_ne (a : Ordinal) (long : minimumLength < a.digits.length) :
    a.digits.getLast? ≠ some 0 :=
  (fault?_eq_none_iff.1 a.wellFormed).2.2 long

end Ordinal

end SharedTree
