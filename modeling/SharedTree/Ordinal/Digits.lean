/-!
Digit strings in base 256, most significant digit first, with the arithmetic a midpoint needs:
difference, sum and half of two strings of one length, carried digit by digit in machine words.

`value` is the number a string denotes. `value_subtract`, `value_add` and `value_halve` say that the
digit arithmetic is exact, and `isAtLeastTwo_iff` that the test for room reads the value. The words
a column passes through are named (`columnDifference`, `columnSum`, `columnRemainder`), and each has
a lemma saying that it holds the integer it stands for, so no word ever wraps.
-/

namespace SharedTree.Digits

/-- Powers of numbers mean the same here whatever algebra is at hand. -/
scoped instance (priority := 2000) powers : Pow Nat Nat := instPowNat

/-- The number that a digit string denotes. -/
def value : List UInt8 → Nat
  | [] => 0
  | d :: ds => d.toNat * 256 ^ ds.length + value ds

@[simp] theorem value_nil : value [] = 0 := rfl

theorem value_cons (d : UInt8) (ds : List UInt8) :
    value (d :: ds) = d.toNat * 256 ^ ds.length + value ds := rfl

/-- A string of `n` digits denotes less than `256 ^ n`. -/
theorem value_lt (ds : List UInt8) : value ds < 256 ^ ds.length := by
  induction ds with
  | nil => simp
  | cons d ds ih =>
    have digit : d.toNat < 256 := d.toNat_lt
    have carried : (d.toNat + 1) * 256 ^ ds.length ≤ 256 * 256 ^ ds.length :=
      Nat.mul_le_mul_right _ digit
    rw [value_cons, List.length_cons, Nat.pow_succ]
    rw [Nat.add_mul] at carried
    omega

theorem value_append (as bs : List UInt8) :
    value (as ++ bs) = value as * 256 ^ bs.length + value bs := by
  induction as with
  | nil => simp
  | cons a as ih =>
    rw [List.cons_append, value_cons, value_cons, ih, List.length_append, Nat.pow_add, Nat.add_mul]
    rw [← Nat.mul_assoc]
    omega

/-- A string denotes zero exactly when all its digits are zero. -/
theorem value_eq_zero_iff (ds : List UInt8) : value ds = 0 ↔ ∀ d ∈ ds, d = 0 := by
  induction ds with
  | nil => simp
  | cons d ds ih =>
    have digit : d.toNat = 0 ↔ d = 0 := by
      rw [← UInt8.toNat_inj]; rfl
    rw [value_cons, Nat.add_eq_zero_iff, Nat.mul_eq_zero, ih]
    simp [digit]

@[simp] theorem value_replicate_zero (n : Nat) : value (List.replicate n 0) = 0 :=
  (value_eq_zero_iff _).2 fun _ member => List.eq_of_mem_replicate member

/-- The digits of a number at a width that holds it. -/
def ofNat : Nat → Nat → List UInt8
  | 0, _ => []
  | width + 1, n => UInt8.ofNat (n / 256 ^ width) :: ofNat width (n % 256 ^ width)

@[simp] theorem length_ofNat (width n : Nat) : (ofNat width n).length = width := by
  induction width generalizing n with
  | zero => rfl
  | succ width ih => simp [ofNat, ih]

theorem value_ofNat {width n : Nat} (fits : n < 256 ^ width) : value (ofNat width n) = n := by
  induction width generalizing n with
  | zero => simp at fits; simp [ofNat, fits]
  | succ width ih =>
    have unit : 0 < 256 ^ width := Nat.pow_pos (by decide)
    have head : n / 256 ^ width < 256 := by
      rw [Nat.div_lt_iff_lt_mul unit]
      rwa [Nat.pow_succ, Nat.mul_comm] at fits
    have whole := Nat.div_add_mod n (256 ^ width)
    rw [ofNat, value_cons, length_ofNat, ih (Nat.mod_lt _ unit), UInt8.toNat_ofNat',
      Nat.mod_eq_of_lt head, Nat.mul_comm]
    exact whole

/-! ## Subtraction -/

/-- What is left in one column once the subtrahend's digit and the borrow are taken. -/
def columnDifference (a b : UInt8) (borrow : Int16) : Int16 :=
  Int16.ofNat a.toNat - Int16.ofNat b.toNat - borrow

/-- The last columns first: the borrow asked of the next column, and the digits so far. -/
def subtractBorrow : List UInt8 → List UInt8 → Int16 × List UInt8
  | a :: as, b :: bs =>
    let below := subtractBorrow as bs
    let d := columnDifference a b below.1
    if d < 0 then (1, UInt8.ofNat (d + 256).toNatClampNeg :: below.2)
    else (0, UInt8.ofNat d.toNatClampNeg :: below.2)
  | _, _ => (0, [])

/-- The difference of two strings of one length; the first denotes at least as much as the second.
-/
def subtract (as bs : List UInt8) : List UInt8 :=
  (subtractBorrow as bs).2

/-- A byte fits in a signed word of sixteen bits. -/
theorem toInt_ofNat_byte (a : UInt8) : (Int16.ofNat a.toNat).toInt = a.toNat := by
  have bound := a.toNat_lt
  have size : Int16.size = 65536 := rfl
  rw [Int16.toInt_ofNat', Int.bmod_def, size]
  omega

/-- The signed word of a column holds the integer it stands for. -/
theorem toInt_columnDifference (a b : UInt8) {borrow : Int16}
    (low : 0 ≤ borrow.toInt) (high : borrow.toInt ≤ 1) :
    (columnDifference a b borrow).toInt = (a.toNat : Int) - b.toNat - borrow.toInt := by
  have boundA := a.toNat_lt
  have boundB := b.toNat_lt
  simp only [columnDifference, Int16.toInt_sub, toInt_ofNat_byte, Int.bmod_def]
  omega

/-- One column of a subtraction, in natural numbers: what the column keeps and what it took away
make up the digit it had and what it borrowed. -/
theorem subtractBorrow_cons (a b : UInt8) (as bs : List UInt8)
    (borrowed : (subtractBorrow as bs).1 = 0 ∨ (subtractBorrow as bs).1 = 1) :
    ∃ d : UInt8, ∃ borrow : Int16, (borrow = 0 ∨ borrow = 1) ∧
      subtractBorrow (a :: as) (b :: bs) = (borrow, d :: (subtractBorrow as bs).2) ∧
      d.toNat + b.toNat + (subtractBorrow as bs).1.toInt.toNat =
        a.toNat + borrow.toInt.toNat * 256 := by
  have zero : (0 : Int16).toInt = 0 := by decide
  have one : (1 : Int16).toInt = 1 := by decide
  have radix : (256 : Int16).toInt = 256 := by decide
  have low : 0 ≤ (subtractBorrow as bs).1.toInt := by
    rcases borrowed with h | h <;> rw [h] <;> decide
  have high : (subtractBorrow as bs).1.toInt ≤ 1 := by
    rcases borrowed with h | h <;> rw [h] <;> decide
  have column := toInt_columnDifference a b low high
  have boundA := a.toNat_lt
  have boundB := b.toNat_lt
  have equation : subtractBorrow (a :: as) (b :: bs) =
      if columnDifference a b (subtractBorrow as bs).1 < 0 then
        (1, UInt8.ofNat (columnDifference a b (subtractBorrow as bs).1 + 256).toNatClampNeg ::
          (subtractBorrow as bs).2)
      else (0, UInt8.ofNat (columnDifference a b (subtractBorrow as bs).1).toNatClampNeg ::
          (subtractBorrow as bs).2) := rfl
  by_cases negative : columnDifference a b (subtractBorrow as bs).1 < 0
  · rw [if_pos negative] at equation
    rw [Int16.lt_iff_toInt_lt, column, zero] at negative
    refine ⟨_, 1, Or.inr rfl, equation, ?_⟩
    rw [UInt8.toNat_ofNat', Int16.toNatClampNeg, Int16.toInt_add, column, radix, Int.bmod_def, one]
    omega
  · rw [if_neg negative] at equation
    rw [Int16.lt_iff_toInt_lt, column, zero] at negative
    refine ⟨_, 0, Or.inl rfl, equation, ?_⟩
    rw [UInt8.toNat_ofNat', Int16.toNatClampNeg, column, zero]
    omega

theorem subtractBorrow_spec {as bs : List UInt8} (same : as.length = bs.length) :
    (subtractBorrow as bs).2.length = as.length ∧
    ((subtractBorrow as bs).1 = 0 ∨ (subtractBorrow as bs).1 = 1) ∧
    value (subtractBorrow as bs).2 + value bs =
      value as + (subtractBorrow as bs).1.toInt.toNat * 256 ^ as.length := by
  induction as generalizing bs with
  | nil =>
    obtain rfl : bs = [] := List.length_eq_zero_iff.1 same.symm
    simp [subtractBorrow]
  | cons a as ih =>
    obtain ⟨b, bs, rfl⟩ : ∃ b bs', bs = b :: bs' := by
      cases bs with
      | nil => simp at same
      | cons b bs => exact ⟨b, bs, rfl⟩
    have lengths : as.length = bs.length := by simpa using same
    obtain ⟨length, borrowed, denotes⟩ := ih lengths
    obtain ⟨d, borrow, binary, equation, column⟩ := subtractBorrow_cons a b as bs borrowed
    rw [equation]
    refine ⟨by simp [length], binary, ?_⟩
    simp only [value_cons, length, ← lengths, List.length_cons, Nat.pow_succ]
    grind

theorem length_subtract {as bs : List UInt8} (same : as.length = bs.length) :
    (subtract as bs).length = as.length :=
  (subtractBorrow_spec same).1

/-- Subtraction is exact where it does not go below zero. -/
theorem value_subtract {as bs : List UInt8} (same : as.length = bs.length)
    (ordered : value bs ≤ value as) : value (subtract as bs) = value as - value bs := by
  obtain ⟨length, borrowed, denotes⟩ := subtractBorrow_spec same
  have bound := value_lt (subtractBorrow as bs).2
  rw [length] at bound
  simp only [subtract]
  rcases borrowed with none | one
  · have zero : (0 : Int16).toInt.toNat = 0 := by decide
    rw [none, zero] at denotes
    omega
  · have unit : (1 : Int16).toInt.toNat = 1 := by decide
    rw [one, unit] at denotes
    omega

/-! ## Addition -/

/-- The sum of one column with the carry from the column below. -/
def columnSum (a b : UInt8) (carry : UInt16) : UInt16 :=
  a.toUInt16 + b.toUInt16 + carry

/-- The last columns first: the carry into the next column, and the digits so far. -/
def addCarry : List UInt8 → List UInt8 → UInt16 × List UInt8
  | a :: as, b :: bs =>
    let below := addCarry as bs
    let s := columnSum a b below.1
    (s / 256, (s % 256).toUInt8 :: below.2)
  | _, _ => (0, [])

/-- The sum of two strings of one length, without the carry out of the first column. -/
def add (as bs : List UInt8) : List UInt8 :=
  (addCarry as bs).2

/-- The word of a column sum holds the integer it stands for. -/
theorem toNat_columnSum (a b : UInt8) {carry : UInt16} (bound : carry.toNat ≤ 1) :
    (columnSum a b carry).toNat = a.toNat + b.toNat + carry.toNat := by
  have boundA := a.toNat_lt
  have boundB := b.toNat_lt
  simp only [columnSum, UInt16.toNat_add, UInt8.toNat_toUInt16]
  omega

theorem addCarry_spec {as bs : List UInt8} (same : as.length = bs.length) :
    (addCarry as bs).2.length = as.length ∧ (addCarry as bs).1.toNat ≤ 1 ∧
    value (addCarry as bs).2 + (addCarry as bs).1.toNat * 256 ^ as.length =
      value as + value bs := by
  induction as generalizing bs with
  | nil =>
    obtain rfl : bs = [] := List.length_eq_zero_iff.1 same.symm
    simp [addCarry]
  | cons a as ih =>
    obtain ⟨b, bs, rfl⟩ : ∃ b bs', bs = b :: bs' := by
      cases bs with
      | nil => simp at same
      | cons b bs => exact ⟨b, bs, rfl⟩
    have lengths : as.length = bs.length := by simpa using same
    obtain ⟨length, carried, denotes⟩ := ih lengths
    have column := toNat_columnSum a b carried
    have boundA := a.toNat_lt
    have boundB := b.toNat_lt
    have carry : (columnSum a b (addCarry as bs).1 / 256).toNat =
        (a.toNat + b.toNat + (addCarry as bs).1.toNat) / 256 := by
      rw [UInt16.toNat_div, column]; rfl
    have digit : (columnSum a b (addCarry as bs).1 % 256).toUInt8.toNat =
        (a.toNat + b.toNat + (addCarry as bs).1.toNat) % 256 := by
      rw [UInt16.toNat_toUInt8, UInt16.toNat_mod, column]
      simp
    refine ⟨by simp [addCarry, length], ?_, ?_⟩
    · simp only [addCarry]
      rw [carry]
      omega
    · simp only [addCarry]
      rw [carry, value_cons, value_cons, value_cons, digit, length, List.length_cons, Nat.pow_succ,
        ← lengths]
      have split := Nat.div_add_mod (a.toNat + b.toNat + (addCarry as bs).1.toNat) 256
      grind

theorem length_add {as bs : List UInt8} (same : as.length = bs.length) :
    (add as bs).length = as.length :=
  (addCarry_spec same).1

/-- Addition is exact modulo the radix power of the length. -/
theorem value_add {as bs : List UInt8} (same : as.length = bs.length) :
    value (add as bs) = (value as + value bs) % 256 ^ as.length := by
  obtain ⟨length, _, denotes⟩ := addCarry_spec same
  have bound := value_lt (addCarry as bs).2
  rw [length] at bound
  rw [← denotes, Nat.add_mul_mod_self_right, Nat.mod_eq_of_lt bound]
  rfl

/-! ## Halving -/

/-- What a column divides: the remainder of the column above, times the radix, with its own digit.
-/
def columnRemainder (remainder : UInt16) (d : UInt8) : UInt16 :=
  remainder * 256 + d.toUInt16

/-- Long division by two, from the first column on. -/
def halveFrom : UInt16 → List UInt8 → List UInt8
  | _, [] => []
  | remainder, d :: ds =>
    let current := columnRemainder remainder d
    (current / 2).toUInt8 :: halveFrom (current % 2) ds

/-- Half of a digit string, rounded down. -/
def halve (ds : List UInt8) : List UInt8 :=
  halveFrom 0 ds

/-- The word of a halved column holds the integer it stands for. -/
theorem toNat_columnRemainder {remainder : UInt16} (d : UInt8) (bound : remainder.toNat ≤ 1) :
    (columnRemainder remainder d).toNat = remainder.toNat * 256 + d.toNat := by
  have digit := d.toNat_lt
  simp only [columnRemainder, UInt16.toNat_add, UInt16.toNat_mul, UInt8.toNat_toUInt16]
  have radix : (256 : UInt16).toNat = 256 := rfl
  rw [radix]
  omega

theorem halveFrom_spec (ds : List UInt8) {remainder : UInt16} (bound : remainder.toNat ≤ 1) :
    (halveFrom remainder ds).length = ds.length ∧
    value (halveFrom remainder ds) = (remainder.toNat * 256 ^ ds.length + value ds) / 2 := by
  induction ds generalizing remainder with
  | nil => simp [halveFrom]; omega
  | cons d ds ih =>
    have digit := d.toNat_lt
    have column := toNat_columnRemainder d bound
    have rest : (columnRemainder remainder d % 2).toNat =
        (remainder.toNat * 256 + d.toNat) % 2 := by
      rw [UInt16.toNat_mod, column]; rfl
    have head : (columnRemainder remainder d / 2).toUInt8.toNat =
        (remainder.toNat * 256 + d.toNat) / 2 := by
      rw [UInt16.toNat_toUInt8, UInt16.toNat_div, column]
      have two : (2 : UInt16).toNat = 2 := rfl
      rw [two]
      omega
    have small : (columnRemainder remainder d % 2).toNat ≤ 1 := by omega
    obtain ⟨length, denotes⟩ := ih small
    refine ⟨by simp [halveFrom, length], ?_⟩
    simp only [halveFrom]
    rw [value_cons, value_cons, head, length, denotes, rest, List.length_cons, Nat.pow_succ]
    have whole :
        remainder.toNat * (256 ^ ds.length * 256) + (d.toNat * 256 ^ ds.length + value ds) =
        (remainder.toNat * 256 + d.toNat) * 256 ^ ds.length + value ds := by grind
    rw [whole]
    generalize remainder.toNat * 256 + d.toNat = n
    have split : n * 256 ^ ds.length = n % 2 * 256 ^ ds.length + 2 * (n / 2 * 256 ^ ds.length) := by
      conv => lhs; rw [← Nat.div_add_mod n 2]
      grind
    omega

theorem length_halve (ds : List UInt8) : (halve ds).length = ds.length :=
  (halveFrom_spec ds (by decide)).1

/-- Halving rounds down. -/
theorem value_halve (ds : List UInt8) : value (halve ds) = value ds / 2 := by
  have halved := (@halveFrom_spec ds 0 (by decide)).2
  simpa [halve] using halved

/-! ## Room -/

/-- Whether a string denotes at least two. -/
def isAtLeastTwo (ds : List UInt8) : Bool :=
  match ds.getLast? with
  | some last => ds.dropLast.any (· ≠ 0) || 2 ≤ last
  | none => false

theorem isAtLeastTwo_iff (ds : List UInt8) : isAtLeastTwo ds = true ↔ 2 ≤ value ds := by
  rcases List.eq_nil_or_concat ds with rfl | ⟨front, last, rfl⟩
  · simp [isAtLeastTwo]
  · have bound := last.toNat_lt
    have digits : value (front.concat last) = value front * 256 + last.toNat := by
      rw [List.concat_eq_append, value_append]
      simp [value_cons]
    have zero : (∃ d ∈ front, d ≠ 0) ↔ value front ≠ 0 := by
      rw [Ne, value_eq_zero_iff]
      simp
    have two : 2 ≤ last ↔ 2 ≤ last.toNat := UInt8.le_iff_toNat_le
    rw [digits]
    simp only [isAtLeastTwo, List.concat_eq_append, List.getLast?_append, List.getLast?_singleton,
      Option.some_or, List.dropLast_append_cons, List.dropLast_singleton, List.append_nil,
      Bool.or_eq_true, List.any_eq_true, decide_eq_true_eq, zero, two]
    omega

end SharedTree.Digits
