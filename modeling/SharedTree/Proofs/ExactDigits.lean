import SharedTree.Ordinal.Digits

/-! The digit arithmetic is exact, and so is every word on the way. Beside each loop over the
columns stands one that asks of each word it computes whether a word of that kind holds the
result, and gives up if not. It never gives up, and comes to the digits of the loop itself: the
borrow, carry or remainder that enters a column is at most one, and then there is room for all
that a column computes. -/
namespace SharedTree.Digits

/-! ## Words that hold their numbers -/

/-- The signed word of sixteen bits that holds a number, if there is one. -/
def signedWord? (n : Int) : Option Int16 :=
  if -32768 ≤ n ∧ n < 32768 then some (Int16.ofInt n) else none

/-- The unsigned word of sixteen bits that holds a number, if there is one. -/
def word? (n : Nat) : Option UInt16 :=
  if n < 65536 then some (UInt16.ofNat n) else none

/-- The digit that holds a number, if there is one. -/
def digit? (n : Int) : Option UInt8 :=
  if 0 ≤ n ∧ n < 256 then some (UInt8.ofNat n.toNat) else none

theorem signedWord?_eq_some_iff {n : Int} {word : Int16} :
    signedWord? n = some word ↔ word.toInt = n := by
  have low := word.le_toInt
  have high := word.toInt_lt
  unfold signedWord?
  split
  · rename_i fits
    have holds : (Int16.ofInt n).toInt = n := Int16.toInt_ofInt_of_le fits.1 fits.2
    rw [Option.some.injEq, ← Int16.toInt_inj, holds, eq_comm]
  · simp only [reduceCtorEq, false_iff]
    rintro rfl
    omega

theorem word?_eq_some_iff {n : Nat} {word : UInt16} : word? n = some word ↔ word.toNat = n := by
  have high := word.toNat_lt
  unfold word?
  split
  · rename_i fits
    have holds : (UInt16.ofNat n).toNat = n := UInt16.toNat_ofNat_of_lt' fits
    rw [Option.some.injEq, ← UInt16.toNat_inj, holds, eq_comm]
  · simp only [reduceCtorEq, false_iff]
    rintro rfl
    omega

theorem digit?_eq_some_iff {n : Int} {digit : UInt8} :
    digit? n = some digit ↔ (digit.toNat : Int) = n := by
  have high := digit.toNat_lt
  unfold digit?
  split
  · rename_i fits
    have holds : (UInt8.ofNat n.toNat).toNat = n.toNat := by
      rw [UInt8.toNat_ofNat']
      omega
    rw [Option.some.injEq, ← UInt8.toNat_inj, holds]
    omega
  · simp only [reduceCtorEq, false_iff]
    rintro rfl
    omega

section Bind
variable {α β : Type}

theorem bind_of_eq_some {found : Option α} {x : α} (holds : found = some x)
    (next : α → Option β) : (found >>= next) = next x := by
  rw [holds]
  rfl

theorem bind_signedWord? {n : Int} {word : Int16} (holds : word.toInt = n)
    (next : Int16 → Option β) : (signedWord? n >>= next) = next word :=
  bind_of_eq_some (signedWord?_eq_some_iff.mpr holds) next

theorem bind_word? {n : Nat} {word : UInt16} (holds : word.toNat = n)
    (next : UInt16 → Option β) : (word? n >>= next) = next word :=
  bind_of_eq_some (word?_eq_some_iff.mpr holds) next

theorem bind_digit? {n : Int} {digit : UInt8} (holds : (digit.toNat : Int) = n)
    (next : UInt8 → Option β) : (digit? n >>= next) = next digit :=
  bind_of_eq_some (digit?_eq_some_iff.mpr holds) next

end Bind

/-! ## Subtraction -/

/-- A column of a subtraction, word by word. -/
def columnDifference? (a b : UInt8) (borrow : Int16) : Option Int16 := do
  let minuend ← signedWord? a.toNat
  let subtrahend ← signedWord? b.toNat
  let difference ← signedWord? (minuend.toInt - subtrahend.toInt)
  signedWord? (difference.toInt - borrow.toInt)

/-- The borrow that a column asks for, and the digit that it keeps. -/
def settleColumn? (d : Int16) : Option (Int16 × UInt8) :=
  if d < 0 then do
    let radix ← signedWord? 256
    let raised ← signedWord? (d.toInt + radix.toInt)
    let digit ← digit? raised.toInt
    some (1, digit)
  else do
    let digit ← digit? d.toInt
    some (0, digit)

/-- Subtraction from the last column on, word by word. -/
def subtractBorrow? : List UInt8 → List UInt8 → Option (Int16 × List UInt8)
  | a :: as, b :: bs => do
    let below ← subtractBorrow? as bs
    let d ← columnDifference? a b below.1
    let settled ← settleColumn? d
    some (settled.1, settled.2 :: below.2)
  | _, _ => some (0, [])

theorem columnDifference?_eq (a b : UInt8) {borrow : Int16} (low : 0 ≤ borrow.toInt)
    (high : borrow.toInt ≤ 1) :
    columnDifference? a b borrow = some (columnDifference a b borrow) := by
  have boundA := a.toNat_lt
  have boundB := b.toNat_lt
  have minuend := toInt_ofNat_byte a
  have subtrahend := toInt_ofNat_byte b
  have difference : (Int16.ofNat a.toNat - Int16.ofNat b.toNat).toInt =
      (Int16.ofNat a.toNat).toInt - (Int16.ofNat b.toNat).toInt := by
    rw [Int16.toInt_sub, minuend, subtrahend, Int.bmod_def]
    omega
  rw [columnDifference?, bind_signedWord? minuend, bind_signedWord? subtrahend,
    bind_signedWord? difference, signedWord?_eq_some_iff, toInt_columnDifference a b low high,
    difference, minuend, subtrahend]

/-- What is left in a column is at least minus one radix, and less than one. -/
theorem settleColumn?_eq {d : Int16} (low : -256 ≤ d.toInt) (high : d.toInt < 256) :
    settleColumn? d = some (if d < 0 then (1, UInt8.ofNat (d + 256).toNatClampNeg)
      else (0, UInt8.ofNat d.toNatClampNeg)) := by
  have radix : (256 : Int16).toInt = 256 := rfl
  have zero : (0 : Int16).toInt = 0 := rfl
  unfold settleColumn?
  split <;> rename_i sign <;> rw [Int16.lt_iff_toInt_lt, zero] at sign
  · have raised : (d + 256).toInt = d.toInt + (256 : Int16).toInt := by
      rw [Int16.toInt_add, radix, Int.bmod_def]
      omega
    have digit : ((UInt8.ofNat (d + 256).toNatClampNeg).toNat : Int) = (d + 256).toInt := by
      rw [UInt8.toNat_ofNat', Int16.toNatClampNeg, raised, radix]
      omega
    rw [bind_signedWord? radix, bind_signedWord? raised, bind_digit? digit]
  · have digit : ((UInt8.ofNat d.toNatClampNeg).toNat : Int) = d.toInt := by
      rw [UInt8.toNat_ofNat', Int16.toNatClampNeg]
      omega
    rw [bind_digit? digit]

theorem borrow_bounds {borrow : Int16} (binary : borrow = 0 ∨ borrow = 1) :
    0 ≤ borrow.toInt ∧ borrow.toInt ≤ 1 := by
  rcases binary with rfl | rfl <;> decide

theorem subtractBorrow?_eq {as bs : List UInt8} (same : as.length = bs.length) :
    subtractBorrow? as bs = some (subtractBorrow as bs) := by
  induction as generalizing bs with
  | nil =>
    obtain rfl : bs = [] := List.length_eq_zero_iff.1 same.symm
    rfl
  | cons a as ih =>
    obtain ⟨b, bs, rfl⟩ := List.exists_cons_of_length_eq_add_one same.symm
    have lengths : as.length = bs.length := by simpa using same
    have boundA := a.toNat_lt
    have boundB := b.toNat_lt
    obtain ⟨low, high⟩ := borrow_bounds (subtractBorrow_spec lengths).2.1
    have column := toInt_columnDifference a b low high
    have settled := settleColumn?_eq (d := columnDifference a b (subtractBorrow as bs).1)
      (by omega) (by omega)
    rw [subtractBorrow?, bind_of_eq_some (ih lengths),
      bind_of_eq_some (columnDifference?_eq a b low high), bind_of_eq_some settled, subtractBorrow]
    by_cases negative : columnDifference a b (subtractBorrow as bs).1 < 0
    · simp only [if_pos negative]
    · simp only [if_neg negative]

/-! ## Addition -/

/-- A column of a sum, word by word. -/
def columnSum? (a b : UInt8) (carry : UInt16) : Option UInt16 := do
  let first ← word? a.toNat
  let second ← word? b.toNat
  let both ← word? (first.toNat + second.toNat)
  word? (both.toNat + carry.toNat)

/-- Addition from the last column on, word by word. -/
def addCarry? : List UInt8 → List UInt8 → Option (UInt16 × List UInt8)
  | a :: as, b :: bs => do
    let below ← addCarry? as bs
    let sum ← columnSum? a b below.1
    let digit ← digit? (sum % 256).toNat
    some (sum / 256, digit :: below.2)
  | _, _ => some (0, [])

theorem columnSum?_eq (a b : UInt8) {carry : UInt16} (bound : carry.toNat ≤ 1) :
    columnSum? a b carry = some (columnSum a b carry) := by
  have boundA := a.toNat_lt
  have boundB := b.toNat_lt
  have both : (a.toUInt16 + b.toUInt16).toNat = a.toUInt16.toNat + b.toUInt16.toNat := by
    rw [UInt16.toNat_add, UInt8.toNat_toUInt16, UInt8.toNat_toUInt16]
    omega
  rw [columnSum?, bind_word? a.toNat_toUInt16, bind_word? b.toNat_toUInt16, bind_word? both,
    word?_eq_some_iff, toNat_columnSum a b bound, both, UInt8.toNat_toUInt16, UInt8.toNat_toUInt16]

/-- The remainder by the radix is a digit. -/
theorem digit?_mod (sum : UInt16) : digit? (sum % 256).toNat = some (sum % 256).toUInt8 := by
  have radix : (256 : UInt16).toNat = 256 := rfl
  rw [digit?_eq_some_iff, UInt16.toNat_toUInt8, UInt16.toNat_mod, radix]
  omega

theorem addCarry?_eq {as bs : List UInt8} (same : as.length = bs.length) :
    addCarry? as bs = some (addCarry as bs) := by
  induction as generalizing bs with
  | nil =>
    obtain rfl : bs = [] := List.length_eq_zero_iff.1 same.symm
    rfl
  | cons a as ih =>
    obtain ⟨b, bs, rfl⟩ := List.exists_cons_of_length_eq_add_one same.symm
    have lengths : as.length = bs.length := by simpa using same
    have carried := (addCarry_spec lengths).2.1
    rw [addCarry?, bind_of_eq_some (ih lengths), bind_of_eq_some (columnSum?_eq a b carried),
      bind_of_eq_some (digit?_mod _), addCarry]

/-! ## Halving -/

/-- What a column divides, word by word. -/
def columnRemainder? (remainder : UInt16) (d : UInt8) : Option UInt16 := do
  let raised ← word? (remainder.toNat * 256)
  let own ← word? d.toNat
  word? (raised.toNat + own.toNat)

/-- Long division by two from the first column on, word by word. -/
def halveFrom? : UInt16 → List UInt8 → Option (List UInt8)
  | _, [] => some []
  | remainder, d :: ds => do
    let current ← columnRemainder? remainder d
    let digit ← digit? (current / 2).toNat
    let rest ← halveFrom? (current % 2) ds
    some (digit :: rest)

theorem columnRemainder?_eq {remainder : UInt16} (d : UInt8) (bound : remainder.toNat ≤ 1) :
    columnRemainder? remainder d = some (columnRemainder remainder d) := by
  have digit := d.toNat_lt
  have radix : (256 : UInt16).toNat = 256 := rfl
  have raised : (remainder * 256).toNat = remainder.toNat * 256 := by
    rw [UInt16.toNat_mul, radix]
    omega
  rw [columnRemainder?, bind_word? raised, bind_word? d.toNat_toUInt16, word?_eq_some_iff,
    toNat_columnRemainder d bound, raised, UInt8.toNat_toUInt16]

theorem halveFrom?_eq (ds : List UInt8) {remainder : UInt16} (bound : remainder.toNat ≤ 1) :
    halveFrom? remainder ds = some (halveFrom remainder ds) := by
  induction ds generalizing remainder with
  | nil => rfl
  | cons d ds ih =>
    have own := d.toNat_lt
    have two : (2 : UInt16).toNat = 2 := rfl
    have column := toNat_columnRemainder d bound
    have left : (columnRemainder remainder d % 2).toNat ≤ 1 := by
      rw [UInt16.toNat_mod, two]
      omega
    have digit : digit? (columnRemainder remainder d / 2).toNat =
        some (columnRemainder remainder d / 2).toUInt8 := by
      rw [digit?_eq_some_iff, UInt16.toNat_toUInt8, UInt16.toNat_div, column, two]
      omega
    rw [halveFrom?, bind_of_eq_some (columnRemainder?_eq d bound), bind_of_eq_some digit,
      bind_of_eq_some (ih left), halveFrom]

/-! ## Digit arithmetic -/

/-- Differences, sums and halves of digits denote those of the numbers, a difference where it is
not negative and a sum up to what the length holds; the test for room reads the number. Word by
word the loops come to the same digits, whatever the digits are: every word holds the number that
it stands for. -/
theorem arithmetic_exact (as bs : List UInt8) (same : as.length = bs.length) :
    (value bs ≤ value as → value (subtract as bs) = value as - value bs) ∧
    value (add as bs) = (value as + value bs) % 256 ^ as.length ∧
    (halve as).length = as.length ∧ value (halve as) = value as / 2 ∧
    (isAtLeastTwo as = true ↔ 2 ≤ value as) ∧
    (subtractBorrow? as bs).map Prod.snd = some (subtract as bs) ∧
    (addCarry? as bs).map Prod.snd = some (add as bs) ∧
    halveFrom? 0 as = some (halve as) := by
  refine ⟨value_subtract same, value_add same, length_halve as, value_halve as,
    isAtLeastTwo_iff as, ?_, ?_, halveFrom?_eq as (by decide)⟩
  · rw [subtractBorrow?_eq same]
    rfl
  · rw [addCarry?_eq same]
    rfl

/-- A borrow through zeros, and a carry through digits that are all as great as can be. -/
theorem arithmetic_exact_chains :
    value (subtract [1, 0, 0, 0] [0, 0, 0, 1]) = 16777215 ∧
    (subtractBorrow? [1, 0, 0, 0] [0, 0, 0, 1]).map Prod.snd = some [0, 255, 255, 255] ∧
    value (add [0, 255, 255, 255] [0, 0, 0, 1]) = 16777216 ∧
    (addCarry? [0, 255, 255, 255] [0, 0, 0, 1]).map Prod.snd = some [1, 0, 0, 0] := by
  obtain ⟨difference, -, -, -, -, words, -⟩ :=
    arithmetic_exact [1, 0, 0, 0] [0, 0, 0, 1] (by decide)
  obtain ⟨-, sum, -, -, -, -, carried, -⟩ :=
    arithmetic_exact [0, 255, 255, 255] [0, 0, 0, 1] (by decide)
  exact ⟨difference (by decide), words, sum, carried⟩

end SharedTree.Digits
