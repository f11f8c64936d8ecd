import SharedTree.Toml.Space
import SharedTree.Toml.Value
import SharedTree.Text.Hex

/-!
Numbers, truth values and points in time. An integer is one of sixty-four bits, written in base ten,
or after `0x`, `0o` or `0b` in base sixteen, eight or two; an underscore may stand between digits. A
float has a fraction or an exponent, and must not be so great that it counts as infinite.
-/

namespace SharedTree.Toml

def isDecimal (c : Char) : Bool := c.isDigit

/-- Reads digits with single underscores between them. -/
def digits? (isDigit : Char → Bool) : List Char → Option (List Char × List Char)
  | c :: rest =>
    if isDigit c then
      match rest with
      | '_' :: next :: more =>
        if isDigit next then
          (digits? isDigit (next :: more)).map fun (digits, rest) => (c :: digits, rest)
        else some ([c], rest)
      | next :: more =>
        if isDigit next then
          (digits? isDigit (next :: more)).map fun (digits, rest) => (c :: digits, rest)
        else some ([c], rest)
      | [] => some ([c], [])
    else none
  | [] => none

/-- The number that digits write in a base. -/
def numberOf (base : Nat) (digits : List Char) : Nat :=
  digits.foldl (fun n c => n * base + (Hex.digitValue? c).getD 0) 0

/-- Passes over a sign; tells whether it was a minus. -/
def sign : List Char → Bool × List Char
  | '-' :: rest => (true, rest)
  | '+' :: rest => (false, rest)
  | input => (false, input)

/-- Reads the digits of a decimal integer, which begin with zero only if they are zero. -/
def decimal? (input : List Char) : Option (List Char × List Char) :=
  match input with
  | '0' :: rest => some (['0'], rest)
  | input => digits? isDecimal input

/-- An integer of sixty-four bits. -/
def word? (n : Int) : Option Value :=
  if Int64.minValue.toInt ≤ n ∧ n ≤ Int64.maxValue.toInt then some (.integer n) else none

/-- Reads an integer in a base, from its first digit on. -/
def based? (base : Nat) (isDigit : Char → Bool) (input : List Char) :
    Option (Value × List Char) := do
  let (digits, rest) ← digits? isDigit input
  return (← word? (numberOf base digits), rest)

/-- Reads an integer. -/
def integer? (input : List Char) : Option (Value × List Char) :=
  match input with
  | '0' :: 'x' :: rest => based? 16 (fun c => (Hex.digitValue? c).isSome) rest
  | '0' :: 'o' :: rest => based? 8 (fun c => '0' ≤ c && c ≤ '7') rest
  | '0' :: 'b' :: rest => based? 2 (fun c => c = '0' || c = '1') rest
  | input => do
    let (negative, rest) := sign input
    let (digits, rest) ← decimal? rest
    let n : Int := numberOf 10 digits
    return (← word? (if negative then -n else n), rest)

/-- Whether `mantissa * 10 ^ exponent` is nearer to the first power of two beyond the floats than to
the greatest of them. Numbers with so many digits before the point are great, and numbers with so
few are not, whatever the digits are. -/
def isInfinite (mantissa : Nat) (exponent : Int) : Bool :=
  let magnitude := ((Nat.toDigits 10 mantissa).length : Int) + exponent
  let bound := Nat.pow 2 1024 - Nat.pow 2 970
  if mantissa = 0 || magnitude < 300 then false
  else if 400 < magnitude then true
  else if 0 ≤ exponent then bound ≤ mantissa * Nat.pow 10 exponent.toNat
  else bound * Nat.pow 10 (-exponent).toNat ≤ mantissa

/-- Reads the exponent of a float. -/
def exponent? : List Char → Option (Int × List Char)
  | c :: rest =>
    if c = 'e' || c = 'E' then do
      let (negative, rest) := sign rest
      let (digits, rest) ← digits? isDecimal rest
      let n : Int := numberOf 10 digits
      return (if negative then -n else n, rest)
    else none
  | [] => none

/-- Reads the fraction of a float. -/
def fraction? : List Char → Option (List Char × List Char)
  | '.' :: rest => digits? isDecimal rest
  | _ => none

/-- Passes over a given word. -/
def word : List Char → List Char → Option (List Char)
  | [], input => some input
  | c :: chars, input => do word chars (← expect? c input)

/-- Reads a float written in digits. -/
def digitFloat? (input : List Char) : Option (Value × List Char) := do
  let (negative, rest) := sign input
  let (whole, rest) ← decimal? rest
  let (fraction, rest) := (fraction? rest).getD ([], rest)
  let (exponent, tail) := (exponent? rest).getD (0, rest)
  if fraction.isEmpty && tail.length = rest.length then none
  else if !negative &&
      isInfinite (numberOf 10 (whole ++ fraction)) (exponent - fraction.length) then
    none
  else some (.float, tail)

/-- Reads a float that is no number of digits. -/
def specialFloat? (input : List Char) : Option (Value × List Char) := do
  let (_, rest) := sign input
  let rest ← word ['i', 'n', 'f'] rest <|> word ['n', 'a', 'n'] rest
  return (.float, rest)

/-! ## Points in time -/

/-- Reads a number of a given count of digits. -/
def fixedDigits? (count : Nat) (input : List Char) : Option (Nat × List Char) :=
  let digits := input.take count
  if digits.length = count ∧ digits.all Char.isDigit then
    some (numberOf 10 digits, input.drop count)
  else none

/-- Reads a number of two digits within bounds. -/
def bounded? (low high : Nat) (input : List Char) : Option (Nat × List Char) := do
  let (n, rest) ← fixedDigits? 2 input
  if low ≤ n ∧ n ≤ high then some (n, rest) else none

def isLeapYear (year : Nat) : Bool :=
  year % 4 = 0 && (year % 100 ≠ 0 || year % 400 = 0)

def daysInMonth (year month : Nat) : Nat :=
  if month = 2 then if isLeapYear year then 29 else 28
  else if month = 4 ∨ month = 6 ∨ month = 9 ∨ month = 11 then 30
  else 31

/-- Reads a date. -/
def date? (input : List Char) : Option (List Char) := do
  let (year, rest) ← fixedDigits? 4 input
  let (month, rest) ← bounded? 1 12 (← expect? '-' rest)
  let (_, rest) ← bounded? 1 (daysInMonth year month) (← expect? '-' rest)
  return rest

/-- Reads a time of day; there may be a sixtieth second. -/
def time? (input : List Char) : Option (List Char) := do
  let (_, rest) ← bounded? 0 23 input
  let (_, rest) ← bounded? 0 59 (← expect? ':' rest)
  let (_, rest) ← bounded? 0 60 (← expect? ':' rest)
  match rest with
  | '.' :: c :: more => if c.isDigit then return more.dropWhile Char.isDigit else return rest
  | _ => return rest

/-- Reads the distance from universal time. -/
def offset? : List Char → Option (List Char)
  | c :: rest =>
    if c = 'Z' || c = 'z' then some rest
    else if c = '+' || c = '-' then do
      let (_, rest) ← bounded? 0 23 rest
      let (_, rest) ← bounded? 0 59 (← expect? ':' rest)
      return rest
    else none
  | [] => none

/-- Reads what may follow a date: a time, and the distance from universal time. -/
def timeAfterDate? : List Char → Option (List Char)
  | c :: rest =>
    if c = 'T' || c = 't' || c = ' ' then do
      let rest ← time? rest
      return (offset? rest).getD rest
    else none
  | [] => none

/-- Reads a date, a time, or both. -/
def dateTime? (input : List Char) : Option (Value × List Char) :=
  match date? input with
  | some rest => some (.dateTime, (timeAfterDate? rest).getD rest)
  | none => (time? input).map fun rest => (.dateTime, rest)

/-- Reads a value that holds no others and is no text. -/
def scalar? (input : List Char) : Option (Value × List Char) :=
  (word ['t', 'r', 'u', 'e'] input).map (.boolean true, ·) <|>
    (word ['f', 'a', 'l', 's', 'e'] input).map (.boolean false, ·) <|>
    dateTime? input <|> digitFloat? input <|> specialFloat? input <|> integer? input

end SharedTree.Toml
