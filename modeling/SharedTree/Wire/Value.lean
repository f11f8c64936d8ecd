/-!
Plain data, as JSON has it, and the reading of single values out of it.
-/

namespace SharedTree.Wire

/-- Plain data. A number that is not written as an integer stands for nothing here. -/
inductive Value where
  | null
  | boolean (b : Bool)
  | integer (n : Int)
  | fraction
  | text (s : String)
  | list (items : List Value)
  | object (fields : List (String × Value))
  deriving Inhabited

def boolean? : Value → Option Bool
  | .boolean b => some b
  | _ => none

def integer? : Value → Option Int
  | .integer n => some n
  | _ => none

/-- An integer of sixty-four bits. -/
def int64? (v : Value) : Option Int :=
  (integer? v).filter fun n => Int64.minValue.toInt ≤ n && n ≤ Int64.maxValue.toInt

/-- An integer that is not negative. -/
def count? (v : Value) : Option Nat := do
  let n ← integer? v
  if 0 ≤ n then some n.toNat else none

def text? : Value → Option String
  | .text s => some s
  | _ => none

def list? : Value → Option (List Value)
  | .list items => some items
  | _ => none

/-- A value that may be null. -/
def nullable? {α : Type} (read : Value → Option α) : Value → Option (Option α)
  | .null => some none
  | v => (read v).map some

namespace Value

/-- The field of an object with this name; null where there is none. -/
def get (v : Value) (name : String) : Value :=
  match v with
  | .object fields => (fields.lookup name).getD .null
  | _ => .null

/-- Whether an object has a field with this name. -/
def has (v : Value) (name : String) : Bool :=
  match v with
  | .object fields => fields.any (·.1 == name)
  | _ => false

/-- The flag under a name; off where there is none. -/
def flagAt (v : Value) (name : String) : Bool := (boolean? (v.get name)).getD false

/-- The count under a name; zero where there is none. -/
def countAt (v : Value) (name : String) : Nat := (count? (v.get name)).getD 0

/-- The integer of sixty-four bits under a name; zero where there is none. -/
def numberAt (v : Value) (name : String) : Int := (int64? (v.get name)).getD 0

/-- The text under a name; empty where there is none. -/
def textAt (v : Value) (name : String) : String := (text? (v.get name)).getD ""

/-- The list under a name; empty where there is none. -/
def listAt (v : Value) (name : String) : List Value := (list? (v.get name)).getD []

end Value

end SharedTree.Wire
