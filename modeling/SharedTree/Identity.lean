import Std.Data.ExtTreeMap
import SharedTree.Text.Hex

/-!
What entries are called. A handle is a number that a directory hands out when it creates an entry
and never hands out again. An entry's id is a text that other devices know it by: the root is `r`,
ids given by the server start with `s`, and an entry created here starts with `c` until the server
has named it.
-/

namespace SharedTree

/-- A directory's own number for an entry. -/
structure Handle where
  number : Int
  deriving DecidableEq

namespace Handle

instance : Ord Handle := ⟨fun a b => compare a.number b.number⟩

instance : Std.TransOrd Handle where
  eq_swap := Std.OrientedOrd.eq_swap (α := Int)
  isLE_trans := Std.TransOrd.isLE_trans (α := Int)

instance : Std.LawfulEqOrd Handle where
  eq_of_compare {a b} same := by
    cases a; cases b
    exact congrArg Handle.mk (Std.LawfulEqOrd.eq_of_compare (α := Int) same)

instance (n : Nat) : OfNat Handle n := ⟨⟨n⟩⟩

/-- The handle after this one. -/
def next (h : Handle) : Handle := ⟨h.number + 1⟩

/-- The number in decimal, as messages show a handle. -/
def text (h : Handle) : String := toString h.number

/-- A handle as descriptions show it. -/
def describe (h : Handle) : String := "MetaHandle(" ++ h.text ++ ")"

end Handle

/-- An entry's name among all devices. -/
structure EntryId where
  text : String
  deriving DecidableEq

namespace EntryId

instance : Ord EntryId := ⟨fun a b => compare a.text b.text⟩

instance : Std.TransOrd EntryId where
  eq_swap := Std.OrientedOrd.eq_swap (α := String)
  isLE_trans := Std.TransOrd.isLE_trans (α := String)

instance : Std.LawfulEqOrd EntryId where
  eq_of_compare {a b} same := by
    cases a; cases b
    exact congrArg EntryId.mk (Std.LawfulEqOrd.eq_of_compare (α := String) same)

/-- The id of the root of every directory. -/
def root : EntryId := ⟨"r"⟩

/-- The id of an entry that the server calls by this text. -/
def ofServer (text : String) : EntryId := ⟨"s" ++ text⟩

/-- What every id given at one origin starts with. -/
def originStem (origin : Nat) : String := "c" ++ Hex.padded 12 origin ++ "40008"

/-- An id for an entry created here: thirty-two hexadecimal digits that spell the number of an
origin and a serial number, laid out as a random identifier of version four. -/
def ofSerial (origin serial : Nat) : EntryId := ⟨originStem origin ++ Hex.padded 15 serial⟩

def isRoot (id : EntryId) : Bool := id = root

/-- Whether the server gave this id. -/
def isServerGiven (id : EntryId) : Bool := id.text.toList.head? = some 's'

/-- Whether this id can have been given at an origin. -/
def isFrom (id : EntryId) (origin : Nat) : Bool :=
  (originStem origin).toList.isPrefixOf id.text.toList

/-- An origin at which none of these ids can have been given. Each id rules out at most one origin,
so that there is one among the first. -/
def originApart (ids : List EntryId) : Nat :=
  ((List.range (ids.length + 1)).find? fun origin => ids.all (!·.isFrom origin)).getD 0

/-- An id as descriptions show it. -/
def describe (id : EntryId) : String := "Id(" ++ id.text ++ ")"

end EntryId

end SharedTree
