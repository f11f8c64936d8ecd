/-!
Values of the settings format, and the tree that a document grows into. While a document is read it
matters how a table came about: one that was written out, in a header or in braces, may not be
written again, one that a longer header only implied may still be, and one that dotted keys made can
be added to by dotted keys alone.
-/

namespace SharedTree.Toml

/-- A value. No setting takes a float or a point in time, so that nothing but their kind is kept. -/
inductive Value where
  | text (s : String)
  | integer (n : Int)
  | float
  | boolean (b : Bool)
  | dateTime
  | array (items : List Value)
  | table (entries : List (String × Value))

/-- How a table came about. -/
inductive TableKind where
  /-- Under a header of its own, or as the document itself. -/
  | written
  /-- As the parent of a table that has a header. -/
  | implied
  /-- By a dotted key. -/
  | dotted
  deriving DecidableEq, Repr

/-- What stands under a key while the document is being read. -/
inductive Item where
  | value (v : Value)
  | table (kind : TableKind) (entries : List (String × Item))
  /-- Tables under repeated headers, the latest first. -/
  | tables (elements : List (List (String × Item)))

/-- A table while the document is being read. -/
structure Table where
  kind : TableKind
  entries : List (String × Item)

namespace Table

/-- The document before anything is read. -/
def empty : Table := ⟨.written, []⟩

/-- A table with another item under a key. -/
def set (t : Table) (key : String) (item : Item) : Table :=
  if t.entries.any (·.1 = key) then
    { t with entries := t.entries.map fun entry => if entry.1 = key then (key, item) else entry }
  else { t with entries := t.entries ++ [(key, item)] }

/-- Changes the table at the end of a path. Tables that are missing on the way are made; the latest
of repeated tables is the one that is meant. A path of dotted keys does not lead through a table
that was written out. -/
def descend (dotted : Bool) (change : Table → Option Table) : List String → Table → Option Table
  | [], t => change t
  | key :: path, t => do
    match t.entries.lookup key with
    | none =>
      let made ← descend dotted change path ⟨if dotted then .dotted else .implied, []⟩
      return t.set key (.table made.kind made.entries)
    | some (.value _) => none
    | some (.tables []) => none
    | some (.tables (latest :: earlier)) =>
      let changed ← descend dotted change path ⟨.written, latest⟩
      return t.set key (.tables (changed.entries :: earlier))
    | some (.table kind entries) =>
      if dotted && kind = .written then none
      else
        let changed ← descend dotted change path ⟨kind, entries⟩
        return t.set key (.table changed.kind changed.entries)

/-- Puts a value under a dotted key, the last part of which is `key`. The key must be new, and
dotted keys add only to tables that dotted keys made. -/
def insert (t : Table) (path : List String) (key : String) (value : Value) : Option Table :=
  t.descend true (fun target =>
    if (target.kind == .dotted) == path.isEmpty then none
    else if target.entries.any (·.1 = key) then none
    else some (target.set key (.value value))) path

/-- Opens the table of a header. -/
def openTable (t : Table) (path : List String) (key : String) : Option Table :=
  t.descend false (fun parent =>
    match parent.entries.lookup key with
    | none => some (parent.set key (.table .written []))
    | some (.table .implied entries) => some (parent.set key (.table .written entries))
    | some _ => none) path

/-- Opens one more table of a repeated header. -/
def openElement (t : Table) (path : List String) (key : String) : Option Table :=
  t.descend false (fun parent =>
    match parent.entries.lookup key with
    | none => some (parent.set key (.tables [[]]))
    | some (.tables elements) => some (parent.set key (.tables ([] :: elements)))
    | some _ => none) path

end Table

mutual

/-- The value that an item amounts to. -/
def Item.toValue : Item → Value
  | .value v => v
  | .table _ entries => .table (Item.toEntries entries)
  | .tables elements => .array (Item.toTables elements)

/-- The values under the keys of a table. -/
def Item.toEntries : List (String × Item) → List (String × Value)
  | [] => []
  | (key, item) :: rest => (key, item.toValue) :: Item.toEntries rest

/-- The values of repeated tables, in the order in which they were written. -/
def Item.toTables : List (List (String × Item)) → List Value
  | [] => []
  | latest :: earlier => Item.toTables earlier ++ [.table (Item.toEntries latest)]

end

end SharedTree.Toml
