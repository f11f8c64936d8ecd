import SharedTree.Entry
import SharedTree.Ordinal.Between
import SharedTree.TreeShape

/-!
What one directory holds: its entries, and the look-ups kept beside them. Entries are found by
handle, by id and by unique tag, tombstones included. The children of a folder are kept in sibling
order, by position and then by id, and hold only entries that are live and not the root.

Entries are never taken out, so that a handle once given always finds its entry.
-/

namespace SharedTree

/-- Where an entry stands among its siblings. -/
structure Place where
  ordinal : Ordinal
  id : EntryId
  deriving DecidableEq

namespace Place

instance : Ord Place := ⟨fun a b => (compare a.ordinal b.ordinal).then (compare a.id b.id)⟩

instance : Std.TransOrd Place :=
  inferInstanceAs (Std.TransCmp
    (compareLex (compareOn Place.ordinal) (compareOn Place.id)))

instance : Std.LawfulEqOrd Place where
  eq_of_compare {a b} same := by
    obtain ⟨ordinals, ids⟩ := Ordering.then_eq_eq.1 same
    cases a; cases b
    cases Std.LawfulEqOrd.eq_of_compare (α := Ordinal) ordinals
    cases Std.LawfulEqOrd.eq_of_compare (α := EntryId) ids
    rfl

instance : LT Place := ltOfOrd

instance (a b : Place) : Decidable (a < b) := inferInstanceAs (Decidable (compare a b = .lt))

/-- The place of an entry among its siblings. -/
def ofEntry (e : Entry) : Place := ⟨e.ordinal, e.id⟩

end Place

/-- The children of one folder, in order. -/
abbrev Siblings := Std.ExtTreeMap Place Handle

/-- What a directory holds. -/
structure Contents where
  entries : Std.ExtTreeMap Handle Entry
  ids : Std.ExtTreeMap EntryId Handle
  tags : Std.ExtTreeMap String Handle
  children : Std.ExtTreeMap EntryId Siblings
  /-- The handle of the next entry to be created. -/
  nextHandle : Handle
  /-- The first download from the server has ended. -/
  firstSyncDone : Bool

namespace Contents

/-- The handle of the root of every directory. -/
def rootHandle : Handle := 1

/-- A directory that holds its root and nothing else. -/
def initial : Contents where
  entries := Std.ExtTreeMap.ofList [(rootHandle, Entry.root rootHandle)]
  ids := Std.ExtTreeMap.ofList [(EntryId.root, rootHandle)]
  tags := ∅
  children := ∅
  nextHandle := rootHandle.next
  firstSyncDone := false

/-! ## Looking up -/

/-- The number of entries, with the root and the tombstones. -/
def size (c : Contents) : Nat := c.entries.size

def isEmpty (c : Contents) : Bool := c.entries.isEmpty

def byHandle (c : Contents) (h : Handle) : Option Entry := c.entries[h]?

def byId (c : Contents) (id : EntryId) : Option Entry := c.ids[id]?.bind c.byHandle

def byTag (c : Contents) (tag : String) : Option Entry := c.tags[tag]?.bind c.byHandle

/-- The children of a folder with their places, in order. -/
def places (c : Contents) (parent : EntryId) : List (Place × Handle) :=
  (c.children[parent]?.map (·.toList)).getD []

/-- The live children of a folder, in order. -/
def childList (c : Contents) (parent : EntryId) : List Handle :=
  (c.places parent).map (·.2)

def firstChild (c : Contents) (parent : EntryId) : Option Handle :=
  (c.childList parent).head?

/-- The siblings of an entry, itself among them, and its place; the root and the tombstones have
none. -/
def siblingPlaces (c : Contents) (h : Handle) : Option (List (Place × Handle) × Place) := do
  let e ← c.byHandle h
  if e.isRoot || e.isDeleted then none
  else
    let siblings ← c.children[e.parentId]?
    return (siblings.toList, .ofEntry e)

/-- The live sibling just before an entry. -/
def predecessor (c : Contents) (h : Handle) : Option Handle := do
  let (places, key) ← c.siblingPlaces h
  let before ← (places.filter (·.1 < key)).getLast?
  return before.2

/-- The live sibling just after an entry. -/
def successor (c : Contents) (h : Handle) : Option Handle := do
  let (places, key) ← c.siblingPlaces h
  let after ← (places.filter fun slot => ¬ slot.1 < key).find? (·.2 ≠ h)
  return after.2

/-- Climbs from an entry to the root in at most `fuel` steps, looking for `ancestor`. A chain of
parents that has not ended by then comes back to itself, and is answered as if it had met
`ancestor`. -/
def meets (c : Contents) (ancestor : EntryId) : (fuel : Nat) → EntryId → Bool
  | 0, _ => true
  | fuel + 1, id =>
    if id = ancestor then true
    else if id.isRoot then false
    else
      match c.byId id with
      | some e => c.meets ancestor fuel e.parentId
      | none => false

/-- Whether one entry is another or lies above it. No chain of parents without repetition has more
entries than the directory, and one more id where it leaves the directory. -/
def isAtOrAbove (c : Contents) (ancestor id : EntryId) : Bool :=
  c.meets ancestor (c.size + 1) id

/-- The shape of the tree, as far as ordering needs it. -/
def shape (c : Contents) : TreeShape where
  nodes := c.entries.keys
  parent h := do
    let e ← c.byHandle h
    if e.isRoot then none else c.ids[e.parentId]?
  ordinal h := (c.byHandle h).map (·.ordinal)
  listed h found := by
    rw [Std.ExtTreeMap.mem_keys, Std.ExtTreeMap.mem_iff_isSome_getElem?]
    cases search : c.entries[h]? with
    | none => simp [byHandle, search] at found
    | some e => rfl

/-! ## Places among siblings -/

/-- The place that an entry following `predecessor` comes after. -/
def lowerPlace (c : Contents) (predecessor : Option Handle) : Option Place :=
  (predecessor.bind c.byHandle).map .ofEntry

/-- The position that an entry under `parent` after the place `lower` comes before: the first one
among the later siblings, `moving` left out, that is greater than the position at `lower`. Siblings
that share that position are passed as a group. -/
def upperOrdinal (c : Contents) (parent : EntryId) (lower : Option Place)
    (moving : Option Handle) : Option Ordinal :=
  (((c.places parent).filter fun slot =>
      some slot.2 ≠ moving && lower.all fun key => key < slot.1).map (·.1.ordinal)).find?
    fun ordinal => lower.all fun key => key.ordinal < ordinal

theorem ordered_upperOrdinal (c : Contents) (parent : EntryId) (lower : Option Place)
    (moving : Option Handle) :
    Ordinal.Ordered (lower.map (·.ordinal)) (c.upperOrdinal parent lower moving) := by
  intro lo isLower hi isUpper
  have found := List.find?_some (Option.mem_def.1 isUpper)
  cases lower with
  | none => simp at isLower
  | some key =>
    simp only [Option.map_some, Option.mem_def, Option.some.injEq] at isLower
    subst isLower
    simpa using found

/-- A position right after `predecessor` under `parent`, or before all others where there is none.
The entry `moving` is not counted among the siblings. -/
def ordinalFollowing (c : Contents) (parent : EntryId) (predecessor moving : Option Handle) :
    Ordinal :=
  let lower := c.lowerPlace predecessor
  Ordinal.between (lower.map (·.ordinal)) (c.upperOrdinal parent lower moving)
    (c.ordered_upperOrdinal parent lower moving)

/-! ## Writing -/

/-- Makes an entry found by tag and among its siblings. -/
def addToIndexes (c : Contents) (e : Entry) : Contents :=
  { c with
    children :=
      if e.isRoot || e.isDeleted then c.children
      else
        let siblings := c.children[e.parentId]?.getD ∅
        c.children.insert e.parentId (siblings.insert (.ofEntry e) e.handle)
    tags :=
      match e.uniqueTag with
      | some tag => c.tags.insert tag e.handle
      | none => c.tags }

/-- Makes an entry no longer found by tag, if it is the one found, nor among its siblings. -/
def dropFromIndexes (c : Contents) (e : Entry) : Contents :=
  { c with
    children :=
      match c.children[e.parentId]? with
      | some siblings =>
        let left := siblings.erase (.ofEntry e)
        if left.isEmpty then c.children.erase e.parentId else c.children.insert e.parentId left
      | none => c.children
    tags :=
      match e.uniqueTag with
      | some tag => if c.tags[tag]? = some e.handle then c.tags.erase tag else c.tags
      | none => c.tags }

/-- Creates an entry under a new handle; refused where the id is taken. -/
def insertFresh (c : Contents) (id parentId : EntryId) (ordinal : Ordinal) :
    Option (Handle × Contents) :=
  if c.ids.contains id then none
  else
    let e := Entry.create c.nextHandle id parentId ordinal
    let c := { c with nextHandle := c.nextHandle.next, ids := c.ids.insert id e.handle }
    some (e.handle, { c.addToIndexes e with entries := c.entries.insert e.handle e })

/-- An entry after a change, with what cannot be changed put back: its handle and its id, and for
the root its parent and its life. -/
def changed (before : Entry) (change : Entry → Entry) : Entry :=
  let after := { change before with handle := before.handle, id := before.id }
  if after.isRoot then { after with parentId := before.parentId, isDeleted := false } else after

/-- Changes an entry, and keeps the look-ups in step; nothing happens where the handle is unknown.
-/
def modify (c : Contents) (h : Handle) (change : Entry → Entry) : Contents :=
  match c.byHandle h with
  | none => c
  | some before =>
    let after := changed before change
    let c := (c.dropFromIndexes before).addToIndexes after
    { c with entries := c.entries.insert h after }

end Contents

end SharedTree
