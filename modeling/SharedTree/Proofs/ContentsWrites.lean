import SharedTree.Contents

/-! Everything that is ever written to a directory: entries are created, and
entries that are there are changed in any way at all. What holds of contents
that were written in this way is `WellFormed`: handles and ids name one entry
each, the root is there to stay, and a slot among the children of a folder is
taken exactly by the live entry that lies in that folder at that place. -/
namespace SharedTree

/-- One write to the contents of a directory. -/
inductive Write where
  /-- An entry is created, unless its id is taken. -/
  | insert (id parentId : EntryId) (ordinal : Ordinal)
  /-- An entry is changed, unless its handle is unknown. -/
  | modify (h : Handle) (change : Entry → Entry)

/-- The entries to be found in a folder: neither tombstones nor the root. -/
def Entry.LiesIn (e : Entry) (parent : EntryId) : Prop :=
  e.isDeleted = false ∧ e.isRoot = false ∧ e.parentId = parent

instance (e : Entry) (parent : EntryId) : Decidable (e.LiesIn parent) :=
  inferInstanceAs (Decidable (_ ∧ _ ∧ _))

namespace Contents

def write (c : Contents) : Write → Contents
  | .insert id parentId ordinal => ((c.insertFresh id parentId ordinal).map (·.2)).getD c
  | .modify h change => c.modify h change

/-- Contents that a directory can come to hold. Besides the writes there is
only the note that the first download has ended. -/
inductive Reachable : Contents → Prop where
  | initial : Reachable .initial
  | write (reachable : Reachable c) (w : Write) : Reachable (c.write w)
  | markFirstSyncDone (reachable : Reachable c) : Reachable { c with firstSyncDone := true }

/-- The entry that is listed in a folder at a place. -/
def slot (c : Contents) (parent : EntryId) (place : Place) : Option Handle :=
  c.children[parent]?.bind fun siblings => siblings[place]?

/-- The look-ups and the entries say the same. -/
structure WellFormed (c : Contents) : Prop where
  handles : ∀ h e, c.byHandle h = some e → e.handle = h
  ids : ∀ id h, c.ids[id]? = some h ↔ ∃ e, c.byHandle h = some e ∧ e.id = id
  fresh : ∀ h e, c.byHandle h = some e → h.number < c.nextHandle.number
  root : ∃ e, c.byHandle rootHandle = some e ∧ e.id = .root ∧ e.parentId = .root ∧
    e.isDeleted = false
  slots : ∀ parent place h, c.slot parent place = some h ↔
    ∃ e, c.byHandle h = some e ∧ e.LiesIn parent ∧ Place.ofEntry e = place

/-! ## The look-ups after a write -/

theorem slot_addToIndexes (c : Contents) (e : Entry) (parent : EntryId) (place : Place) :
    (c.addToIndexes e).slot parent place =
      if e.LiesIn parent ∧ Place.ofEntry e = place then some e.handle
      else c.slot parent place := by
  by_cases listed : (e.isRoot || e.isDeleted) = true
  · have outside : ¬ e.LiesIn parent := by
      rintro ⟨live, inner, -⟩
      simp [live, inner] at listed
    simp [slot, addToIndexes, listed, outside]
  · have inside : e.LiesIn parent ↔ e.parentId = parent := by
      simp only [Bool.or_eq_true, not_or, Bool.not_eq_true] at listed
      simp [Entry.LiesIn, listed]
    simp only [slot, addToIndexes, listed, Bool.false_eq_true, ↓reduceIte, inside,
      Std.ExtTreeMap.getElem?_insert, Std.LawfulEqCmp.compare_eq_iff_eq]
    by_cases same : e.parentId = parent
    · subst same
      simp only [↓reduceIte, Option.bind_some, Std.ExtTreeMap.getElem?_insert,
        Std.LawfulEqCmp.compare_eq_iff_eq, true_and]
      split
      · rfl
      · cases c.children[e.parentId]? <;> simp
    · simp [same]

theorem slot_dropFromIndexes (c : Contents) (e : Entry) (parent : EntryId) (place : Place) :
    (c.dropFromIndexes e).slot parent place =
      if e.parentId = parent ∧ Place.ofEntry e = place then none else c.slot parent place := by
  cases found : c.children[e.parentId]? with
  | none =>
    by_cases same : e.parentId = parent
    · subst same
      simp [slot, dropFromIndexes, found]
    · simp [slot, dropFromIndexes, found, same]
  | some siblings =>
    by_cases same : e.parentId = parent
    · subst same
      simp only [slot, dropFromIndexes, found, true_and, Option.bind_some]
      have erased : siblings[place]? = (siblings.erase (.ofEntry e))[place]? ∨
          Place.ofEntry e = place := by
        by_cases here : Place.ofEntry e = place
        · exact .inr here
        · left
          simp [Std.ExtTreeMap.getElem?_erase, here]
      split
      · rename_i empty
        have nothing : siblings.erase (.ofEntry e) = ∅ :=
          Std.ExtTreeMap.isEmpty_iff.mp (by simpa using empty)
        rcases erased with erased | here
        · simp [erased, nothing]
        · simp [here]
      · simp [Std.ExtTreeMap.getElem?_erase]
    · simp only [slot, dropFromIndexes, found, same, false_and, ↓reduceIte]
      split <;> simp [Std.ExtTreeMap.getElem?_erase, Std.ExtTreeMap.getElem?_insert, same]

/-- What a change cannot reach: the name of an entry, and the standing of the
root. -/
theorem changed_keeps (before : Entry) (change : Entry → Entry) :
    (changed before change).handle = before.handle ∧ (changed before change).id = before.id ∧
      (before.id = .root → (changed before change).parentId = before.parentId ∧
        (changed before change).isDeleted = false) := by
  simp only [changed, Entry.isRoot, EntryId.isRoot]
  by_cases root : before.id = .root <;> simp [root]

theorem ordinal_changed (before : Entry) (change : Entry → Entry) :
    (changed before change).ordinal = (change before).ordinal := by
  simp only [changed]
  split <;> rfl

theorem isShown_changed (before : Entry) (change : Entry → Entry) :
    (changed before change).isShown = (change before).isShown := by
  simp only [changed]
  split <;> rfl

theorem isUnsynced_changed (before : Entry) (change : Entry → Entry) :
    (changed before change).isUnsynced = (change before).isUnsynced := by
  simp only [changed]
  split <;> rfl

/-- Of an entry other than the root a change reaches all but the name. -/
theorem changed_of_inner {before : Entry} (inner : before.isRoot = false)
    (change : Entry → Entry) :
    changed before change = { change before with handle := before.handle, id := before.id } := by
  have apart : before.id.isRoot = false := inner
  simp [changed, Entry.isRoot, apart]

/-- A changed entry lies where the change put it, unless it is the root. -/
theorem liesIn_changed {before : Entry} {change : Entry → Entry} {parent : EntryId} :
    (changed before change).LiesIn parent ↔
      before.isRoot = false ∧ (change before).isDeleted = false ∧
        (change before).parentId = parent := by
  cases root : before.isRoot with
  | true =>
    have kept : (changed before change).isRoot = true := by
      rw [Entry.isRoot, (changed_keeps before change).2.1]
      exact root
    simp [Entry.LiesIn, kept]
  | false =>
    have inner : before.id.isRoot = false := root
    simp [Entry.LiesIn, changed, Entry.isRoot, inner]

theorem modify_eq {c : Contents} {h : Handle} {before : Entry} (change : Entry → Entry)
    (found : c.byHandle h = some before) :
    c.modify h change =
      { (c.dropFromIndexes before).addToIndexes (changed before change) with
        entries := c.entries.insert h (changed before change) } := by
  rw [modify, found]
  rfl

theorem modify_unknown {c : Contents} {h : Handle} (change : Entry → Entry)
    (unknown : c.byHandle h = none) : c.modify h change = c := by
  rw [modify, unknown]

theorem byHandle_modify (c : Contents) (h : Handle) (change : Entry → Entry) (k : Handle) :
    (c.modify h change).byHandle k =
      if h = k then (c.byHandle h).map (changed · change) else c.byHandle k := by
  cases found : c.byHandle h with
  | none =>
    rw [modify_unknown change found]
    split
    · rename_i same
      exact same ▸ found
    · rfl
  | some before =>
    rw [modify_eq change found]
    change (c.entries.insert h (changed before change))[k]? = _
    simp [Std.ExtTreeMap.getElem?_insert, byHandle]

theorem byHandle_modify_iff {c : Contents} {h k : Handle} {before e : Entry}
    (change : Entry → Entry) (known : c.byHandle h = some before) :
    (c.modify h change).byHandle k = some e ↔
      (h = k ∧ changed before change = e) ∨ (h ≠ k ∧ c.byHandle k = some e) := by
  rw [byHandle_modify, known]
  by_cases same : h = k <;> simp [same]

theorem ids_modify (c : Contents) (h : Handle) (change : Entry → Entry) :
    (c.modify h change).ids = c.ids := by
  unfold modify
  split <;> rfl

theorem nextHandle_modify (c : Contents) (h : Handle) (change : Entry → Entry) :
    (c.modify h change).nextHandle = c.nextHandle := by
  unfold modify
  split <;> rfl

theorem slot_modify {c : Contents} {h : Handle} {before : Entry} (change : Entry → Entry)
    (found : c.byHandle h = some before) (parent : EntryId) (place : Place) :
    (c.modify h change).slot parent place =
      if (changed before change).LiesIn parent ∧ Place.ofEntry (changed before change) = place
      then some (changed before change).handle
      else if before.parentId = parent ∧ Place.ofEntry before = place then none
      else c.slot parent place := by
  rw [← slot_dropFromIndexes, ← slot_addToIndexes, modify_eq change found]
  rfl

/-- The contents with a new entry, where its id is not taken. -/
def inserted (c : Contents) (id parentId : EntryId) (ordinal : Ordinal) : Contents :=
  { c.addToIndexes (.create c.nextHandle id parentId ordinal) with
    nextHandle := c.nextHandle.next
    ids := c.ids.insert id c.nextHandle
    entries := c.entries.insert c.nextHandle (.create c.nextHandle id parentId ordinal) }

/-- A creation is refused where the id is taken, and else takes the next handle. -/
theorem insertFresh_eq (c : Contents) (id parentId : EntryId) (ordinal : Ordinal) :
    c.insertFresh id parentId ordinal =
      if c.ids.contains id then none
      else some (c.nextHandle, c.inserted id parentId ordinal) := rfl

theorem byHandle_inserted (c : Contents) (id parentId : EntryId) (ordinal : Ordinal) (k : Handle) :
    (c.inserted id parentId ordinal).byHandle k =
      if c.nextHandle = k then some (.create c.nextHandle id parentId ordinal)
      else c.byHandle k := by
  simp [inserted, byHandle, Std.ExtTreeMap.getElem?_insert]

theorem ids_inserted (c : Contents) (id parentId : EntryId) (ordinal : Ordinal) (other : EntryId) :
    (c.inserted id parentId ordinal).ids[other]? =
      if id = other then some c.nextHandle else c.ids[other]? := by
  simp [inserted, Std.ExtTreeMap.getElem?_insert]

theorem slot_inserted (c : Contents) (id parentId : EntryId) (ordinal : Ordinal)
    (parent : EntryId) (place : Place) :
    (c.inserted id parentId ordinal).slot parent place =
      if (Entry.create c.nextHandle id parentId ordinal).LiesIn parent ∧
        Place.ofEntry (.create c.nextHandle id parentId ordinal) = place
      then some c.nextHandle else c.slot parent place :=
  slot_addToIndexes c (.create c.nextHandle id parentId ordinal) parent place

/-! ## What every write keeps -/

theorem byHandle_initial {h : Handle} {e : Entry} :
    initial.byHandle h = some e ↔ rootHandle = h ∧ Entry.root rootHandle = e := by
  have entries : initial.byHandle h =
      ((∅ : Std.ExtTreeMap Handle Entry).insert rootHandle (.root rootHandle))[h]? := rfl
  rw [entries, Std.ExtTreeMap.getElem?_insert]
  simp

theorem wellFormed_initial : WellFormed .initial := by
  have named (id : EntryId) : initial.ids[id]? = if .root = id then some rootHandle else none := by
    have ids : initial.ids = (∅ : Std.ExtTreeMap EntryId Handle).insert .root rootHandle := rfl
    rw [ids, Std.ExtTreeMap.getElem?_insert]
    simp
  constructor
  case handles =>
    intro h e known
    obtain ⟨rfl, rfl⟩ := byHandle_initial.mp known
    rfl
  case ids =>
    intro id h
    rw [named]
    constructor
    · intro known
      split at known
      · rename_i same
        cases known
        exact ⟨_, byHandle_initial.mpr ⟨rfl, rfl⟩, same⟩
      · cases known
    · rintro ⟨e, known, rfl⟩
      obtain ⟨rfl, rfl⟩ := byHandle_initial.mp known
      rfl
  case fresh =>
    intro h e known
    obtain ⟨rfl, rfl⟩ := byHandle_initial.mp known
    decide
  case root => exact ⟨_, byHandle_initial.mpr ⟨rfl, rfl⟩, rfl, rfl, rfl⟩
  case slots =>
    intro parent place h
    constructor
    · intro listed
      simp [slot, initial] at listed
    · rintro ⟨e, known, ⟨-, inner, -⟩, -⟩
      obtain ⟨rfl, rfl⟩ := byHandle_initial.mp known
      simp [Entry.isRoot, Entry.root, EntryId.isRoot] at inner

namespace WellFormed
variable {c : Contents} (wf : WellFormed c)
include wf

theorem ids_of_byHandle {h : Handle} {e : Entry} (known : c.byHandle h = some e) :
    c.ids[e.id]? = some h :=
  (wf.ids _ _).mpr ⟨e, known, rfl⟩

/-- No entry, tombstones included, has an id that is free. -/
theorem id_ne_of_free {id : EntryId} (free : c.ids[id]? = none) {h : Handle} {e : Entry}
    (known : c.byHandle h = some e) : id ≠ e.id := by
  rintro rfl
  cases free.symm.trans (wf.ids_of_byHandle known)

theorem ne_root_of_free {id : EntryId} (free : c.ids[id]? = none) : id ≠ .root := by
  obtain ⟨root, known, rootId, -⟩ := wf.root
  exact rootId ▸ wf.id_ne_of_free free known

/-- An id names one entry. -/
theorem handle_unique {h k : Handle} {a b : Entry} (first : c.byHandle h = some a)
    (second : c.byHandle k = some b) (same : a.id = b.id) : h = k := by
  have found := wf.ids_of_byHandle first
  rw [same, wf.ids_of_byHandle second] at found
  exact (Option.some.inj found).symm

theorem byId_iff {id : EntryId} {e : Entry} :
    c.byId id = some e ↔ c.byHandle e.handle = some e ∧ e.id = id := by
  constructor
  · intro found
    obtain ⟨h, named, known⟩ := Option.bind_eq_some_iff.mp found
    obtain ⟨other, same, rfl⟩ := (wf.ids id h).mp named
    cases same.symm.trans known
    exact ⟨(wf.handles h e known).symm ▸ known, rfl⟩
  · rintro ⟨known, rfl⟩
    simp [byId, wf.ids_of_byHandle known, known]

/-- The entry that an id names, whatever handle it was found by. -/
theorem byId_of_byHandle {h : Handle} {e : Entry} (known : c.byHandle h = some e) :
    c.byId e.id = some e :=
  wf.byId_iff.mpr ⟨(wf.handles h e known).symm ▸ known, rfl⟩

theorem isRoot_iff {h : Handle} {e : Entry} (known : c.byHandle h = some e) :
    e.isRoot = true ↔ h = rootHandle := by
  obtain ⟨root, rootKnown, rootId, -⟩ := wf.root
  simp only [Entry.isRoot, EntryId.isRoot, decide_eq_true_eq]
  constructor
  · exact fun same => wf.handle_unique known rootKnown (same.trans rootId.symm)
  · rintro rfl
    cases known.symm.trans rootKnown
    exact rootId

/-- The root is no tombstone. -/
theorem isRoot_eq_false_of_isDeleted {h : Handle} {e : Entry} (known : c.byHandle h = some e)
    (gone : e.isDeleted = true) : e.isRoot = false := by
  rw [Bool.eq_false_iff, ne_eq, wf.isRoot_iff known]
  rintro rfl
  obtain ⟨root, there, -, -, live⟩ := wf.root
  cases known.symm.trans there
  cases gone.symm.trans live

/-- An entry takes no slot but its own. -/
theorem slot_taken {h : Handle} {e : Entry} (known : c.byHandle h = some e) {parent : EntryId}
    {place : Place} (listed : c.slot parent place = some h) :
    e.LiesIn parent ∧ Place.ofEntry e = place := by
  obtain ⟨other, same, there⟩ := (wf.slots _ _ _).mp listed
  cases known.symm.trans same
  exact there

/-- An entry takes no slot but its own, and after a change only its new one. The
slot asked for is the new one of the changed entry, its old one, or another's. -/
private theorem slots_modify {h : Handle} {before : Entry} (change : Entry → Entry)
    (known : c.byHandle h = some before) (parent : EntryId) (place : Place) (k : Handle) :
    (c.modify h change).slot parent place = some k ↔
      ∃ e, (c.modify h change).byHandle k = some e ∧ e.LiesIn parent ∧
        Place.ofEntry e = place := by
  obtain ⟨sameHandle, sameId, -⟩ := changed_keeps before change
  rw [slot_modify change known]
  by_cases new : (changed before change).LiesIn parent ∧
      Place.ofEntry (changed before change) = place
  · rw [if_pos new, sameHandle, wf.handles h before known]
    constructor
    · intro same
      cases same
      exact ⟨_, (byHandle_modify_iff change known).mpr (.inl ⟨rfl, rfl⟩), new⟩
    · rintro ⟨e, found, -, there⟩
      rcases (byHandle_modify_iff change known).mp found with ⟨rfl, -⟩ | ⟨-, found⟩
      · rfl
      · have ids : before.id = e.id :=
          sameId.symm.trans (congrArg Place.id (new.2.trans there.symm))
        exact congrArg some (wf.handle_unique known found ids)
  · rw [if_neg new]
    by_cases old : before.parentId = parent ∧ Place.ofEntry before = place
    · rw [if_pos old]
      constructor
      · intro impossible
        cases impossible
      · rintro ⟨e, found, there⟩
        rcases (byHandle_modify_iff change known).mp found with ⟨rfl, rfl⟩ | ⟨apart, found⟩
        · exact absurd there new
        · have ids : before.id = e.id := congrArg Place.id (old.2.trans there.2.symm)
          exact absurd (wf.handle_unique known found ids) apart
    · rw [if_neg old, wf.slots]
      constructor
      · rintro ⟨e, found, there⟩
        refine ⟨e, (byHandle_modify_iff change known).mpr (.inr ⟨?_, found⟩), there⟩
        rintro rfl
        cases known.symm.trans found
        exact old ⟨there.1.2.2, there.2⟩
      · rintro ⟨e, found, there⟩
        rcases (byHandle_modify_iff change known).mp found with ⟨rfl, rfl⟩ | ⟨-, found⟩
        · exact absurd there new
        · exact ⟨e, found, there⟩

theorem modify (h : Handle) (change : Entry → Entry) : WellFormed (c.modify h change) := by
  cases known : c.byHandle h with
  | none =>
    rw [modify_unknown change known]
    exact wf
  | some before =>
    obtain ⟨sameHandle, sameId, rootKept⟩ := changed_keeps before change
    constructor
    case slots => exact wf.slots_modify change known
    case handles =>
      intro k e found
      rcases (byHandle_modify_iff change known).mp found with ⟨rfl, rfl⟩ | ⟨-, found⟩
      · exact sameHandle.trans (wf.handles h before known)
      · exact wf.handles k e found
    case ids =>
      intro id k
      rw [ids_modify, wf.ids]
      constructor
      · rintro ⟨e, found, rfl⟩
        by_cases same : h = k
        · subst same
          cases known.symm.trans found
          exact ⟨_, (byHandle_modify_iff change known).mpr (.inl ⟨rfl, rfl⟩), sameId⟩
        · exact ⟨e, (byHandle_modify_iff change known).mpr (.inr ⟨same, found⟩), rfl⟩
      · rintro ⟨e, found, rfl⟩
        rcases (byHandle_modify_iff change known).mp found with ⟨rfl, rfl⟩ | ⟨-, found⟩
        · exact ⟨before, known, sameId.symm⟩
        · exact ⟨e, found, rfl⟩
    case fresh =>
      intro k e found
      rw [nextHandle_modify]
      rcases (byHandle_modify_iff change known).mp found with ⟨rfl, rfl⟩ | ⟨-, found⟩
      · exact wf.fresh h before known
      · exact wf.fresh k e found
    case root =>
      obtain ⟨root, rootKnown, rootId, rootParent, rootLive⟩ := wf.root
      by_cases same : h = rootHandle
      · subst same
        cases known.symm.trans rootKnown
        obtain ⟨parentKept, live⟩ := rootKept rootId
        exact ⟨_, (byHandle_modify_iff change known).mpr (.inl ⟨rfl, rfl⟩),
          sameId.trans rootId, parentKept.trans rootParent, live⟩
      · exact ⟨root, (byHandle_modify_iff change known).mpr (.inr ⟨same, rootKnown⟩),
          rootId, rootParent, rootLive⟩

theorem nextHandle_unknown : c.byHandle c.nextHandle = none := by
  cases known : c.byHandle c.nextHandle with
  | none => rfl
  | some e => exact absurd (wf.fresh _ e known) (Int.lt_irrefl _)

/-- The next handle is nobody's, so that a new entry hides no other. -/
theorem byHandle_inserted_iff {id parentId : EntryId} {ordinal : Ordinal} {k : Handle}
    {e : Entry} :
    (c.inserted id parentId ordinal).byHandle k = some e ↔
      (c.nextHandle = k ∧ Entry.create c.nextHandle id parentId ordinal = e) ∨
        c.byHandle k = some e := by
  rw [byHandle_inserted]
  by_cases same : c.nextHandle = k
  · subst same
    simp [wf.nextHandle_unknown]
  · simp [same]

private theorem slots_inserted {id : EntryId} (parentId : EntryId) (ordinal : Ordinal)
    (free : c.ids[id]? = none) (parent : EntryId) (place : Place) (k : Handle) :
    (c.inserted id parentId ordinal).slot parent place = some k ↔
      ∃ e, (c.inserted id parentId ordinal).byHandle k = some e ∧ e.LiesIn parent ∧
        Place.ofEntry e = place := by
  rw [slot_inserted]
  split
  · rename_i new
    constructor
    · intro same
      cases same
      exact ⟨_, wf.byHandle_inserted_iff.mpr (.inl ⟨rfl, rfl⟩), new⟩
    · rintro ⟨e, found, -, there⟩
      rcases wf.byHandle_inserted_iff.mp found with ⟨rfl, -⟩ | found
      · rfl
      · have taken : id = e.id := congrArg Place.id (new.2.trans there.symm)
        exact absurd taken (wf.id_ne_of_free free found)
  · rename_i elsewhere
    rw [wf.slots]
    constructor
    · rintro ⟨e, found, there⟩
      exact ⟨e, wf.byHandle_inserted_iff.mpr (.inr found), there⟩
    · rintro ⟨e, found, there⟩
      rcases wf.byHandle_inserted_iff.mp found with ⟨-, rfl⟩ | found
      · exact absurd there elsewhere
      · exact ⟨e, found, there⟩

theorem inserted {id : EntryId} (parentId : EntryId) (ordinal : Ordinal)
    (free : c.ids[id]? = none) : WellFormed (c.inserted id parentId ordinal) := by
  constructor
  case slots => exact wf.slots_inserted parentId ordinal free
  case handles =>
    intro k e found
    rcases wf.byHandle_inserted_iff.mp found with ⟨rfl, rfl⟩ | found
    · rfl
    · exact wf.handles k e found
  case ids =>
    intro other k
    rw [ids_inserted]
    split
    · rename_i same
      subst same
      constructor
      · intro same
        cases same
        exact ⟨_, wf.byHandle_inserted_iff.mpr (.inl ⟨rfl, rfl⟩), rfl⟩
      · rintro ⟨e, found, rfl⟩
        rcases wf.byHandle_inserted_iff.mp found with ⟨rfl, -⟩ | found
        · rfl
        · exact absurd rfl (wf.id_ne_of_free free found)
    · rename_i different
      rw [wf.ids]
      constructor
      · rintro ⟨e, found, rfl⟩
        exact ⟨e, wf.byHandle_inserted_iff.mpr (.inr found), rfl⟩
      · rintro ⟨e, found, rfl⟩
        rcases wf.byHandle_inserted_iff.mp found with ⟨-, rfl⟩ | found
        · exact absurd rfl different
        · exact ⟨e, found, rfl⟩
  case fresh =>
    intro k e found
    change k.number < c.nextHandle.number + 1
    rcases wf.byHandle_inserted_iff.mp found with ⟨rfl, -⟩ | found
    · omega
    · have := wf.fresh k e found
      omega
  case root =>
    obtain ⟨root, rootKnown, standing⟩ := wf.root
    exact ⟨root, wf.byHandle_inserted_iff.mpr (.inr rootKnown), standing⟩

theorem write (w : Write) : WellFormed (c.write w) := by
  cases w with
  | insert id parentId ordinal =>
    simp only [Contents.write, insertFresh_eq, Std.ExtTreeMap.contains_eq_isSome_getElem?]
    cases free : c.ids[id]? with
    | some h => exact wf
    | none => exact wf.inserted parentId ordinal free
  | modify h change => exact wf.modify h change

end WellFormed

/-- Whatever is written, the look-ups and the entries say the same. -/
theorem Reachable.wellFormed {c : Contents} (reachable : Reachable c) : WellFormed c := by
  induction reachable with
  | initial => exact wellFormed_initial
  | write _ w ih => exact ih.write w
  | markFirstSyncDone _ ih => exact ⟨ih.handles, ih.ids, ih.fresh, ih.root, ih.slots⟩

theorem Reachable.writes {c : Contents} (reachable : Reachable c) (writes : List Write) :
    Reachable (writes.foldl Contents.write c) := by
  induction writes generalizing c with
  | nil => exact reachable
  | cons w writes ih => exact ih (reachable.write w)

end Contents

end SharedTree
