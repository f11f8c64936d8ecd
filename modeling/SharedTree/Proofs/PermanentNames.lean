import SharedTree.Proofs.NodeEdits

/-! Names are for good. Whatever is done to a directory, the entries it holds are
exactly the root and those that it was ever asked to create and did: each under the
handle that was answered then, which is greater than every one before it, and under
the id that was asked for, which no later creation can have. -/
namespace SharedTree

/-- Everything that is done to a directory. -/
inductive Operation where
  | write (w : Write)
  | edit (edit : NodeEdit)
  /-- The transaction is closed, and the next one is opened. -/
  | reopen (writer : Writer)

namespace Contents

/-- The id of an entry, a tombstone's too. -/
def idOf (c : Contents) (h : Handle) : Option EntryId := (c.byHandle h).map (·.id)

theorem idOf_eq_some_iff {c : Contents} {h : Handle} {id : EntryId} :
    c.idOf h = some id ↔ ∃ e, c.byHandle h = some e ∧ e.id = id :=
  Option.map_eq_some_iff

@[simp] theorem idOf_modify (c : Contents) (h : Handle) (change : Entry → Entry) (k : Handle) :
    (c.modify h change).idOf k = c.idOf k := by
  rw [idOf, byHandle_modify]
  split
  · rename_i same
    subst same
    have kept (before : Entry) : (changed before change).id = before.id :=
      (changed_keeps before change).2.1
    simp [idOf, Function.comp_def, kept]
  · rfl

@[simp] theorem idOf_inserted (c : Contents) (id parentId : EntryId) (ordinal : Ordinal)
    (k : Handle) :
    (c.inserted id parentId ordinal).idOf k =
      if c.nextHandle = k then some id else c.idOf k := by
  rw [idOf, byHandle_inserted]
  split <;> rfl

/-- A list of names, in the order in which they were given, that has those of all
the entries. -/
structure Named (c : Contents) (names : List (Handle × EntryId)) : Prop where
  ascending : names.Pairwise fun a b => a.1.number < b.1.number
  entries : ∀ h id, (h, id) ∈ names ↔ c.idOf h = some id

theorem named_initial : Named .initial [(rootHandle, .root)] where
  ascending := List.pairwise_singleton _ _
  entries h id := by
    rw [List.mem_singleton, Prod.mk.injEq, idOf_eq_some_iff]
    constructor
    · rintro ⟨rfl, rfl⟩
      exact ⟨_, byHandle_initial.mpr ⟨rfl, rfl⟩, rfl⟩
    · rintro ⟨e, known, rfl⟩
      obtain ⟨rfl, rfl⟩ := byHandle_initial.mp known
      exact ⟨rfl, rfl⟩

/-- Where every entry keeps its id, the names are what they were. -/
theorem Named.kept {c after : Contents} {names : List (Handle × EntryId)} (named : Named c names)
    (same : ∀ h, after.idOf h = c.idOf h) : Named after names where
  ascending := named.ascending
  entries h id := by rw [same, named.entries]

/-- The next handle comes after every one that was given. -/
theorem Named.grown {c after : Contents} {names : List (Handle × EntryId)} (named : Named c names)
    (wf : WellFormed c) {id : EntryId}
    (new : ∀ h, after.idOf h = if c.nextHandle = h then some id else c.idOf h) :
    Named after (names ++ [(c.nextHandle, id)]) where
  ascending := by
    rw [List.pairwise_append]
    refine ⟨named.ascending, List.pairwise_singleton _ _, ?_⟩
    rintro ⟨h, other⟩ given _ last
    cases List.mem_singleton.mp last
    obtain ⟨e, known, -⟩ := idOf_eq_some_iff.mp ((named.entries h other).mp given)
    exact wf.fresh h e known
  entries h other := by
    have nobody : c.idOf c.nextHandle = none := by rw [idOf, wf.nextHandle_unknown]; rfl
    rw [List.mem_append, List.mem_singleton, Prod.mk.injEq, named.entries, new]
    split
    · rename_i same
      subst same
      simp [nobody, eq_comm]
    · rename_i apart
      simp [Ne.symm apart]

/-- An id is taken once it was given. -/
theorem Named.taken_iff {c : Contents} {names : List (Handle × EntryId)} (named : Named c names)
    (wf : WellFormed c) (id : EntryId) : c.ids[id]? ≠ none ↔ id ∈ names.map (·.2) := by
  rw [Option.ne_none_iff_exists', List.mem_map]
  constructor
  · rintro ⟨h, taken⟩
    exact ⟨(h, id), (named.entries h id).mpr (idOf_eq_some_iff.mpr ((wf.ids id h).mp taken)), rfl⟩
  · rintro ⟨⟨h, _⟩, given, rfl⟩
    exact ⟨h, (wf.ids _ h).mpr (idOf_eq_some_iff.mp ((named.entries h _).mp given))⟩

end Contents

namespace Transaction
open Contents

def operate (t : Transaction) : Operation → Transaction
  | .write w => t.write w
  | .edit edit => t.edit edit
  | .reopen writer => { writer, contents := t.contents }

/-- The name of the entry that an operation creates: the handle that it answers
with, and the id that it was asked for. -/
def creates? (t : Transaction) : Operation → Option (Handle × EntryId)
  | .write (.insert id parentId ordinal) =>
    (t.insertFresh id parentId ordinal).1.map fun h => (h, id)
  | .edit (.create fresh parent predecessor) =>
    (t.createNode fresh parent predecessor).1.toOption.map fun node => (node.handle, fresh)
  | _ => none

/-- The names of the entries that a run creates, one after the other. -/
def created (t : Transaction) : List Operation → List (Handle × EntryId)
  | [] => []
  | operation :: rest => (t.creates? operation).toList ++ (t.operate operation).created rest

theorem operate_reachable {t : Transaction} (reachable : t.contents.Reachable)
    (operation : Operation) : (t.operate operation).contents.Reachable := by
  cases operation with
  | write w => exact t.contents_write w ▸ reachable.write w
  | edit edit => exact (t.edit_step edit).reachable reachable
  | reopen writer => exact reachable

private theorem idOf_store (t : Transaction) (node : EditableNode) (unchanged : Entry → Bool)
    (change : Entry → Entry) (h : Handle) :
    (t.store node unchanged change).contents.idOf h = t.contents.idOf h := by
  unfold store
  split <;> simp

private theorem idOf_storeLocally (t : Transaction) (node : EditableNode)
    (unchanged : Entry → Bool) (change : Entry → Entry) (h : Handle) :
    (t.storeLocally node unchanged change).contents.idOf h = t.contents.idOf h := by
  unfold storeLocally
  split <;> simp

/-- An operation creates one entry, under the next handle and a free id, or none;
every other entry keeps its name. -/
theorem operate_cases (t : Transaction) (operation : Operation) :
    (t.creates? operation = none ∧
      ∀ h, (t.operate operation).contents.idOf h = t.contents.idOf h) ∨
    ∃ id, t.creates? operation = some (t.contents.nextHandle, id) ∧
      ∀ h, (t.operate operation).contents.idOf h =
        if t.contents.nextHandle = h then some id else t.contents.idOf h := by
  cases operation with
  | write w =>
    cases w with
    | insert id parentId ordinal =>
      simp only [creates?, operate, write, insertFresh_eq]
      split
      · exact .inl ⟨rfl, fun _ => rfl⟩
      · exact .inr ⟨id, rfl, fun h => idOf_inserted ..⟩
    | modify h change => exact .inl ⟨rfl, fun k => by simp [operate, write]⟩
  | edit edit =>
    cases edit with
    | create fresh parent predecessor =>
      simp only [creates?, operate, edit]
      rcases createNode_cases t fresh parent predecessor with
        ⟨refusal, refused⟩ | ⟨p, creates, made⟩
      · rw [refused]
        exact .inl ⟨rfl, fun _ => rfl⟩
      · rw [made]
        refine .inr ⟨fresh, rfl, fun h => ?_⟩
        simp [contents_insertFresh _ _ creates.free]
    | move node parent predecessor =>
      refine .inl ⟨rfl, fun h => ?_⟩
      simp only [operate, edit]
      rcases move_cases t node parent predecessor with
        ⟨refusal, refused⟩ | ⟨-, stays⟩ | ⟨e, p, -, moved⟩
      · rw [refused]
      · rw [stays]
      · simp [moved]
    | setTitle node title => exact .inl ⟨rfl, idOf_store t node _ _⟩
    | setUrl node url => exact .inl ⟨rfl, idOf_store t node _ _⟩
    | setIsFolder node isFolder => exact .inl ⟨rfl, idOf_store t node _ _⟩
    | setFavicon node favicon => exact .inl ⟨rfl, idOf_store t node _ _⟩
    | setExternalId node externalId => exact .inl ⟨rfl, idOf_storeLocally t node _ _⟩
    | setUniqueTag node uniqueTag => exact .inl ⟨rfl, idOf_storeLocally t node _ _⟩
    | remove node => exact .inl ⟨rfl, idOf_store t node _ _⟩
  | reopen writer => exact .inl ⟨rfl, fun _ => rfl⟩

theorem operate_named {t : Transaction} {names : List (Handle × EntryId)}
    (reachable : t.contents.Reachable) (named : t.contents.Named names) (operation : Operation) :
    (t.operate operation).contents.Named (names ++ (t.creates? operation).toList) := by
  rcases t.operate_cases operation with ⟨nothing, same⟩ | ⟨id, created, new⟩
  · rw [nothing, Option.toList_none, List.append_nil]
    exact named.kept same
  · rw [created, Option.toList_some]
    exact named.grown reachable.wellFormed new

theorem operations_named {t : Transaction} {names : List (Handle × EntryId)}
    (reachable : t.contents.Reachable) (named : t.contents.Named names)
    (operations : List Operation) :
    (operations.foldl operate t).contents.Reachable ∧
      (operations.foldl operate t).contents.Named (names ++ t.created operations) := by
  induction operations generalizing t names with
  | nil => exact ⟨reachable, by rwa [created, List.append_nil]⟩
  | cons operation operations ih =>
    rw [created, ← List.append_assoc]
    exact ih (operate_reachable reachable operation) (operate_named reachable named operation)

theorem insertFresh_eq_none_iff {t : Transaction} {id parentId : EntryId} {ordinal : Ordinal} :
    (t.insertFresh id parentId ordinal).1 = none ↔ t.contents.ids[id]? ≠ none := by
  rw [insertFresh_eq]
  cases t.contents.ids[id]? <;> simp

/-- Where an id is taken, a creation is refused and changes nothing. -/
theorem creation_refused {t : Transaction} {id : EntryId} (taken : t.contents.ids[id]? ≠ none) :
    (∀ parentId ordinal, t.contents.insertFresh id parentId ordinal = none ∧
      t.insertFresh id parentId ordinal = (none, t)) ∧
    ∀ parent predecessor, ∃ refusal, t.createNode id parent predecessor = (.error refusal, t) := by
  constructor
  · intro parentId ordinal
    obtain ⟨h, taken⟩ := Option.ne_none_iff_exists'.mp taken
    rw [insertFresh_eq, Contents.insertFresh_eq, Std.ExtTreeMap.contains_eq_isSome_getElem?, taken]
    exact ⟨rfl, rfl⟩
  · intro parent predecessor
    rcases t.createNode_cases id parent predecessor with refused | ⟨p, creates, -⟩
    · exact refused
    · exact absurd creates.free taken

end Transaction

namespace Directory
open Contents

/-- A new directory after a run, in the transaction that was opened last. -/
def afterOperations (name : String) (writer : Writer) (operations : List Operation) :
    Transaction :=
  operations.foldl Transaction.operate (({ name } : Directory).write writer)

/-- The names that a directory gave: the root's, and those of the entries that were
created in it. -/
def names (name : String) (writer : Writer) (operations : List Operation) :
    List (Handle × EntryId) :=
  (rootHandle, .root) :: (({ name } : Directory).write writer).created operations

/-- Handles are given in ascending order and ids once; what either names is the
entry that was created with both, whatever has become of it since; an id that was
given is refused without a trace; and the root is as it was made. -/
theorem names_afterOperations (name : String) (writer : Writer) (operations : List Operation) :
    (names name writer operations).Pairwise (fun a b => a.1.number < b.1.number) ∧
    (∀ h id, (h, id) ∈ names name writer operations →
      ∃ e, (afterOperations name writer operations).contents.byHandle h = some e ∧
        e.handle = h ∧ e.id = id ∧
        (afterOperations name writer operations).contents.byId id = some e) ∧
    (∀ h e, (afterOperations name writer operations).contents.byHandle h = some e →
      (h, e.id) ∈ names name writer operations ∧
      ∀ k other, (afterOperations name writer operations).contents.byHandle k = some other →
        other.id = e.id → k = h) ∧
    (∀ id parentId ordinal,
      ((afterOperations name writer operations).insertFresh id parentId ordinal).1 = none ↔
        id ∈ (names name writer operations).map (·.2)) ∧
    (∀ id, id ∈ (names name writer operations).map (·.2) →
      (∀ parentId ordinal,
        (afterOperations name writer operations).contents.insertFresh id parentId ordinal = none ∧
        (afterOperations name writer operations).insertFresh id parentId ordinal =
          (none, afterOperations name writer operations)) ∧
      ∀ parent predecessor, ∃ refusal,
        (afterOperations name writer operations).createNode id parent predecessor =
          (.error refusal, afterOperations name writer operations)) ∧
    ∃ root, (afterOperations name writer operations).contents.byHandle 1 = some root ∧
      root.handle = 1 ∧ root.id = ⟨"r"⟩ ∧ root.parentId = ⟨"r"⟩ ∧ root.isDeleted = false := by
  obtain ⟨reachable, named⟩ := Transaction.operations_named
    (t := ({ name } : Directory).write writer) .initial named_initial operations
  have wf := reachable.wellFormed
  have taken := named.taken_iff wf
  refine ⟨named.ascending, ?_, ?_, ?_, ?_, ?_⟩
  · intro h id given
    obtain ⟨e, known, rfl⟩ := idOf_eq_some_iff.mp ((named.entries h id).mp given)
    exact ⟨e, known, wf.handles h e known, rfl, wf.byId_of_byHandle known⟩
  · intro h e known
    exact ⟨(named.entries h e.id).mpr (idOf_eq_some_iff.mpr ⟨e, known, rfl⟩),
      fun k other knownOther same => wf.handle_unique knownOther known same⟩
  · intro id parentId ordinal
    exact Transaction.insertFresh_eq_none_iff.trans (taken id)
  · exact fun id given => Transaction.creation_refused ((taken id).mpr given)
  · obtain ⟨root, known, rootId, rootParent, live⟩ := wf.root
    exact ⟨root, known, wf.handles _ _ known, rootId, rootParent, live⟩

end Directory

end SharedTree
