import SharedTree.Proofs.DamagedChains
import SharedTree.Proofs.Placement
import SharedTree.Proofs.TagLookups

/-! A move that is asked for again. Where siblings share a position, a node that is moved
behind one of them comes to stand behind all of them, so that it is not found in its place
and is moved once more. The second move reads what the first one did not write: the checks
and the climb look at other entries, and the new position is computed from the siblings
without the node. So it writes what is there already, and that leaves every look-up as it
is. -/
namespace SharedTree

namespace Contents

/-! ## An entry that is written as it is -/

section Rewritten
variable {c : Contents} {e : Entry}

/-- A listed entry that is taken out of its folder and put back leaves the folder as it
was, also where it is the only one in it. -/
theorem children_relisted (inside : e.LiesIn e.parentId)
    (listed : c.slot e.parentId (.ofEntry e) = some e.handle) :
    ((c.dropFromIndexes e).addToIndexes e).children = c.children := by
  obtain ⟨siblings, found, own⟩ := Option.bind_eq_some_iff.mp listed
  have left : (c.dropFromIndexes e).children[e.parentId]?.getD ∅ = siblings.erase (.ofEntry e) := by
    simp only [dropFromIndexes, found]
    split
    · rename_i alone
      have nothing : siblings.erase (.ofEntry e) = ∅ :=
        Std.ExtTreeMap.isEmpty_iff.mp (by simpa using alone)
      simp [nothing]
    · simp
  have whole : (siblings.erase (.ofEntry e)).insert (.ofEntry e) e.handle = siblings := by
    apply Std.ExtTreeMap.ext_getElem?
    intro place
    rw [Std.ExtTreeMap.getElem?_insert, Std.ExtTreeMap.getElem?_erase]
    simp only [Std.LawfulEqCmp.compare_eq_iff_eq]
    split
    · rename_i same
      rw [← same, own]
    · rfl
  have shown : (e.isRoot || e.isDeleted) = false := by simp [inside.1, inside.2.1]
  apply Std.ExtTreeMap.ext_getElem?
  intro parent
  simp only [addToIndexes, shown, Bool.false_eq_true, ↓reduceIte, left, whole]
  rw [Std.ExtTreeMap.getElem?_insert]
  simp only [Std.LawfulEqCmp.compare_eq_iff_eq]
  split
  · rename_i same
    rw [← same, found]
  · rename_i other
    simp only [dropFromIndexes, found]
    split
    · rw [Std.ExtTreeMap.getElem?_erase, if_neg (by simpa using other)]
    · rw [Std.ExtTreeMap.getElem?_insert, if_neg (by simpa using other)]

theorem tags_retagged (held : ∀ tag, e.uniqueTag = some tag → c.tags[tag]? = some e.handle) :
    ((c.dropFromIndexes e).addToIndexes e).tags = c.tags := by
  apply Std.ExtTreeMap.ext_getElem?
  intro tag
  rw [tags_addToIndexes, tags_dropFromIndexes]
  by_cases own : e.uniqueTag = some tag
  · simp [own, held tag own]
  · simp [own]

/-- An entry that is written as it is leaves everything as it is, if its tag leads to it. -/
theorem WellFormed.modify_same (wf : WellFormed c) {h : Handle} {change : Entry → Entry}
    (known : c.byHandle h = some e) (inside : e.LiesIn e.parentId)
    (held : ∀ tag, e.uniqueTag = some tag → c.tags[tag]? = some h)
    (same : changed e change = e) : c.modify h change = c := by
  have named := wf.handles h e known
  have listed : c.slot e.parentId (.ofEntry e) = some e.handle :=
    (wf.slots _ _ _).mpr ⟨e, named.symm ▸ known, inside, rfl⟩
  have entries : c.entries.insert h e = c.entries := by
    apply Std.ExtTreeMap.ext_getElem?
    intro k
    rw [Std.ExtTreeMap.getElem?_insert]
    simp only [Std.LawfulEqCmp.compare_eq_iff_eq]
    split
    · rename_i here
      exact here ▸ known.symm
    · rfl
  rw [modify_eq change known, same]
  calc
    _ = { c with
          entries := c.entries.insert h e
          children := ((c.dropFromIndexes e).addToIndexes e).children
          tags := ((c.dropFromIndexes e).addToIndexes e).tags } := rfl
    _ = c := by
      rw [entries, children_relisted inside listed, tags_retagged (named.symm ▸ held)]

end Rewritten

/-! ## What does not change for a node that has moved -/

/-- A climb that looks for an entry never reads it. -/
theorem Climbs.congr {c after : Contents} {ancestor : EntryId}
    (same : ∀ id, id ≠ ancestor → after.byId id = c.byId id) {passed : List EntryId}
    {id : EntryId} {answer : Bool} (climbs : c.Climbs ancestor passed id answer) :
    after.Climbs ancestor passed id answer := by
  induction climbs with
  | met => exact .met
  | top apart => exact .top apart
  | again apart inner seen => exact .again apart inner seen
  | lost apart inner new unknown => exact .lost apart inner new ((same _ apart).trans unknown)
  | up apart inner new found above ih => exact .up apart inner new ((same _ apart).trans found) ih

/-- The position of a node is computed from the other siblings alone. -/
theorem upperOrdinal_eq_others (c : Contents) (parent : EntryId) (lower : Option Place)
    (node : Handle) :
    c.upperOrdinal parent lower (some node) =
      (((c.others parent node).filter fun slot => lower.all fun key => key < slot.1).map
        (·.1.ordinal)).find? fun ordinal => lower.all fun key => key.ordinal < ordinal := by
  rw [upperOrdinal, others, List.filter_filter]
  congr 3
  funext slot
  by_cases same : slot.2 = node <;> simp [same]

section Changed
variable {c : Contents} (wf : WellFormed c) {node : Handle} (change : Entry → Entry)
include wf

theorem WellFormed.isAtOrAbove_modify {e : Entry} (known : c.byHandle node = some e)
    (id : EntryId) : (c.modify node change).isAtOrAbove e.id id = c.isAtOrAbove e.id id := by
  apply (wf.modify node change).climbs_iff.mp
  refine (wf.climbs_iff.mpr rfl).congr fun other apart => ?_
  rw [wf.byId_modify change known, if_neg apart.symm]

theorem WellFormed.others_modify (parent : EntryId) :
    (c.modify node change).others parent node = c.others parent node := by
  apply eq_of_sorted (others_sorted _ parent node) (others_sorted c parent node)
  rintro ⟨place, k⟩
  rw [mem_others, mem_others, (wf.modify node change).mem_places, wf.mem_places]
  refine and_congr_left fun apart => ?_
  rw [byHandle_modify, if_neg (Ne.symm apart)]

theorem WellFormed.ordinalFollowing_modify (parent : EntryId) {predecessor : Option Handle}
    (apart : ∀ p ∈ predecessor, p ≠ node) :
    (c.modify node change).ordinalFollowing parent predecessor (some node) =
      c.ordinalFollowing parent predecessor (some node) := by
  have lower : (c.modify node change).lowerPlace predecessor = c.lowerPlace predecessor := by
    cases predecessor with
    | none => rfl
    | some p =>
      have other : ¬ node = p := (apart p rfl).symm
      simp [lowerPlace, byHandle_modify, other]
  simp only [ordinalFollowing, lower, upperOrdinal_eq_others, wf.others_modify]

end Changed

/-! ## The second move -/

section Moved
variable {c : Contents} {node parent : Handle} {predecessor : Option Handle} {e p : Entry}

/-- An entry that is put into a folder at a position. -/
def putAt (parentId : EntryId) (ordinal : Ordinal) (e : Entry) : Entry :=
  { e with parentId, ordinal, isUnsynced := true }

theorem changed_putAt (inner : e.isRoot = false) (parentId : EntryId) (ordinal : Ordinal) :
    changed e (putAt parentId ordinal) = putAt parentId ordinal e :=
  changed_of_inner inner _

variable (wf : WellFormed c) (moves : c.Moves node parent predecessor e p)
include wf moves

/-- No node is put into itself. -/
theorem Moves.parent_ne : parent ≠ node := by
  rintro rfl
  obtain rfl : e = p := Option.some.inj (moves.nodeKnown.symm.trans moves.parentKnown)
  have itself : c.isAtOrAbove e.id e.id = true := wf.isAtOrAbove_eq_true_iff.mpr (.inl .refl)
  cases itself.symm.trans moves.outside

theorem Moves.isRoot_eq_false (inner : node ≠ rootHandle) : e.isRoot = false :=
  Bool.eq_false_iff.mpr fun root => inner ((wf.isRoot_iff moves.nodeKnown).mp root)

/-- A node that was put in its place is not refused there, and would be put there again. -/
theorem Moves.placement_again (inner : node ≠ rootHandle) :
    let position := c.ordinalFollowing p.id predecessor (some node)
    let moved := c.modify node (putAt p.id position)
    Transaction.placement moved node parent predecessor =
      .ok (if moved.predecessor node = predecessor then .stay else .place p.id position) := by
  intro position moved
  have others (k : Handle) (apart : k ≠ node) : moved.byHandle k = c.byHandle k := by
    rw [byHandle_modify, if_neg apart.symm]
  have itself : moved.byHandle node = some (putAt p.id position e) := by
    rw [byHandle_modify, if_pos rfl, moves.nodeKnown, Option.map_some,
      changed_putAt (moves.isRoot_eq_false wf inner)]
  have nodeFound : moved.live node = .ok (putAt p.id position e) :=
    live_eq_ok_iff.mpr ⟨itself, moves.nodeLive⟩
  have parentFound : moved.live parent = .ok p :=
    live_eq_ok_iff.mpr ⟨(others parent (moves.parent_ne wf)).trans moves.parentKnown,
      moves.parentLive⟩
  have apart : ∀ q ∈ predecessor, q ≠ node :=
    fun q given same => (moves.follows q given).2 (congrArg some same)
  have follows : moved.checkFollows p predecessor (some node) = .ok () := by
    refine checkFollows_eq_ok_iff.mpr fun q given => ?_
    rw [others q (apart q given)]
    exact moves.follows q given
  have outside : moved.isAtOrAbove e.id p.id = false :=
    (wf.isAtOrAbove_modify _ moves.nodeKnown p.id).trans moves.outside
  rw [Transaction.placement_eq_ok nodeFound parentFound follows outside,
    wf.ordinalFollowing_modify _ p.id apart]
  simp only [putAt, true_and]
  rfl

end Moved

end Contents

namespace Transaction
open Contents

/-- An entry that was touched before and is written as it is leaves no trace. -/
theorem modify_same {t : Transaction} (wf : WellFormed t.contents) {h : Handle} {e : Entry}
    {change : Entry → Entry} (known : t.contents.byHandle h = some e)
    (inside : e.LiesIn e.parentId)
    (held : ∀ tag, e.uniqueTag = some tag → t.contents.tags[tag]? = some h)
    (same : changed e change = e) (touched : h ∈ t.preimages) : (t.modify h change).2 = t := by
  have remembered : t.preimages.insertIfNew h e = t.preimages := by
    apply Std.ExtTreeMap.ext_getElem?
    intro k
    rw [Std.ExtTreeMap.getElem?_insertIfNew, if_neg]
    rintro ⟨here, unseen⟩
    exact unseen (Std.LawfulEqCmp.compare_eq_iff_eq.mp here ▸ touched)
  simp only [modify, known, wf.modify_same known inside held same, remembered]

/-- Putting a live entry at one place twice is putting it there once. -/
theorem modify_putAt_again {t : Transaction} (reachable : t.contents.Reachable) {h : Handle}
    {e : Entry} (known : t.contents.byHandle h = some e) (live : e.isDeleted = false)
    (inner : e.isRoot = false) (parentId : EntryId) (ordinal : Ordinal) :
    ((t.modify h (putAt parentId ordinal)).2.modify h (putAt parentId ordinal)).2 =
      (t.modify h (putAt parentId ordinal)).2 := by
  have wf := reachable.wellFormed
  have put := changed_putAt inner parentId ordinal
  refine modify_same (e := putAt parentId ordinal e) ?wf ?known ⟨live, inner, rfl⟩ ?held
    (changed_putAt (e := putAt parentId ordinal e) inner parentId ordinal) ?touched
  case wf =>
    rw [contents_modify]
    exact wf.modify h _
  case known => rw [contents_modify, byHandle_modify, if_pos rfl, known, Option.map_some, put]
  case held =>
    intro tag own
    rw [contents_modify, tags_modify wf reachable.tagsSound _ known, put, if_pos own]
  case touched => simp [modify, known]

/-- Moving a node again to where it was just asked to be moved is answered as the first
time and changes nothing, also where the node stands behind others that share the
predecessor's position, so that the move is made once more. -/
theorem move_idempotent {t : Transaction} (reachable : t.contents.Reachable)
    {node : EditableNode} (obtained : node.Obtained) (parent : Handle)
    (predecessor : Option Handle) :
    (t.move node parent predecessor).2.move node parent predecessor =
      t.move node parent predecessor := by
  have wf := reachable.wellFormed
  rcases move_cases t node parent predecessor with
    ⟨refusal, refused⟩ | ⟨-, stays⟩ | ⟨e, p, moves, moved⟩
  · rw [refused]
    exact refused
  · rw [stays]
    exact stays
  · have inner := moves.isRoot_eq_false wf obtained.inner
    let position := t.contents.ordinalFollowing p.id predecessor (some node.handle)
    let put := (t.modify node.handle (putAt p.id position)).2
    have first : t.move node parent predecessor = (.ok (), put) := moved
    have again : placement put.contents node.handle parent predecessor =
        .ok (if put.contents.predecessor node.handle = predecessor then .stay
          else .place p.id position) := by
      rw [contents_modify]
      exact moves.placement_again wf obtained.inner
    have twice : (put.modify node.handle (putAt p.id position)).2 = put :=
      modify_putAt_again reachable moves.nodeKnown moves.nodeLive inner p.id position
    rw [first, move, again]
    by_cases stays : put.contents.predecessor node.handle = predecessor
    · rw [if_pos stays]
    · rw [if_neg stays]
      exact congrArg (Prod.mk _) twice

/-- Two siblings that share a position, and a third entry whose parent is missing. -/
def tiedAndLost : Contents :=
  ((initial.write (.insert ⟨"a"⟩ .root .initial)).write
    (.insert ⟨"b"⟩ .root .initial)).write (.insert ⟨"n"⟩ ⟨"gone"⟩ .initial)

/-- An edit of a directory that holds these. -/
def amongTied : Transaction := { writer := .embedder, contents := tiedAndLost }

/-- The node comes to stand behind both siblings. -/
theorem move_idempotent_tied :
    amongTied.contents.Reachable ∧ EditableNode.Obtained ⟨4⟩ ∧
      (amongTied.move ⟨4⟩ 1 (some 2)).1 = .ok () ∧
      (amongTied.move ⟨4⟩ 1 (some 2)).2.contents.predecessor 4 = some 3 ∧
      (amongTied.move ⟨4⟩ 1 (some 2)).2.move ⟨4⟩ 1 (some 2) = amongTied.move ⟨4⟩ 1 (some 2) := by
  have reachable : tiedAndLost.Reachable := ((Reachable.initial.write _).write _).write _
  have obtained : EditableNode.Obtained ⟨4⟩ := .byHandle (c := tiedAndLost) (h := 4) rfl
  exact ⟨reachable, obtained, rfl, by decide +kernel,
    move_idempotent (t := amongTied) reachable obtained 1 (some 2)⟩

end Transaction

end SharedTree
