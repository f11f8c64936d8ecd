import SharedTree.Proofs.LocalNudges
import SharedTree.Proofs.Placement
import SharedTree.Proofs.StoredNames
import SharedTree.Proofs.TagLookups
import SharedTree.Proofs.TouchedEntries

/-! What is set on a node. A setter looks at the field that it is about to write. Where the field
holds what it is to hold, nothing at all is done; and else the one entry is written, in that
field and, if the server is to know, in its mark. Neither the place of an entry nor its life
is set but by removing it, so that every folder lists what it listed, less the removed node
in its own folder. A node may well outlive its entry: a tombstone is set like any other. -/
namespace SharedTree

/-- What is set on a node, other than its place. -/
inductive Setting where
  | title (title : String)
  | url (url : String)
  | isFolder (isFolder : Bool)
  | favicon (favicon : List UInt8)
  | externalId (externalId : Int)
  | uniqueTag (uniqueTag : Option String)
  | removed
  deriving DecidableEq

namespace Setting
open Contents

/-- The edit that sets it on a node. -/
def toEdit (node : EditableNode) : Setting → NodeEdit
  | .title wanted => .setTitle node wanted
  | .url wanted => .setUrl node wanted
  | .isFolder wanted => .setIsFolder node wanted
  | .favicon wanted => .setFavicon node wanted
  | .externalId wanted => .setExternalId node wanted
  | .uniqueTag wanted => .setUniqueTag node wanted
  | .removed => .remove node

/-- An entry is stored so already; a title is stored as a name. -/
def holds : Setting → Entry → Bool
  | .title wanted, e => e.transportName = TransportName.ofTitle wanted
  | .url wanted, e => e.url = wanted
  | .isFolder wanted, e => e.isFolder = wanted
  | .favicon wanted, e => e.favicon = wanted
  | .externalId wanted, e => e.externalId = wanted
  | .uniqueTag wanted, e => e.uniqueTag = wanted
  | .removed, e => e.isDeleted

/-- An entry with this field as it is set, and all others as they were. -/
def put : Setting → Entry → Entry
  | .title wanted, e => { e with transportName := TransportName.ofTitle wanted }
  | .url wanted, e => { e with url := wanted }
  | .isFolder wanted, e => { e with isFolder := wanted }
  | .favicon wanted, e => { e with favicon := wanted }
  | .externalId wanted, e => { e with externalId := wanted }
  | .uniqueTag wanted, e => { e with uniqueTag := wanted }
  | .removed, e => { e with isDeleted := true }

/-- The embedder's own number and the tag are not marked for the server. -/
def isForServer : Setting → Bool
  | .externalId _ | .uniqueTag _ => false
  | .title _ | .url _ | .isFolder _ | .favicon _ | .removed => true

/-- The entry that a setter stores. -/
def written (s : Setting) (e : Entry) : Entry :=
  { s.put e with isUnsynced := s.isForServer || e.isUnsynced }

/-- It is what is read off the node. -/
def ReadsBack (c : Contents) (h : Handle) : Setting → Prop
  | .title wanted => c.title h = wanted
  | .url wanted => c.url h = wanted
  | .isFolder wanted => c.isFolder h = wanted
  | .favicon wanted => c.favicon h = wanted
  | .externalId wanted => c.externalId h = wanted
  | .uniqueTag wanted => c.tagOf h = wanted
  | .removed => c.readD h (·.isDeleted) false = true

/-! ## The entry that is stored -/

/-- What is tested for is what is written. -/
theorem holds_written (s : Setting) (e : Entry) : s.holds (s.written e) = true := by
  cases s <;> simp [holds, written, put]

theorem changed_written (s : Setting) {e : Entry} (inner : e.isRoot = false) :
    changed e s.written = s.written e := by
  rw [changed_of_inner inner]
  cases s <;> rfl

theorem ofEntry_written (s : Setting) (e : Entry) : Place.ofEntry (s.written e) = .ofEntry e := by
  cases s <;> rfl

/-- An entry stays in its folder unless it is removed. -/
theorem liesIn_written {s : Setting} {e : Entry} {parent : EntryId} :
    (s.written e).LiesIn parent ↔ s ≠ .removed ∧ e.LiesIn parent := by
  cases s <;> simp [Entry.LiesIn, Entry.isRoot, written, put]

theorem readsBack_of_holds {s : Setting} {c : Contents} {h : Handle} {e : Entry}
    (known : c.byHandle h = some e) (holds : s.holds e = true) : s.ReadsBack c h := by
  cases s with
  | title wanted =>
    have stored : e.transportName = TransportName.ofTitle wanted := of_decide_eq_true holds
    simp [ReadsBack, Contents.title, readD, known, stored, TransportName.toTitle_ofTitle]
  | url | isFolder | favicon | externalId =>
    simpa [ReadsBack, Contents.url, Contents.isFolder, Contents.favicon, Contents.externalId,
      readD, known] using of_decide_eq_true holds
  | uniqueTag => simpa [ReadsBack, tagOf, known] using of_decide_eq_true holds
  | removed =>
    have gone : e.isDeleted = true := holds
    simp [ReadsBack, readD, known, gone]

end Setting

/-! ## The folders -/

namespace Contents

section Written
variable {c after : Contents} {node : Handle} {e : Entry} {s : Setting} {parent : EntryId}
  (wf : WellFormed c) (wfAfter : WellFormed after) (known : c.byHandle node = some e)
  (there : after.byHandle node = some (s.written e))
  (kept : ∀ k, k ≠ node → after.byHandle k = c.byHandle k)
include wf wfAfter known there kept

theorem places_written (alive : s ≠ .removed) : after.places parent = c.places parent := by
  apply eq_of_sorted (places_sorted after parent) (places_sorted c parent)
  rintro ⟨place, k⟩
  rw [wf.mem_places, wfAfter.mem_places]
  by_cases same : k = node
  · subst same
    simp [there, known, Setting.liesIn_written, Setting.ofEntry_written, alive]
  · rw [kept k same]

/-- A setter leaves every listing as it is, but for that of the folder from which it
removes the node. -/
theorem childList_written :
    after.childList parent =
      if s = .removed ∧ parent = e.parentId then (c.childList parent).erase node
      else c.childList parent := by
  by_cases gone : s = .removed
  · have outside : ¬ (s.written e).LiesIn parent :=
      fun inside => (Setting.liesIn_written.mp inside).1 gone
    rw [childList_elsewhere wf wfAfter there kept outside]
    by_cases own : parent = e.parentId
    · rw [if_pos ⟨gone, own⟩]
    · rw [if_neg fun both => own both.2]
      apply List.erase_of_not_mem
      rw [wf.mem_childList_iff known]
      exact fun inside => own inside.2.2.symm
  · rw [if_neg fun both => gone both.1, childList, childList,
      places_written wf wfAfter known there kept gone]

end Written

end Contents

namespace Transaction
open Contents

/-! ## The nodes of a transaction -/

/-- The nodes that callers come to hold in a transaction: they were bound or created at
some moment of it, whatever was written since, be it to their own entries. -/
inductive Has : Transaction → EditableNode → Prop where
  | byHandle {t : Transaction} {h : Handle} {node : EditableNode}
      (reachable : t.contents.Reachable) (bound : t.contents.editable? h = some node) : t.Has node
  | byTag {t : Transaction} {tag : String} {node : EditableNode}
      (reachable : t.contents.Reachable) (bound : t.contents.editableByTag? tag = some node) :
      t.Has node
  | created {t : Transaction} {fresh : EntryId} {parent : Handle} {predecessor : Option Handle}
      {node : EditableNode} (reachable : t.contents.Reachable)
      (made : (t.createNode fresh parent predecessor).1 = .ok node) :
      (t.createNode fresh parent predecessor).2.Has node
  | written {t : Transaction} {node : EditableNode} (has : t.Has node) (w : Write) :
      (t.write w).Has node

namespace Has
variable {t : Transaction} {node : EditableNode}

theorem reachable (has : t.Has node) : t.contents.Reachable := by
  induction has with
  | byHandle reachable | byTag reachable => exact reachable
  | @created t fresh parent predecessor _ reachable =>
    exact (t.edit_step (.create fresh parent predecessor)).reachable reachable
  | @written t _ _ w ih => exact t.contents_write w ▸ ih.write w

theorem inner (has : t.Has node) : node.handle ≠ rootHandle := by
  induction has with
  | byHandle _ bound => exact (EditableNode.Obtained.byHandle bound).inner
  | byTag _ bound => exact (EditableNode.Obtained.byTag bound).inner
  | created reachable made => exact (EditableNode.Obtained.created reachable made).inner
  | written _ _ ih => exact ih

/-- The entry of a node is there, though it may be a tombstone. -/
theorem known (has : t.Has node) : t.contents.byHandle node.handle ≠ none := by
  induction has with
  | byHandle reachable bound =>
    obtain ⟨e, known, -⟩ := reachable.wellFormed.editable?_live bound
    simp [known]
  | byTag reachable bound =>
    obtain ⟨h, bound⟩ := editableByTag?_editable bound
    obtain ⟨e, known, -⟩ := reachable.wellFormed.editable?_live bound
    simp [known]
  | @created t fresh parent predecessor _ reachable made =>
    rcases t.createNode_cases fresh parent predecessor with
      ⟨refusal, refused⟩ | ⟨p, creates, created⟩
    · rw [refused] at made
      cases made
    · rw [created] at made ⊢
      cases made
      simp [contents_insertFresh _ _ creates.free, byHandle_modify, byHandle_inserted]
  | @written t _ _ w ih =>
    rw [contents_write]
    exact byHandle_write_ne_none w ih

/-- The entry of a node is an entry other than the root. -/
theorem entry (has : t.Has node) :
    ∃ e, t.contents.byHandle node.handle = some e ∧ e.isRoot = false := by
  obtain ⟨e, known⟩ := Option.ne_none_iff_exists'.mp has.known
  refine ⟨e, known, ?_⟩
  rw [Bool.eq_false_iff, ne_eq, has.reachable.wellFormed.isRoot_iff known]
  exact has.inner

end Has

/-! ## One setter -/

/-- Each setter is a test of its field and a write to it. -/
theorem edit_toEdit (t : Transaction) (node : EditableNode) (s : Setting) :
    t.edit (s.toEdit node) =
      if t.contents.readD node.handle s.holds true then t
      else (t.modify node.handle s.written).2 := by
  cases s <;> rfl

/-- One entry is written, and nothing else comes of it. -/
structure WritesOnly (t after : Transaction) (h : Handle) (before e : Entry) : Prop where
  entry : after.contents.byHandle h = some e
  others : ∀ k, k ≠ h → after.contents.byHandle k = t.contents.byHandle k
  ids : after.contents.ids = t.contents.ids
  /-- The entry is found by its tag, and no longer by one that it gave away. -/
  tags : ∀ tag, after.contents.tags[tag]? =
    if e.uniqueTag = some tag then some h
    else if t.contents.tags[tag]? = some h then none else t.contents.tags[tag]?
  nextHandle : after.contents.nextHandle = t.contents.nextHandle
  firstSyncDone : after.contents.firstSyncDone = t.contents.firstSyncDone
  writer : after.writer = t.writer
  touched : ∀ k, k ∈ after.touched ↔ k ∈ t.touched ∨ k = h
  preimages : ∀ k, after.preimages[k]? =
    if h = k ∧ t.preimages[k]? = none then some before else t.preimages[k]?

theorem modify_writesOnly {t : Transaction} (reachable : t.contents.Reachable) {h : Handle}
    {before : Entry} (change : Entry → Entry) (known : t.contents.byHandle h = some before) :
    t.WritesOnly (t.modify h change).2 h before (changed before change) := by
  have remembered (k : Handle) : (t.modify h change).2.preimages[k]? =
      if h = k ∧ t.preimages[k]? = none then some before else t.preimages[k]? := by
    rcases write_remembers reachable.wellFormed (t := t) (.modify h change) with
      ⟨untouched, -, -⟩ | ⟨e, -, made, -⟩ | ⟨_, _, touched, -, found, remembered⟩
    · simp [touches?, modify, known] at untouched
    · cases made
    · simp only [touches?, modify, known, ↓reduceIte, Option.some.injEq] at touched
      subst touched
      cases known.symm.trans found
      exact remembered k
  constructor
  case entry => rw [contents_modify, byHandle_modify, if_pos rfl, known, Option.map_some]
  case others =>
    intro k other
    rw [contents_modify, byHandle_modify, if_neg other.symm]
  case ids => rw [contents_modify, ids_modify]
  case tags =>
    intro tag
    rw [contents_modify, tags_modify reachable.wellFormed reachable.tagsSound change known]
  case nextHandle => rw [contents_modify, nextHandle_modify]
  case firstSyncDone =>
    rw [contents_modify, modify_eq change known]
    rfl
  case writer => exact t.writer_write (.modify h change)
  case touched =>
    intro k
    rw [mem_touched_iff, remembered, mem_touched_iff]
    by_cases same : h = k
    · cases t.preimages[k]? <;> simp [same]
    · simp [same, Ne.symm same]
  case preimages => exact remembered

/-- What a setter does to the entry of its node. -/
theorem edit_toEdit_of_known {t : Transaction} {node : EditableNode} {e : Entry}
    (known : t.contents.byHandle node.handle = some e) (s : Setting) :
    t.edit (s.toEdit node) = if s.holds e then t else (t.modify node.handle s.written).2 := by
  rw [edit_toEdit, readD, known, Option.elim_some]

/-- A setter does what it says and nothing else, also to the node of a tombstone. -/
theorem edit_toEdit_exact {t : Transaction} {node : EditableNode} (has : t.Has node)
    (s : Setting) :
    ∃ e, t.contents.byHandle node.handle = some e ∧
      (s.holds e = true → t.edit (s.toEdit node) = t) ∧
      (s.holds e = false →
        t.WritesOnly (t.edit (s.toEdit node)) node.handle e (s.written e)) ∧
      s.ReadsBack (t.edit (s.toEdit node)).contents node.handle ∧
      ∀ parent, (t.edit (s.toEdit node)).contents.childList parent =
        if s = .removed ∧ parent = e.parentId
        then (t.contents.childList parent).erase node.handle
        else t.contents.childList parent := by
  obtain ⟨e, known, inner⟩ := has.entry
  have wf := has.reachable.wellFormed
  refine ⟨e, known, ?_⟩
  rw [edit_toEdit_of_known known]
  cases holds : s.holds e with
  | true =>
    rw [if_pos rfl]
    refine ⟨fun _ => rfl, by simp, Setting.readsBack_of_holds known holds, fun parent => ?_⟩
    split
    · rename_i again
      -- what was removed before is not listed any more
      rw [again.1] at holds
      have gone : e.isDeleted = true := holds
      rw [List.erase_of_not_mem]
      simp [wf.mem_childList_iff known, Entry.LiesIn, gone]
    · rfl
  | false =>
    rw [if_neg Bool.false_ne_true]
    have writes := modify_writesOnly has.reachable s.written known
    rw [Setting.changed_written s inner] at writes
    refine ⟨by simp, fun _ => writes,
      Setting.readsBack_of_holds writes.entry (s.holds_written e), fun parent => ?_⟩
    have wfAfter : WellFormed (t.modify node.handle s.written).2.contents :=
      t.contents_modify node.handle s.written ▸ wf.modify node.handle s.written
    exact childList_written wf wfAfter known writes.entry writes.others

/-- A node whose entry was removed after the node had been bound. -/
def outlived : Transaction := amongTwins.write (.modify 2 fun e => { e with isDeleted := true })

theorem edit_toEdit_exact_outlived :
    (amongTwins.Has ⟨2⟩ ∧ twins.childList .root = [3, 2] ∧
      (amongTwins.remove ⟨2⟩).contents.childList .root = [3] ∧
      2 ∈ (amongTwins.remove ⟨2⟩).touched) ∧
    outlived.Has ⟨2⟩ ∧ outlived.contents.node? 2 = none ∧ outlived.remove ⟨2⟩ = outlived ∧
      (outlived.setTitle ⟨2⟩ "..").contents.title 2 = ".." ∧
      (outlived.setTitle ⟨2⟩ "..").contents.childList .root = [3] := by
  have bound : amongTwins.Has ⟨2⟩ := .byHandle (h := 2) twins_reachable (by decide)
  have has : outlived.Has ⟨2⟩ := bound.written _
  obtain ⟨e, known, -, writes, -, lists⟩ := edit_toEdit_exact bound .removed
  obtain ⟨tomb, found, idle, -⟩ := edit_toEdit_exact has .removed
  obtain ⟨_, -, -, -, title, listed⟩ := edit_toEdit_exact has (.title "..")
  cases (show some (Entry.create 2 ⟨"b"⟩ .root .initial) = some e from known)
  cases (show some { Entry.create 2 ⟨"b"⟩ .root .initial with isDeleted := true } = some tomb
    from found)
  refine ⟨⟨bound, by decide, ?_, ?_⟩, has, by decide, idle rfl, title, ?_⟩
  · exact (lists .root).trans (by decide)
  · exact ((writes rfl).touched 2).mpr (.inr rfl)
  · exact (listed .root).trans ((if_neg fun both => nomatch both.1).trans (by decide))

end Transaction

end SharedTree
