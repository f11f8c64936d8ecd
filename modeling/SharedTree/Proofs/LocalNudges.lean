import SharedTree.Client.Commit
import SharedTree.Proofs.NodeEdits

/-! When a local edit is heard of. A transaction of the embedder makes the syncer be nudged
once if it altered something that the server is to know of in an entry that can be seen and
was there, or if an entry that it created is still there; what asks for nothing new, what
is refused, what only the embedder keeps, and what came and went leave no trace outside.
The mark on an entry tells of the first two: it is set by every edit that alters something,
and nothing takes it back. -/
namespace SharedTree

namespace NodeEdit

/-- The node that an edit changes; a creation changes none. -/
def node? : NodeEdit → Option EditableNode
  | .create .. => none
  | .move node .. | .setTitle node _ | .setUrl node _ | .setIsFolder node _
  | .setFavicon node _ | .setExternalId node _ | .setUniqueTag node _ | .remove node => some node

/-- What an edit asks for of an entry that the server is to know of, other than its
place. -/
def asks? : NodeEdit → Option (EditableNode × (Entry → Bool))
  | .setTitle node title => some (node, (·.transportName = TransportName.ofTitle title))
  | .setUrl node url => some (node, (·.url = url))
  | .setIsFolder node isFolder => some (node, (·.isFolder = isFolder))
  | .setFavicon node favicon => some (node, (·.favicon = favicon))
  | .remove node => some (node, (·.isDeleted))
  | .create .. | .move .. | .setExternalId .. | .setUniqueTag .. => none

/-- The server is to know of what the edit does to an entry that is there. -/
def isForServer : NodeEdit → Bool
  | .move .. | .setTitle .. | .setUrl .. | .setIsFolder .. | .setFavicon .. | .remove .. => true
  | .create .. | .setExternalId .. | .setUniqueTag .. => false

end NodeEdit

namespace Contents

theorem readD_eq_false_iff {c : Contents} {h : Handle} {read : Entry → Bool} :
    c.readD h read true = false ↔ ∃ e, c.byHandle h = some e ∧ read e = false := by
  unfold readD
  cases c.byHandle h <;> simp

/-- A node that can be changed is bound to a live entry. -/
theorem editableHandle_live {found : Option Entry} {node : EditableNode}
    (bound : (editableHandle found).map .mk = some node) :
    ∃ e, found = some e ∧ e.isDeleted = false ∧ e.handle = node.handle := by
  obtain ⟨h, kept, rfl⟩ := Option.map_eq_some_iff.mp bound
  have live := (Option.filter_eq_some_iff.mp kept).1
  unfold liveHandle at live
  split at live
  · rename_i e
    split at live
    · cases live
    · rename_i life
      cases live
      exact ⟨e, rfl, Bool.eq_false_iff.mpr life, rfl⟩
  · cases live

/-- A node that was just bound finds a live entry. -/
theorem WellFormed.editable?_live {c : Contents} (wf : WellFormed c) {h : Handle}
    {node : EditableNode} (bound : c.editable? h = some node) :
    ∃ e, c.byHandle node.handle = some e ∧ e.isDeleted = false := by
  obtain ⟨e, known, alive, named⟩ := editableHandle_live bound
  exact ⟨e, by rw [← named, wf.handles h e known, known], alive⟩

/-- What is bound by a tag could have been bound by the handle that the tag leads to. -/
theorem editableByTag?_editable {c : Contents} {tag : String} {node : EditableNode}
    (bound : c.editableByTag? tag = some node) : ∃ h, c.editable? h = some node := by
  unfold editableByTag? at bound
  split at bound
  · cases bound
  · obtain ⟨e, found, -⟩ := editableHandle_live bound
    obtain ⟨h, -, known⟩ := Option.bind_eq_some_iff.mp found
    rw [found, ← known] at bound
    exact ⟨h, bound⟩

/-- A node that a move puts elsewhere is not in its place. -/
theorem Moves.not_inPlace {c : Contents} {node parent : Handle} {predecessor : Option Handle}
    {e p : Entry} (moves : c.Moves node parent predecessor e p) :
    ¬ c.InPlace node parent predecessor := by
  rintro ⟨_, _, known, parentKnown, here⟩
  cases moves.nodeKnown.symm.trans known
  cases moves.parentKnown.symm.trans parentKnown
  exact moves.elsewhere here

end Contents

namespace Transaction
open Contents

/-- An edit that is granted, and asks for something of an entry that the server is to know
of and that is not so yet. A node that is moved is not where it is wanted if it does not
come right after its new predecessor. -/
inductive Alters (t : Transaction) : NodeEdit → Handle → Prop where
  | value {next : NodeEdit} {node : EditableNode} {granted : Entry → Bool} {e : Entry}
      (asks : next.asks? = some (node, granted)) (known : t.contents.byHandle node.handle = some e)
      (lacking : granted e = false) : Alters t next node.handle
  | place {node : EditableNode} {parent : Handle} {predecessor : Option Handle} {e p : Entry}
      (moves : t.contents.Moves node.handle parent predecessor e p) :
      Alters t (.move node parent predecessor) node.handle

/-- One of the edits altered an entry. -/
def Altered (t : Transaction) : List NodeEdit → Handle → Prop
  | [], _ => False
  | next :: later, h => t.Alters next h ∨ (t.edit next).Altered later h

/-- The nodes that a caller holds after some edits of a transaction: those that were bound
at some moment of it, and those that were created in it. -/
inductive Holds (opening : Transaction) (edits : List NodeEdit) (node : EditableNode) : Prop where
  | byHandle {earlier later : List NodeEdit} {h : Handle} (whole : edits = earlier ++ later)
      (bound : (earlier.foldl edit opening).contents.editable? h = some node) :
      Holds opening edits node
  | byTag {earlier later : List NodeEdit} {tag : String} (whole : edits = earlier ++ later)
      (bound : (earlier.foldl edit opening).contents.editableByTag? tag = some node) :
      Holds opening edits node
  | created {earlier later : List NodeEdit} {fresh : EntryId} {parent : Handle}
      {predecessor : Option Handle}
      (whole : edits = earlier ++ .create fresh parent predecessor :: later)
      (made : ((earlier.foldl edit opening).createNode fresh parent predecessor).1 = .ok node) :
      Holds opening edits node

/-- The edits that a caller can make in a transaction, each through a node held by then. -/
inductive Makes (opening : Transaction) : List NodeEdit → Prop where
  | nothing : Makes opening []
  | next {edits : List NodeEdit} {next : NodeEdit} (past : Makes opening edits)
      (held : ∀ node ∈ next.node?, opening.Holds edits node) : Makes opening (edits ++ [next])

/-! ## One edit -/

theorem alters_iff_of_asks {t : Transaction} {next : NodeEdit} {node : EditableNode}
    {granted : Entry → Bool} (asks : next.asks? = some (node, granted)) {h : Handle} :
    t.Alters next h ↔ h = node.handle ∧ t.contents.readD node.handle granted true = false := by
  rw [readD_eq_false_iff]
  constructor
  · rintro (⟨same, known, lacking⟩ | moves)
    · cases asks.symm.trans same
      exact ⟨rfl, _, known, lacking⟩
    · cases asks
  · rintro ⟨rfl, e, known, lacking⟩
    exact .value asks known lacking

theorem alters_move_iff {t : Transaction} {node : EditableNode} {parent : Handle}
    {predecessor : Option Handle} {h : Handle} :
    t.Alters (.move node parent predecessor) h ↔
      ∃ e p, h = node.handle ∧ t.contents.Moves node.handle parent predecessor e p := by
  constructor
  · rintro (⟨⟨⟩⟩ | moves)
    exact ⟨_, _, rfl, moves⟩
  · rintro ⟨e, p, rfl, moves⟩
    exact .place moves

theorem Alters.isForServer {t : Transaction} {next : NodeEdit} {h : Handle}
    (alters : t.Alters next h) : next.isForServer = true := by
  cases alters with
  | value asks => cases next <;> cases asks <;> rfl
  | place => rfl

/-- What an edit does to the marks: an entry that is rewritten is marked if the edit
alters it, and stays marked if it was. -/
inductive Marks (t : Transaction) (next : NodeEdit) : Transaction → Prop where
  | nothing (idle : ∀ h, ¬ t.Alters next h) : Marks t next t
  | created {fresh : EntryId} {parent : Handle} {predecessor : Option Handle} {p : Entry}
      (idle : ∀ h, ¬ t.Alters next h) (creates : t.contents.Creates fresh parent predecessor p) :
      Marks t next (((t.insertFresh fresh p.id
        (t.contents.ordinalFollowing p.id predecessor none)).2.modify t.contents.nextHandle
          fun e => { e with isUnsynced := true }).2)
  | rewritten {h : Handle} {change : Entry → Entry} (only : ∀ k, t.Alters next k → k = h)
      (effective : next.isForServer = true → t.Alters next h)
      (marks : ∀ e, (change e).isUnsynced = true ↔ e.isUnsynced = true ∨ t.Alters next h)
      (shows : ∀ e, (change e).isShown = e.isShown)
      (removed : ∀ e, e.isDeleted = true → (change e).isDeleted = true) :
      Marks t next (t.modify h change).2

private theorem store_marks {t : Transaction} {next : NodeEdit} {node : EditableNode}
    {unchanged : Entry → Bool} {change : Entry → Entry}
    (asks : next.asks? = some (node, unchanged))
    (shows : ∀ e, (change e).isShown = e.isShown)
    (removed : ∀ e, e.isDeleted = true → (change e).isDeleted = true) :
    t.Marks next (t.store node unchanged change) := by
  unfold store
  split
  · rename_i granted
    refine .nothing fun h alters => ?_
    cases granted.symm.trans ((alters_iff_of_asks asks).mp alters).2
  · rename_i lacking
    have alters := (alters_iff_of_asks asks).mpr ⟨rfl, Bool.eq_false_iff.mpr lacking⟩
    exact .rewritten (fun k altered => ((alters_iff_of_asks asks).mp altered).1)
      (fun _ => alters) (fun _ => by simp [alters]) shows removed

private theorem storeLocally_marks {t : Transaction} {next : NodeEdit} (node : EditableNode)
    (unchanged : Entry → Bool) {change : Entry → Entry} (idle : ∀ h, ¬ t.Alters next h)
    (kept : next.isForServer = false)
    (marks : ∀ e, (change e).isUnsynced = e.isUnsynced)
    (shows : ∀ e, (change e).isShown = e.isShown)
    (removed : ∀ e, e.isDeleted = true → (change e).isDeleted = true) :
    t.Marks next (t.storeLocally node unchanged change) := by
  unfold storeLocally
  split
  · exact .nothing idle
  · exact .rewritten (fun k altered => absurd altered (idle k)) (fun told => by simp [kept] at told)
      (fun e => by simp [marks, idle]) shows removed

theorem edit_marks (t : Transaction) (next : NodeEdit) : t.Marks next (t.edit next) := by
  cases next with
  | create fresh parent predecessor =>
    have idle (h : Handle) : ¬ t.Alters (.create fresh parent predecessor) h := by
      rintro ⟨⟨⟩⟩
    change t.Marks _ (t.createNode fresh parent predecessor).2
    rcases t.createNode_cases fresh parent predecessor with
      ⟨refusal, refused⟩ | ⟨p, creates, made⟩
    · exact refused ▸ .nothing idle
    · exact made ▸ .created idle creates
  | move node parent predecessor =>
    change t.Marks _ (t.move node parent predecessor).2
    rcases t.move_cases node parent predecessor with
      ⟨refusal, refused⟩ | ⟨here, stays⟩ | ⟨e, p, moves, moved⟩
    · rw [refused]
      refine .nothing fun h alters => ?_
      obtain ⟨_, _, rfl, moves⟩ := alters_move_iff.mp alters
      cases refused.symm.trans (move_eq_of_moves moves)
    · rw [stays]
      refine .nothing fun h alters => ?_
      obtain ⟨_, _, rfl, moves⟩ := alters_move_iff.mp alters
      exact moves.not_inPlace here
    · rw [moved]
      have alters : t.Alters (.move node parent predecessor) node.handle := .place moves
      refine .rewritten (fun k altered => ?_) (fun _ => alters) (fun _ => by simp [alters])
        (fun _ => rfl) fun _ => id
      obtain ⟨_, _, same, -⟩ := alters_move_iff.mp altered
      exact same
  | setTitle node title => exact store_marks rfl (fun _ => rfl) fun _ => id
  | setUrl node url => exact store_marks rfl (fun _ => rfl) fun _ => id
  | setIsFolder node isFolder => exact store_marks rfl (fun _ => rfl) fun _ => id
  | setFavicon node favicon => exact store_marks rfl (fun _ => rfl) fun _ => id
  | setExternalId node externalId =>
    exact storeLocally_marks node _ (by rintro h ⟨⟨⟩⟩) rfl (fun _ => rfl) (fun _ => rfl) fun _ => id
  | setUniqueTag node uniqueTag =>
    exact storeLocally_marks node _ (by rintro h ⟨⟨⟩⟩) rfl (fun _ => rfl) (fun _ => rfl) fun _ => id
  | remove node => exact store_marks rfl (fun _ => rfl) fun _ _ => rfl

/-! ## One entry -/

/-- What is created takes the place of nothing. -/
theorem byHandle_created {t : Transaction} (wf : WellFormed t.contents) {fresh parentId : EntryId}
    {ordinal : Ordinal} {change : Entry → Entry} (free : t.contents.ids[fresh]? = none) {h : Handle}
    {e : Entry} (known : t.contents.byHandle h = some e) :
    ((t.insertFresh fresh parentId ordinal).2.modify t.contents.nextHandle
      change).2.contents.byHandle h = some e := by
  have apart : t.contents.nextHandle ≠ h := by
    rintro rfl
    cases wf.nextHandle_unknown.symm.trans known
  rw [contents_modify, byHandle_modify, if_neg apart, contents_insertFresh _ _ free,
    byHandle_inserted, if_neg apart, known]

/-- An entry that is there stays there and in sight, or out of it, and what is removed stays
removed. It is marked if it was or the edit alters it. -/
theorem byHandle_edit {t : Transaction} (wf : WellFormed t.contents) (next : NodeEdit) {h : Handle}
    {e : Entry} (known : t.contents.byHandle h = some e) :
    ∃ after, (t.edit next).contents.byHandle h = some after ∧ after.isShown = e.isShown ∧
      (e.isDeleted = true → after.isDeleted = true) ∧
      (after.isUnsynced = true ↔ e.isUnsynced = true ∨ t.Alters next h) := by
  have marks := t.edit_marks next
  generalize t.edit next = result at marks
  cases marks with
  | nothing idle => exact ⟨e, known, rfl, id, by simp [idle]⟩
  | created idle creates =>
    exact ⟨e, byHandle_created wf creates.free known, rfl, id, by simp [idle]⟩
  | @rewritten k change only effective marks shows removed =>
    rw [contents_modify, byHandle_modify]
    by_cases same : k = h
    · subst same
      refine ⟨changed e change, by rw [if_pos rfl, known]; rfl, ?_, fun gone => ?_, ?_⟩
      · rw [isShown_changed, shows]
      · rw [changed_of_inner (wf.isRoot_eq_false_of_isDeleted known gone)]
        exact removed e gone
      · rw [isUnsynced_changed, marks]
    · have untouched : ¬ t.Alters next h := fun altered => same (only h altered).symm
      exact ⟨e, by rw [if_neg same, known], rfl, id, by simp [untouched]⟩

/-- An edit for the server changes what is stored of an entry only where it alters it. -/
theorem byHandle_edit_of_not_alters {t : Transaction} (wf : WellFormed t.contents)
    {next : NodeEdit} (told : next.isForServer = true) {h : Handle} {e : Entry}
    (known : t.contents.byHandle h = some e) (kept : ¬ t.Alters next h) :
    (t.edit next).contents.byHandle h = t.contents.byHandle h := by
  have marks := t.edit_marks next
  generalize t.edit next = result at marks
  cases marks with
  | nothing => rfl
  | created idle creates => rw [byHandle_created wf creates.free known, known]
  | @rewritten k change only effective marks shows removed =>
    have apart : k ≠ h := by
      rintro rfl
      exact kept (effective told)
    rw [contents_modify, byHandle_modify, if_neg apart]

/-- An entry that is new was created, can be seen and is marked. -/
theorem byHandle_edit_new {t : Transaction} (next : NodeEdit) {h : Handle} {e : Entry}
    (unknown : t.contents.byHandle h = none)
    (there : (t.edit next).contents.byHandle h = some e) :
    e.isShown = true ∧ e.isUnsynced = true := by
  have marks := t.edit_marks next
  generalize t.edit next = result at marks there
  cases marks with
  | nothing idle => cases unknown.symm.trans there
  | @created fresh parent predecessor p idle creates =>
    rw [contents_modify, contents_insertFresh _ _ creates.free, byHandle_modify] at there
    split at there
    · rw [byHandle_inserted, if_pos rfl] at there
      cases there
      exact ⟨isShown_changed _ _, isUnsynced_changed _ _⟩
    · rename_i apart
      rw [byHandle_inserted, if_neg apart] at there
      cases unknown.symm.trans there
  | @rewritten k change only effective marks shows removed =>
    rw [contents_modify, byHandle_modify] at there
    split at there
    · rename_i same
      rw [same, unknown] at there
      cases there
    · cases unknown.symm.trans there

/-! ## A run of edits -/

/-- What edits leave of the entries that were there, and of those that they created. -/
structure Leaves (opening : Transaction) (edits : List NodeEdit) : Prop where
  reachable : (edits.foldl edit opening).contents.Reachable
  old : ∀ h b, opening.contents.byHandle h = some b →
    ∃ e, (edits.foldl edit opening).contents.byHandle h = some e ∧ e.isShown = b.isShown ∧
      (b.isDeleted = true → e.isDeleted = true) ∧
      (e.isUnsynced = true ↔ b.isUnsynced = true ∨ opening.Altered edits h)
  new : ∀ h e, opening.contents.byHandle h = none →
    (edits.foldl edit opening).contents.byHandle h = some e →
    e.isShown = true ∧ e.isUnsynced = true

theorem edits_leave {opening : Transaction} (reachable : opening.contents.Reachable)
    (edits : List NodeEdit) : opening.Leaves edits := by
  induction edits generalizing opening with
  | nil =>
    refine ⟨reachable, fun h b known => ⟨b, known, rfl, id, by simp [Altered]⟩, ?_⟩
    intro h e unknown there
    cases unknown.symm.trans there
  | cons next edits ih =>
    have wf := reachable.wellFormed
    have rest := ih ((opening.edit_step next).reachable reachable)
    constructor
    case reachable => exact rest.reachable
    case old =>
      intro h b known
      obtain ⟨mid, there, shown, gone, marked⟩ := byHandle_edit wf next known
      obtain ⟨e, now, shownNow, goneNow, markedNow⟩ := rest.old h mid there
      refine ⟨e, now, shownNow.trans shown, fun was => goneNow (gone was), ?_⟩
      rw [markedNow, marked, Altered, or_assoc]
    case new =>
      intro h e unknown now
      cases there : (opening.edit next).contents.byHandle h with
      | none => exact rest.new h e there now
      | some mid =>
        obtain ⟨shown, marked⟩ := byHandle_edit_new next unknown there
        obtain ⟨_, found, shownNow, -, markedNow⟩ := rest.old h mid there
        cases now.symm.trans found
        exact ⟨shownNow.trans shown, markedNow.mpr (.inl marked)⟩

/-- Edits altered an entry that was not marked if and only if one of those for the server
changed what is stored of it. -/
theorem altered_iff {opening : Transaction} (reachable : opening.contents.Reachable) {h : Handle}
    {b : Entry} (known : opening.contents.byHandle h = some b) (unmarked : b.isUnsynced = false)
    {edits : List NodeEdit} : opening.Altered edits h ↔
      ∃ earlier next later, edits = earlier ++ next :: later ∧ next.isForServer = true ∧
        ((earlier.foldl edit opening).edit next).contents.byHandle h ≠
          (earlier.foldl edit opening).contents.byHandle h := by
  induction edits generalizing opening b with
  | nil => simp [Altered]
  | cons next edits ih =>
    have wf := reachable.wellFormed
    obtain ⟨mid, there, -, -, marked⟩ := byHandle_edit wf next known
    by_cases alters : opening.Alters next h
    · refine iff_of_true (.inl alters) ⟨[], next, edits, rfl, alters.isForServer, ?_⟩
      rw [List.foldl_nil, there, known]
      rintro ⟨⟩
      cases unmarked.symm.trans (marked.mpr (.inr alters))
    · have still : mid.isUnsynced = false := by simpa [unmarked, alters] using marked
      have rest := ih ((opening.edit_step next).reachable reachable) there still
      rw [Altered, or_iff_right alters, rest]
      constructor
      · rintro ⟨earlier, last, later, rfl, told, differs⟩
        exact ⟨next :: earlier, last, later, rfl, told, differs⟩
      · rintro ⟨earlier, last, later, whole, told, differs⟩
        cases earlier with
        | nil =>
          cases whole
          exact absurd (byHandle_edit_of_not_alters wf told known alters) differs
        | cons first earlier =>
          cases whole
          exact ⟨earlier, last, later, rfl, told, differs⟩

theorem altered_concat {opening : Transaction} {edits : List NodeEdit} {next : NodeEdit}
    {h : Handle} : opening.Altered (edits ++ [next]) h ↔
      opening.Altered edits h ∨ (edits.foldl edit opening).Alters next h := by
  induction edits generalizing opening with
  | nil => simp [Altered]
  | cons first edits ih => simp only [List.cons_append, Altered, ih, List.foldl_cons, or_assoc]

theorem Alters.node {t : Transaction} {next : NodeEdit} {h : Handle} (alters : t.Alters next h) :
    ∃ node ∈ next.node?, node.handle = h := by
  cases alters with
  | @value _ node _ _ asks =>
    refine ⟨node, ?_, rfl⟩
    cases next <;> cases asks <;> rfl
  | place => exact ⟨_, rfl, rfl⟩

/-- A node that is held in a transaction is not the root's, nor that of an entry that was
removed before it was opened. -/
theorem Holds.live {opening : Transaction} (reachable : opening.contents.Reachable)
    {edits : List NodeEdit} {node : EditableNode} (holds : opening.Holds edits node) :
    node.handle ≠ rootHandle ∧
      ∀ b, opening.contents.byHandle node.handle = some b → b.isDeleted = false := by
  have wf (earlier : List NodeEdit) : WellFormed (earlier.foldl edit opening).contents :=
    (edits_leave reachable earlier).reachable.wellFormed
  -- what is live at some moment was no tombstone before
  have live {earlier : List NodeEdit} {k : Handle}
      (bound : (earlier.foldl edit opening).contents.editable? k = some node) :
      ∀ b, opening.contents.byHandle node.handle = some b → b.isDeleted = false := by
    intro b known
    obtain ⟨e, found, alive⟩ := (wf earlier).editable?_live bound
    obtain ⟨_, now, -, gone, -⟩ := (edits_leave reachable earlier).old _ b known
    cases found.symm.trans now
    rw [Bool.eq_false_iff]
    exact fun was => by cases alive.symm.trans (gone was)
  cases holds with
  | byHandle _ bound => exact ⟨(EditableNode.Obtained.byHandle bound).inner, live bound⟩
  | byTag _ bound =>
    obtain ⟨k, handled⟩ := editableByTag?_editable bound
    exact ⟨(EditableNode.Obtained.byTag bound).inner, live handled⟩
  | @created earlier _ fresh parent predecessor _ made =>
    have before := edits_leave reachable earlier
    refine ⟨(EditableNode.Obtained.created before.reachable made).inner, fun b known => ?_⟩
    rcases createNode_cases _ fresh parent predecessor with
      ⟨refusal, refused⟩ | ⟨p, -, done⟩
    · rw [refused] at made
      cases made
    · rw [done] at made
      cases made
      obtain ⟨_, now, -⟩ := before.old _ b known
      cases (wf earlier).nextHandle_unknown.symm.trans now

/-- What a caller alters is not the root, nor was it removed before. -/
theorem Makes.altered_live {opening : Transaction} (reachable : opening.contents.Reachable)
    {edits : List NodeEdit} (makes : opening.Makes edits) {h : Handle}
    (altered : opening.Altered edits h) :
    h ≠ rootHandle ∧ ∀ b, opening.contents.byHandle h = some b → b.isDeleted = false := by
  induction makes with
  | nothing => exact altered.elim
  | next past held ih =>
    rcases altered_concat.mp altered with earlier | last
    · exact ih earlier
    · obtain ⟨node, through, rfl⟩ := last.node
      exact (held node through).live reachable

/-! ## What is left for the server -/

theorem edits_writes (t : Transaction) (edits : List NodeEdit) :
    ∃ writes : List Write, edits.foldl edit t = writes.foldl write t := by
  induction edits generalizing t with
  | nil => exact ⟨[], rfl⟩
  | cons next edits ih =>
    obtain ⟨first, stepped⟩ := (t.edit_step next).writes
    obtain ⟨rest, same⟩ := ih (t.edit next)
    refine ⟨first ++ rest, ?_⟩
    rw [List.foldl_cons, same, stepped, List.foldl_append]

/-- The server has to hear of an entry that was touched, can be seen and is marked, unless
it was and is a tombstone. -/
theorem needsSync_iff {t : Transaction} : t.closed.needsSync = true ↔
    ∃ h b e, t.preimages[h]? = some b ∧ t.contents.byHandle h = some e ∧ e.isRoot = false ∧
      e.isShown = true ∧ e.isUnsynced = true ∧ (e.isDeleted = false ∨ b.isDeleted = false) := by
  rw [ClosedTransaction.needsSync, List.any_eq_true]
  constructor
  · rintro ⟨step, member, due⟩
    obtain ⟨⟨h, b⟩, remembered, rfl⟩ := List.mem_map.mp member
    obtain ⟨e, there, due⟩ := (Option.any_eq_true _ _).mp due
    simp only [Bool.and_eq_true, Bool.or_eq_true, Bool.not_eq_true'] at due
    obtain ⟨⟨⟨inner, shown⟩, marked⟩, lives⟩ := due
    exact ⟨h, b, e, Std.ExtTreeMap.mem_toList_iff_getElem?_eq_some.mp remembered, there, inner,
      shown, marked, lives⟩
  · rintro ⟨h, b, e, remembered, there, inner, shown, marked, lives⟩
    refine ⟨(h, b, some e), List.mem_map.mpr ⟨(h, b), ?_, by simp [closed, there]⟩, ?_⟩
    · exact Std.ExtTreeMap.mem_toList_iff_getElem?_eq_some.mpr remembered
    · simpa [inner, shown, marked] using lives

/-- The edits left something that the server has to hear of: they altered an entry that was
live and in sight, or created one that is still live. -/
def LeavesForServer (opening : Transaction) (edits : List NodeEdit) : Prop :=
  (∃ h b, opening.contents.byHandle h = some b ∧ b.isDeleted = false ∧ b.isShown = true ∧
    opening.Altered edits h) ∨
  ∃ h e, opening.contents.byHandle h = none ∧
    (edits.foldl edit opening).contents.byHandle h = some e ∧ e.isDeleted = false

theorem needsSync_edits {d : Directory} (reachable : d.contents.Reachable)
    (synced : ∀ h e, d.contents.byHandle h = some e → e.isUnsynced = false)
    {edits : List NodeEdit} (makes : (d.write .embedder).Makes edits) :
    (edits.foldl edit (d.write .embedder)).closed.needsSync = true ↔
      (d.write .embedder).LeavesForServer edits := by
  have leaves : (d.write .embedder).Leaves edits := edits_leave reachable edits
  have wf := leaves.reachable.wellFormed
  have faithful : Faithful d.contents (edits.foldl edit (d.write .embedder)) := by
    obtain ⟨writes, same⟩ := edits_writes (d.write .embedder) edits
    exact same ▸ d.write_faithful reachable .embedder writes
  -- an entry that is not what it was, or was not there, was touched
  have touched {h : Handle} (other : (edits.foldl edit (d.write .embedder)).contents.byHandle h ≠
      d.contents.byHandle h) : ∃ b, (edits.foldl edit (d.write .embedder)).preimages[h]? = some b :=
    Option.ne_none_iff_exists'.mp fun unseen => other (faithful.untouched h unseen)
  rw [needsSync_iff]
  constructor
  · rintro ⟨h, b, e, remembered, there, -, shown, marked, lives⟩
    cases before : d.contents.byHandle h with
    | none =>
      have tombstone := faithful.created h before b remembered
      exact .inr ⟨h, e, before, there, by simpa [tombstone] using lives⟩
    | some was =>
      obtain ⟨_, now, shownNow, -, markedNow⟩ := leaves.old h was before
      cases there.symm.trans now
      have altered : (d.write .embedder).Altered edits h := by
        simpa [synced h was before] using markedNow.mp marked
      exact .inl ⟨h, was, before, (makes.altered_live reachable altered).2 was before,
        shownNow.symm.trans shown, altered⟩
  · rintro (⟨h, b, before, live, shown, altered⟩ | ⟨h, e, before, there, live⟩)
    · obtain ⟨e, now, shownNow, -, markedNow⟩ := leaves.old h b before
      have marked := markedNow.mpr (.inr altered)
      have inner : e.isRoot = false := by
        rw [Bool.eq_false_iff, ne_eq, wf.isRoot_iff now]
        exact (makes.altered_live reachable altered).1
      have other : some e ≠ some b := by
        rintro ⟨⟩
        cases marked.symm.trans (synced h b before)
      obtain ⟨pre, remembered⟩ := touched (now ▸ before ▸ other)
      have same := faithful.touched h b before pre remembered
      exact ⟨h, pre, e, remembered, now, inner, shownNow.trans shown, marked, .inr (same ▸ live)⟩
    · obtain ⟨shown, marked⟩ := leaves.new h e before there
      have inner : e.isRoot = false := by
        rw [Bool.eq_false_iff, ne_eq, wf.isRoot_iff there]
        rintro rfl
        obtain ⟨root, known, -⟩ := reachable.wellFormed.root
        cases before.symm.trans known
      have other : some e ≠ none := Option.some_ne_none e
      obtain ⟨pre, remembered⟩ := touched (there ▸ before ▸ other)
      exact ⟨h, pre, e, remembered, there, inner, shown, marked, .inl live⟩

end Transaction

namespace Client
open Transaction
variable {σ : Type} {client : Client σ}

/-- What is done to the outside when a transaction of the embedder closes. -/
theorem commit_embedder (react : Reaction σ) {id : DirectoryId} {d : Directory} {t : Transaction}
    (found : client.registry.directory? id = some d) (hooked : d.hasListener = true)
    (writer : t.writer = .embedder) :
    (client.commit react id t).effects = client.effects ++
      if t.closed.needsSync then [.nudged client.settings.syncer.nudgeDelay .localEdit]
      else [] := by
  have closing : t.closed.writer = .embedder := writer
  unfold commit changesToTell
  simp only [found, hooked, closing, ↓reduceIte]
  split
  · rfl
  · exact (List.append_nil _).symm

/-- Where everything is synced, a transaction of edits makes the syncer be nudged once, after
the delay that is set, if it altered an entry that was there and can be seen, or created one
that is still there, and not at all otherwise. The observer is told nothing either way. An
entry was altered if and only if an edit for the server changed what is stored of it. -/
theorem commit_edits (react : Reaction σ) {id : DirectoryId} {d : Directory}
    (found : client.registry.directory? id = some d) (hooked : d.hasListener = true)
    (reachable : d.contents.Reachable)
    (synced : ∀ h e, d.contents.byHandle h = some e → e.isUnsynced = false)
    {edits : List NodeEdit} (makes : (d.write .embedder).Makes edits) :
    let t := edits.foldl edit (d.write .embedder)
    ((d.write .embedder).LeavesForServer edits → (client.commit react id t).effects =
      client.effects ++ [.nudged client.settings.syncer.nudgeDelay .localEdit]) ∧
    (¬ (d.write .embedder).LeavesForServer edits →
      (client.commit react id t).effects = client.effects) ∧
    ∀ h b, d.contents.byHandle h = some b → ((d.write .embedder).Altered edits h ↔
      ∃ earlier next later, edits = earlier ++ next :: later ∧ next.isForServer = true ∧
        ((earlier.foldl edit (d.write .embedder)).edit next).contents.byHandle h ≠
          (earlier.foldl edit (d.write .embedder)).contents.byHandle h) := by
  intro t
  have writer : t.writer = .embedder := by
    obtain ⟨writes, same⟩ := edits_writes (d.write .embedder) edits
    exact (congrArg (·.writer) same).trans (writer_writes _ writes)
  have needed := needsSync_edits reachable synced makes
  rw [commit_embedder react found hooked writer]
  refine ⟨fun leaves => ?_, fun nothing => ?_, fun h b known => ?_⟩
  · rw [if_pos (needed.mpr leaves)]
  · rw [if_neg fun needs => nothing (needed.mp needs), List.append_nil]
  · exact altered_iff reachable known (synced h b known)

/-- A client that listens to a directory where everything is synced, with an entry that can
be seen and one that cannot. -/
def allSynced : Directory where
  name := "tester"
  contents := ((Contents.initial.write (.insert ⟨"a"⟩ .root .initial)).write
    (.insert ⟨"b"⟩ .root .initial)).write (.modify 3 fun e => { e with isShown := false })
  hasListener := true

def listeningSynced : Client Unit where
  settings := {}
  services := {}
  registry := { location := "", directories := [allSynced] }
  embedder := ()

/-- Asking for what is so already, the embedder's own number, a move that is refused, a
change that cannot be seen, and an entry that comes and goes. -/
def leavingNothing : List NodeEdit :=
  [.setIsFolder ⟨2⟩ true, .setExternalId ⟨2⟩ 7, .move ⟨2⟩ 2 none, .setUrl ⟨3⟩ "u",
    .create ⟨"c"⟩ 1 none, .remove ⟨4⟩]

/-- A change that is taken back. -/
def changingBack : List NodeEdit := [.setUrl ⟨2⟩ "u", .setUrl ⟨2⟩ ""]

theorem allSynced_reachable : allSynced.contents.Reachable :=
  ((Contents.Reachable.initial.write (.insert ⟨"a"⟩ .root .initial)).write
    (.insert ⟨"b"⟩ .root .initial)).write (.modify 3 fun e => { e with isShown := false })

theorem allSynced_synced (h : Handle) (e : Entry)
    (known : allSynced.contents.byHandle h = some e) : e.isUnsynced = false := by
  have all : ∀ p ∈ allSynced.contents.entries.toList, p.2.isUnsynced = false := by decide +kernel
  exact all (h, e) (Std.ExtTreeMap.mem_toList_iff_getElem?_eq_some.mpr known)

theorem leavingNothing_makes : (allSynced.write .embedder).Makes leavingNothing := by
  have held {edits : List NodeEdit} {node : EditableNode}
      (bound : (allSynced.write .embedder).contents.editable? node.handle = some node) :
      (allSynced.write .embedder).Holds edits node :=
    .byHandle (List.nil_append edits).symm bound
  have created : (allSynced.write .embedder).Holds (leavingNothing.take 5) ⟨4⟩ :=
    .created (show leavingNothing.take 5 = leavingNothing.take 4 ++ [.create ⟨"c"⟩ 1 none] from rfl)
      rfl
  have first : (allSynced.write .embedder).Makes (leavingNothing.take 1) :=
    Makes.nothing.next fun _ through => by cases through; exact held rfl
  have second : (allSynced.write .embedder).Makes (leavingNothing.take 2) :=
    first.next fun _ through => by cases through; exact held rfl
  have third : (allSynced.write .embedder).Makes (leavingNothing.take 3) :=
    second.next fun _ through => by cases through; exact held rfl
  have fourth : (allSynced.write .embedder).Makes (leavingNothing.take 4) :=
    third.next fun _ through => by cases through; exact held rfl
  have fifth : (allSynced.write .embedder).Makes (leavingNothing.take 5) :=
    fourth.next nofun
  exact fifth.next fun _ through => by cases through; exact created

theorem changingBack_makes : (allSynced.write .embedder).Makes changingBack := by
  have held (edits : List NodeEdit) : (allSynced.write .embedder).Holds edits ⟨2⟩ :=
    .byHandle (h := 2) (List.nil_append edits).symm rfl
  have first : (allSynced.write .embedder).Makes (changingBack.take 1) :=
    Makes.nothing.next fun _ through => by cases through; exact held _
  exact first.next fun _ through => by cases through; exact held _

theorem commit_edits_allSynced :
    listeningSynced.registry.directory? ⟨0⟩ = some allSynced ∧ allSynced.hasListener = true ∧
      allSynced.contents.Reachable ∧
      (∀ h e, allSynced.contents.byHandle h = some e → e.isUnsynced = false) ∧
      (allSynced.write .embedder).Makes leavingNothing ∧
      (listeningSynced.commit .quiet ⟨0⟩
        (leavingNothing.foldl edit (allSynced.write .embedder))).effects = [] ∧
      (allSynced.write .embedder).Makes changingBack ∧
      (listeningSynced.commit .quiet ⟨0⟩
        (changingBack.foldl edit (allSynced.write .embedder))).effects =
          [.nudged 200 .localEdit] := by
  have silent : (leavingNothing.foldl edit (allSynced.write .embedder)).closed.needsSync = false :=
    by decide +kernel
  have nothing : ¬ (allSynced.write .embedder).LeavesForServer leavingNothing := fun leaves => by
    cases silent.symm.trans
      ((needsSync_edits allSynced_reachable allSynced_synced leavingNothing_makes).mpr leaves)
  have alters : (allSynced.write .embedder).Alters (.setUrl ⟨2⟩ "u") 2 :=
    (alters_iff_of_asks rfl).mpr ⟨rfl, rfl⟩
  have leaves : (allSynced.write .embedder).LeavesForServer changingBack :=
    .inl ⟨2, _, rfl, rfl, rfl, .inl alters⟩
  have found : listeningSynced.registry.directory? ⟨0⟩ = some allSynced := rfl
  obtain ⟨-, quiet, -⟩ := commit_edits .quiet found rfl allSynced_reachable allSynced_synced
    leavingNothing_makes
  obtain ⟨nudged, -⟩ := commit_edits .quiet found rfl allSynced_reachable allSynced_synced
    changingBack_makes
  exact ⟨found, rfl, allSynced_reachable, allSynced_synced, leavingNothing_makes, quiet nothing,
    changingBack_makes, nudged leaves⟩

end Client

end SharedTree
