import SharedTree.Directory
import SharedTree.Node.Edit
import SharedTree.Proofs.Preimages

/-! What can be done through nodes. Whatever is asked, and whether it is granted
or refused, an edit does one of four things to a transaction: nothing, one new
entry under a live parent, a rewrite of one entry that leaves it in its place and
brings no tombstone back, or a move of one live entry to where it does not lie in
itself. -/
namespace SharedTree

/-- Everything that callers may ask of nodes. The node may have been bound before
its entry was removed. -/
inductive NodeEdit where
  | create (fresh : EntryId) (parent : Handle) (predecessor : Option Handle)
  | move (node : EditableNode) (parent : Handle) (predecessor : Option Handle)
  | setTitle (node : EditableNode) (title : String)
  | setUrl (node : EditableNode) (url : String)
  | setIsFolder (node : EditableNode) (isFolder : Bool)
  | setFavicon (node : EditableNode) (favicon : List UInt8)
  | setExternalId (node : EditableNode) (externalId : Int)
  | setUniqueTag (node : EditableNode) (uniqueTag : Option String)
  | remove (node : EditableNode)

namespace Contents

/-- A predecessor, where one is given, is another live child of the parent. -/
def Follows (c : Contents) (parentId : EntryId) (predecessor placing : Option Handle) : Prop :=
  ∀ p ∈ predecessor, (∃ e, c.byHandle p = some e ∧ e.LiesIn parentId) ∧ some p ≠ placing

theorem live_eq_ok_iff {c : Contents} {h : Handle} {e : Entry} :
    c.live h = .ok e ↔ c.byHandle h = some e ∧ e.isDeleted = false := by
  unfold live
  cases c.byHandle h with
  | none => simp
  | some other =>
    by_cases deleted : other.isDeleted = true
    · simp only [deleted, ↓reduceIte, reduceCtorEq, Option.some.injEq, false_iff, not_and]
      rintro rfl
      simp [deleted]
    · simp only [deleted, Bool.false_eq_true, ↓reduceIte, Except.ok.injEq, Option.some.injEq]
      constructor
      · rintro rfl
        exact ⟨rfl, Bool.eq_false_iff.mpr deleted⟩
      · exact And.left

theorem isLiveChild_iff {c : Contents} {h : Handle} {parentId : EntryId} :
    c.isLiveChild h parentId = true ↔ ∃ e, c.byHandle h = some e ∧ e.LiesIn parentId := by
  unfold isLiveChild
  cases c.byHandle h with
  | none => simp
  | some e => simp [Entry.LiesIn, and_assoc]

theorem checkFollows_eq_ok_iff {c : Contents} {parent : Entry}
    {predecessor placing : Option Handle} :
    c.checkFollows parent predecessor placing = .ok () ↔
      c.Follows parent.id predecessor placing := by
  cases predecessor with
  | none => simp [checkFollows, Follows]
  | some p =>
    simp only [checkFollows, Follows, Option.mem_def, Option.some.injEq, forall_eq',
      ← isLiveChild_iff]
    by_cases child : c.isLiveChild p parent.id = true <;>
      by_cases itself : some p = placing <;> simp [child, itself]

/-- A node that already lies where a move would put it. -/
def InPlace (c : Contents) (node parent : Handle) (predecessor : Option Handle) : Prop :=
  ∃ e p, c.byHandle node = some e ∧ c.byHandle parent = some p ∧ e.parentId = p.id ∧
    c.predecessor node = predecessor

/-- A move that is granted and does something. -/
structure Moves (c : Contents) (node parent : Handle) (predecessor : Option Handle)
    (e p : Entry) : Prop where
  nodeKnown : c.byHandle node = some e
  nodeLive : e.isDeleted = false
  parentKnown : c.byHandle parent = some p
  parentLive : p.isDeleted = false
  follows : c.Follows p.id predecessor (some node)
  elsewhere : ¬ (e.parentId = p.id ∧ c.predecessor node = predecessor)
  outside : c.isAtOrAbove e.id p.id = false

/-- A creation that is granted. -/
structure Creates (c : Contents) (fresh : EntryId) (parent : Handle)
    (predecessor : Option Handle) (p : Entry) : Prop where
  parentKnown : c.byHandle parent = some p
  parentLive : p.isDeleted = false
  follows : c.Follows p.id predecessor none
  free : c.ids[fresh]? = none

end Contents

namespace Transaction
open Contents

def edit (t : Transaction) : NodeEdit → Transaction
  | .create fresh parent predecessor => (t.createNode fresh parent predecessor).2
  | .move node parent predecessor => (t.move node parent predecessor).2
  | .setTitle node title => t.setTitle node title
  | .setUrl node url => t.setUrl node url
  | .setIsFolder node isFolder => t.setIsFolder node isFolder
  | .setFavicon node favicon => t.setFavicon node favicon
  | .setExternalId node externalId => t.setExternalId node externalId
  | .setUniqueTag node uniqueTag => t.setUniqueTag node uniqueTag
  | .remove node => t.remove node

/-- What an edit can do. -/
inductive EditStep (t : Transaction) : Transaction → Prop where
  /-- It was refused, or there was nothing to be done. -/
  | nothing : EditStep t t
  | created {fresh : EntryId} {parent : Handle} {predecessor : Option Handle} {p : Entry}
      (creates : t.contents.Creates fresh parent predecessor p) :
    EditStep t (((t.insertFresh fresh p.id
      (t.contents.ordinalFollowing p.id predecessor none)).2.modify t.contents.nextHandle
        fun e => { e with isUnsynced := true }).2)
  | rewritten (h : Handle) (change : Entry → Entry)
      (inPlace : ∀ e, (change e).parentId = e.parentId ∧ (change e).ordinal = e.ordinal)
      (removed : ∀ e, e.isDeleted = true → (change e).isDeleted = true) :
    EditStep t (t.modify h change).2
  | moved {node parent : Handle} {predecessor : Option Handle} {e p : Entry}
      (moves : t.contents.Moves node parent predecessor e p) :
    EditStep t ((t.modify node fun e =>
      { e with
        parentId := p.id
        ordinal := t.contents.ordinalFollowing p.id predecessor (some node)
        isUnsynced := true }).2)

/-- A creation is refused, or makes the entry and marks it. -/
theorem createNode_cases (t : Transaction) (fresh : EntryId) (parent : Handle)
    (predecessor : Option Handle) :
    (∃ refusal, t.createNode fresh parent predecessor = (.error refusal, t)) ∨
    ∃ p, t.contents.Creates fresh parent predecessor p ∧
      t.createNode fresh parent predecessor = (.ok ⟨t.contents.nextHandle⟩,
        ((t.insertFresh fresh p.id
          (t.contents.ordinalFollowing p.id predecessor none)).2.modify t.contents.nextHandle
            fun e => { e with isUnsynced := true }).2) := by
  unfold createNode
  dsimp only
  cases parentLive : t.contents.live parent with
  | error refusal => exact .inl ⟨_, rfl⟩
  | ok p =>
    obtain ⟨known, live⟩ := live_eq_ok_iff.mp parentLive
    dsimp only
    cases follows : t.contents.checkFollows p predecessor none with
    | error refusal => exact .inl ⟨_, rfl⟩
    | ok _ =>
      dsimp only
      cases free : t.contents.ids[fresh]? with
      | some h =>
        simp only [insertFresh_eq, free, Option.isSome_some, ↓reduceIte]
        exact .inl ⟨_, rfl⟩
      | none =>
        have creates : t.contents.Creates fresh parent predecessor p :=
          ⟨known, live, checkFollows_eq_ok_iff.mp follows, free⟩
        refine .inr ⟨p, creates, ?_⟩
        simp only [insertFresh_eq, free, Option.isSome_none, Bool.false_eq_true, ↓reduceIte]

/-- A move is refused, has nothing to do, or puts the node at its new place. -/
theorem move_cases (t : Transaction) (node : EditableNode) (parent : Handle)
    (predecessor : Option Handle) :
    (∃ refusal, t.move node parent predecessor = (.error refusal, t)) ∨
    (t.contents.InPlace node.handle parent predecessor ∧
      t.move node parent predecessor = (.ok (), t)) ∨
    ∃ e p, t.contents.Moves node.handle parent predecessor e p ∧
      t.move node parent predecessor = (.ok (), (t.modify node.handle fun e =>
        { e with
          parentId := p.id
          ordinal := t.contents.ordinalFollowing p.id predecessor (some node.handle)
          isUnsynced := true }).2) := by
  unfold move placement
  simp only [bind, Except.bind]
  cases nodeFound : t.contents.live node.handle with
  | error refusal => exact .inl ⟨_, rfl⟩
  | ok e =>
    cases parentFound : t.contents.live parent with
    | error refusal => exact .inl ⟨_, rfl⟩
    | ok p =>
      obtain ⟨nodeKnown, nodeLive⟩ := live_eq_ok_iff.mp nodeFound
      obtain ⟨parentKnown, parentLive⟩ := live_eq_ok_iff.mp parentFound
      cases follows : t.contents.checkFollows p predecessor (some node.handle) with
      | error refusal => exact .inl ⟨refusal, by simp [follows]⟩
      | ok _ =>
        simp only [follows]
        by_cases here : e.parentId = p.id ∧ t.contents.predecessor node.handle = predecessor
        · refine .inr (.inl ⟨⟨e, p, nodeKnown, parentKnown, here⟩, ?_⟩)
          simp [here, pure, Except.pure]
        · cases above : t.contents.isAtOrAbove e.id p.id with
          | true =>
            refine .inl ⟨.wouldCreateCycle node.handle parent, ?_⟩
            simp [here, throw, throwThe, MonadExceptOf.throw]
          | false =>
            refine .inr (.inr ⟨e, p, ⟨nodeKnown, nodeLive, parentKnown, parentLive,
              checkFollows_eq_ok_iff.mp follows, here, above⟩, ?_⟩)
            simp [here, pure, Except.pure]

/-- What a move comes to that no check refuses. -/
theorem placement_eq_ok {c : Contents} {node parent : Handle} {predecessor : Option Handle}
    {e p : Entry} (nodeFound : c.live node = .ok e) (parentFound : c.live parent = .ok p)
    (follows : c.checkFollows p predecessor (some node) = .ok ())
    (outside : c.isAtOrAbove e.id p.id = false) :
    placement c node parent predecessor =
      .ok (if e.parentId = p.id ∧ c.predecessor node = predecessor then .stay
        else .place p.id (c.ordinalFollowing p.id predecessor (some node))) := by
  simp only [placement, bind, Except.bind, nodeFound, parentFound, follows, outside]
  split <;> rfl

/-- A move that is granted and does something puts the node at its new place. -/
theorem move_eq_of_moves {t : Transaction} {node : EditableNode} {parent : Handle}
    {predecessor : Option Handle} {e p : Entry}
    (moves : t.contents.Moves node.handle parent predecessor e p) :
    t.move node parent predecessor = (.ok (), (t.modify node.handle fun e =>
      { e with
        parentId := p.id
        ordinal := t.contents.ordinalFollowing p.id predecessor (some node.handle)
        isUnsynced := true }).2) := by
  rw [move, placement_eq_ok (live_eq_ok_iff.mpr ⟨moves.nodeKnown, moves.nodeLive⟩)
    (live_eq_ok_iff.mpr ⟨moves.parentKnown, moves.parentLive⟩)
    (checkFollows_eq_ok_iff.mpr moves.follows) moves.outside, if_neg moves.elsewhere]

private theorem store_step (t : Transaction) (node : EditableNode) (unchanged : Entry → Bool)
    {change : Entry → Entry}
    (inPlace : ∀ e, (change e).parentId = e.parentId ∧ (change e).ordinal = e.ordinal)
    (removed : ∀ e, e.isDeleted = true → (change e).isDeleted = true) :
    EditStep t (t.store node unchanged change) := by
  unfold store
  split
  · exact .nothing
  · exact .rewritten node.handle _ inPlace removed

private theorem storeLocally_step (t : Transaction) (node : EditableNode)
    (unchanged : Entry → Bool) {change : Entry → Entry}
    (inPlace : ∀ e, (change e).parentId = e.parentId ∧ (change e).ordinal = e.ordinal)
    (removed : ∀ e, e.isDeleted = true → (change e).isDeleted = true) :
    EditStep t (t.storeLocally node unchanged change) := by
  unfold storeLocally
  split
  · exact .nothing
  · exact .rewritten node.handle _ inPlace removed

/-- Every edit is one of the four, granted or refused. -/
theorem edit_step (t : Transaction) (edit : NodeEdit) : EditStep t (t.edit edit) := by
  cases edit with
  | create fresh parent predecessor =>
    change EditStep t (t.createNode fresh parent predecessor).2
    rcases createNode_cases t fresh parent predecessor with ⟨refusal, refused⟩ | ⟨p, creates, made⟩
    · exact refused ▸ .nothing
    · exact made ▸ .created creates
  | move node parent predecessor =>
    change EditStep t (t.move node parent predecessor).2
    rcases move_cases t node parent predecessor with
      ⟨refusal, refused⟩ | ⟨-, stays⟩ | ⟨e, p, moves, moved⟩
    · exact refused ▸ .nothing
    · exact stays ▸ .nothing
    · exact moved ▸ .moved moves
  | setTitle node title => exact store_step t node _ (fun _ => ⟨rfl, rfl⟩) fun _ => id
  | setUrl node url => exact store_step t node _ (fun _ => ⟨rfl, rfl⟩) fun _ => id
  | setIsFolder node isFolder => exact store_step t node _ (fun _ => ⟨rfl, rfl⟩) fun _ => id
  | setFavicon node favicon => exact store_step t node _ (fun _ => ⟨rfl, rfl⟩) fun _ => id
  | setExternalId node externalId =>
    exact storeLocally_step t node _ (fun _ => ⟨rfl, rfl⟩) fun _ => id
  | setUniqueTag node uniqueTag =>
    exact storeLocally_step t node _ (fun _ => ⟨rfl, rfl⟩) fun _ => id
  | remove node => exact store_step t node _ (fun _ => ⟨rfl, rfl⟩) fun _ _ => rfl

/-- Edits only ever write entries. -/
theorem EditStep.writes {t after : Transaction} (step : EditStep t after) :
    ∃ writes : List Write, after = writes.foldl write t := by
  cases step with
  | nothing => exact ⟨[], rfl⟩
  | rewritten h change => exact ⟨[.modify h change], rfl⟩
  | moved moves => exact ⟨[.modify _ _], rfl⟩
  | created creates => exact ⟨[.insert _ _ _, .modify _ _], rfl⟩

theorem EditStep.reachable {t after : Transaction} (step : EditStep t after)
    (reachable : t.contents.Reachable) : after.contents.Reachable := by
  obtain ⟨writes, rfl⟩ := step.writes
  rw [contents_writes]
  exact reachable.writes writes

end Transaction

/-- How callers come by a node that can be changed: they bind it to an entry, or
they create it. -/
inductive EditableNode.Obtained : EditableNode → Prop where
  | byHandle {c : Contents} {h : Handle} {node : EditableNode}
      (bound : c.editable? h = some node) : Obtained node
  | byTag {c : Contents} {tag : String} {node : EditableNode}
      (bound : c.editableByTag? tag = some node) : Obtained node
  | created {t : Transaction} {fresh : EntryId} {parent : Handle} {predecessor : Option Handle}
      {node : EditableNode} (reachable : t.contents.Reachable)
      (made : (t.createNode fresh parent predecessor).1 = .ok node) : Obtained node

theorem Contents.editableHandle_inner {found : Option Entry} {node : EditableNode}
    (bound : (editableHandle found).map .mk = some node) : node.handle ≠ rootHandle := by
  obtain ⟨h, kept, rfl⟩ := Option.map_eq_some_iff.mp bound
  exact of_decide_eq_true (Option.filter_eq_some_iff.mp kept).2

/-- The root cannot be changed through a node. -/
theorem EditableNode.Obtained.inner {node : EditableNode} (obtained : node.Obtained) :
    node.handle ≠ Contents.rootHandle := by
  cases obtained with
  | byHandle bound => exact Contents.editableHandle_inner bound
  | @byTag c tag _ bound =>
    unfold Contents.editableByTag? at bound
    split at bound
    · cases bound
    · exact Contents.editableHandle_inner bound
  | @created t fresh parent predecessor _ reachable made =>
    obtain ⟨root, known, -⟩ := reachable.wellFormed.root
    rcases t.createNode_cases fresh parent predecessor with
      ⟨refusal, refused⟩ | ⟨p, creates, created⟩
    · rw [refused] at made
      cases made
    · rw [created] at made
      cases made
      rintro same
      rw [← same] at known
      cases reachable.wellFormed.nextHandle_unknown.symm.trans known

namespace Directory
open Contents

/-- One write transaction, made of edits alone. -/
def edited (d : Directory) (writer : Writer) (edits : List NodeEdit) : Directory :=
  { d with contents := (edits.foldl Transaction.edit (d.write writer)).contents }

/-- A directory after such transactions, one after the other. -/
def afterEdits (name : String) (transactions : List (Writer × List NodeEdit)) : Directory :=
  transactions.foldl (fun d t => d.edited t.1 t.2) { name }

/-- What no edit breaks holds after every run of them. -/
theorem edits_induction {P : Contents → Prop} {t : Transaction} (edits : List NodeEdit)
    (step : ∀ {t after : Transaction}, t.EditStep after → t.contents.Reachable → P t.contents →
      P after.contents)
    (reachable : t.contents.Reachable) (holds : P t.contents) :
    (edits.foldl Transaction.edit t).contents.Reachable ∧
      P (edits.foldl Transaction.edit t).contents := by
  induction edits generalizing t with
  | nil => exact ⟨reachable, holds⟩
  | cons edit edits ih =>
    have next := t.edit_step edit
    exact ih (next.reachable reachable) (step next reachable holds)

private theorem transactions_induction {P : Contents → Prop} {d : Directory}
    (transactions : List (Writer × List NodeEdit))
    (step : ∀ {t after : Transaction}, t.EditStep after → t.contents.Reachable → P t.contents →
      P after.contents)
    (reachable : d.contents.Reachable) (holds : P d.contents) :
    (transactions.foldl (fun d t => d.edited t.1 t.2) d).contents.Reachable ∧
      P (transactions.foldl (fun d t => d.edited t.1 t.2) d).contents := by
  induction transactions generalizing d with
  | nil => exact ⟨reachable, holds⟩
  | cons t transactions ih =>
    obtain ⟨reachable, holds⟩ :=
      edits_induction (t := d.write t.1) t.2 step reachable holds
    exact ih (d := d.edited t.1 t.2) reachable holds

theorem afterEdits_reachable (name : String) (transactions : List (Writer × List NodeEdit)) :
    (afterEdits name transactions).contents.Reachable :=
  (transactions_induction (P := fun _ => True) transactions (fun _ _ _ => trivial)
    .initial trivial).1

theorem afterEdits_induction {P : Contents → Prop} (name : String)
    (transactions : List (Writer × List NodeEdit)) (initial : P .initial)
    (step : ∀ {t after : Transaction}, t.EditStep after → t.contents.Reachable → P t.contents →
      P after.contents) : P (afterEdits name transactions).contents :=
  (transactions_induction transactions step .initial initial).2

end Directory

end SharedTree
