import SharedTree.Proofs.ChildOrder
import SharedTree.Proofs.ParentChains

/-! Why a structural edit is refused. The reasons are said over what callers can see of
a directory: which entries are live, what the listing of a folder has in it, and what
lies within what. A move or a creation is refused for these reasons alone, the first
that applies, so that every other one is granted; and one that is refused leaves no
trace. The climb that looks for a circle answers truly only where every chain of parents
ends, so that exactness holds of directories that were edited through nodes alone. -/
namespace SharedTree

namespace Contents

/-- An entry that is there and was not removed. -/
def IsLive (c : Contents) (h : Handle) : Prop :=
  ∃ e, c.byHandle h = some e ∧ e.isDeleted = false

/-- One entry is another, or lies below it. -/
def LiesWithin (c : Contents) (h outer : Handle) : Prop :=
  ∃ e chain, c.byHandle h = some e ∧ c.ParentChain e.id chain ∧ ∃ x ∈ chain, x.handle = outer

/-- Why a node is not placed in a folder right after another. -/
inductive PlaceRefused (c : Contents) (placing : Option Handle) (parent : Handle)
    (predecessor : Option Handle) : EditRefusal → Prop where
  | parentGone (gone : ¬ c.IsLive parent) :
    PlaceRefused c placing parent predecessor (.notFound parent)
  | notAChild {p : Handle} (live : c.IsLive parent) (given : predecessor = some p)
      (misplaced : p ∉ c.childrenOf parent ∨ placing = some p) :
    PlaceRefused c placing parent predecessor (.predecessorNotChild p parent)

/-- Why a node is not moved. -/
inductive MoveRefused (c : Contents) (node parent : Handle) (predecessor : Option Handle) :
    EditRefusal → Prop where
  | nodeGone (gone : ¬ c.IsLive node) : MoveRefused c node parent predecessor (.notFound node)
  | misplaced {refusal : EditRefusal} (live : c.IsLive node)
      (refused : c.PlaceRefused (some node) parent predecessor refusal) :
    MoveRefused c node parent predecessor refusal
  | intoItself (live : c.IsLive node) (parentLive : c.IsLive parent)
      (follows : ∀ p ∈ predecessor, p ∈ c.childrenOf parent ∧ p ≠ node)
      (within : c.LiesWithin parent node) :
    MoveRefused c node parent predecessor (.wouldCreateCycle node parent)

/-! ## The checks, one by one -/

section
variable {c : Contents}

theorem isLive_of_live {h : Handle} {e : Entry} (found : c.live h = .ok e) : c.IsLive h :=
  ⟨e, live_eq_ok_iff.mp found⟩

theorem live_eq_error_iff {h : Handle} {refusal : EditRefusal} :
    c.live h = .error refusal ↔ ¬ c.IsLive h ∧ refusal = .notFound h := by
  cases found : c.live h with
  | ok e => simp [isLive_of_live found]
  | error reason =>
    have gone : ¬ c.IsLive h := by
      rintro ⟨e, live⟩
      cases found.symm.trans (live_eq_ok_iff.mpr live)
    have named : reason = .notFound h := by
      unfold live at found
      split at found
      · split at found <;> cases found
        rfl
      · cases found
        rfl
    simp [gone, named, eq_comm]

variable (wf : WellFormed c)
include wf

theorem WellFormed.mem_childrenOf_iff {parent : Handle} {e : Entry}
    (known : c.byHandle parent = some e) {h : Handle} :
    h ∈ c.childrenOf parent ↔ c.isLiveChild h e.id = true := by
  rw [childrenOf, readD, known, isLiveChild_iff]
  exact wf.mem_childList

theorem WellFormed.follows_iff {parent : Handle} {e : Entry} (known : c.byHandle parent = some e)
    {predecessor placing : Option Handle} :
    c.Follows e.id predecessor placing ↔
      ∀ p ∈ predecessor, p ∈ c.childrenOf parent ∧ some p ≠ placing := by
  simp only [Follows, wf.mem_childrenOf_iff known, isLiveChild_iff]

theorem WellFormed.checkFollows_eq_error_iff {parent : Handle} {e : Entry}
    (known : c.byHandle parent = some e) (parentLive : e.isDeleted = false)
    {predecessor placing : Option Handle} {refusal : EditRefusal} :
    c.checkFollows e predecessor placing = .error refusal ↔
      c.PlaceRefused placing parent predecessor refusal := by
  have live : c.IsLive parent := ⟨e, known, parentLive⟩
  have inFolder {p : Handle} : c.isLiveChild p e.id = true ↔ p ∈ c.childrenOf parent :=
    (wf.mem_childrenOf_iff known).symm
  constructor
  · intro refused
    cases predecessor with
    | none => cases refused
    | some p =>
      simp only [checkFollows] at refused
      split at refused
      · cases refused
      · rename_i misplaced
        cases refused
        rw [wf.handles parent e known]
        refine .notAChild live rfl ?_
        by_cases child : p ∈ c.childrenOf parent
        · rw [inFolder.mpr child, Bool.true_and, decide_eq_true_eq, not_not] at misplaced
          exact .inr misplaced.symm
        · exact .inl child
  · intro refused
    cases refused with
    | parentGone gone => exact absurd live gone
    | @notAChild p _ given misplaced =>
      subst given
      have failing : ¬ (c.isLiveChild p e.id && some p ≠ placing) = true := by
        rw [Bool.and_eq_true, inFolder, decide_eq_true_eq]
        rintro ⟨child, other⟩
        rcases misplaced with stranger | itself
        · exact stranger child
        · exact other itself.symm
      rw [checkFollows, if_neg failing, wf.handles parent e known]

end

/-! ## The look for a circle -/

section
variable {c : Contents} (wf : WellFormed c)
include wf

theorem Rooted.isAtOrAbove_iff_liesWithin (rooted : Rooted c) {node parent : Handle}
    {e p : Entry} (known : c.byHandle node = some e) (parentKnown : c.byHandle parent = some p) :
    c.isAtOrAbove e.id p.id = true ↔ c.LiesWithin parent node := by
  rw [rooted.isAtOrAbove_iff wf]
  constructor
  · rintro (same | ⟨chain, parents, x, member, named⟩)
    · -- the chain of an entry begins with the entry itself
      obtain rfl := wf.handle_unique known parentKnown same
      obtain ⟨chain, parents⟩ := rooted _ _ parentKnown
      obtain ⟨first, above, rfl, found⟩ := parents.head
      exact ⟨p, _, parentKnown, parents, first, List.mem_cons_self,
        wf.handle_unique (wf.byId_iff.mp found).1 parentKnown (wf.byId_iff.mp found).2⟩
    · obtain ⟨id, found⟩ := parents.exists_byId x member
      exact ⟨p, chain, parentKnown, parents, x, member,
        wf.handle_unique (wf.byId_iff.mp found).1 known named⟩
  · rintro ⟨q, chain, found, parents, x, member, rfl⟩
    cases parentKnown.symm.trans found
    obtain ⟨id, found⟩ := parents.exists_byId x member
    cases known.symm.trans (wf.byId_iff.mp found).1
    exact .inr ⟨chain, parents, e, member, rfl⟩

/-- No entry but the root lies above its own parent, so that a node which is where it
is wanted is in no circle. -/
theorem WellFormed.parent_not_within {node parent : Handle} {e p : Entry}
    (known : c.byHandle node = some e) (parentKnown : c.byHandle parent = some p)
    (inner : node ≠ rootHandle) (under : e.parentId = p.id) : ¬ c.LiesWithin parent node := by
  rintro ⟨q, chain, found, parents, x, member, rfl⟩
  cases parentKnown.symm.trans found
  obtain ⟨id, there⟩ := parents.exists_byId x member
  cases known.symm.trans (wf.byId_iff.mp there).1
  have notRoot : e.id ≠ .root := fun isRoot =>
    inner ((wf.isRoot_iff known).mp (decide_eq_true isRoot))
  have whole : c.ParentChain e.id (e :: chain) :=
    .up (wf.byId_of_byHandle known) notRoot (under ▸ parents)
  have distinct := whole.nodup wf
  rw [List.map_cons, List.nodup_cons] at distinct
  exact distinct.1 (List.mem_map_of_mem member)

end

end Contents

namespace Transaction
open Contents

/-- An edit that is refused leaves no trace. -/
theorem move_refused {t : Transaction} {node : EditableNode} {parent : Handle}
    {predecessor : Option Handle} {refusal : EditRefusal}
    (refused : (t.move node parent predecessor).1 = .error refusal) :
    (t.move node parent predecessor).2 = t := by
  rcases move_cases t node parent predecessor with ⟨reason, same⟩ | ⟨-, same⟩ | ⟨e, p, -, moved⟩
  · rw [same]
  · rw [same]
  · rw [moved] at refused
    cases refused

theorem createNode_refused {t : Transaction} {fresh : EntryId} {parent : Handle}
    {predecessor : Option Handle} {refusal : EditRefusal}
    (refused : (t.createNode fresh parent predecessor).1 = .error refusal) :
    (t.createNode fresh parent predecessor).2 = t := by
  rcases createNode_cases t fresh parent predecessor with ⟨reason, same⟩ | ⟨p, -, made⟩
  · rw [same]
  · rw [made] at refused
    cases refused

theorem createNode_eq_error_iff {t : Transaction} (wf : WellFormed t.contents) {fresh : EntryId}
    (free : t.contents.ids[fresh]? = none) {parent : Handle} {predecessor : Option Handle}
    {refusal : EditRefusal} :
    (t.createNode fresh parent predecessor).1 = .error refusal ↔
      t.contents.PlaceRefused none parent predecessor refusal := by
  unfold createNode
  dsimp only
  cases parentFound : t.contents.live parent with
  | error reason =>
    obtain ⟨gone, rfl⟩ := live_eq_error_iff.mp parentFound
    simp only [Except.error.injEq]
    constructor
    · rintro rfl
      exact .parentGone gone
    · rintro (_ | ⟨live, -, -⟩)
      · rfl
      · exact absurd live gone
  | ok p =>
    obtain ⟨known, live⟩ := live_eq_ok_iff.mp parentFound
    rw [← wf.checkFollows_eq_error_iff known live]
    dsimp only
    cases t.contents.checkFollows p predecessor none with
    | error reason => simp
    | ok _ => simp [insertFresh_eq, free]

/-- The checks of a move follow one another. -/
theorem placement_eq_error_iff {c : Contents} {node parent : Handle} {predecessor : Option Handle}
    {refusal : EditRefusal} :
    placement c node parent predecessor = .error refusal ↔
      c.live node = .error refusal ∨ ∃ e, c.live node = .ok e ∧
        (c.live parent = .error refusal ∨ ∃ p, c.live parent = .ok p ∧
          (c.checkFollows p predecessor (some node) = .error refusal ∨
            c.checkFollows p predecessor (some node) = .ok () ∧
              ¬ (e.parentId = p.id ∧ c.predecessor node = predecessor) ∧
              c.isAtOrAbove e.id p.id = true ∧ refusal = .wouldCreateCycle node parent)) := by
  unfold placement
  simp only [bind, Except.bind]
  cases c.live node with
  | error reason => simp
  | ok e =>
    cases c.live parent with
    | error reason => simp
    | ok p =>
      simp only [Except.ok.injEq, exists_eq_left', reduceCtorEq, false_or]
      cases c.checkFollows p predecessor (some node) with
      | error reason => simp
      | ok _ =>
        by_cases here : e.parentId = p.id ∧ c.predecessor node = predecessor
        · simp [here, pure, Except.pure]
        · cases above : c.isAtOrAbove e.id p.id with
          | false => simp [here, pure, Except.pure]
          | true =>
            simp only [here, if_false, if_true, throw, throwThe, MonadExceptOf.throw,
              Except.error.injEq, reduceCtorEq, not_false_eq_true, true_and, false_or]
            exact eq_comm

theorem move_eq_error_iff {t : Transaction} {node : EditableNode} {parent : Handle}
    {predecessor : Option Handle} {refusal : EditRefusal} :
    (t.move node parent predecessor).1 = .error refusal ↔
      placement t.contents node.handle parent predecessor = .error refusal := by
  unfold move
  split
  · rename_i found
    simp [found]
  · rename_i found
    simp [found]
  · rename_i found
    simp [found]

/-- A move is refused where the node or its new parent is gone, where the predecessor
is not in its place, and where the node would come to lie in itself. For that nobody
looks when the node is where it is wanted, and nobody has to. -/
theorem move_eq_error_iff_moveRefused {t : Transaction} (wf : WellFormed t.contents)
    (rooted : Rooted t.contents) {node : EditableNode} (inner : node.handle ≠ rootHandle)
    {parent : Handle} {predecessor : Option Handle} {refusal : EditRefusal} :
    (t.move node parent predecessor).1 = .error refusal ↔
      t.contents.MoveRefused node.handle parent predecessor refusal := by
  rw [move_eq_error_iff, placement_eq_error_iff]
  constructor
  · rintro (nodeGone | ⟨e, nodeFound, parentGone | ⟨p, parentFound, misplaced | circle⟩⟩)
    · obtain ⟨gone, rfl⟩ := live_eq_error_iff.mp nodeGone
      exact .nodeGone gone
    · obtain ⟨gone, rfl⟩ := live_eq_error_iff.mp parentGone
      exact .misplaced (isLive_of_live nodeFound) (.parentGone gone)
    · obtain ⟨parentKnown, parentLive⟩ := live_eq_ok_iff.mp parentFound
      exact .misplaced (isLive_of_live nodeFound)
        ((wf.checkFollows_eq_error_iff parentKnown parentLive).mp misplaced)
    · obtain ⟨follows, -, above, rfl⟩ := circle
      obtain ⟨nodeKnown, -⟩ := live_eq_ok_iff.mp nodeFound
      obtain ⟨parentKnown, -⟩ := live_eq_ok_iff.mp parentFound
      refine .intoItself (isLive_of_live nodeFound) (isLive_of_live parentFound) ?_
        ((rooted.isAtOrAbove_iff_liesWithin wf nodeKnown parentKnown).mp above)
      simpa using (wf.follows_iff parentKnown).mp (checkFollows_eq_ok_iff.mp follows)
  · intro refused
    cases refused with
    | nodeGone gone => exact .inl (live_eq_error_iff.mpr ⟨gone, rfl⟩)
    | misplaced live refused =>
      obtain ⟨e, nodeLive⟩ := live
      refine .inr ⟨e, live_eq_ok_iff.mpr nodeLive, ?_⟩
      by_cases parentLive : t.contents.IsLive parent
      · obtain ⟨p, parentKnown, alive⟩ := parentLive
        exact .inr ⟨p, live_eq_ok_iff.mpr ⟨parentKnown, alive⟩,
          .inl ((wf.checkFollows_eq_error_iff parentKnown alive).mpr refused)⟩
      · cases refused with
        | parentGone gone => exact .inl (live_eq_error_iff.mpr ⟨gone, rfl⟩)
        | notAChild live => exact absurd live parentLive
    | intoItself live parentLive follows within =>
      obtain ⟨e, nodeKnown, alive⟩ := live
      obtain ⟨p, parentKnown, parentAlive⟩ := parentLive
      refine .inr ⟨e, live_eq_ok_iff.mpr ⟨nodeKnown, alive⟩,
        .inr ⟨p, live_eq_ok_iff.mpr ⟨parentKnown, parentAlive⟩, .inr ⟨?_, ?_, ?_, rfl⟩⟩⟩
      · exact checkFollows_eq_ok_iff.mpr ((wf.follows_iff parentKnown).mpr (by simpa using follows))
      · -- the check is left out for a node that stays, which could not have failed it
        rintro ⟨under, -⟩
        exact wf.parent_not_within nodeKnown parentKnown inner under within
      · exact (rooted.isAtOrAbove_iff_liesWithin wf nodeKnown parentKnown).mpr within

end Transaction

namespace Directory
open Contents

/-- A transaction that is open on a directory that was edited before, after some more
edits. -/
def editing (name : String) (transactions : List (Writer × List NodeEdit)) (writer : Writer)
    (edits : List NodeEdit) : Transaction :=
  edits.foldl Transaction.edit ((afterEdits name transactions).write writer)

theorem editing_rooted (name : String) (transactions : List (Writer × List NodeEdit))
    (writer : Writer) (edits : List NodeEdit) :
    (editing name transactions writer edits).contents.Reachable ∧
      Rooted (editing name transactions writer edits).contents :=
  edits_induction edits (fun step reachable rooted => step.rooted reachable.wellFormed rooted)
    (afterEdits_reachable name transactions) (afterEdits_rooted name transactions)

/-- A move or a creation that is refused changes nothing at all, whatever was written
before. In a directory that was edited through nodes alone it is refused exactly for one
of the reasons that there are. -/
theorem refusals_exact :
    (∀ (t : Transaction) (node : EditableNode) parent predecessor refusal,
      (t.move node parent predecessor).1 = .error refusal →
        (t.move node parent predecessor).2 = t) ∧
    (∀ (t : Transaction) fresh parent predecessor refusal,
      (t.createNode fresh parent predecessor).1 = .error refusal →
        (t.createNode fresh parent predecessor).2 = t) ∧
    ∀ name transactions writer edits,
      (∀ (node : EditableNode) parent predecessor refusal, node.Obtained →
        (((editing name transactions writer edits).move node parent predecessor).1 =
            .error refusal ↔
          (editing name transactions writer edits).contents.MoveRefused node.handle parent
            predecessor refusal)) ∧
      ∀ fresh parent predecessor refusal,
        (editing name transactions writer edits).contents.ids[fresh]? = none →
        (((editing name transactions writer edits).createNode fresh parent predecessor).1 =
            .error refusal ↔
          (editing name transactions writer edits).contents.PlaceRefused none parent predecessor
            refusal) := by
  refine ⟨fun _ _ _ _ _ => Transaction.move_refused,
    fun _ _ _ _ _ => Transaction.createNode_refused, ?_⟩
  intro name transactions writer edits
  obtain ⟨reachable, rooted⟩ := editing_rooted name transactions writer edits
  refine ⟨?_, ?_⟩
  · intro node parent predecessor refusal obtained
    exact Transaction.move_eq_error_iff_moveRefused reachable.wellFormed rooted obtained.inner
  · intro fresh parent predecessor refusal free
    exact Transaction.createNode_eq_error_iff reachable.wellFormed free

/-- A folder in a folder, and a removed one besides. -/
def nested : Transaction :=
  editing "u" [(.embedder, [.create ⟨"a"⟩ 1 none, .create ⟨"b"⟩ 2 none, .create ⟨"c"⟩ 1 none])]
    .embedder [.remove ⟨4⟩]

theorem refusals_exact_nested :
    ((⟨2⟩ : EditableNode).Obtained ∧
      (nested.move ⟨2⟩ 3 none).1 = .error (.wouldCreateCycle 2 3) ∧
      (nested.move ⟨2⟩ 3 none).2 = nested ∧
      nested.contents.MoveRefused 2 3 none (.wouldCreateCycle 2 3)) ∧
    (nested.contents.ids[(⟨"d"⟩ : EntryId)]? = none ∧
      (nested.createNode ⟨"d"⟩ 1 (some 4)).1 = .error (.predecessorNotChild 4 1) ∧
      (nested.createNode ⟨"d"⟩ 1 (some 4)).2 = nested ∧
      nested.contents.PlaceRefused none 1 (some 4) (.predecessorNotChild 4 1)) := by
  obtain ⟨moves, creations, exact⟩ := refusals_exact
  obtain ⟨movesExact, creationsExact⟩ := exact "u" _ .embedder [.remove ⟨4⟩]
  have obtained : (⟨2⟩ : EditableNode).Obtained :=
    .byHandle (c := nested.contents) (h := 2) (by decide +kernel)
  have circular : (nested.move ⟨2⟩ 3 none).1 = .error (.wouldCreateCycle 2 3) := by
    decide +kernel
  have free : nested.contents.ids[(⟨"d"⟩ : EntryId)]? = none := by decide +kernel
  have removed : (nested.createNode ⟨"d"⟩ 1 (some 4)).1 = .error (.predecessorNotChild 4 1) := by
    decide +kernel
  exact ⟨⟨obtained, circular, moves _ _ _ _ _ circular,
      (movesExact _ _ _ _ obtained).mp circular⟩,
    free, removed, creations _ _ _ _ _ removed, (creationsExact _ _ _ _ free).mp removed⟩

end Directory

end SharedTree
