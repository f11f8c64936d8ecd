import Mathlib.Data.List.Sort
import SharedTree.Node.View
import SharedTree.Proofs.ChildOrder
import SharedTree.Proofs.LiveTree

/-! The walk that delivered additions and updates follow. It comes to each folder
before what lies in it, and takes the live entries of a folder by their positions.
Entries at one position are taken by their handles, although the folder lists them
by their ids; where no two entries of a folder share a position, the walk takes them
as the folder lists them. -/
namespace SharedTree
open Observations (compareSteps comparePaths)

/-- Nodes in the order of their paths stand in that order among more of them. -/
theorem TreeShape.sublist_of_paths {tree : TreeShape} {few many : List Handle}
    (first : few.Pairwise fun h k => comparePaths (tree.path h) (tree.path k) = .lt)
    (second : many.Pairwise fun h k => comparePaths (tree.path h) (tree.path k) = .lt)
    (among : few ⊆ many) : few.Sublist many := by
  have asymm : Std.Antisymm fun h k => comparePaths (tree.path h) (tree.path k) = .lt :=
    ⟨fun _ _ less greater => absurd greater (Std.OrientedCmp.not_lt_of_lt less)⟩
  have distinct : few.Nodup := by
    apply first.imp
    rintro h k less rfl
    cases less.symm.trans Std.ReflCmp.compare_self
  exact List.sublist_of_subperm_of_pairwise (List.subperm_of_subset distinct among) first second

/-- A depth-first walk comes to each node of a listing in turn, and after it to
whatever lies below it. -/
inductive Walks (below : Handle → List Handle) : List Handle → List Handle → Prop where
  | done : Walks below [] []
  | visit {h : Handle} {rest inner after : List Handle} (descend : Walks below (below h) inner)
      (proceed : Walks below rest after) : Walks below (h :: rest) (h :: (inner ++ after))

namespace Walks
variable {below : Handle → List Handle} {listing order : List Handle}

theorem subset (walks : Walks below listing order) : listing ⊆ order := by
  induction walks with
  | done => exact List.Subset.refl _
  | visit _ _ _ ih =>
    exact List.cons_subset_cons _ (List.Subset.trans ih (List.subset_append_right _ _))

/-- What lies below a node that was come to is come to as well. -/
theorem closed (walks : Walks below listing order) : ∀ h ∈ order, below h ⊆ order := by
  induction walks with
  | done => simp
  | visit descend _ inner after =>
    intro k member x child
    apply List.mem_cons_of_mem
    rw [List.mem_append]
    rcases List.mem_cons.mp member with rfl | member
    · exact .inl (descend.subset child)
    · rcases List.mem_append.mp member with member | member
      · exact .inl (inner k member child)
      · exact .inr (after k member child)

/-- A listing can be walked if what lies below each of its nodes can. -/
theorem of_each (each : ∀ h ∈ listing, ∃ inner, Walks below (below h) inner) :
    ∃ order, Walks below listing order := by
  induction listing with
  | nil => exact ⟨[], .done⟩
  | cons h rest ih =>
    obtain ⟨inner, descend⟩ := each h List.mem_cons_self
    obtain ⟨after, proceed⟩ := ih fun k member => each k (List.mem_cons_of_mem _ member)
    exact ⟨_, .visit descend proceed⟩

end Walks

namespace TreeShape

/-- Listings of children in the order of their steps. -/
structure Lists (tree : TreeShape) (below : Handle → List Handle) : Prop where
  children : ∀ h, ∀ k ∈ below h, tree.IsParent h k
  sorted : ∀ h, (below h).Pairwise fun a b => compareSteps (tree.step a) (tree.step b) = .lt

namespace Lists
variable {tree : TreeShape} {below : Handle → List Handle} (lists : tree.Lists below)
  {listing order : List Handle}
include lists

theorem atOrAbove (walks : Walks below listing order) :
    ∀ x ∈ order, ∃ h ∈ listing, tree.AtOrAbove h x := by
  induction walks with
  | done => simp
  | @visit h _ _ _ _ _ inner after =>
    intro x member
    rcases List.mem_cons.mp member with rfl | member
    · exact ⟨x, List.mem_cons_self, .refl⟩
    · rcases List.mem_append.mp member with member | member
      · obtain ⟨k, child, above⟩ := inner x member
        exact ⟨h, List.mem_cons_self, .head (lists.children h k child) above⟩
      · obtain ⟨k, listed, above⟩ := after x member
        exact ⟨k, List.mem_cons_of_mem _ listed, above⟩

theorem ends (walks : Walks below listing order) (tops : ∀ h ∈ listing, tree.Ends h) :
    ∀ x ∈ order, tree.Ends x := by
  induction walks with
  | done => simp
  | @visit h _ _ _ _ _ inner after =>
    rw [List.forall_mem_cons] at tops
    obtain ⟨own, tops⟩ := tops
    rw [List.forall_mem_cons, List.forall_mem_append]
    exact ⟨own, inner fun k child => .child (lists.children h k child) own, after tops⟩

/-- A walk through such listings comes to nodes in the order of their paths. -/
theorem precedes (walks : Walks below listing order) (siblings : listing.Pairwise fun a b =>
    tree.parent a = tree.parent b ∧ compareSteps (tree.step a) (tree.step b) = .lt) :
    order.Pairwise tree.Precedes := by
  induction walks with
  | done => exact .nil
  | @visit h rest inner after descend proceed ihInner ihAfter =>
    rw [List.pairwise_cons] at siblings
    obtain ⟨later, siblings⟩ := siblings
    have children : (below h).Pairwise fun a b =>
        tree.parent a = tree.parent b ∧ compareSteps (tree.step a) (tree.step b) = .lt := by
      apply (lists.sorted h).imp_of_mem
      intro a b first second less
      exact ⟨(lists.children h a first).trans (lists.children h b second).symm, less⟩
    have inside : ∀ x ∈ inner, tree.LiesAbove h x := by
      intro x member
      obtain ⟨k, child, above⟩ := lists.atOrAbove descend x member
      exact .head' (lists.children h k child) above
    have beside {x y : Handle} (own : tree.AtOrAbove h x) (member : y ∈ after) :
        tree.Precedes x y := by
      obtain ⟨k, listed, above⟩ := lists.atOrAbove proceed y member
      exact .beside (later k listed).1 (later k listed).2 own above
    -- What is walked inside `h` lies below it, and what is walked after it beside it.
    rw [List.pairwise_cons, List.pairwise_append]
    refine ⟨?_, ihInner children, ihAfter siblings,
      fun x first y second => beside (inside x first).to_reflTransGen second⟩
    intro x member
    rcases List.mem_append.mp member with member | member
    · exact .above (inside x member)
    · exact beside .refl member

end Lists

end TreeShape

namespace Contents
variable {c : Contents} {h k : Handle}

/-- The live nodes in a folder by their positions, and by their handles where they
share one. -/
def childrenByHandle (c : Contents) (h : Handle) : List Handle :=
  (c.childrenOf h).mergeSort fun a b => (compareSteps (c.shape.step a) (c.shape.step b)).isLE

theorem childrenByHandle_perm (c : Contents) (h : Handle) :
    (c.childrenByHandle h).Perm (c.childrenOf h) := List.mergeSort_perm _ _

theorem shape_ordinal {e : Entry} (known : c.byHandle h = some e) :
    c.shape.ordinal h = some e.ordinal := by
  simp [shape, known]

namespace WellFormed
variable (wf : WellFormed c)
include wf

theorem mem_childrenOf : k ∈ c.childrenOf h ↔
    ∃ parent e, c.byHandle h = some parent ∧ c.byHandle k = some e ∧ e.LiesIn parent.id := by
  cases known : c.byHandle h with
  | none => simp [childrenOf, readD, known]
  | some parent => simp [childrenOf, readD, known, wf.mem_childList]

theorem childrenOf_nodup (h : Handle) : (c.childrenOf h).Nodup := by
  cases known : c.byHandle h with
  | none => simp [childrenOf, readD, known]
  | some parent => simpa [childrenOf, readD, known] using wf.childList_nodup parent.id

theorem lists_childrenByHandle : c.shape.Lists c.childrenByHandle := by
  constructor
  · intro h k member
    obtain ⟨parent, e, parentKnown, known, live, inner, named⟩ :=
      wf.mem_childrenOf.mp ((c.childrenByHandle_perm h).mem_iff.mp member)
    exact (wf.isParent_iff known).mpr ⟨inner, parent, parentKnown, named.symm⟩
  · intro h
    have distinct := (c.childrenByHandle_perm h).nodup_iff.mpr (wf.childrenOf_nodup h)
    apply ((pairwise_sorted compareSteps c.shape.step _).and distinct).imp
    rintro a b ⟨notLater, apart⟩
    cases order : compareSteps (c.shape.step a) (c.shape.step b) with
    | lt => rfl
    | eq => exact absurd (congrArg Prod.snd (Std.LawfulEqCmp.eq_of_compare order)) apart
    | gt => rw [order] at notLater; cases notLater

/-- Where no two entries of a folder share a position, handles decide nothing. -/
theorem childrenByHandle_eq (apart : (c.childrenOf h).Pairwise fun a b =>
    c.shape.ordinal a ≠ c.shape.ordinal b) : c.childrenByHandle h = c.childrenOf h := by
  have sorted : (c.childrenOf h).Pairwise fun a b =>
      compareSteps (c.shape.step a) (c.shape.step b) = .lt := by
    cases known : c.byHandle h with
    | none => simp [childrenOf, readD, known]
    | some parent =>
      have listed : c.childrenOf h = c.childList parent.id := by simp [childrenOf, readD, known]
      rw [listed] at apart ⊢
      apply ((wf.childList_sorted parent.id).and apart).imp
      rintro x y ⟨⟨a, b, knownA, knownB, before⟩, differ⟩
      rw [shape_ordinal knownA, shape_ordinal knownB, ne_eq, Option.some.injEq] at differ
      have less := (Place.lt_iff.mp before).resolve_right fun tied => differ tied.1
      rw [TreeShape.step, TreeShape.step, shape_ordinal knownA, shape_ordinal knownB]
      exact Ordering.then_eq_lt.mpr (.inl less)
  apply (c.childrenByHandle_perm h).eq_of_pairwise ?_ (wf.lists_childrenByHandle.sorted h) sorted
  intro a b _ _ first second
  exact absurd second (Std.OrientedCmp.not_lt_of_lt first)

/-- A walk from the root comes to entries in the order of their paths. -/
theorem walk_sorted {order : List Handle}
    (walks : Walks c.childrenByHandle [rootHandle] order) :
    order.Pairwise fun h k => comparePaths (c.shape.path h) (c.shape.path k) = .lt := by
  have lists := wf.lists_childrenByHandle
  have ends := lists.ends walks (List.forall_mem_singleton.mpr wf.ends_root)
  apply (lists.precedes walks (List.pairwise_singleton _ _)).imp_of_mem
  intro h k memberH memberK first
  exact (TreeShape.precedes_iff (ends h memberH) (ends k memberK)).mp first

end WellFormed

theorem changesSince_others_sorted (opened closed : Contents) :
    (((opened.changesSince closed).filter (·.kind ≠ .delete)).map (·.id)).Pairwise fun h k =>
      comparePaths (closed.shape.path h) (closed.shape.path k) = .lt := by
  rw [List.pairwise_map]
  have sorted := (Observations.between opened closed).inTreeOrder_pairwise closed.shape
  apply (sorted.filter fun r => decide (r.kind ≠ .delete)).imp_of_mem
  intro r s memberR memberS less
  have kindR := of_decide_eq_true (List.mem_filter.mp memberR).2
  have kindS := of_decide_eq_true (List.mem_filter.mp memberS).2
  rwa [Observations.compareTold, if_neg kindR, if_neg kindS] at less

section Live
variable (wf : WellFormed c) (live : LiveChains c)
include wf live

/-- What lies below a live entry can be walked: chains get longer on the way down,
and are no longer than there are entries. -/
theorem LiveChains.exists_walk {e : Entry} (known : c.byHandle h = some e)
    (alive : e.isDeleted = false) :
    ∃ order, Walks c.childrenByHandle (c.childrenByHandle h) order := by
  obtain ⟨chain, parents, -⟩ := live h e known alive
  induction room : c.size - chain.length using Nat.strongRecOn generalizing h e chain with
  | ind n ih =>
    subst room
    apply Walks.of_each
    intro k member
    obtain ⟨parent, x, parentKnown, childKnown, childAlive, inner, named⟩ :=
      wf.mem_childrenOf.mp ((c.childrenByHandle_perm h).mem_iff.mp member)
    cases known.symm.trans parentKnown
    have notRoot : x.id ≠ .root := by simpa [Entry.isRoot, EntryId.isRoot] using inner
    have longer : c.ParentChain x.id (x :: chain) :=
      .up (wf.byId_of_byHandle childKnown) notRoot (named ▸ parents)
    have bound := longer.length_le_size wf
    rw [List.length_cons] at bound
    exact ih _ (by rw [List.length_cons]; omega) childKnown childAlive _ longer rfl

/-- A walk from the root comes to every live entry. -/
theorem LiveChains.mem_walk {order : List Handle}
    (walks : Walks c.childrenByHandle [rootHandle] order) {e : Entry}
    (known : c.byHandle h = some e) (alive : e.isDeleted = false) : h ∈ order := by
  have ends := live.ends wf known alive
  induction ends generalizing e with
  | top last =>
    cases root : e.isRoot with
    | true =>
      rw [(wf.isRoot_iff known).mp root]
      exact walks.subset List.mem_cons_self
    | false =>
      obtain ⟨k, parent, next, -⟩ := live.exists_parent wf known alive root
      cases last.symm.trans next
  | child next above ih =>
    obtain ⟨inner, parent, parentKnown, named⟩ := (wf.isParent_iff known).mp next
    obtain ⟨other, otherKnown, parentAlive⟩ := live.parent_alive wf known alive next
    cases parentKnown.symm.trans otherKnown
    apply walks.closed _ (ih parentKnown parentAlive)
    rw [(c.childrenByHandle_perm _).mem_iff, wf.mem_childrenOf]
    exact ⟨parent, e, parentKnown, known, alive, inner, named.symm⟩

end Live

end Contents

namespace Client
variable {σ : Type}
open Contents

/-- The additions and updates of a delivered list stand in the order in which a walk
from the root comes to the entries. The walk takes the children of each folder by
their positions, and by their handles where they share one. -/
theorem syncerList_walk (client : Client σ) {d : Directory} (reachable : d.contents.Reachable)
    (writes : List Write) (live : (writes.foldl Contents.write d.contents).LiveChains) :
    let closed := writes.foldl Contents.write d.contents
    let others := (client.syncerList d writes).filter (·.kind ≠ .delete)
    (∃ order, Walks closed.childrenByHandle [rootHandle] order) ∧
    (∀ order, Walks closed.childrenByHandle [rootHandle] order →
      (others.map (·.id)).Sublist order) ∧
    ∀ h, (closed.childrenByHandle h).Perm (closed.childrenOf h) ∧
      (closed.childrenByHandle h).Pairwise (fun a b =>
        compareSteps (closed.shape.step a) (closed.shape.step b) = .lt) ∧
      ((closed.childrenOf h).Pairwise
          (fun a b => closed.shape.ordinal a ≠ closed.shape.ordinal b) →
        closed.childrenByHandle h = closed.childrenOf h) := by
  intro closed others
  have wf : closed.WellFormed := (reachable.writes writes).wellFormed
  refine ⟨?_, ?_, fun h => ⟨closed.childrenByHandle_perm h, wf.lists_childrenByHandle.sorted h,
    wf.childrenByHandle_eq⟩⟩
  · obtain ⟨root, rootKnown, -, -, rootAlive⟩ := wf.root
    obtain ⟨inner, below⟩ := live.exists_walk wf rootKnown rootAlive
    exact ⟨_, .visit below .done⟩
  · intro order walks
    have told : others = (d.contents.changesSince closed).filter (·.kind ≠ .delete) := by
      rw [← client.syncerList_eq reachable writes]
    have visited : others.map (·.id) ⊆ order := by
      intro h member
      obtain ⟨r, listed, rfl⟩ := List.mem_map.mp member
      rw [told, List.mem_filter, mem_changesSince, decide_eq_true_eq] at listed
      obtain ⟨e, known, -, alive⟩ := listed.1.alive listed.2
      exact live.mem_walk wf walks known alive
    rw [told] at visited ⊢
    exact TreeShape.sublist_of_paths (changesSince_others_sorted d.contents closed)
      (wf.walk_sorted walks) visited

/-- Two folders come at one position, the later one by its handle being the first one
by its id, and an entry comes in the other. -/
def tied : List Write :=
  [.insert ⟨"b"⟩ .root .initial, .insert ⟨"a"⟩ .root .initial, .insert ⟨"c"⟩ ⟨"b"⟩ .initial]

theorem liveChains_tied : (tied.foldl Contents.write .initial).LiveChains :=
  liveChains_of_older (Reachable.initial.writes tied).wellFormed (by decide +kernel)

theorem syncerList_tied : listening.syncerList { name := "tester" } tied =
    [.added 2, .added 4, .added 3] := by
  rw [listening.syncerList_eq .initial]
  exact Observations.inTreeOrder_eq_of_sorted (by decide +kernel) (by decide +kernel)

/-- A walk that is given the two folders by their handles comes to the entries as
they are told of. -/
theorem syncerList_walk_tied :
    (tied.foldl Contents.write .initial).LiveChains ∧
    ∃ order, Walks (tied.foldl Contents.write .initial).childrenByHandle [rootHandle] order ∧
      [2, 4, 3].Sublist order := by
  obtain ⟨⟨order, walks⟩, sublist, -⟩ := syncerList_walk listening (d := { name := "tester" })
    .initial tied liveChains_tied
  have visited := sublist order walks
  rw [syncerList_tied] at visited
  exact ⟨liveChains_tied, order, walks, visited⟩

/-- One that takes them as the root lists them does not. -/
theorem syncerList_not_listed :
    Contents.initial.Reachable ∧ (tied.foldl Contents.write .initial).LiveChains ∧
    (tied.foldl Contents.write .initial).childList .root = [3, 2] ∧
    ∃ order, Walks (tied.foldl Contents.write .initial).childrenOf [rootHandle] order ∧
      ¬ (((listening.syncerList { name := "tester" } tied).filter (·.kind ≠ .delete)).map
        (·.id)).Sublist order := by
  refine ⟨.initial, liveChains_tied, by decide +kernel, [1, 3, 2, 4], ?_, ?_⟩
  · generalize closed : tied.foldl Contents.write .initial = c
    have first : c.childrenOf 1 = [3, 2] := by subst closed; decide +kernel
    have second : c.childrenOf 2 = [4] := by subst closed; decide +kernel
    have third : c.childrenOf 3 = [] := by subst closed; decide +kernel
    have fourth : c.childrenOf 4 = [] := by subst closed; decide +kernel
    have leaf {h : Handle} (none : c.childrenOf h = []) :
        Walks c.childrenOf (c.childrenOf h) [] := by
      rw [none]
      exact .done
    have inSecond : Walks c.childrenOf (c.childrenOf 2) [4] := by
      rw [second]
      exact .visit (leaf fourth) .done
    have inFirst : Walks c.childrenOf (c.childrenOf 1) [3, 2, 4] := by
      rw [first]
      exact .visit (leaf third) (.visit inSecond .done)
    exact .visit inFirst .done
  · rw [syncerList_tied]
    decide

end Client

end SharedTree
