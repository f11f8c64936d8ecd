import SharedTree.Proofs.RootPaths
import SharedTree.Proofs.SnapshotDifference

/-! The order in which observations are told. Every one is told once, whatever the
parents of the nodes are like. Deletions are told first, the deeper ones before the
others; additions and updates follow in the order of a walk, so that a node is told
of after everything above it, and before whatever belongs to a later sibling. -/
namespace SharedTree

/-- Sorting by a comparison puts nothing before what is less. -/
theorem pairwise_sorted {α β : Type} (cmp : β → β → Ordering) [Std.TransCmp cmp] (key : α → β)
    (l : List α) : (l.mergeSort fun a b => (cmp (key a) (key b)).isLE).Pairwise fun a b =>
      (cmp (key a) (key b)).isLE := by
  apply List.pairwise_mergeSort
  · exact fun a b c first second => Std.TransCmp.isLE_trans first second
  · intro a b
    have swap : cmp (key b) (key a) = (cmp (key a) (key b)).swap := Std.OrientedCmp.eq_swap
    rw [swap]
    cases cmp (key a) (key b) <;> rfl

namespace Observations
open TreeShape (Step)

instance : Std.TransCmp compareDepths :=
  have _deeper : Std.TransCmp fun a b : Nat × Handle => compare b.1 a.1 :=
    @Std.TransCmp.opposite _ (compareOn Prod.fst) _
  inferInstanceAs (Std.TransCmp
    (compareLex (fun a b : Nat × Handle => compare b.1 a.1) (compareOn Prod.snd)))

/-- The order in which two records are told. -/
def compareTold (tree : TreeShape) (r s : Change) : Ordering :=
  if r.kind = .delete then
    if s.kind = .delete then
      compareDepths ((tree.path r.id).length, r.id) ((tree.path s.id).length, s.id)
    else .lt
  else if s.kind = .delete then .gt
  else comparePaths (tree.path r.id) (tree.path s.id)

@[simp] theorem kind_deleted (h : Handle) : (Change.deleted h).kind = .delete := rfl

theorem kind_record_eq_delete_iff {h : Handle} {o : Observation} :
    (record h o).kind = .delete ↔ o = .delete := by
  cases o <;> simp [record, Change.added, Change.updated, Change.deleted]

/-- Records that are told as one are one entry's. -/
theorem id_eq_of_compareTold {tree : TreeShape} {r s : Change}
    (same : compareTold tree r s = .eq) : r.id = s.id := by
  unfold compareTold at same
  split at same
  · split at same
    · exact Std.LawfulEqCmp.eq_of_compare (Ordering.then_eq_eq.mp same).2
    · cases same
  · split at same
    · cases same
    · exact TreeShape.path_injective (Std.LawfulEqCmp.eq_of_compare same)

theorem compareTold_swap (tree : TreeShape) (r s : Change) :
    compareTold tree s r = (compareTold tree r s).swap := by
  unfold compareTold
  split <;> split
  · exact Std.OrientedCmp.eq_swap
  · rfl
  · rfl
  · exact Std.OrientedCmp.eq_swap

theorem inTreeOrder_pairwise (observations : Observations) (tree : TreeShape) :
    (observations.inTreeOrder tree).Pairwise fun r s => compareTold tree r s = .lt := by
  have weakly : (observations.inTreeOrder tree).Pairwise fun r s =>
      (compareTold tree r s).isLE := by
    rw [inTreeOrder, List.pairwise_append, List.pairwise_map, List.pairwise_map]
    have others : ∀ p ∈ ((observations.byEntry.toList.filter (·.2 ≠ .delete)).map fun p =>
        (tree.path p.1, record p.1 p.2)).mergeSort fun a b => (comparePaths a.1 b.1).isLE,
        p.1 = tree.path p.2.id ∧ p.2.kind ≠ .delete := by
      intro p member
      obtain ⟨q, kept, rfl⟩ := List.mem_map.mp (List.mem_mergeSort.mp member)
      have apart := of_decide_eq_true (List.mem_filter.mp kept).2
      exact ⟨by simp, fun deleted => apart (kind_record_eq_delete_iff.mp deleted)⟩
    refine ⟨?_, ?_, ?_⟩
    · apply (pairwise_sorted compareDepths id _).imp_of_mem
      intro a b memberA memberB notLater
      obtain ⟨p, -, rfl⟩ := List.mem_map.mp (List.mem_mergeSort.mp memberA)
      obtain ⟨q, -, rfl⟩ := List.mem_map.mp (List.mem_mergeSort.mp memberB)
      exact notLater
    · apply (pairwise_sorted comparePaths Prod.fst _).imp_of_mem
      intro a b memberA memberB notLater
      obtain ⟨pathA, keptA⟩ := others a memberA
      obtain ⟨pathB, keptB⟩ := others b memberB
      rw [pathA, pathB] at notLater
      rwa [compareTold, if_neg keptA, if_neg keptB]
    · intro r deleted s other
      obtain ⟨d, -, rfl⟩ := List.mem_map.mp deleted
      obtain ⟨p, member, rfl⟩ := List.mem_map.mp other
      rw [compareTold, if_pos (kind_deleted _), if_neg (others p member).2]
      rfl
  apply (weakly.and (List.pairwise_map.mp (observations.inTreeOrder_ids_nodup tree))).imp
  rintro r s ⟨notLater, apart⟩
  cases order : compareTold tree r s with
  | lt => rfl
  | eq => exact absurd (id_eq_of_compareTold order) apart
  | gt => rw [order] at notLater; cases notLater

/-- The records in their order are known once they are. -/
theorem inTreeOrder_eq_of_sorted {observations : Observations} {tree : TreeShape}
    {records : List Change}
    (same : records.Perm (observations.byEntry.toList.map fun p => record p.1 p.2))
    (sorted : records.Pairwise fun r s => compareTold tree r s = .lt) :
    observations.inTreeOrder tree = records := by
  apply ((observations.inTreeOrder_perm tree).trans same.symm).eq_of_pairwise ?_
    (observations.inTreeOrder_pairwise tree) sorted
  intro r s _ _ first second
  rw [compareTold_swap, first] at second
  cases second

/-! ## A history of observations -/

/-- One observation to be noted. -/
inductive Note where
  | added (id : Handle)
  | deleted (id : Handle)
  | updated (id : Handle) (positionChanged : Bool)

def note (observations : Observations) : Note → Observations
  | .added id => observations.noteAdded id
  | .deleted id => observations.noteDeleted id
  | .updated id positionChanged => observations.noteUpdated id positionChanged

/-- What is done with observations as long as they are not cleared. -/
inductive Use where
  | note (n : Note)
  | tell (tree : TreeShape)

/-- The observations that are left, and what was told. -/
def use (observations : Observations) : Use → Observations × List Change
  | .note n => (observations.note n, [])
  | .tell tree => (observations, observations.inTreeOrder tree)

def after (uses : List Use) : Observations :=
  uses.foldl (fun observations u => (observations.use u).1) empty

/-- The told list with its deletions apart from the rest. -/
theorem inTreeOrder_eq_append (observations : Observations) (tree : TreeShape) :
    observations.inTreeOrder tree =
      (observations.inTreeOrder tree).filter (·.kind = .delete) ++
        (observations.inTreeOrder tree).filter (·.kind ≠ .delete) := by
  have sorted := observations.inTreeOrder_pairwise tree
  generalize observations.inTreeOrder tree = told at sorted
  induction told with
  | nil => rfl
  | cons r told ih =>
    rw [List.pairwise_cons] at sorted
    obtain ⟨first, sorted⟩ := sorted
    by_cases deleted : r.kind = .delete
    · simpa [List.filter_cons, deleted] using ih sorted
    · have none : told.filter (·.kind = .delete) = [] := by
        rw [List.filter_eq_nil_iff]
        intro s member
        have later := first s member
        rw [compareTold, if_neg deleted] at later
        split at later
        · cases later
        · rename_i kept
          simpa using kept
      have rest := ih sorted
      rw [none, List.nil_append] at rest
      simpa [deleted, none] using rest

section Walk
variable {tree : TreeShape} {r s : Change}

/-- Of two deletions that of the deeper entry is told first, and among equals that of
the lesser handle. -/
theorem deletions_by_depth (first : r.kind = .delete) (second : s.kind = .delete)
    (told : compareTold tree r s = .lt) :
    (tree.path s.id).length < (tree.path r.id).length ∨
      (tree.path s.id).length = (tree.path r.id).length ∧ compare r.id s.id = .lt := by
  rw [compareTold, if_pos first, if_pos second] at told
  rcases Ordering.then_eq_lt.mp told with deeper | ⟨same, later⟩
  · exact .inl (Nat.compare_eq_lt.mp deeper)
  · exact .inr ⟨Nat.compare_eq_eq.mp same, later⟩

/-- No deletion is told before that of an entry that lies below. -/
theorem deletions_deepest_first (ends : tree.Ends s.id) (first : r.kind = .delete)
    (second : s.kind = .delete) (told : compareTold tree r s = .lt) :
    ¬ tree.LiesAbove r.id s.id := by
  intro above
  have depths := deletions_by_depth first second told
  obtain ⟨t, back, longer⟩ := ends.path_append_cons above
  rw [longer, List.length_append, List.length_cons] at depths
  omega

/-- A child goes before its parent, even among tombstones, unless it lies above that,
too. -/
theorem deletions_child_first (first : r.kind = .delete) (second : s.kind = .delete)
    (next : tree.IsParent r.id s.id) (outside : ¬ tree.AtOrAbove s.id r.id) :
    compareTold tree r s ≠ .lt := by
  intro told
  have depths := deletions_by_depth first second told
  rw [TreeShape.path_below next outside, List.length_append, List.length_singleton] at depths
  omega

/-- Of two other records the one told first is of the node that a walk comes to
first. -/
theorem others_walk (endsR : tree.Ends r.id) (endsS : tree.Ends s.id) (first : r.kind ≠ .delete)
    (second : s.kind ≠ .delete) (told : compareTold tree r s = .lt) :
    tree.Precedes r.id s.id := by
  rw [compareTold, if_neg first, if_neg second] at told
  exact (TreeShape.precedes_iff endsR endsS).mpr told

end Walk

/-- At any time there is one record for each entry that something was noted of, and
telling them leaves the observations as they are; the parents may be anyhow. If those
above the entries come to an end, an entry's deletion is told before those of what
lay above it, and the rest is told in the order of a walk: what lies above first, and
all that lies below one sibling before all that lies below a later one. -/
theorem inTreeOrder_walk (uses : List Use) (tree : TreeShape) :
    let observations := after uses
    let told := observations.inTreeOrder tree
    let deletions := told.filter (·.kind = .delete)
    let others := told.filter (·.kind ≠ .delete)
    after (uses ++ [.tell tree]) = observations ∧
    (∀ h, tree.Climbs [] h (tree.path h).reverse) ∧
    (told.map (·.id)).Nodup ∧
    (∀ r, r ∈ told ↔ ∃ o, observations.byEntry[r.id]? = some o ∧ r = record r.id o) ∧
    told = deletions ++ others ∧
    ((∀ r ∈ told, tree.Ends r.id) →
      deletions.Pairwise (fun r s =>
        ((tree.path s.id).length < (tree.path r.id).length ∨
          (tree.path s.id).length = (tree.path r.id).length ∧ compare r.id s.id = .lt) ∧
        ¬ tree.LiesAbove r.id s.id) ∧
      others.Pairwise (fun r s => tree.Precedes r.id s.id ∧ ¬ tree.LiesAbove s.id r.id ∧
        ∀ a b, tree.parent a = tree.parent b → compareSteps (tree.step a) (tree.step b) = .lt →
          ¬ (tree.AtOrAbove b r.id ∧ tree.AtOrAbove a s.id))) := by
  intro observations told deletions others
  have sorted : told.Pairwise fun r s => compareTold tree r s = .lt :=
    observations.inTreeOrder_pairwise tree
  refine ⟨by simp [after, use, observations], tree.climbs_path,
    observations.inTreeOrder_ids_nodup tree, ?_, observations.inTreeOrder_eq_append tree,
    fun ends => ⟨?_, ?_⟩⟩
  · intro r
    rw [mem_inTreeOrder]
    constructor
    · rintro ⟨h, o, noted, rfl⟩
      rw [record_id]
      exact ⟨o, noted, rfl⟩
    · rintro ⟨o, noted, made⟩
      exact ⟨r.id, o, noted, made.symm⟩
  · apply (sorted.filter _).imp_of_mem
    intro r s memberR memberS less
    obtain ⟨-, kindR⟩ := List.mem_filter.mp memberR
    obtain ⟨toldS, kindS⟩ := List.mem_filter.mp memberS
    have first := of_decide_eq_true kindR
    have second := of_decide_eq_true kindS
    exact ⟨deletions_by_depth first second less,
      deletions_deepest_first (ends s toldS) first second less⟩
  · apply (sorted.filter _).imp_of_mem
    intro r s memberR memberS first
    obtain ⟨toldR, kindR⟩ := List.mem_filter.mp memberR
    obtain ⟨toldS, kindS⟩ := List.mem_filter.mp memberS
    have precedes := others_walk (ends r toldR) (ends s toldS) (of_decide_eq_true kindR)
      (of_decide_eq_true kindS) first
    have strict := precedes.asymm (ends r toldR) (ends s toldS)
    refine ⟨precedes, fun above => strict (.above above), ?_⟩
    rintro a b siblings before ⟨aboveR, aboveS⟩
    exact strict (.beside siblings before aboveS aboveR)

/-- Two folders under a root, the later one without a position; handles run against
the order of the tree. -/
def folders : TreeShape := .ofList
  [⟨1, none, none⟩, ⟨2, some 1, some .initial⟩, ⟨3, some 1, none⟩, ⟨4, some 2, some .initial⟩,
    ⟨5, some 9, none⟩, ⟨8, some 4, none⟩, ⟨9, some 3, some .initial⟩]

/-- The entries of one folder are removed and those of the other come. -/
def clearing : List Use :=
  [.note (.added 5), .note (.deleted 4), .note (.added 9), .tell folders, .note (.updated 2 true),
    .note (.deleted 8), .note (.updated 3 false), .note (.updated 9 true)]

theorem inTreeOrder_walk_clearing :
    (after clearing).inTreeOrder folders =
        [.deleted 8, .deleted 4, .updated 3 false, .added 9, .added 5, .updated 2 true] ∧
      (∀ r ∈ (after clearing).inTreeOrder folders, folders.Ends r.id) ∧
      (((after clearing).inTreeOrder folders).filter (·.kind ≠ .delete)).Pairwise
        fun r s => folders.Precedes r.id s.id := by
  have list : (after clearing).inTreeOrder folders =
      [.deleted 8, .deleted 4, .updated 3 false, .added 9, .added 5, .updated 2 true] :=
    inTreeOrder_eq_of_sorted (by decide +kernel) (by decide +kernel)
  have second : folders.Ends 2 := .child rfl (.top rfl)
  have third : folders.Ends 3 := .child rfl (.top rfl)
  have fourth : folders.Ends 4 := .child rfl second
  have ninth : folders.Ends 9 := .child rfl third
  have ends : ∀ r ∈ (after clearing).inTreeOrder folders, folders.Ends r.id := by
    rw [list]
    simp only [List.forall_mem_cons, List.not_mem_nil, false_imp_iff, implies_true, and_true]
    exact ⟨.child rfl fourth, fourth, third, ninth, .child rfl ninth, second⟩
  refine ⟨list, ends, ?_⟩
  obtain ⟨-, -, -, -, -, ordered⟩ := inTreeOrder_walk clearing folders
  exact (ordered ends).2.imp And.left

end Observations

end SharedTree
