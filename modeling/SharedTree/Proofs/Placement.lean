import Mathlib.Data.List.Nodup
import SharedTree.Proofs.ChildOrder
import SharedTree.Proofs.NodeEdits

/-! Where a placed entry comes to stand. The position that is computed for it
divides the other siblings in two: those up to and with the group that shares the
predecessor's position, and those beyond. The listing of the folder is the first
part, the entry, and the second part; nothing else in the directory moves. -/
namespace SharedTree.Contents

/-- The slots beyond the group that shares the position of a place; beyond no
place at all is every slot. -/
def isBeyond (lower : Option Place) (slot : Place × Handle) : Bool :=
  lower.all fun key => key.ordinal < slot.1.ordinal

section Ordinals
variable {c : Contents} {parent : EntryId} {lower : Option Place} {moving : Option Handle}

/-- A slot beyond the group is not before the upper bound, for that is the first
position beyond it. -/
theorem upperOrdinal_le {slot : Place × Handle} (member : slot ∈ c.places parent)
    (other : some slot.2 ≠ moving) (beyond : isBeyond lower slot = true) :
    ∃ hi, c.upperOrdinal parent lower moving = some hi ∧ ¬ slot.1.ordinal < hi := by
  have later : (lower.all fun key => key < slot.1) = true := by
    cases lower with
    | none => rfl
    | some key =>
      have less : key.ordinal < slot.1.ordinal := by simpa [isBeyond] using beyond
      simpa using Place.lt_iff.mpr (.inl less)
  cases found : c.upperOrdinal parent lower moving with
  | none =>
    have absent := List.find?_eq_none.mp found slot.1.ordinal
      (List.mem_map_of_mem (List.mem_filter.mpr ⟨member, by simp [other, later]⟩))
    exact absurd beyond absent
  | some hi =>
    refine ⟨hi, rfl, ?_⟩
    intro less
    obtain ⟨isUpper, before, after, whole, skipped⟩ := List.find?_eq_some_iff_append.mp found
    have sorted : (((c.places parent).filter fun slot =>
        some slot.2 ≠ moving && lower.all fun key => key < slot.1).map (·.1.ordinal)).Pairwise
          fun a b => ¬ b < a := by
      rw [List.pairwise_map]
      apply ((places_sorted c parent).sublist List.filter_sublist).imp
      intro a b before after
      rcases Place.lt_iff.mp before with first | ⟨same, -⟩
      · exact Ordinal.lt_asymm first after
      · exact Ordinal.lt_irrefl _ (same ▸ after)
    have listed : slot.1.ordinal ∈ before ++ hi :: after := by
      rw [← whole]
      exact List.mem_map_of_mem (List.mem_filter.mpr ⟨member, by simp [other, later]⟩)
    rw [whole, List.pairwise_append, List.pairwise_cons] at sorted
    rcases List.mem_append.mp listed with early | late
    · have refused := skipped _ early
      rw [Bool.not_eq_true'] at refused
      exact absurd (beyond.symm.trans refused) (by decide)
    · rcases List.mem_cons.mp late with same | late
      · exact Ordinal.lt_irrefl _ (same ▸ less)
      · exact sorted.2.1.1 _ late less

/-- The computed position is past every other slot that is not beyond the group,
and before every one that is. -/
theorem ordinalFollowing_divides (predecessor : Option Handle) {slot : Place × Handle}
    (member : slot ∈ c.places parent) (other : some slot.2 ≠ moving) :
    if isBeyond (c.lowerPlace predecessor) slot
    then c.ordinalFollowing parent predecessor moving < slot.1.ordinal
    else slot.1.ordinal < c.ordinalFollowing parent predecessor moving := by
  have ordered := c.ordered_upperOrdinal parent (c.lowerPlace predecessor) moving
  split
  · rename_i beyond
    obtain ⟨hi, upper, notBefore⟩ := upperOrdinal_le member other beyond
    have below : c.ordinalFollowing parent predecessor moving < hi :=
      Ordinal.between_lt ordered upper
    rcases Ordinal.lt_or_eq_or_gt slot.1.ordinal hi with less | same | greater
    · exact absurd less notBefore
    · exact same ▸ below
    · exact Ordinal.lt_trans below greater
  · rename_i within
    cases lower : c.lowerPlace predecessor with
    | none => simp [lower, isBeyond] at within
    | some key =>
      have above : key.ordinal < c.ordinalFollowing parent predecessor moving :=
        Ordinal.lt_between ordered (by rw [lower]; rfl)
      have notBeyond : ¬ key.ordinal < slot.1.ordinal := by simpa [lower, isBeyond] using within
      rcases Ordinal.lt_or_eq_or_gt slot.1.ordinal key.ordinal with less | same | greater
      · exact Ordinal.lt_trans less above
      · exact same ▸ above
      · exact absurd greater notBeyond

end Ordinals

/-! ## The listing in two parts -/

/-- The slots of a folder but for those of one entry. -/
def others (c : Contents) (parent : EntryId) (node : Handle) : List (Place × Handle) :=
  (c.places parent).filter (·.2 ≠ node)

theorem mem_others {c : Contents} {parent : EntryId} {node : Handle} {slot : Place × Handle} :
    slot ∈ c.others parent node ↔ slot ∈ c.places parent ∧ slot.2 ≠ node := by
  simp [others]

theorem others_sorted (c : Contents) (parent : EntryId) (node : Handle) :
    (c.others parent node).Pairwise fun a b => a.1 < b.1 :=
  (places_sorted c parent).sublist List.filter_sublist

/-- A slot within the group is before any beyond it. -/
theorem lt_of_isBeyond {lower : Option Place} {a b : Place × Handle}
    (within : isBeyond lower a = false) (beyond : isBeyond lower b = true) : a.1 < b.1 := by
  cases lower with
  | none => cases within
  | some key =>
    have notAbove : ¬ key.ordinal < a.1.ordinal := by simpa [isBeyond] using within
    have above : key.ordinal < b.1.ordinal := by simpa [isBeyond] using beyond
    apply Place.lt_iff.mpr
    rcases Ordinal.lt_or_eq_or_gt a.1.ordinal key.ordinal with less | same | greater
    · exact .inl (Ordinal.lt_trans less above)
    · exact .inl (same ▸ above)
    · exact absurd greater notAbove

theorem others_split (c : Contents) (parent : EntryId) (node : Handle) (lower : Option Place) :
    c.others parent node =
      (c.others parent node).filter (!isBeyond lower ·) ++
        (c.others parent node).filter (isBeyond lower) := by
  have sorted := others_sorted c parent node
  apply eq_of_sorted sorted
  · rw [List.pairwise_append]
    refine ⟨sorted.sublist List.filter_sublist, sorted.sublist List.filter_sublist, ?_⟩
    intro a memberA b memberB
    exact lt_of_isBeyond (by simpa using (List.mem_filter.mp memberA).2)
      (List.mem_filter.mp memberB).2
  · intro slot
    rw [List.mem_append, List.mem_filter, List.mem_filter]
    cases isBeyond lower slot <;> simp

theorem WellFormed.others_handles {c : Contents} (wf : WellFormed c) (parent : EntryId)
    (node : Handle) : (c.others parent node).map (·.2) = (c.childList parent).erase node := by
  rw [(wf.childList_nodup parent).erase_eq_filter, childList, List.filter_map, others]
  congr 2
  funext slot
  by_cases same : slot.2 = node <;> simp [same]

/-! ## One entry at a new place -/

section Placed
variable {c after : Contents} {node : Handle} {e : Entry} {parent : EntryId}
  (wf : WellFormed c) (wfAfter : WellFormed after) (there : after.byHandle node = some e)
  (kept : ∀ k, k ≠ node → after.byHandle k = c.byHandle k)
include wf wfAfter there kept

theorem mem_places_placed {slot : Place × Handle} :
    slot ∈ after.places parent ↔
      (slot = (.ofEntry e, node) ∧ e.LiesIn parent) ∨ slot ∈ c.others parent node := by
  obtain ⟨place, k⟩ := slot
  rw [mem_others, wf.mem_places, wfAfter.mem_places]
  by_cases same : k = node
  · subst same
    simp only [there, Option.some.injEq, exists_eq_left', Prod.mk.injEq, and_true, ne_eq,
      not_true_eq_false, and_false, or_false]
    exact ⟨fun ⟨inside, place⟩ => ⟨place.symm, inside⟩, fun ⟨place, inside⟩ => ⟨inside, place.symm⟩⟩
  · simp [kept k same, same]

/-- A folder that the entry does not lie in afterwards only loses it. -/
theorem childList_elsewhere (elsewhere : ¬ e.LiesIn parent) :
    after.childList parent = (c.childList parent).erase node := by
  rw [← wf.others_handles, childList]
  congr 1
  apply eq_of_sorted (places_sorted after parent) (others_sorted c parent node)
  intro slot
  rw [mem_places_placed wf wfAfter there kept]
  simp [elsewhere]

/-- The folder that the entry is placed in has it between the two parts. -/
theorem places_target {predecessor moving : Option Handle} (inside : e.LiesIn parent)
    (position : e.ordinal = c.ordinalFollowing parent predecessor moving)
    (leftOut : ∀ slot ∈ c.others parent node, some slot.2 ≠ moving) :
    after.places parent =
      (c.others parent node).filter (!isBeyond (c.lowerPlace predecessor) ·) ++
        (.ofEntry e, node) ::
          (c.others parent node).filter (isBeyond (c.lowerPlace predecessor)) := by
  have sorted := others_sorted c parent node
  have divides {slot : Place × Handle} (member : slot ∈ c.others parent node) :=
    position ▸ ordinalFollowing_divides predecessor (mem_others.mp member).1
      (leftOut slot member)
  apply eq_of_sorted (places_sorted after parent)
  · rw [List.pairwise_append, List.pairwise_cons]
    refine ⟨sorted.sublist List.filter_sublist,
      ⟨?_, sorted.sublist List.filter_sublist⟩, ?_⟩
    · intro b memberB
      obtain ⟨member, beyond⟩ := List.mem_filter.mp memberB
      have less := divides member
      rw [if_pos beyond] at less
      exact Place.lt_iff.mpr (.inl less)
    · intro a memberA b memberB
      obtain ⟨member, within⟩ := List.mem_filter.mp memberA
      have notBeyond : isBeyond (c.lowerPlace predecessor) a = false := by simpa using within
      rcases List.mem_cons.mp memberB with rfl | memberB
      · have less := divides member
        rw [notBeyond, if_neg Bool.false_ne_true] at less
        exact Place.lt_iff.mpr (.inl less)
      · exact lt_of_isBeyond notBeyond (List.mem_filter.mp memberB).2
  · intro slot
    rw [mem_places_placed wf wfAfter there kept, List.mem_append, List.mem_cons, List.mem_filter,
      List.mem_filter]
    cases isBeyond (c.lowerPlace predecessor) slot <;> simp [inside, or_comm]

end Placed

/-! ## Placing through nodes -/

/-- Two entries that share one position, under whatever parents. -/
def SharesOrdinal (c : Contents) (h k : Handle) : Prop :=
  ∃ a b, c.byHandle h = some a ∧ c.byHandle k = some b ∧ a.ordinal = b.ordinal

/-- A node is put first, or right after the last one of the others that shares
the predecessor's position. -/
def PutIn (c : Contents) (predecessor : Option Handle) (node : Handle)
    (others listing : List Handle) : Prop :=
  match predecessor with
  | none => listing = node :: others
  | some p => ∃ before last after, others = before ++ last :: after ∧ c.SharesOrdinal last p ∧
      (∀ k ∈ after, ¬ c.SharesOrdinal k p) ∧ listing = before ++ last :: node :: after

/-- A predecessor that is alone at its position is what the node comes right
after. -/
theorem PutIn.right_after {c : Contents} {node p : Handle} {others listing : List Handle}
    (put : c.PutIn (some p) node others listing)
    (alone : ∀ k ∈ others, c.SharesOrdinal k p → k = p) :
    ∃ before after, others = before ++ p :: after ∧ listing = before ++ p :: node :: after := by
  obtain ⟨before, last, after, whole, shares, -, listed⟩ := put
  have same : last = p := alone last (whole ▸ List.mem_append_right _ List.mem_cons_self) shares
  subst same
  exact ⟨before, after, whole, listed⟩

/-- What placing a node under a parent makes of a directory. -/
structure Placed (c after : Contents) (node : Handle) (parentId : EntryId)
    (predecessor : Option Handle) : Prop where
  target : c.PutIn predecessor node ((c.childList parentId).erase node) (after.childList parentId)
  beside : ∀ p ∈ predecessor,
    (∀ k ∈ (c.childList parentId).erase node, c.SharesOrdinal k p → k = p) →
      ∃ before behind, (c.childList parentId).erase node = before ++ p :: behind ∧
        after.childList parentId = before ++ p :: node :: behind
  leaves : ∀ other, other ≠ parentId → after.childList other = (c.childList other).erase node
  elsewhere : ∀ other, other ≠ parentId → node ∉ c.childList other →
    after.childList other = c.childList other
  entries : ∀ h, h ≠ node → after.byHandle h = c.byHandle h

section Positioned
variable {c after : Contents} {node : Handle} {e : Entry} {parent : EntryId}
  {predecessor : Option Handle} (wf : WellFormed c)
include wf

/-- The position of a listed slot is its entry's. -/
theorem WellFormed.sharesOrdinal_iff {slot : Place × Handle} (member : slot ∈ c.places parent)
    {p : Handle} {b : Entry} (known : c.byHandle p = some b) :
    c.SharesOrdinal slot.2 p ↔ slot.1.ordinal = b.ordinal := by
  obtain ⟨a, found, -, place⟩ := wf.mem_places.mp member
  rw [← place]
  constructor
  · rintro ⟨a', b', foundA, foundB, same⟩
    cases found.symm.trans foundA
    cases known.symm.trans foundB
    exact same
  · exact fun same => ⟨a, b, found, known, same⟩

/-- The first part ends with a sibling at the predecessor's own position, for the
predecessor is in it and nothing in it is beyond. -/
theorem exists_last_of_group {p : Handle} {b : Entry} (known : c.byHandle p = some b)
    (inside : b.LiesIn parent) (apart : p ≠ node) :
    ∃ before last, (c.others parent node).filter (!isBeyond (some (.ofEntry b)) ·) =
        before ++ [last] ∧ last ∈ c.places parent ∧ last.1.ordinal = b.ordinal := by
  have listed : (Place.ofEntry b, p) ∈
      (c.others parent node).filter (!isBeyond (some (.ofEntry b)) ·) := by
    refine List.mem_filter.mpr
      ⟨mem_others.mpr ⟨wf.mem_places.mpr ⟨b, known, inside, rfl⟩, apart⟩, ?_⟩
    simp [isBeyond, Ordinal.lt_irrefl]
  rcases List.eq_nil_or_concat
      ((c.others parent node).filter (!isBeyond (some (.ofEntry b)) ·)) with
    empty | ⟨before, last, whole⟩
  · rw [empty] at listed
    cases listed
  · rw [List.concat_eq_append] at whole
    have final : last ∈ (c.others parent node).filter (!isBeyond (some (.ofEntry b)) ·) := by
      rw [whole]
      exact List.mem_append_right _ (List.mem_singleton_self last)
    have member := List.mem_filter.mp final
    have within : ¬ b.ordinal < last.1.ordinal := by
      simpa [isBeyond, Place.ofEntry] using member.2
    have sorted := (others_sorted c parent node).sublist
      (List.filter_sublist (p := (!isBeyond (some (.ofEntry b)) ·)))
    rw [whole, List.pairwise_append] at sorted
    refine ⟨before, last, whole, (mem_others.mp member.1).1, ?_⟩
    rw [whole] at listed
    rcases List.mem_append.mp listed with early | final
    · have less := sorted.2.2 _ early _ (List.mem_singleton_self last)
      rcases Place.lt_iff.mp less with before | ⟨same, -⟩
      · exact absurd before within
      · exact same.symm
    · cases List.mem_singleton.mp final
      rfl

variable (wfAfter : WellFormed after) (there : after.byHandle node = some e)
  (kept : ∀ k, k ≠ node → after.byHandle k = c.byHandle k)
include wfAfter there kept

/-- An entry at the position that is computed for it is placed as it was asked. -/
theorem placed_of_ordinalFollowing (moving : Option Handle) (inside : e.LiesIn parent)
    (position : e.ordinal = c.ordinalFollowing parent predecessor moving)
    (leftOut : ∀ slot ∈ c.others parent node, some slot.2 ≠ moving)
    (follows : c.Follows parent predecessor (some node)) :
    Placed c after node parent predecessor := by
  have leaves (other : EntryId) (different : other ≠ parent) :
      after.childList other = (c.childList other).erase node :=
    childList_elsewhere wf wfAfter there kept fun lies => different (lies.2.2.symm.trans inside.2.2)
  have target : c.PutIn predecessor node ((c.childList parent).erase node)
      (after.childList parent) := by
    have listed := places_target wf wfAfter there kept inside position leftOut
    have split := others_split c parent node (c.lowerPlace predecessor)
    rw [← wf.others_handles, split, childList, listed]
    cases predecessor with
    | none => simp [PutIn, lowerPlace, isBeyond]
    | some p =>
      obtain ⟨⟨b, known, lies⟩, apart⟩ := follows p rfl
      have lower : c.lowerPlace (some p) = some (.ofEntry b) := by simp [lowerPlace, known]
      rw [lower]
      obtain ⟨before, last, whole, member, same⟩ :=
        exists_last_of_group wf known lies fun same => apart (congrArg some same)
      refine ⟨before.map (·.2), last.2,
        ((c.others parent node).filter (isBeyond (some (.ofEntry b)))).map (·.2), ?_,
        (wf.sharesOrdinal_iff member known).mpr same, ?_, ?_⟩
      · simp [whole]
      · intro k memberK shares
        obtain ⟨slot, beyond, rfl⟩ := List.mem_map.mp memberK
        obtain ⟨other, beyond⟩ := List.mem_filter.mp beyond
        have equal := (wf.sharesOrdinal_iff (mem_others.mp other).1 known).mp shares
        have less : b.ordinal < slot.1.ordinal := by
          simpa [isBeyond, Place.ofEntry] using beyond
        exact Ordinal.lt_irrefl _ (equal ▸ less)
      · simp [whole]
  refine ⟨target, ?_, leaves, ?_, kept⟩
  · rintro p given alone
    cases given
    exact target.right_after alone
  · intro other different absent
    rw [leaves other different]
    exact List.erase_of_not_mem absent

end Positioned

theorem moved_placed {c : Contents} (wf : WellFormed c) {node parent : Handle}
    {predecessor : Option Handle} {e p : Entry}
    (moves : c.Moves node parent predecessor e p) (inner : node ≠ rootHandle) :
    Placed c (c.modify node fun e =>
      { e with
        parentId := p.id
        ordinal := c.ordinalFollowing p.id predecessor (some node)
        isUnsynced := true }) node p.id predecessor := by
  have notRoot : e.isRoot = false :=
    Bool.eq_false_iff.mpr fun root => inner ((wf.isRoot_iff moves.nodeKnown).mp root)
  refine placed_of_ordinalFollowing wf (wf.modify _ _)
    ((byHandle_modify_iff _ moves.nodeKnown).mpr (.inl ⟨rfl, rfl⟩)) ?_ (some node) ?_ ?_
    (fun slot member => ?_) moves.follows
  · intro k different
    rw [byHandle_modify, if_neg different.symm]
  · exact liesIn_changed.mpr ⟨notRoot, moves.nodeLive, rfl⟩
  · exact ordinal_changed _ _
  · exact fun same => (mem_others.mp member).2 (Option.some.inj same)

theorem created_placed {c : Contents} (wf : WellFormed c) {fresh : EntryId} {parent : Handle}
    {predecessor : Option Handle} {p : Entry}
    (creates : c.Creates fresh parent predecessor p) :
    Placed c ((c.inserted fresh p.id (c.ordinalFollowing p.id predecessor none)).modify
      c.nextHandle fun e => { e with isUnsynced := true }) c.nextHandle p.id predecessor := by
  have wfInserted := wf.inserted p.id (c.ordinalFollowing p.id predecessor none) creates.free
  have made : (c.inserted fresh p.id (c.ordinalFollowing p.id predecessor none)).byHandle
      c.nextHandle = some _ := wf.byHandle_inserted_iff.mpr (.inl ⟨rfl, rfl⟩)
  have inner : fresh ≠ .root := wf.ne_root_of_free creates.free
  refine placed_of_ordinalFollowing wf (wfInserted.modify _ _)
    ((byHandle_modify_iff _ made).mpr (.inl ⟨rfl, rfl⟩)) ?_ none ?_ ?_
    (fun _ _ => Option.some_ne_none _) fun q given => ?_
  · intro k different
    rw [byHandle_modify, if_neg different.symm, byHandle_inserted, if_neg different.symm]
  · exact liesIn_changed.mpr ⟨by simp [Entry.isRoot, EntryId.isRoot, Entry.create, inner], rfl, rfl⟩
  · exact ordinal_changed _ _
  · obtain ⟨child, -⟩ := creates.follows q given
    refine ⟨child, ?_⟩
    rintro same
    obtain ⟨e, known, -⟩ := child
    rw [Option.some.inj same, wf.nextHandle_unknown] at known
    cases known

end SharedTree.Contents

namespace SharedTree.Transaction
open Contents

/-- A node that is moved or created stands where it was asked to, among siblings
that share positions too; nothing else moves, and bounds that are out of order
are never asked for a position between them. -/
theorem placement_exact {t : Transaction} (reachable : t.contents.Reachable) :
    (∀ (node : EditableNode) parent predecessor, node.Obtained →
      (t.move node parent predecessor).1 = .ok () →
      ¬ t.contents.InPlace node.handle parent predecessor →
      ∃ p, t.contents.byHandle parent = some p ∧
        t.contents.Placed (t.move node parent predecessor).2.contents node.handle p.id
          predecessor) ∧
    (∀ fresh parent predecessor node,
      (t.createNode fresh parent predecessor).1 = .ok node →
      ∃ p, t.contents.byHandle parent = some p ∧ t.contents.byHandle node.handle = none ∧
        t.contents.Placed (t.createNode fresh parent predecessor).2.contents node.handle p.id
          predecessor) ∧
    ∀ parent predecessor moving,
      Ordinal.between? ((t.contents.lowerPlace predecessor).map (·.ordinal))
          (t.contents.upperOrdinal parent (t.contents.lowerPlace predecessor) moving) =
        .ok (t.contents.ordinalFollowing parent predecessor moving) := by
  have wf := reachable.wellFormed
  refine ⟨?_, ?_, ?_⟩
  · intro node parent predecessor obtained granted elsewhere
    rcases move_cases t node parent predecessor with
      ⟨refusal, refused⟩ | ⟨here, -⟩ | ⟨e, p, moves, moved⟩
    · rw [refused] at granted
      cases granted
    · exact absurd here elsewhere
    · rw [moved, contents_modify]
      exact ⟨p, moves.parentKnown, moved_placed wf moves obtained.inner⟩
  · intro fresh parent predecessor node granted
    rcases createNode_cases t fresh parent predecessor with
      ⟨refusal, refused⟩ | ⟨p, creates, made⟩
    · rw [refused] at granted
      cases granted
    · rw [made] at granted
      cases granted
      rw [made, contents_modify, contents_insertFresh _ _ creates.free]
      exact ⟨p, creates.parentKnown, wf.nextHandle_unknown, created_placed wf creates⟩
  · intro parent predecessor moving
    exact Ordinal.between?_eq_ok (t.contents.ordered_upperOrdinal parent _ moving)

/-- An edit of a folder in which two entries share a position. -/
def amongTwins : Transaction := { writer := .embedder, contents := twins }

theorem placement_exact_twins :
    amongTwins.contents.Reachable ∧
      ((⟨3⟩ : EditableNode).Obtained ∧ (amongTwins.move ⟨3⟩ 1 (some 2)).1 = .ok () ∧
        ¬ twins.InPlace 3 1 (some 2) ∧
        ∃ p, twins.byHandle 1 = some p ∧
          twins.Placed (amongTwins.move ⟨3⟩ 1 (some 2)).2.contents 3 p.id (some 2)) ∧
      ((amongTwins.createNode ⟨"d"⟩ 1 (some 3)).1 = .ok ⟨5⟩ ∧
        ∃ p, twins.byHandle 1 = some p ∧ twins.byHandle 5 = none ∧
          twins.Placed (amongTwins.createNode ⟨"d"⟩ 1 (some 3)).2.contents 5 p.id (some 3)) := by
  obtain ⟨moves, creations, -⟩ := placement_exact (t := amongTwins) twins_reachable
  have obtained : (⟨3⟩ : EditableNode).Obtained := .byHandle (c := twins) (h := 3) (by decide)
  have granted : (amongTwins.move ⟨3⟩ 1 (some 2)).1 = .ok () := rfl
  have elsewhere : ¬ twins.InPlace 3 1 (some 2) := by
    rintro ⟨e, p, -, -, -, same⟩
    exact absurd same (by decide)
  have made : (amongTwins.createNode ⟨"d"⟩ 1 (some 3)).1 = .ok ⟨5⟩ := rfl
  exact ⟨twins_reachable, ⟨obtained, granted, elsewhere, moves _ _ _ obtained granted elsewhere⟩,
    made, creations _ _ _ _ made⟩

end SharedTree.Transaction
