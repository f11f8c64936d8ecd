import SharedTree.Proofs.LiveTree

/-! Replaying a delivered list on the tree as it was before. A consumer that takes
the records in one by one, each node to the parent that it has by then, ends up with
the tree as it is after the transaction. On the way it puts each node under one that
is there and does not lie below it. A node may be removed while children are left,
but only such as have been taken from under it: removals are told before anything
else, and in the order of the depths that come out of the transaction. -/
namespace SharedTree

/-- What a consumer keeps of a tree: the nodes below the root, each with its parent. -/
structure Outline where
  parents : Std.ExtTreeMap Handle Handle

namespace Outline

/-- The root is always there. -/
def Has (o : Outline) (h : Handle) : Prop := h = Contents.rootHandle ∨ h ∈ o.parents

/-- One node is another or lies above it. -/
def AtOrAbove (o : Outline) : Handle → Handle → Prop :=
  Relation.ReflTransGen fun p h => o.parents[h]? = some p

def remove (o : Outline) (h : Handle) : Outline := ⟨o.parents.erase h⟩

def place (o : Outline) (h p : Handle) : Outline := ⟨o.parents.insert h p⟩

/-- Records are taken in one by one. A deletion takes out a node that is there, with
only such children left as may stay behind; anything else puts a node under its
parent in `tree`, which has to be there and not to lie below the node. -/
inductive Replays (tree : TreeShape) (mayStay : Handle → Handle → Prop) :
    Outline → List Change → Outline → Prop where
  | done {o : Outline} : Replays tree mayStay o [] o
  | remove {o last : Outline} {r : Change} {later : List Change} (gone : r.kind = .delete)
      (there : r.id ∈ o.parents) (left : ∀ k, o.parents[k]? = some r.id → mayStay r.id k)
      (rest : Replays tree mayStay (o.remove r.id) later last) :
      Replays tree mayStay o (r :: later) last
  | place {o last : Outline} {r : Change} {later : List Change} {p : Handle}
      (other : r.kind ≠ .delete) (next : tree.IsParent p r.id) (present : o.Has p)
      (outside : ¬ o.AtOrAbove r.id p)
      (rest : Replays tree mayStay (o.place r.id p) later last) :
      Replays tree mayStay o (r :: later) last

end Outline

namespace Contents
variable {c opened closed : Contents} {h k p : Handle} {e : Entry}

/-- The live entries but the root, each with its parent. -/
def outline (c : Contents) : Outline :=
  ⟨c.entries.filterMap fun h e => if e.isDeleted then none else c.shape.parent h⟩

theorem parents_outline_iff : c.outline.parents[h]? = some p ↔
    ∃ e, c.byHandle h = some e ∧ e.isDeleted = false ∧ c.shape.IsParent p h := by
  have looked : c.outline.parents[h]? =
      (c.byHandle h).bind fun e => if e.isDeleted then none else c.shape.parent h := by
    rw [outline, Std.ExtTreeMap.getElem?_filterMap']
    rfl
  rw [looked, Option.bind_eq_some_iff]
  simp [TreeShape.IsParent]

/-- A live entry is where its parent in the shape has it. -/
theorem parents_outline_of (known : c.byHandle h = some e) :
    c.outline.parents[h]? = if e.isDeleted then none else c.shape.parent h := by
  apply Option.ext
  intro p
  rw [parents_outline_iff]
  cases alive : e.isDeleted <;> simp [known, alive, TreeShape.IsParent]

theorem LiveChains.mem_outline (wf : WellFormed c) (live : LiveChains c)
    (known : c.byHandle h = some e) (alive : e.isDeleted = false) (inner : e.isRoot = false) :
    h ∈ c.outline.parents := by
  obtain ⟨p, -, next, -⟩ := live.exists_parent wf known alive inner
  rw [Std.ExtTreeMap.mem_iff_isSome_getElem?, parents_outline_iff.mpr ⟨e, known, alive, next⟩]
  rfl

/-- A record tells where its entry is by now. -/
theorem Due.parents_outline {r : Change} (due : Due opened closed r) :
    closed.outline.parents[r.id]? =
      if r.kind = .delete then none else closed.shape.parent r.id := by
  cases due with
  | added now _ _ alive => exact (parents_outline_of now).trans (by rw [alive]; rfl)
  | deleted now _ _ gone => exact (parents_outline_of now).trans (by rw [gone]; rfl)
  | updated now _ _ alive => exact (parents_outline_of now).trans (by rw [alive]; rfl)

/-! ## Entries stay -/

/-- A write leaves each entry under its handle and its id. -/
theorem WellFormed.exists_write (wf : WellFormed c) (w : Write) (known : c.byHandle h = some e) :
    ∃ after, (c.write w).byHandle h = some after ∧ after.id = e.id := by
  cases w with
  | insert id parentId ordinal =>
    simp only [Contents.write, insertFresh_eq]
    split
    · exact ⟨e, known, rfl⟩
    · exact ⟨e, wf.byHandle_inserted_iff.mpr (.inr known), rfl⟩
  | modify k change =>
    rw [Contents.write, byHandle_modify]
    split
    · rename_i same
      subst same
      rw [known]
      exact ⟨_, rfl, (changed_keeps e change).2.1⟩
    · exact ⟨e, known, rfl⟩

theorem WellFormed.exists_writes (wf : WellFormed c) (writes : List Write)
    (known : c.byHandle h = some e) :
    ∃ after, (writes.foldl Contents.write c).byHandle h = some after ∧ after.id = e.id := by
  induction writes generalizing c e with
  | nil => exact ⟨e, known, rfl⟩
  | cons w writes ih =>
    obtain ⟨next, nextKnown, sameId⟩ := wf.exists_write w known
    obtain ⟨after, afterKnown, same⟩ := ih (wf.write w) nextKnown
    exact ⟨after, afterKnown, same.trans sameId⟩

/-! ## From one state of a tree to another -/

/-- Observers are told about every entry but the root. -/
def AllShown (c : Contents) : Prop :=
  ∀ h e, c.byHandle h = some e → e.isRoot = false → e.isShown = true

instance (c : Contents) : Decidable c.AllShown :=
  decidable_of_iff (∀ p ∈ c.entries.toList, p.2.isRoot = false → p.2.isShown = true)
    ⟨fun all h e known => all (h, e) (Std.ExtTreeMap.mem_toList_iff_getElem?_eq_some.mpr known),
      fun shown p member =>
        shown p.1 p.2 (Std.ExtTreeMap.mem_toList_iff_getElem?_eq_some.mp member)⟩

/-- Contents that others became, the live entries forming a tree both times. -/
structure Becomes (opened closed : Contents) : Prop where
  wellFormed : WellFormed opened
  wellFormedAfter : WellFormed closed
  kept : ∀ h b, opened.byHandle h = some b → ∃ e, closed.byHandle h = some e ∧ e.id = b.id
  live : LiveChains opened
  liveAfter : LiveChains closed
  shown : AllShown closed

namespace Becomes
variable (becomes : Becomes opened closed)
include becomes

theorem inner_before {b : Entry} (before : opened.byHandle h = some b)
    (now : closed.byHandle h = some e) (inner : e.isRoot = false) : b.isRoot = false := by
  obtain ⟨other, again, sameId⟩ := becomes.kept h b before
  cases now.symm.trans again
  rwa [Entry.isRoot, ← sameId]

/-- An entry that nothing is told of is where it was. -/
theorem parents_untold (untold : ∀ r, Due opened closed r → r.id ≠ h) :
    opened.outline.parents[h]? = closed.outline.parents[h]? := by
  by_cases wasLive : ∃ b, opened.byHandle h = some b ∧ b.isDeleted = false ∧ b.isRoot = false
  · obtain ⟨b, before, wasLive, wasInner⟩ := wasLive
    obtain ⟨e, now, sameId⟩ := becomes.kept h b before
    have inner : e.isRoot = false := by rwa [Entry.isRoot, sameId]
    have shown := becomes.shown h e now inner
    have alive : e.isDeleted = false := by
      rw [← Bool.not_eq_true]
      exact fun gone => untold _ (.deleted now inner shown gone before wasLive) rfl
    have sameParent : b.parentId = e.parentId := by
      by_contra differs
      exact untold _ (.updated now inner shown alive before wasLive (by simp [differs])
        ⟨fun _ => .inl differs, fun _ => rfl⟩) rfl
    obtain ⟨k, parent, next, parentKnown, -, named⟩ :=
      becomes.live.exists_parent becomes.wellFormed before wasLive wasInner
    obtain ⟨after, afterKnown, sameName⟩ := becomes.kept k parent parentKnown
    have nextAfter : closed.shape.IsParent k h := (becomes.wellFormedAfter.isParent_iff now).mpr
      ⟨inner, after, afterKnown, (sameName.trans named).trans sameParent⟩
    rw [parents_outline_of before, parents_outline_of now, wasLive, alive, next, nextAfter]
  · have absent (p : Handle) : opened.outline.parents[h]? ≠ some p := by
      intro listed
      obtain ⟨b, before, alive, next⟩ := parents_outline_iff.mp listed
      exact wasLive ⟨b, before, alive, ((becomes.wellFormed.isParent_iff before).mp next).1⟩
    have absentAfter (p : Handle) : closed.outline.parents[h]? ≠ some p := by
      intro listed
      obtain ⟨e, now, alive, next⟩ := parents_outline_iff.mp listed
      have inner := ((becomes.wellFormedAfter.isParent_iff now).mp next).1
      refine untold _ (.added now inner (becomes.shown h e now inner) alive ?_) rfl
      intro b before
      by_contra wasAlive
      exact wasLive ⟨b, before, by simpa using wasAlive, becomes.inner_before before now inner⟩
    rw [Option.eq_none_iff_forall_ne_some.mpr absent,
      Option.eq_none_iff_forall_ne_some.mpr absentAfter]

end Becomes

/-! ## Halfway through a list -/

/-- The entries told of so far are where they are by the end, all others where they
were. -/
def Halfway (opened closed : Contents) (earlier : List Change) (o : Outline) : Prop :=
  ∀ h, o.parents[h]? =
    if h ∈ earlier.map (·.id) then closed.outline.parents[h]? else opened.outline.parents[h]?

/-- What may be left of the children of a node that is removed: no node that hangs
from it in the end, unless it has been put above the removed one as well. -/
def MayStay (tree : TreeShape) (h k : Handle) : Prop := tree.IsParent h k → tree.LiesAbove k h

section Taking
variable {earlier later : List Change} {r : Change} {o : Outline}

/-- A record is the first one of its entry, and after it come those that are told
later. -/
theorem told_around (told : opened.changesSince closed = earlier ++ r :: later) :
    Due opened closed r ∧ r.id ∉ earlier.map (·.id) ∧
      ∀ s ∈ later, Observations.compareTold closed.shape r s = .lt := by
  have distinct := (Observations.between opened closed).inTreeOrder_ids_nodup closed.shape
  have sorted := (Observations.between opened closed).inTreeOrder_pairwise closed.shape
  rw [← changesSince, told] at distinct sorted
  rw [List.map_append, List.map_cons, List.nodup_append] at distinct
  rw [List.pairwise_append, List.pairwise_cons] at sorted
  refine ⟨mem_changesSince.mp (told ▸ List.mem_append_right _ List.mem_cons_self), ?_,
    sorted.2.1.1⟩
  exact fun again => distinct.2.2 _ again _ List.mem_cons_self rfl

/-- Taking in one record settles its entry and leaves the others. -/
theorem Halfway.step (halfway : Halfway opened closed earlier o) {after : Outline}
    (own : after.parents[r.id]? = closed.outline.parents[r.id]?)
    (others : ∀ h, r.id ≠ h → after.parents[h]? = o.parents[h]?) :
    Halfway opened closed (earlier ++ [r]) after := by
  intro h
  by_cases same : r.id = h
  · subst same
    simpa using own
  · rw [others h same, halfway h]
    simp [Ne.symm same]

namespace Becomes
variable (becomes : Becomes opened closed)
include becomes

/-- An entry that nothing more is told of is where it is by the end. -/
theorem settled (halfway : Halfway opened closed earlier o)
    (told : opened.changesSince closed = earlier ++ later) (silent : ∀ s ∈ later, s.id ≠ h) :
    o.parents[h]? = closed.outline.parents[h]? := by
  rw [halfway h]
  split
  · rfl
  · rename_i before
    apply becomes.parents_untold
    intro s due same
    have member := mem_changesSince.mpr due
    rw [told, List.mem_append] at member
    rcases member with member | member
    · exact before (List.mem_map.mpr ⟨s, member, same⟩)
    · exact silent s member same

/-- The node that a deletion names is there, and of its children only those are left
that may stay. A child that hangs from the removed node in the end is removed, too,
and was told of before, unless it lies above that node. -/
theorem deletion_applies (halfway : Halfway opened closed earlier o)
    (told : opened.changesSince closed = earlier ++ r :: later) (gone : r.kind = .delete) :
    r.id ∈ o.parents ∧ ∀ k, o.parents[k]? = some r.id → MayStay closed.shape r.id k := by
  obtain ⟨due, new, later⟩ := told_around told
  obtain ⟨b, e, before, wasLive, now, inner, isGone⟩ := due.removed gone
  constructor
  · have own : o.parents[r.id]? = opened.outline.parents[r.id]? := by rw [halfway, if_neg new]
    rw [Std.ExtTreeMap.mem_iff_isSome_getElem?, own, ← Std.ExtTreeMap.mem_iff_isSome_getElem?]
    exact becomes.live.mem_outline becomes.wellFormed before wasLive
      (becomes.inner_before before now inner)
  · intro k left stays
    by_contra apart
    have notEarlier : k ∉ earlier.map (·.id) := by
      intro listed
      rw [halfway, if_pos listed] at left
      obtain ⟨x, known, alive, -⟩ := parents_outline_iff.mp left
      have childGone :=
        becomes.liveAfter.gone_below becomes.wellFormedAfter now isGone known stays
      cases childGone.symm.trans alive
    -- The child is where it was before the transaction, and it is a tombstone by the end.
    rw [halfway, if_neg notEarlier] at left
    obtain ⟨y, childBefore, childWasLive, nextBefore⟩ := parents_outline_iff.mp left
    obtain ⟨x, childNow, -⟩ := becomes.kept k y childBefore
    have notSelf : k ≠ r.id := by
      rintro rfl
      have ends := becomes.live.ends becomes.wellFormed childBefore childWasLive
      exact ends.not_above_self (.single nextBefore)
    have childInner := ((becomes.wellFormedAfter.isParent_iff childNow).mp stays).1
    have childGone :=
      becomes.liveAfter.gone_below becomes.wellFormedAfter now isGone childNow stays
    have childDue : Due opened closed (.deleted k) :=
      .deleted childNow childInner (becomes.shown k x childNow childInner) childGone childBefore
        childWasLive
    have outside : ¬ closed.shape.AtOrAbove k r.id := by
      intro up
      rcases Relation.reflTransGen_iff_eq_or_transGen.mp up with same | up
      · exact notSelf same.symm
      · exact apart up
    have member := mem_changesSince.mpr childDue
    rw [told, List.mem_append, List.mem_cons] at member
    rcases member with member | same | member
    · exact notEarlier (List.mem_map.mpr ⟨_, member, rfl⟩)
    · exact notSelf (congrArg Change.id same)
    · exact Observations.deletions_child_first gone rfl stays outside (later _ member)

/-- Whatever lies above a node in the end was told of before it, if at all. -/
theorem above_settled (halfway : Halfway opened closed earlier o)
    (told : opened.changesSince closed = earlier ++ r :: later) (other : r.kind ≠ .delete)
    (ends : closed.shape.Ends r.id) (above : closed.shape.LiesAbove h r.id) :
    o.parents[h]? = closed.outline.parents[h]? := by
  obtain ⟨-, -, later⟩ := told_around told
  apply becomes.settled halfway told
  rintro s member rfl
  rcases List.mem_cons.mp member with rfl | member
  · exact ends.not_above_self above
  · have order := later s member
    have kind : s.kind ≠ .delete := by
      intro gone
      rw [Observations.compareTold, if_neg other, if_pos gone] at order
      cases order
    have endsAbove := ends.of_atOrAbove above.to_reflTransGen
    exact (Observations.others_walk ends endsAbove other kind order).asymm ends endsAbove
      (.above above)

/-- The parent of any other record is there and does not lie below the node: the way
up from it is the one that it is in the end. -/
theorem other_applies (halfway : Halfway opened closed earlier o)
    (told : opened.changesSince closed = earlier ++ r :: later) (other : r.kind ≠ .delete) :
    ∃ p, closed.shape.IsParent p r.id ∧ o.Has p ∧ ¬ o.AtOrAbove r.id p := by
  obtain ⟨due, -, -⟩ := told_around told
  obtain ⟨e, known, inner, alive⟩ := due.alive other
  obtain ⟨p, parent, next, parentKnown, parentAlive, -⟩ :=
    becomes.liveAfter.exists_parent becomes.wellFormedAfter known alive inner
  have ends := becomes.liveAfter.ends becomes.wellFormedAfter known alive
  refine ⟨p, next, ?_, ?_⟩
  · cases root : parent.isRoot with
    | true => exact .inl ((becomes.wellFormedAfter.isRoot_iff parentKnown).mp root)
    | false =>
      right
      have own := becomes.above_settled halfway told other ends (.single next)
      rw [Std.ExtTreeMap.mem_iff_isSome_getElem?, own, ← Std.ExtTreeMap.mem_iff_isSome_getElem?]
      exact becomes.liveAfter.mem_outline becomes.wellFormedAfter parentKnown parentAlive root
  · intro circle
    -- Above the parent all is settled, so that a climb from it is one in the end.
    have climbs : ∀ x, o.AtOrAbove x p → closed.shape.AtOrAbove x p := by
      intro x up
      induction up using Relation.ReflTransGen.head_induction_on with
      | refl => exact .refl
      | head step _ ih =>
        rw [becomes.above_settled halfway told other ends (.tail' ih next)] at step
        obtain ⟨-, -, -, up⟩ := parents_outline_iff.mp step
        exact .head up ih
    exact ends.not_above_self (.tail' (climbs _ circle) next)

/-- The rest of a list leads from where one is to the end. -/
theorem replays_rest (halfway : Halfway opened closed earlier o)
    (told : opened.changesSince closed = earlier ++ later) :
    Outline.Replays closed.shape (MayStay closed.shape) o later closed.outline := by
  induction later generalizing earlier o with
  | nil =>
    have same : o.parents = closed.outline.parents :=
      Std.ExtTreeMap.ext_getElem? fun h => becomes.settled halfway told nofun
    cases o
    cases same
    exact .done
  | cons r later ih =>
    obtain ⟨due, -, -⟩ := told_around told
    have place := due.parents_outline
    have split : opened.changesSince closed = (earlier ++ [r]) ++ later := by simp [told]
    by_cases gone : r.kind = .delete
    · obtain ⟨there, left⟩ := becomes.deletion_applies halfway told gone
      rw [if_pos gone] at place
      refine .remove gone there left (ih (halfway.step ?_ ?_) split)
      · rw [place]
        simp [Outline.remove]
      · intro h apart
        simp [Outline.remove, Std.ExtTreeMap.getElem?_erase, apart]
    · obtain ⟨p, next, present, outside⟩ := becomes.other_applies halfway told gone
      rw [if_neg gone, next] at place
      refine .place gone next present outside (ih (halfway.step ?_ ?_) split)
      · rw [place]
        simp [Outline.place]
      · intro h apart
        simp [Outline.place, Std.ExtTreeMap.getElem?_insert, apart]

end Becomes

end Taking

end Contents

namespace Client
variable {σ : Type}
open Contents

/-- A list of the syncer's can be taken in record by record, and leads from the tree
as it was to the tree as it is. -/
theorem syncerList_replays (client : Client σ) {d : Directory} (reachable : d.contents.Reachable)
    (writes : List Write) (live : d.contents.LiveChains)
    (liveAfter : (writes.foldl Contents.write d.contents).LiveChains)
    (shown : (writes.foldl Contents.write d.contents).AllShown) :
    let closed := writes.foldl Contents.write d.contents
    Outline.Replays closed.shape (MayStay closed.shape) d.contents.outline
      (client.syncerList d writes) closed.outline := by
  intro closed
  have becomes : Becomes d.contents closed :=
    { wellFormed := reachable.wellFormed
      wellFormedAfter := (reachable.writes writes).wellFormed
      kept := fun _ _ known => reachable.wellFormed.exists_writes writes known
      live, liveAfter, shown }
  have start : Halfway d.contents closed [] d.contents.outline := fun _ => rfl
  rw [client.syncerList_eq reachable writes]
  exact becomes.replays_rest start rfl

/-- A folder with an entry in it. -/
def shelf : Contents :=
  [.insert ⟨"f"⟩ .root .initial, .insert ⟨"c"⟩ ⟨"f"⟩ .initial].foldl Contents.write .initial

/-- What is told of some writes to it. -/
def toldOfShelf (writes : List Write) : List Change :=
  listening.syncerList { name := "tester", contents := shelf } writes

/-- What they make of it. -/
def rewritten (writes : List Write) : Contents := writes.foldl Contents.write shelf

/-- The entry is taken out of the folder and gets one of its own, and the folder goes. -/
def emptying : List Write :=
  [.modify 3 fun e => { e with parentId := .root }, .modify 2 fun e => { e with isDeleted := true },
    .insert ⟨"n"⟩ ⟨"c"⟩ .initial]

/-- Both go, after the folder was put into the entry. -/
def tangling : List Write :=
  [.modify 2 fun e => { e with parentId := ⟨"c"⟩, isDeleted := true },
    .modify 3 fun e => { e with isDeleted := true }]

/-- The entry is taken out of the folder and hidden. -/
def concealing : List Write := [.modify 3 fun e => { e with parentId := .root, isShown := false }]

theorem shelf_reachable : shelf.Reachable := Reachable.initial.writes _

theorem liveChains_shelf : shelf.LiveChains ∧ (rewritten emptying).LiveChains ∧
    (rewritten tangling).LiveChains ∧ (rewritten concealing).LiveChains :=
  ⟨liveChains_of_older shelf_reachable.wellFormed (by decide +kernel),
    liveChains_of_older (shelf_reachable.writes emptying).wellFormed (by decide +kernel),
    liveChains_of_older (shelf_reachable.writes tangling).wellFormed (by decide +kernel),
    liveChains_of_older (shelf_reachable.writes concealing).wellFormed (by decide +kernel)⟩

theorem toldOfShelf_eq_changesSince (writes : List Write) :
    toldOfShelf writes = shelf.changesSince (rewritten writes) :=
  listening.syncerList_eq (d := { name := "tester", contents := shelf }) shelf_reachable writes

theorem toldOfShelf_eq : toldOfShelf emptying = [.deleted 2, .updated 3 true, .added 4] ∧
    toldOfShelf tangling = [.deleted 2, .deleted 3] ∧ toldOfShelf concealing = [] := by
  simp only [toldOfShelf_eq_changesSince]
  exact ⟨Observations.inTreeOrder_eq_of_sorted (by decide +kernel) (by decide +kernel),
    Observations.inTreeOrder_eq_of_sorted (by decide +kernel) (by decide +kernel),
    Observations.inTreeOrder_eq_of_sorted (by decide +kernel) (by decide +kernel)⟩

theorem syncerList_replays_emptying :
    shelf.Reachable ∧ shelf.LiveChains ∧ (rewritten emptying).LiveChains ∧
    (rewritten emptying).AllShown ∧
    Outline.Replays (rewritten emptying).shape (MayStay (rewritten emptying).shape) shelf.outline
      [.deleted 2, .updated 3 true, .added 4] (rewritten emptying).outline := by
  obtain ⟨live, liveAfter, -⟩ := liveChains_shelf
  have shown : (rewritten emptying).AllShown := by decide +kernel
  have replays := syncerList_replays listening (d := { name := "tester", contents := shelf })
    shelf_reachable emptying live liveAfter shown
  exact ⟨shelf_reachable, live, liveAfter, shown, toldOfShelf_eq.1 ▸ replays⟩

/-- The folder need not be empty when it is removed: the entry that is left in it is
moved in the one case, and in the other it hangs from the folder until the end. And
nothing is told of an entry that was hidden while it was moved. -/
theorem syncerList_leaves_children :
    shelf.Reachable ∧ shelf.AllShown ∧ shelf.LiveChains ∧
    ((rewritten emptying).AllShown ∧ (rewritten emptying).LiveChains ∧
      ¬ ∃ last, Outline.Replays (rewritten emptying).shape (fun _ _ => False) shelf.outline
        (toldOfShelf emptying) last) ∧
    ((rewritten tangling).AllShown ∧ (rewritten tangling).LiveChains ∧
      ¬ ∃ last, Outline.Replays (rewritten tangling).shape
        (fun h k => ¬ (rewritten tangling).shape.IsParent h k) shelf.outline
        (toldOfShelf tangling) last) ∧
    ((rewritten concealing).LiveChains ∧
      ¬ Outline.Replays (rewritten concealing).shape (MayStay (rewritten concealing).shape)
        shelf.outline (toldOfShelf concealing) (rewritten concealing).outline) := by
  obtain ⟨live, emptied, tangled, hidden⟩ := liveChains_shelf
  obtain ⟨toldEmptying, toldTangling, toldHiding⟩ := toldOfShelf_eq
  have inside : shelf.outline.parents[(3 : Handle)]? = some 2 := by decide +kernel
  refine ⟨shelf_reachable, by decide +kernel, live, ⟨by decide +kernel, emptied, ?_⟩,
    ⟨by decide +kernel, tangled, ?_⟩, hidden, ?_⟩
  · rintro ⟨last, replays⟩
    rw [toldEmptying] at replays
    cases replays with
    | remove _ _ left => exact left 3 inside
    | place other => exact other rfl
  · rintro ⟨last, replays⟩
    rw [toldTangling] at replays
    cases replays with
    | remove _ _ left =>
      have stays : (rewritten tangling).shape.parent 3 = some 2 := by decide +kernel
      exact left 3 inside stays
    | place other => exact other rfl
  · intro replays
    rw [toldHiding] at replays
    generalize closed : (rewritten concealing).outline = last at replays
    cases replays
    rw [← closed] at inside
    revert inside
    decide +kernel

end Client

end SharedTree
