import SharedTree.Proofs.Placement

/-! No ties among siblings. A position that is computed for an entry is nobody
else's in its folder, for it lies strictly between the two that it divides; and
whatever else is done through nodes leaves every entry where it stands. So however
a directory is edited, the live children of a folder stand by their positions
alone, and their ids never have to decide. -/
namespace SharedTree

namespace Contents

/-- Two live children of one folder never share a position. -/
def SiblingsApart (c : Contents) : Prop :=
  ∀ parent h k a b, c.byHandle h = some a → c.byHandle k = some b → h ≠ k →
    a.LiesIn parent → b.LiesIn parent → a.ordinal ≠ b.ordinal

theorem siblingsApart_initial : SiblingsApart .initial := by
  intro parent h k a b knownA knownB different
  obtain ⟨rfl, -⟩ := byHandle_initial.mp knownA
  exact absurd (byHandle_initial.mp knownB).1 different

/-- The position computed for an entry is none that another entry of the folder
has. -/
theorem WellFormed.ordinalFollowing_ne {c : Contents} (wf : WellFormed c) {parent : EntryId}
    (predecessor : Option Handle) {moving : Option Handle} {k : Handle} {b : Entry}
    (known : c.byHandle k = some b) (inside : b.LiesIn parent) (other : some k ≠ moving) :
    c.ordinalFollowing parent predecessor moving ≠ b.ordinal := by
  have divides := ordinalFollowing_divides predecessor
    (wf.mem_places.mpr ⟨b, known, inside, rfl⟩) other
  intro same
  rw [same] at divides
  split at divides <;> exact Ordinal.lt_irrefl _ divides

/-- Siblings stay apart where one entry alone is written, and shares its position
with no other of the folder that it then lies in. -/
theorem SiblingsApart.written {c after : Contents} (apart : SiblingsApart c) (node : Handle)
    (kept : ∀ k, k ≠ node → after.byHandle k = c.byHandle k)
    (alone : ∀ parent e k b, after.byHandle node = some e → e.LiesIn parent → k ≠ node →
      c.byHandle k = some b → b.LiesIn parent → e.ordinal ≠ b.ordinal) :
    SiblingsApart after := by
  intro parent h k a b knownA knownB different insideA insideB
  by_cases first : h = node
  · subst first
    have second : k ≠ h := different.symm
    exact alone parent a k b knownA insideA second (kept k second ▸ knownB) insideB
  · rw [kept h first] at knownA
    by_cases second : k = node
    · subst second
      exact (alone parent b h a knownB insideB first knownA insideA).symm
    · rw [kept k second] at knownB
      exact apart parent h k a b knownA knownB different insideA insideB

section Edits
variable {c : Contents} (apart : SiblingsApart c)
include apart

/-- A rewrite in place leaves the entry where it lay, if it lies anywhere. -/
theorem SiblingsApart.rewritten (h : Handle) {change : Entry → Entry}
    (inPlace : ∀ e, (change e).parentId = e.parentId ∧ (change e).ordinal = e.ordinal)
    (removed : ∀ e, e.isDeleted = true → (change e).isDeleted = true) :
    SiblingsApart (c.modify h change) := by
  cases known : c.byHandle h with
  | none =>
    rw [modify_unknown change known]
    exact apart
  | some before =>
    refine apart.written h (fun k other => by rw [byHandle_modify, if_neg other.symm]) ?_
    intro parent e k b knownE inside other knownB insideB
    rw [byHandle_modify, if_pos rfl, known] at knownE
    cases knownE
    obtain ⟨inner, live, under⟩ := liesIn_changed.mp inside
    have lay : before.LiesIn parent :=
      ⟨Bool.eq_false_iff.mpr fun gone => Bool.eq_false_iff.mp live (removed before gone), inner,
        (inPlace before).1.symm.trans under⟩
    rw [ordinal_changed, (inPlace before).2]
    exact apart parent h k before b known knownB other.symm lay insideB

variable (wf : WellFormed c)
include wf

theorem SiblingsApart.moved {node parent : Handle} {predecessor : Option Handle} {e p : Entry}
    (moves : c.Moves node parent predecessor e p) :
    SiblingsApart (c.modify node fun e =>
      { e with
        parentId := p.id
        ordinal := c.ordinalFollowing p.id predecessor (some node)
        isUnsynced := true }) := by
  refine apart.written node (fun k other => by rw [byHandle_modify, if_neg other.symm]) ?_
  intro parent after k b knownAfter inside other knownB insideB
  rw [byHandle_modify, if_pos rfl, moves.nodeKnown] at knownAfter
  cases knownAfter
  obtain ⟨-, -, rfl⟩ := liesIn_changed.mp inside
  rw [ordinal_changed]
  exact wf.ordinalFollowing_ne predecessor knownB insideB fun same => other (Option.some.inj same)

theorem SiblingsApart.created {fresh : EntryId} {predecessor : Option Handle} {p : Entry} :
    SiblingsApart ((c.inserted fresh p.id (c.ordinalFollowing p.id predecessor none)).modify
      c.nextHandle fun e => { e with isUnsynced := true }) := by
  refine apart.written c.nextHandle ?_ ?_
  · intro k other
    rw [byHandle_modify, if_neg other.symm, byHandle_inserted, if_neg other.symm]
  · intro parent after k b knownAfter inside other knownB insideB
    rw [byHandle_modify, if_pos rfl, byHandle_inserted, if_pos rfl] at knownAfter
    cases knownAfter
    obtain ⟨-, -, rfl⟩ := liesIn_changed.mp inside
    rw [ordinal_changed]
    exact wf.ordinalFollowing_ne predecessor knownB insideB (Option.some_ne_none k)

end Edits

end Contents

theorem Transaction.EditStep.siblingsApart {t after : Transaction} (step : t.EditStep after)
    (wf : t.contents.WellFormed) (apart : t.contents.SiblingsApart) :
    after.contents.SiblingsApart := by
  cases step with
  | nothing => exact apart
  | rewritten h change inPlace removed =>
    rw [contents_modify]
    exact apart.rewritten h inPlace removed
  | moved moves =>
    rw [contents_modify]
    exact apart.moved wf moves
  | created creates =>
    rw [contents_modify, contents_insertFresh _ _ creates.free]
    exact apart.created wf

namespace Directory
open Contents

theorem siblingsApart_afterEdits (name : String)
    (transactions : List (Writer × List NodeEdit)) :
    (afterEdits name transactions).contents.SiblingsApart :=
  afterEdits_induction name transactions siblingsApart_initial
    fun step reachable apart => step.siblingsApart reachable.wellFormed apart

/-- However a directory was edited through nodes, the positions of a folder's live
children are ordinals, no two of them are the same, and the listing of the folder
has them in ascending order. -/
theorem siblings_afterEdits (name : String) (transactions : List (Writer × List NodeEdit))
    (parent : EntryId) :
    (∀ h e, (afterEdits name transactions).contents.byHandle h = some e → e.LiesIn parent →
      Ordinal.fault? e.ordinal.digits = none ∧
      ∀ k other, (afterEdits name transactions).contents.byHandle k = some other → k ≠ h →
        other.LiesIn parent → other.ordinal.digits ≠ e.ordinal.digits) ∧
    (∀ h, h ∈ (afterEdits name transactions).contents.childList parent ↔
      ∃ e, (afterEdits name transactions).contents.byHandle h = some e ∧ e.LiesIn parent) ∧
    ((afterEdits name transactions).contents.childList parent).Pairwise fun h k =>
      ∃ a b, (afterEdits name transactions).contents.byHandle h = some a ∧
        (afterEdits name transactions).contents.byHandle k = some b ∧ a.ordinal < b.ordinal := by
  have wf := (afterEdits_reachable name transactions).wellFormed
  have apart := siblingsApart_afterEdits name transactions
  refine ⟨?_, fun h => wf.mem_childList, ?_⟩
  · intro h e known inside
    refine ⟨e.ordinal.wellFormed, ?_⟩
    intro k other knownOther different insideOther same
    exact apart parent k h other e knownOther known different insideOther inside
      (Ordinal.ext same)
  · apply ((wf.childList_sorted parent).and (wf.childList_nodup parent)).imp_of_mem
    rintro h k first second ⟨⟨a, b, knownA, knownB, less⟩, different⟩
    obtain ⟨_, foundA, insideA⟩ := wf.mem_childList.mp first
    obtain ⟨_, foundB, insideB⟩ := wf.mem_childList.mp second
    cases knownA.symm.trans foundA
    cases knownB.symm.trans foundB
    rcases Place.lt_iff.mp less with before | ⟨same, -⟩
    · exact ⟨a, b, knownA, knownB, before⟩
    · exact absurd same (apart parent h k a b knownA knownB different insideA insideB)

end Directory

end SharedTree
