import SharedTree.Proofs.ContentsWrites
import SharedTree.Proofs.OrdinalOrder

/-! The children of a folder, as the look-ups have them and as the entries say.
The listed slots are in the order of their places and hold exactly the live
entries that lie in the folder, so that a listing is known once its members are;
and the neighbours that are looked up for an entry are its neighbours there. -/
namespace SharedTree

namespace Place

/-- Places compare by position, and by id where positions are shared. -/
theorem lt_iff {a b : Place} :
    a < b ↔ a.ordinal < b.ordinal ∨ a.ordinal = b.ordinal ∧ compare a.id b.id = .lt := by
  change (compare a.ordinal b.ordinal).then (compare a.id b.id) = .lt ↔ _
  rw [Ordering.then_eq_lt, Std.LawfulEqCmp.compare_eq_iff_eq]
  exact Iff.rfl

theorem lt_irrefl (a : Place) : ¬ a < a := by
  intro less
  have same : compare a a = .eq := Std.ReflCmp.compare_self
  cases same.symm.trans less

theorem lt_trans {a b c : Place} (first : a < b) (second : b < c) : a < c := by
  change compare a c = .lt
  exact Std.TransCmp.lt_trans first second

theorem lt_asymm {a b : Place} (less : a < b) : ¬ b < a :=
  fun greater => lt_irrefl a (lt_trans less greater)

end Place

namespace Contents
variable {c : Contents} {parent : EntryId}

/-! ## The listed slots -/

theorem mem_places_iff {place : Place} {h : Handle} :
    (place, h) ∈ c.places parent ↔ c.slot parent place = some h := by
  cases found : c.children[parent]? with
  | none => simp [places, slot, found]
  | some siblings =>
    simp [places, slot, found, Std.ExtTreeMap.mem_toList_iff_getElem?_eq_some]

theorem places_sorted (c : Contents) (parent : EntryId) :
    (c.places parent).Pairwise fun a b => a.1 < b.1 := by
  cases found : c.children[parent]? with
  | none => simp [places, found]
  | some siblings =>
    simp only [places, found, Option.map_some, Option.getD_some]
    exact Std.ExtTreeMap.ordered_keys_toList

/-- A listing in order is known by its members. -/
theorem eq_of_sorted {first second : List (Place × Handle)}
    (sortedFirst : first.Pairwise fun a b => a.1 < b.1)
    (sortedSecond : second.Pairwise fun a b => a.1 < b.1)
    (same : ∀ slot, slot ∈ first ↔ slot ∈ second) : first = second := by
  have distinct {l : List (Place × Handle)} (sorted : l.Pairwise fun a b => a.1 < b.1) :
      l.Nodup := by
    apply sorted.imp
    intro a b less same
    subst same
    exact Place.lt_irrefl _ less
  have perm : first.Perm second :=
    (List.perm_ext_iff_of_nodup (distinct sortedFirst) (distinct sortedSecond)).mpr same
  exact perm.eq_of_pairwise (fun a b _ _ less greater => absurd greater (Place.lt_asymm less))
    sortedFirst sortedSecond

namespace WellFormed
variable (wf : WellFormed c)
include wf

theorem mem_places {place : Place} {h : Handle} :
    (place, h) ∈ c.places parent ↔
      ∃ e, c.byHandle h = some e ∧ e.LiesIn parent ∧ Place.ofEntry e = place :=
  mem_places_iff.trans (wf.slots parent place h)

theorem mem_childList {h : Handle} :
    h ∈ c.childList parent ↔ ∃ e, c.byHandle h = some e ∧ e.LiesIn parent := by
  simp only [childList, List.mem_map, Prod.exists, exists_eq_right, wf.mem_places]
  constructor
  · rintro ⟨place, e, known, inside, -⟩
    exact ⟨e, known, inside⟩
  · rintro ⟨e, known, inside⟩
    exact ⟨_, e, known, inside, rfl⟩

/-- A folder lists an entry if the entry lies in it. -/
theorem mem_childList_iff {h : Handle} {e : Entry} (known : c.byHandle h = some e) :
    h ∈ c.childList parent ↔ e.LiesIn parent := by
  simp [wf.mem_childList, known]

end WellFormed

/-! ## Siblings in order -/

/-- One entry stands before another, whichever folders they lie in. -/
def StandsBefore (c : Contents) (h k : Handle) : Prop :=
  ∃ a b, c.byHandle h = some a ∧ c.byHandle k = some b ∧ Place.ofEntry a < Place.ofEntry b

namespace WellFormed
variable (wf : WellFormed c)
include wf

theorem childList_sorted (parent : EntryId) : (c.childList parent).Pairwise c.StandsBefore := by
  rw [childList, List.pairwise_map]
  apply (places_sorted c parent).imp_of_mem
  intro a b first second less
  obtain ⟨x, knownX, -, placeX⟩ := wf.mem_places.mp first
  obtain ⟨y, knownY, -, placeY⟩ := wf.mem_places.mp second
  exact ⟨x, y, knownX, knownY, placeX ▸ placeY ▸ less⟩

theorem childList_nodup (parent : EntryId) : (c.childList parent).Nodup := by
  apply (wf.childList_sorted parent).imp
  intro h k before same
  obtain ⟨a, b, knownA, knownB, less⟩ := before
  subst same
  cases knownA.symm.trans knownB
  exact Place.lt_irrefl _ less

/-- A live entry finds itself among its siblings. -/
theorem siblingPlaces_eq {h : Handle} {e : Entry} (known : c.byHandle h = some e)
    (live : e.isDeleted = false) (inner : e.isRoot = false) :
    c.siblingPlaces h = some (c.places e.parentId, .ofEntry e) := by
  have listed : c.slot e.parentId (.ofEntry e) = some h :=
    (wf.slots _ _ _).mpr ⟨e, known, ⟨live, inner, rfl⟩, rfl⟩
  obtain ⟨siblings, found, -⟩ := Option.bind_eq_some_iff.mp listed
  simp [siblingPlaces, known, live, inner, found, places]

/-- The listing of a folder around one of its entries. -/
theorem places_around {h : Handle} {e : Entry} (known : c.byHandle h = some e)
    (inside : e.LiesIn parent) :
    ∃ before after, c.places parent = before ++ (.ofEntry e, h) :: after ∧
      (∀ slot ∈ before, slot.1 < .ofEntry e) ∧
      ∀ slot ∈ after, .ofEntry e < slot.1 ∧ slot.2 ≠ h := by
  obtain ⟨before, after, whole⟩ :=
    List.append_of_mem (wf.mem_places.mpr ⟨e, known, inside, rfl⟩)
  have sorted := places_sorted c parent
  rw [whole, List.pairwise_append, List.pairwise_cons] at sorted
  obtain ⟨-, ⟨later, -⟩, earlier⟩ := sorted
  refine ⟨before, after, whole, fun slot member => earlier slot member _ List.mem_cons_self,
    fun slot member => ⟨later slot member, ?_⟩⟩
  rintro same
  have listed : (slot.1, h) ∈ c.places parent := by
    rw [whole, ← same]
    exact List.mem_append_right _ (List.mem_cons_of_mem _ member)
  have own := (wf.slot_taken known (mem_places_iff.mp listed)).2
  exact Place.lt_irrefl _ (own ▸ later slot member)

/-- The neighbours of a live entry are those in the listing of its folder. -/
theorem neighbours {h : Handle} {e : Entry} (known : c.byHandle h = some e)
    (live : e.isDeleted = false) (inner : e.isRoot = false) :
    ∃ before after, c.childList e.parentId = before ++ h :: after ∧
      c.predecessor h = before.getLast? ∧ c.successor h = after.head? := by
  obtain ⟨before, after, whole, earlier, later⟩ :=
    wf.places_around known ⟨live, inner, rfl⟩
  have keptBefore : before.filter (·.1 < Place.ofEntry e) = before :=
    List.filter_eq_self.mpr fun slot member => decide_eq_true (earlier slot member)
  have droppedBefore : (before.filter fun slot => ¬ slot.1 < Place.ofEntry e) = [] := by
    rw [List.filter_eq_nil_iff]
    intro slot member
    simp [earlier slot member]
  have droppedAfter : after.filter (·.1 < Place.ofEntry e) = [] := by
    rw [List.filter_eq_nil_iff]
    intro slot member
    simp [Place.lt_asymm (later slot member).1]
  have keptAfter : (after.filter fun slot => ¬ slot.1 < Place.ofEntry e) = after := by
    rw [List.filter_eq_self]
    intro slot member
    simp [Place.lt_asymm (later slot member).1]
  have own := Place.lt_irrefl (Place.ofEntry e)
  refine ⟨before.map (·.2), after.map (·.2), by simp [childList, whole], ?_, ?_⟩
  · simp only [predecessor, wf.siblingPlaces_eq known live inner, whole, Option.bind_eq_bind,
      Option.bind_some, List.filter_append, keptBefore, List.filter_cons, own, decide_false,
      Bool.false_eq_true, ↓reduceIte, droppedAfter, List.append_nil, List.getLast?_map]
    cases before.getLast? <;> rfl
  · simp only [successor, wf.siblingPlaces_eq known live inner, whole, Option.bind_eq_bind,
      Option.bind_some, List.filter_append, droppedBefore, List.filter_cons, own, not_false_eq_true,
      decide_true, ↓reduceIte, keptAfter, List.nil_append, List.find?_cons, ne_eq, not_true_eq_false,
      decide_false, List.head?_map]
    cases after with
    | nil => rfl
    | cons slot after => simp [(later slot List.mem_cons_self).2]

end WellFormed

/-- The root and the tombstones have no neighbours, nor has what is not there. -/
theorem neighbours_none {h : Handle}
    (absent : ∀ e, c.byHandle h = some e → e.isRoot = true ∨ e.isDeleted = true) :
    c.predecessor h = none ∧ c.successor h = none := by
  have nowhere : c.siblingPlaces h = none := by
    cases known : c.byHandle h with
    | none => simp [siblingPlaces, known]
    | some e =>
      have outside := absent e known
      simp [siblingPlaces, known, outside]
  simp [predecessor, successor, nowhere]

/-- The children that are looked up are those that the entries name, in order,
and each entry's neighbours are the ones beside it. -/
theorem childList_agrees (reachable : Reachable c) :
    (∀ parent,
      (c.childList parent).Nodup ∧ (c.childList parent).Pairwise c.StandsBefore ∧
      (∀ h, h ∈ c.childList parent ↔ ∃ e, c.byHandle h = some e ∧ e.LiesIn parent) ∧
      c.firstChild parent = (c.childList parent).head?) ∧
    (∀ h e, c.byHandle h = some e → e.isDeleted = false → e.isRoot = false →
      ∃ before after, c.childList e.parentId = before ++ h :: after ∧
        c.predecessor h = before.getLast? ∧ c.successor h = after.head?) ∧
    (∀ h, (∀ e, c.byHandle h = some e → e.isRoot = true ∨ e.isDeleted = true) →
      c.predecessor h = none ∧ c.successor h = none) := by
  have wf := reachable.wellFormed
  refine ⟨?_, ?_, ?_⟩
  · intro parent
    exact ⟨wf.childList_nodup parent, wf.childList_sorted parent, fun h => wf.mem_childList, rfl⟩
  · intro h e known live inner
    exact wf.neighbours known live inner
  · intro h absent
    exact neighbours_none absent

/-- Three entries made at one position, the last of them removed. The first one is
the later of the other two, by its id. -/
def twins : Contents :=
  (((initial.write (.insert ⟨"b"⟩ .root .initial)).write (.insert ⟨"a"⟩ .root .initial)).write
    (.insert ⟨"c"⟩ .root .initial)).write (.modify 4 fun e => { e with isDeleted := true })

theorem twins_reachable : Reachable twins :=
  (((Reachable.initial.write _).write _).write _).write _

theorem childList_agrees_twins :
    Reachable twins ∧ twins.childList .root = [3, 2] ∧
      (twins.childList .root).Pairwise twins.StandsBefore ∧
      (∃ before after, twins.childList .root = before ++ 2 :: after ∧
        twins.predecessor 2 = before.getLast? ∧ twins.successor 2 = after.head?) ∧
      twins.predecessor 4 = none ∧ twins.successor 4 = none := by
  obtain ⟨lists, neighbours, strangers⟩ := childList_agrees twins_reachable
  refine ⟨twins_reachable, by decide, (lists .root).2.1,
    neighbours 2 (.create 2 ⟨"b"⟩ .root .initial) (by decide) rfl rfl, strangers 4 ?_⟩
  intro e known
  right
  cases (show some { Entry.create 4 ⟨"c"⟩ .root .initial with isDeleted := true } = some e from
    known)
  rfl

end Contents

end SharedTree
