import Mathlib.Logic.Relation
import SharedTree.Proofs.ParentChains

/-! The climb in a directory whose parents need not form a tree. It ends everywhere: where
it meets the entry that is looked for, at the root, where it comes to an id again, and
where an id names nothing. Parents that run in a circle are answered as if the entry had
been met, so that nothing is put into them anew. A chain that breaks off at a parent that
is not there is answered as if it had ended at the root, so that a node can be put at the
lower end of it. -/
namespace SharedTree

namespace Contents

/-- The climb from an id that looks for an ancestor and remembers what it passed. -/
inductive Climbs (c : Contents) (ancestor : EntryId) : List EntryId → EntryId → Bool → Prop where
  | met {passed : List EntryId} : Climbs c ancestor passed ancestor true
  | top {passed : List EntryId} (apart : EntryId.root ≠ ancestor) :
    Climbs c ancestor passed .root false
  | again {passed : List EntryId} {id : EntryId} (apart : id ≠ ancestor) (inner : id ≠ .root)
      (seen : id ∈ passed) : Climbs c ancestor passed id true
  | lost {passed : List EntryId} {id : EntryId} (apart : id ≠ ancestor) (inner : id ≠ .root)
      (new : id ∉ passed) (unknown : c.byId id = none) : Climbs c ancestor passed id false
  | up {passed : List EntryId} {id : EntryId} {e : Entry} {answer : Bool} (apart : id ≠ ancestor)
      (inner : id ≠ .root) (new : id ∉ passed) (found : c.byId id = some e)
      (above : Climbs c ancestor (id :: passed) e.parentId answer) :
    Climbs c ancestor passed id answer

/-- The entries from the one with an id up to the last one that is there, and the id of the
parent that is missing. -/
inductive BrokenChain (c : Contents) : EntryId → List Entry → EntryId → Prop where
  | lost {id : EntryId} (inner : id ≠ .root) (unknown : c.byId id = none) : BrokenChain c id [] id
  | up {id missing : EntryId} {e : Entry} {above : List Entry} (found : c.byId id = some e)
      (inner : id ≠ .root) (chain : BrokenChain c e.parentId above missing) :
    BrokenChain c id (e :: above) missing

/-- The entry with one id names the other as its parent; what the root names is not its
parent. -/
def NamesParent (c : Contents) (id parent : EntryId) : Prop :=
  id ≠ .root ∧ ∃ e, c.byId id = some e ∧ e.parentId = parent

/-- Going up from an id one comes to the other, or is there already. -/
def LeadsTo (c : Contents) : EntryId → EntryId → Prop := Relation.ReflTransGen c.NamesParent

/-- Going up from an id one comes to one that lies above itself. -/
def RunsInCircle (c : Contents) (id : EntryId) : Prop :=
  ∃ x, c.LeadsTo id x ∧ Relation.TransGen c.NamesParent x x

/-- The parents above an id come to an end without the ancestor. -/
inductive EndsWithout (c : Contents) (ancestor id : EntryId) : Prop where
  | atRoot {chain : List Entry} (parents : c.ParentChain id chain)
      (apart : ∀ e ∈ chain, e.id ≠ ancestor) : EndsWithout c ancestor id
  | brokenOff {chain : List Entry} {missing : EntryId} (broken : c.BrokenChain id chain missing)
      (apart : ∀ e ∈ chain, e.id ≠ ancestor) (elsewhere : missing ≠ ancestor) :
      EndsWithout c ancestor id

/-! ## The climb ends, and the walk with fuel is the climb -/

section
variable {c : Contents} {ancestor : EntryId}

theorem meets_succ (fuel : Nat) {id : EntryId} {e : Entry} (apart : id ≠ ancestor)
    (inner : id ≠ .root) (found : c.byId id = some e) :
    c.meets ancestor (fuel + 1) id = c.meets ancestor fuel e.parentId := by
  simp [meets, apart, EntryId.isRoot, inner, found]

/-- What a climb passed names entries, so that there is no more of it than there are. -/
theorem WellFormed.length_passed_le (wf : WellFormed c) {passed : List EntryId}
    (distinct : passed.Nodup) (known : ∀ id ∈ passed, ∃ e, c.byId id = some e) :
    passed.length ≤ c.size := by
  have listed : passed ⊆ c.entries.toList.map (·.2.id) := by
    intro id member
    obtain ⟨e, found⟩ := known id member
    obtain ⟨there, rfl⟩ := wf.byId_iff.mp found
    exact List.mem_map.mpr ⟨(e.handle, e),
      Std.ExtTreeMap.mem_toList_iff_getElem?_eq_some.mpr there, rfl⟩
  have bound := (List.subperm_of_subset distinct listed).length_le
  rwa [List.length_map, Std.ExtTreeMap.length_toList] at bound

/-- The climb comes to an end. -/
theorem WellFormed.exists_climbs (wf : WellFormed c) (ancestor : EntryId) {passed : List EntryId}
    (distinct : passed.Nodup) (known : ∀ id ∈ passed, ∃ e, c.byId id = some e) (id : EntryId) :
    ∃ answer, c.Climbs ancestor passed id answer := by
  induction left : c.size - passed.length using Nat.strongRecOn generalizing passed id with
  | ind left ih =>
    by_cases met : id = ancestor
    · exact ⟨true, met ▸ .met⟩
    by_cases isRoot : id = .root
    · subst isRoot
      exact ⟨false, .top met⟩
    by_cases seen : id ∈ passed
    · exact ⟨true, .again met isRoot seen⟩
    cases found : c.byId id with
    | none => exact ⟨false, .lost met isRoot seen found⟩
    | some e =>
      have distinct := List.nodup_cons.mpr ⟨seen, distinct⟩
      have known : ∀ other ∈ id :: passed, ∃ e, c.byId other = some e :=
        List.forall_mem_cons.mpr ⟨⟨e, found⟩, known⟩
      have room := wf.length_passed_le distinct known
      rw [List.length_cons] at room
      obtain ⟨answer, above⟩ := ih (c.size - (id :: passed).length)
        (by rw [List.length_cons]; omega) distinct known e.parentId rfl
      exact ⟨answer, .up met isRoot seen found above⟩

/-- A walk that the climb answers with no is answered so, given a step for each entry that
is left and one more. -/
theorem WellFormed.meets_of_climbs_false (wf : WellFormed c) {passed : List EntryId} {id : EntryId}
    (climbs : c.Climbs ancestor passed id false) (distinct : passed.Nodup)
    (known : ∀ id ∈ passed, ∃ e, c.byId id = some e) {fuel : Nat}
    (room : c.size < fuel + passed.length) : c.meets ancestor fuel id = false := by
  generalize no : false = answer at climbs
  have passes := wf.length_passed_le distinct known
  obtain ⟨fuel, rfl⟩ : ∃ n, fuel = n + 1 := ⟨fuel - 1, by omega⟩
  induction climbs generalizing fuel with
  | met => cases no
  | again => cases no
  | top apart => simp [meets, apart, EntryId.isRoot]
  | lost apart inner new unknown => simp [meets, apart, EntryId.isRoot, inner, unknown]
  | @up passed id e answer apart inner new found above ih =>
    have distinct := List.nodup_cons.mpr ⟨new, distinct⟩
    have known : ∀ other ∈ id :: passed, ∃ e, c.byId other = some e :=
      List.forall_mem_cons.mpr ⟨⟨e, found⟩, known⟩
    have passes := wf.length_passed_le distinct known
    rw [List.length_cons] at passes
    obtain ⟨fuel, rfl⟩ : ∃ n, fuel = n + 1 := ⟨fuel - 1, by omega⟩
    rw [meets_succ _ apart inner found]
    exact ih distinct known no passes fuel (by rw [List.length_cons]; omega)

/-- A walk that the climb answers with yes is never answered with no, as it goes round
until its steps are used up. -/
theorem meets_of_climbs_true {passed : List EntryId} {id : EntryId} {fuel : Nat}
    (climbs : c.Climbs ancestor passed id true)
    (round : ∀ p ∈ passed, ∀ steps ≤ fuel, c.meets ancestor steps p = true) :
    c.meets ancestor fuel id = true := by
  induction fuel using Nat.strongRecOn generalizing passed id with
  | ind fuel ih =>
    cases fuel with
    | zero => rfl
    | succ fuel =>
      cases climbs with
      | met => simp [meets]
      | again apart inner seen => exact round id seen _ (Nat.le_refl _)
      | @up _ _ e _ apart inner new found above =>
        have fewer (p : EntryId) (member : p ∈ passed) (steps : Nat) (less : steps ≤ fuel) :
            c.meets ancestor steps p = true := round p member steps (Nat.le_succ_of_le less)
        rw [meets_succ _ apart inner found]
        refine ih fuel fuel.lt_succ_self above fun p member steps less => ?_
        rcases List.mem_cons.mp member with rfl | member
        · exact ih steps (Nat.lt_succ_of_le less) (.up apart inner new found above)
            fun p member few fewest => fewer p member few (Nat.le_trans fewest less)
        · exact fewer p member steps less

theorem WellFormed.climbs_iff (wf : WellFormed c) {id : EntryId} {answer : Bool} :
    c.Climbs ancestor [] id answer ↔ c.isAtOrAbove ancestor id = answer := by
  have sound {answer : Bool} (climbs : c.Climbs ancestor [] id answer) :
      c.isAtOrAbove ancestor id = answer := by
    cases answer with
    | false => exact wf.meets_of_climbs_false climbs List.nodup_nil nofun (by simp)
    | true => exact meets_of_climbs_true climbs nofun
  constructor
  · exact sound
  · rintro rfl
    obtain ⟨answer, climbs⟩ := wf.exists_climbs ancestor List.nodup_nil nofun id
    rwa [sound climbs]

/-! ## What the climb finds -/

/-- An entry is met on the way up, and so is everything else where the way has no end. -/
theorem meets_of_leadsTo {id above : EntryId} (leads : c.LeadsTo id above)
    (met : ∀ fuel, c.meets ancestor fuel above = true) (fuel : Nat) :
    c.meets ancestor fuel id = true := by
  induction leads using Relation.ReflTransGen.head_induction_on generalizing fuel with
  | refl => exact met fuel
  | @head id parent next _ ih =>
    obtain ⟨inner, e, found, rfl⟩ := next
    cases fuel with
    | zero => rfl
    | succ fuel =>
      by_cases same : id = ancestor
      · simp [meets, same]
      · rw [meets_succ _ same inner found]
        exact ih fuel

theorem meets_in_circle {id : EntryId} (circle : Relation.TransGen c.NamesParent id id)
    (fuel : Nat) : c.meets ancestor fuel id = true := by
  induction fuel generalizing id with
  | zero => rfl
  | succ fuel ih =>
    by_cases same : id = ancestor
    · simp [meets, same]
    · obtain ⟨parent, next, back⟩ := Relation.TransGen.head'_iff.mp circle
      obtain ⟨inner, e, found, rfl⟩ := next
      rw [meets_succ _ same inner found]
      exact ih (.tail' back ⟨inner, e, found, rfl⟩)

theorem Climbs.finds {passed : List EntryId} {id : EntryId}
    (climbs : c.Climbs ancestor passed id true)
    (behind : ∀ p ∈ passed, Relation.TransGen c.NamesParent p id) :
    c.LeadsTo id ancestor ∨ c.RunsInCircle id := by
  generalize yes : true = answer at climbs
  induction climbs with
  | met => exact .inl .refl
  | again apart inner seen => exact .inr ⟨_, .refl, behind _ seen⟩
  | top => cases yes
  | lost => cases yes
  | @up passed id e answer apart inner new found above ih =>
    have next : c.NamesParent id e.parentId := ⟨inner, e, found, rfl⟩
    have behind : ∀ p ∈ id :: passed, Relation.TransGen c.NamesParent p e.parentId :=
      List.forall_mem_cons.mpr ⟨.single next, fun p member => (behind p member).tail next⟩
    rcases ih behind yes with met | ⟨x, leads, circle⟩
    · exact .inl (.head next met)
    · exact .inr ⟨x, .head next leads, circle⟩

/-- The walk answers yes where it finds the entry, and where it would go round for ever. -/
theorem WellFormed.isAtOrAbove_eq_true_iff (wf : WellFormed c) {id : EntryId} :
    c.isAtOrAbove ancestor id = true ↔ c.LeadsTo id ancestor ∨ c.RunsInCircle id := by
  constructor
  · intro yes
    exact (wf.climbs_iff.mpr yes).finds nofun
  · rintro (met | ⟨x, leads, circle⟩)
    · exact meets_of_leadsTo met (fun fuel => by cases fuel <;> simp [meets]) _
    · exact meets_of_leadsTo leads (meets_in_circle circle) _

theorem Climbs.ends (wf : WellFormed c) {passed : List EntryId} {id : EntryId}
    (climbs : c.Climbs ancestor passed id false) : c.EndsWithout ancestor id := by
  generalize no : false = answer at climbs
  induction climbs with
  | met => cases no
  | again => cases no
  | top apart =>
    obtain ⟨root, known, named, -⟩ := wf.root
    have found : c.byId .root = some root := named ▸ wf.byId_of_byHandle known
    refine .atRoot (.root found) fun e member => ?_
    rw [List.mem_singleton.mp member, named]
    exact apart
  | lost apart inner new unknown => exact .brokenOff (.lost inner unknown) nofun apart
  | @up passed id e answer apart inner new found above ih =>
    have apart : e.id ≠ ancestor := (wf.byId_iff.mp found).2 ▸ apart
    cases ih no with
    | atRoot parents without =>
      exact .atRoot (.up found inner parents) (List.forall_mem_cons.mpr ⟨apart, without⟩)
    | brokenOff broken without elsewhere =>
      exact .brokenOff (.up found inner broken) (List.forall_mem_cons.mpr ⟨apart, without⟩)
        elsewhere

theorem BrokenChain.meets_eq_false (wf : WellFormed c) {id missing : EntryId} {chain : List Entry}
    (broken : c.BrokenChain id chain missing) (apart : ∀ e ∈ chain, e.id ≠ ancestor)
    (elsewhere : missing ≠ ancestor) : c.meets ancestor (chain.length + 1) id = false := by
  induction broken with
  | lost inner unknown => simp [meets, elsewhere, EntryId.isRoot, inner, unknown]
  | up found inner chain ih =>
    obtain ⟨own, above⟩ := List.forall_mem_cons.mp apart
    rw [(wf.byId_iff.mp found).2] at own
    rw [meets_succ _ own inner found]
    exact ih above elsewhere

/-- The walk answers no where the parents come to an end, be it at the root or where one
is missing, and the entry is not among them. -/
theorem WellFormed.isAtOrAbove_eq_false_iff (wf : WellFormed c) {id : EntryId} :
    c.isAtOrAbove ancestor id = false ↔ c.EndsWithout ancestor id := by
  -- a walk that is answered yes is answered so however few or many steps it has
  have enough {fuel : Nat} (no : c.meets ancestor fuel id = false) :
      c.isAtOrAbove ancestor id = false := by
    rw [Bool.eq_false_iff]
    intro yes
    cases no.symm.trans (meets_of_climbs_true (wf.climbs_iff.mpr yes) nofun)
  constructor
  · intro no
    exact (wf.climbs_iff.mpr no).ends wf
  · rintro (⟨parents, apart⟩ | ⟨broken, apart, elsewhere⟩)
    · have meets := not_congr (parents.meets_iff wf ancestor (Nat.le_refl _))
      refine enough (Bool.eq_false_iff.mpr (meets.mpr ?_))
      rintro ⟨e, member, same⟩
      exact apart e member same
    · exact enough (broken.meets_eq_false wf apart elsewhere)

/-- A chain that breaks off does not end at the root. -/
theorem BrokenChain.not_parentChain {id missing : EntryId} {chain other : List Entry}
    (broken : c.BrokenChain id chain missing) : ¬ c.ParentChain id other := by
  induction broken generalizing other with
  | lost inner unknown =>
    intro parents
    obtain ⟨e, above, -, found⟩ := parents.head
    cases unknown.symm.trans found
  | up found inner broken ih =>
    intro parents
    cases parents with
    | root => exact inner rfl
    | up again _ parents =>
      cases found.symm.trans again
      exact ih parents

end

/-- An entry whose parent is missing, one in the root, and two that lie in each other. -/
def strayed : Contents :=
  (((initial.write (.insert ⟨"a"⟩ ⟨"gone"⟩ .initial)).write
    (.insert ⟨"b"⟩ .root .initial)).write (.insert ⟨"x"⟩ ⟨"y"⟩ .initial)).write
      (.insert ⟨"y"⟩ ⟨"x"⟩ .initial)

theorem strayed_reachable : Reachable strayed :=
  (((Reachable.initial.write _).write _).write _).write _

end Contents

namespace Transaction
open Contents

/-- The walk for an ancestor ends in every directory that can be written, and answers as
the climb does that remembers what it passed: yes where the ancestor is met or the parents
run in a circle, no where they come to an end without it, be it at the root or where one of
them is missing. So no node is put anew under a parent that runs in a circle; but one may
be put under a parent whose chain breaks off. -/
theorem isAtOrAbove_exact {t : Transaction} (reachable : t.contents.Reachable) :
    (∀ ancestor id answer, t.contents.Climbs ancestor [] id answer ↔
      t.contents.isAtOrAbove ancestor id = answer) ∧
    (∀ ancestor id, t.contents.isAtOrAbove ancestor id = true ↔
      t.contents.LeadsTo id ancestor ∨ t.contents.RunsInCircle id) ∧
    (∀ ancestor id, t.contents.isAtOrAbove ancestor id = false ↔
      t.contents.EndsWithout ancestor id) ∧
    ∀ (node : EditableNode) parent predecessor, (t.move node parent predecessor).1 = .ok () →
      ¬ t.contents.InPlace node.handle parent predecessor →
      ∃ e p, t.contents.byHandle node.handle = some e ∧ t.contents.byHandle parent = some p ∧
        ¬ t.contents.RunsInCircle p.id ∧ t.contents.EndsWithout e.id p.id := by
  have wf := reachable.wellFormed
  refine ⟨fun _ _ _ => wf.climbs_iff, fun _ _ => wf.isAtOrAbove_eq_true_iff,
    fun _ _ => wf.isAtOrAbove_eq_false_iff, ?_⟩
  intro node parent predecessor granted elsewhere
  rcases move_cases t node parent predecessor with
    ⟨refusal, refused⟩ | ⟨here, -⟩ | ⟨e, p, moves, -⟩
  · rw [refused] at granted
    cases granted
  · exact absurd here elsewhere
  · refine ⟨e, p, moves.nodeKnown, moves.parentKnown, fun circle => ?_,
      wf.isAtOrAbove_eq_false_iff.mp moves.outside⟩
    have found : t.contents.isAtOrAbove e.id p.id = true :=
      wf.isAtOrAbove_eq_true_iff.mpr (.inr circle)
    cases found.symm.trans moves.outside

/-- An edit of a directory that holds all of these. -/
def amongStrayed : Transaction := { writer := .embedder, contents := strayed }

theorem isAtOrAbove_exact_strayed :
    amongStrayed.contents.Reachable ∧
      (strayed.RunsInCircle ⟨"x"⟩ ∧ strayed.Climbs ⟨"b"⟩ [] ⟨"x"⟩ true) ∧
      (strayed.isAtOrAbove ⟨"x"⟩ ⟨"a"⟩ = false ∧ strayed.EndsWithout ⟨"x"⟩ ⟨"a"⟩) ∧
      (amongStrayed.move ⟨2⟩ 3 none).1 = .ok () ∧ ¬ strayed.InPlace 2 3 none ∧
        ∃ e p, strayed.byHandle 2 = some e ∧ strayed.byHandle 3 = some p ∧
          ¬ strayed.RunsInCircle p.id ∧ strayed.EndsWithout e.id p.id := by
  obtain ⟨climbs, yes, no, moves⟩ := isAtOrAbove_exact (t := amongStrayed) strayed_reachable
  have onward : strayed.NamesParent ⟨"x"⟩ ⟨"y"⟩ :=
    ⟨by decide, .create 4 ⟨"x"⟩ ⟨"y"⟩ .initial, rfl, rfl⟩
  have back : strayed.NamesParent ⟨"y"⟩ ⟨"x"⟩ :=
    ⟨by decide, .create 5 ⟨"y"⟩ ⟨"x"⟩ .initial, rfl, rfl⟩
  have circle : strayed.RunsInCircle ⟨"x"⟩ := ⟨_, .refl, .tail (.single onward) back⟩
  have outside : strayed.isAtOrAbove ⟨"x"⟩ ⟨"a"⟩ = false := rfl
  have granted : (amongStrayed.move ⟨2⟩ 3 none).1 = .ok () := rfl
  have elsewhere : ¬ strayed.InPlace 2 3 none := by
    rintro ⟨e, p, known, parentKnown, under, -⟩
    cases (show some (Entry.create 2 ⟨"a"⟩ ⟨"gone"⟩ .initial) = some e from known)
    cases (show some (Entry.create 3 ⟨"b"⟩ .root .initial) = some p from parentKnown)
    exact absurd under (by decide)
  exact ⟨strayed_reachable, ⟨circle, (climbs _ _ _).mpr ((yes _ _).mpr (.inr circle))⟩,
    ⟨outside, (no _ _).mp outside⟩, granted, elsewhere, moves _ _ _ granted elsewhere⟩

/-- A chain that breaks off is answered with no, and a node is put at its lower end. -/
theorem isAtOrAbove_brokenOff :
    Reachable strayed ∧ strayed.isAtOrAbove ⟨"b"⟩ ⟨"a"⟩ = false ∧
      (¬ ∃ chain, strayed.ParentChain ⟨"a"⟩ chain) ∧
      (amongStrayed.move ⟨3⟩ 2 none).1 = .ok () ∧
      ((amongStrayed.move ⟨3⟩ 2 none).2.contents.byHandle 3).map (·.parentId) = some ⟨"a"⟩ := by
  have broken : strayed.BrokenChain ⟨"a"⟩ [.create 2 ⟨"a"⟩ ⟨"gone"⟩ .initial] ⟨"gone"⟩ :=
    .up rfl (by decide) (.lost (by decide) rfl)
  exact ⟨strayed_reachable, rfl, fun ⟨_, parents⟩ => broken.not_parentChain parents, rfl, rfl⟩

end Transaction

end SharedTree
