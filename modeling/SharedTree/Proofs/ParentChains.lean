import Mathlib.Data.List.Nodup
import Mathlib.Data.List.Perm.Subperm
import SharedTree.Proofs.NodeEdits

/-! Chains of parents. In a directory that was only ever edited through nodes the
chain of parents of each entry ends at the root, so that the climb that guards a
move gives the true answer there; and since a move is refused wherever the climb
from the new parent meets the node, no edit can break or close a chain. -/
namespace SharedTree

namespace Contents

/-- The entries from the one with an id up to the root, each found by the id that
the one before it names as its parent. -/
inductive ParentChain (c : Contents) : EntryId → List Entry → Prop where
  | root {e : Entry} (found : c.byId .root = some e) : ParentChain c .root [e]
  | up {id : EntryId} {e : Entry} {above : List Entry} (found : c.byId id = some e)
      (inner : id ≠ .root) (chain : ParentChain c e.parentId above) :
      ParentChain c id (e :: above)

/-- Every entry, tombstone or not, has a chain of parents to the root. -/
def Rooted (c : Contents) : Prop :=
  ∀ h e, c.byHandle h = some e → ∃ chain, c.ParentChain e.id chain

namespace ParentChain
variable {c : Contents} {id : EntryId} {chain : List Entry}

theorem unique (first : c.ParentChain id chain) {other : List Entry}
    (second : c.ParentChain id other) : chain = other := by
  induction first generalizing other with
  | root found =>
    cases second with
    | root again => cases found.symm.trans again; rfl
    | up again inner chain => exact absurd rfl inner
  | up found inner chain ih =>
    cases second with
    | root again => exact absurd rfl inner
    | up again _ above =>
      cases found.symm.trans again
      rw [ih above]

/-- The entry that a chain starts with. -/
theorem head (parents : c.ParentChain id chain) :
    ∃ e above, chain = e :: above ∧ c.byId id = some e := by
  cases parents with
  | root found => exact ⟨_, _, rfl, found⟩
  | up found inner parents => exact ⟨_, _, rfl, found⟩

theorem exists_byId (parents : c.ParentChain id chain) : ∀ e ∈ chain, ∃ id, c.byId id = some e := by
  induction parents with
  | root found =>
    intro e member
    cases List.mem_singleton.mp member
    exact ⟨_, found⟩
  | up found inner parents ih =>
    intro e member
    rcases List.mem_cons.mp member with rfl | member
    · exact ⟨_, found⟩
    · exact ih e member

/-- A chain ends at the root. -/
theorem exists_root (parents : c.ParentChain id chain) :
    ∃ e ∈ chain, c.byId .root = some e := by
  induction parents with
  | root found => exact ⟨_, List.mem_singleton_self _, found⟩
  | up found inner parents ih =>
    obtain ⟨e, member, found⟩ := ih
    exact ⟨e, List.mem_cons_of_mem _ member, found⟩

section WellFormed
variable (wf : WellFormed c)
include wf

/-- From any entry of a chain on, the rest of it is that entry's own chain. -/
theorem suffix (parents : c.ParentChain id chain) {e : Entry} (member : e ∈ chain) :
    ∃ rest, c.ParentChain e.id rest ∧ rest.length ≤ chain.length := by
  induction parents with
  | @root other found =>
    cases List.mem_singleton.mp member
    rw [(wf.byId_iff.mp found).2]
    exact ⟨_, .root found, Nat.le_refl _⟩
  | @up id other above found inner parents ih =>
    rcases List.mem_cons.mp member with rfl | member
    · rw [(wf.byId_iff.mp found).2]
      exact ⟨_, .up found inner parents, Nat.le_refl _⟩
    · obtain ⟨rest, own, shorter⟩ := ih member
      exact ⟨rest, own, by simp only [List.length_cons]; omega⟩

/-- A chain that met an entry twice would never end. -/
theorem nodup (parents : c.ParentChain id chain) : (chain.map (·.id)).Nodup := by
  induction parents with
  | root found => exact List.nodup_singleton _
  | @up id e above found inner parents ih =>
    rw [List.map_cons, List.nodup_cons]
    refine ⟨fun again => ?_, ih⟩
    obtain ⟨other, member, same⟩ := List.mem_map.mp again
    obtain ⟨rest, own, shorter⟩ := parents.suffix wf member
    rw [same, (wf.byId_iff.mp found).2] at own
    have whole := own.unique (.up found inner parents)
    rw [whole, List.length_cons] at shorter
    omega

/-- A chain is no longer than there are entries. -/
theorem length_le_size (parents : c.ParentChain id chain) : chain.length ≤ c.size := by
  have distinct : chain.Nodup := List.Nodup.of_map _ (parents.nodup wf)
  have known : chain ⊆ c.entries.toList.map (·.2) := by
    intro e member
    obtain ⟨id, found⟩ := parents.exists_byId e member
    exact List.mem_map.mpr ⟨(e.handle, e),
      Std.ExtTreeMap.mem_toList_iff_getElem?_eq_some.mpr (wf.byId_iff.mp found).1, rfl⟩
  have bound := (List.subperm_of_subset distinct known).length_le
  rwa [List.length_map, Std.ExtTreeMap.length_toList] at bound

/-- A climb with room for the whole chain meets exactly the entries on it. -/
theorem meets_iff (parents : c.ParentChain id chain) (ancestor : EntryId) {fuel : Nat}
    (room : chain.length ≤ fuel) :
    c.meets ancestor fuel id = true ↔ ∃ e ∈ chain, e.id = ancestor := by
  induction parents generalizing fuel with
  | @root e found =>
    obtain ⟨fuel, rfl⟩ : ∃ n, fuel = n + 1 := ⟨fuel - 1, by simp at room; omega⟩
    have named := (wf.byId_iff.mp found).2
    by_cases met : EntryId.root = ancestor <;> simp [meets, met, named, EntryId.isRoot]
  | @up id e above found inner parents ih =>
    obtain ⟨fuel, rfl⟩ : ∃ n, fuel = n + 1 := ⟨fuel - 1, by simp at room; omega⟩
    have named := (wf.byId_iff.mp found).2
    have rest : c.meets ancestor fuel e.parentId = true ↔ _ := ih (by simpa using room)
    by_cases met : id = ancestor
    · simp [meets, met, named]
    · simp [meets, met, named, inner, found, rest, EntryId.isRoot]

end WellFormed

/-- A chain has a counterpart wherever each of its entries either keeps its
parent or has a chain anyway. -/
theorem carried (parents : c.ParentChain id chain) {after : Contents}
    (kept : ∀ e ∈ chain, ∀ id, c.byId id = some e →
      (∃ e', after.byId id = some e' ∧ e'.parentId = e.parentId) ∨
        ∃ chain, after.ParentChain id chain) :
    ∃ chain, after.ParentChain id chain := by
  induction parents with
  | root found =>
    rcases kept _ (List.mem_singleton_self _) _ found with ⟨e', there, -⟩ | chained
    · exact ⟨_, .root there⟩
    · exact chained
  | up found inner parents ih =>
    rcases kept _ List.mem_cons_self _ found with ⟨e', there, same⟩ | chained
    · obtain ⟨rest, above⟩ := ih fun e member => kept e (List.mem_cons_of_mem _ member)
      exact ⟨_, .up there inner (same ▸ above)⟩
    · exact chained

end ParentChain

/-! ## The climb in a rooted directory -/

/-- Where every entry has a chain, the climb answers by the chain. -/
theorem Rooted.isAtOrAbove_iff {c : Contents} (rooted : Rooted c) (wf : WellFormed c)
    (a b : EntryId) :
    c.isAtOrAbove a b = true ↔
      a = b ∨ ∃ chain, c.ParentChain b chain ∧ ∃ e ∈ chain, e.id = a := by
  cases found : c.byId b with
  | some e =>
    obtain ⟨known, rfl⟩ := wf.byId_iff.mp found
    obtain ⟨chain, parents⟩ := rooted _ _ known
    rw [isAtOrAbove, parents.meets_iff wf a
      (Nat.le_succ_of_le (parents.length_le_size wf))]
    constructor
    · exact fun met => .inr ⟨chain, parents, met⟩
    · rintro (rfl | ⟨other, again, met⟩)
      · obtain ⟨first, above, rfl, same⟩ := parents.head
        cases found.symm.trans same
        exact ⟨_, List.mem_cons_self, rfl⟩
      · exact parents.unique again ▸ met
  | none =>
    have inner : b ≠ .root := by
      obtain ⟨e, known, named, -⟩ := wf.root
      rintro rfl
      cases found.symm.trans (named ▸ wf.byId_of_byHandle known)
    have unchained : ∀ chain, ¬ c.ParentChain b chain := by
      intro chain parents
      obtain ⟨e, above, -, there⟩ := parents.head
      cases found.symm.trans there
    by_cases same : b = a
    · simp [isAtOrAbove, meets, same]
    · simp [isAtOrAbove, meets, same, inner, found, unchained, Ne.symm same, EntryId.isRoot]

/-! ## What an edit does to the chains -/

theorem WellFormed.byId_modify {c : Contents} (wf : WellFormed c) {h : Handle} {before : Entry}
    (change : Entry → Entry) (known : c.byHandle h = some before) (id : EntryId) :
    (c.modify h change).byId id =
      if before.id = id then some (changed before change) else c.byId id := by
  split
  · rename_i same
    subst same
    have named := wf.ids_of_byHandle known
    simp [byId, ids_modify, named, byHandle_modify, known]
  · rename_i different
    rw [byId, byId, ids_modify]
    cases named : c.ids[id]? with
    | none => rfl
    | some k =>
      have apart : h ≠ k := by
        rintro rfl
        obtain ⟨e, found, same⟩ := (wf.ids id h).mp named
        cases known.symm.trans found
        exact different same
      simp [byHandle_modify, apart]

theorem WellFormed.byId_inserted {c : Contents} (wf : WellFormed c) {id : EntryId}
    (parentId : EntryId) (ordinal : Ordinal) {other : EntryId} {e : Entry}
    (found : c.byId other = some e) (free : c.ids[id]? = none) :
    (c.inserted id parentId ordinal).byId other = some e := by
  obtain ⟨known, same⟩ := wf.byId_iff.mp found
  exact (wf.inserted parentId ordinal free).byId_iff.mpr
    ⟨wf.byHandle_inserted_iff.mpr (.inr known), same⟩

theorem Rooted.exists_chain {c : Contents} (rooted : Rooted c) (wf : WellFormed c)
    {id : EntryId} {e : Entry} (found : c.byId id = some e) : ∃ chain, c.ParentChain id chain := by
  obtain ⟨known, rfl⟩ := wf.byId_iff.mp found
  exact rooted _ _ known

/-- A change that leaves the parent alone leaves every chain in place. -/
theorem Rooted.modify_inPlace {c : Contents} (rooted : Rooted c) (wf : WellFormed c) (h : Handle)
    {change : Entry → Entry} (inPlace : ∀ e, (change e).parentId = e.parentId) :
    Rooted (c.modify h change) := by
  cases known : c.byHandle h with
  | none =>
    rw [modify_unknown change known]
    exact rooted
  | some before =>
    have sameParent : (changed before change).parentId = before.parentId := by
      simp only [changed]
      split <;> simp [inPlace]
    intro k e found
    have named := (wf.modify h change).byId_of_byHandle found
    rw [wf.byId_modify change known] at named
    obtain ⟨old, there⟩ : ∃ old, c.byId e.id = some old := by
      split at named
      · rename_i same
        exact ⟨before, same ▸ wf.byId_of_byHandle known⟩
      · exact ⟨e, named⟩
    obtain ⟨chain, parents⟩ := rooted.exists_chain wf there
    apply parents.carried
    intro x _ id found
    left
    rw [wf.byId_modify change known]
    split
    · rename_i same
      have own := wf.byId_of_byHandle known
      rw [same, found] at own
      cases own
      exact ⟨_, rfl, sameParent⟩
    · exact ⟨x, found, rfl⟩

/-- A new entry under one that is there hangs from that one's chain. -/
theorem Rooted.inserted {c : Contents} (rooted : Rooted c) (wf : WellFormed c) {id : EntryId}
    {parent : Entry} (ordinal : Ordinal) {h : Handle} (known : c.byHandle h = some parent)
    (free : c.ids[id]? = none) : Rooted (c.inserted id parent.id ordinal) := by
  have carried {x : EntryId} {chain : List Entry} (parents : c.ParentChain x chain) :
      ∃ chain, (c.inserted id parent.id ordinal).ParentChain x chain :=
    parents.carried fun e _ other found => .inl ⟨e, wf.byId_inserted _ _ found free, rfl⟩
  intro k e found
  have named := (wf.inserted parent.id ordinal free).byId_of_byHandle found
  rcases wf.byHandle_inserted_iff.mp found with ⟨rfl, rfl⟩ | old
  · obtain ⟨chain, parents⟩ := rooted h parent known
    obtain ⟨above, hung⟩ := carried parents
    exact ⟨_, .up named (wf.ne_root_of_free free) hung⟩
  · obtain ⟨chain, parents⟩ := rooted k e old
    exact carried parents

/-- Putting an entry under one that does not lie below it closes no chain: the
new parent's chain avoids the entry, and every other chain is cut where it meets
the entry and goes on along the new one. -/
theorem Rooted.modify_outside {c : Contents} (rooted : Rooted c) (wf : WellFormed c)
    {h k : Handle} {before parent : Entry} {change : Entry → Entry}
    (known : c.byHandle h = some before) (parentKnown : c.byHandle k = some parent)
    (under : (change before).parentId = parent.id)
    (outside : c.isAtOrAbove before.id parent.id = false) : Rooted (c.modify h change) := by
  have avoided : ¬ ∃ chain, c.ParentChain parent.id chain ∧ ∃ e ∈ chain, e.id = before.id := by
    intro met
    rw [(rooted.isAtOrAbove_iff wf _ _).mpr (.inr met)] at outside
    cases outside
  obtain ⟨chain, parents⟩ := rooted k parent parentKnown
  have inner : before.id ≠ .root := by
    intro isRoot
    obtain ⟨root, member, found⟩ := parents.exists_root
    exact avoided ⟨chain, parents, root, member, (wf.byId_iff.mp found).2.trans isRoot.symm⟩
  have newParent : (changed before change).parentId = parent.id := by
    simp [changed, Entry.isRoot, EntryId.isRoot, inner, under]
  have named : (c.modify h change).byId before.id = some (changed before change) := by
    rw [wf.byId_modify change known, if_pos rfl]
  obtain ⟨above, hung⟩ : ∃ above, (c.modify h change).ParentChain parent.id above := by
    apply parents.carried
    intro x member id found
    refine .inl ⟨x, ?_, rfl⟩
    rw [wf.byId_modify change known, if_neg, found]
    rintro rfl
    exact avoided ⟨chain, parents, x, member, (wf.byId_iff.mp found).2⟩
  have rehung : (c.modify h change).ParentChain before.id (changed before change :: above) :=
    .up named inner (newParent ▸ hung)
  intro l e found
  by_cases same : before.id = e.id
  · exact ⟨_, same ▸ rehung⟩
  · have there := (wf.modify h change).byId_of_byHandle found
    rw [wf.byId_modify change known, if_neg same] at there
    obtain ⟨old, ownParents⟩ := rooted.exists_chain wf there
    apply ownParents.carried
    intro x _ id found
    by_cases cut : before.id = id
    · exact .inr ⟨_, cut ▸ rehung⟩
    · exact .inl ⟨x, by rw [wf.byId_modify change known, if_neg cut, found], rfl⟩

theorem rooted_initial : Rooted .initial := by
  intro h e found
  have named := wellFormed_initial.byId_of_byHandle found
  obtain ⟨-, rfl⟩ := byHandle_initial.mp found
  exact ⟨_, .root named⟩

end Contents

namespace Transaction
open Contents

theorem EditStep.rooted {t after : Transaction} (step : EditStep t after)
    (wf : WellFormed t.contents) (rooted : Rooted t.contents) : Rooted after.contents := by
  cases step with
  | nothing => exact rooted
  | rewritten h change inPlace removed =>
    rw [contents_modify]
    exact rooted.modify_inPlace wf h fun e => (inPlace e).1
  | moved moves =>
    rw [contents_modify]
    exact rooted.modify_outside wf moves.nodeKnown moves.parentKnown rfl moves.outside
  | created creates =>
    rw [contents_modify, contents_insertFresh _ _ creates.free]
    exact (rooted.inserted wf _ creates.parentKnown creates.free).modify_inPlace
      (wf.inserted _ _ creates.free) _ fun _ => rfl

end Transaction

namespace Directory
open Contents

theorem afterEdits_rooted (name : String) (transactions : List (Writer × List NodeEdit)) :
    Rooted (afterEdits name transactions).contents :=
  afterEdits_induction name transactions rooted_initial
    fun step reachable rooted => step.rooted reachable.wellFormed rooted

/-- However a directory was edited, each entry's parents lead to the root without
repetition, and the climb tells truly what lies above what. -/
theorem parentChain_afterEdits (name : String) (transactions : List (Writer × List NodeEdit)) :
    (∀ h e, (afterEdits name transactions).contents.byHandle h = some e →
      ∃ chain, (afterEdits name transactions).contents.ParentChain e.id chain ∧
        chain.head? = some e ∧ (chain.map (·.id)).Nodup) ∧
    ∀ a b, (afterEdits name transactions).contents.isAtOrAbove a b = true ↔
      a = b ∨ ∃ chain, (afterEdits name transactions).contents.ParentChain b chain ∧
        ∃ e ∈ chain, e.id = a := by
  have wf := (afterEdits_reachable name transactions).wellFormed
  have rooted := afterEdits_rooted name transactions
  refine ⟨?_, rooted.isAtOrAbove_iff wf⟩
  intro h e known
  obtain ⟨chain, parents⟩ := rooted h e known
  obtain ⟨first, above, whole, found⟩ := parents.head
  cases found.symm.trans (wf.byId_of_byHandle known)
  exact ⟨chain, parents, by rw [whole]; rfl, parents.nodup wf⟩

end Directory

end SharedTree
