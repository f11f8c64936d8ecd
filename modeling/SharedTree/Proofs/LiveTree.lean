import SharedTree.Proofs.DeliveredLists
import SharedTree.Proofs.ParentChains
import SharedTree.Proofs.TreeOrder

/-! The tree of the live entries of a directory. Where every live entry has only live
ones above it up to the root, the parents that the order of changes goes by come to
an end for each of them. -/
namespace SharedTree

namespace Contents
variable {c : Contents} {h k : Handle} {e : Entry}

/-- The entries above each live one are live, up to the root. -/
def LiveChains (c : Contents) : Prop :=
  ∀ h e, c.byHandle h = some e → e.isDeleted = false →
    ∃ chain, c.ParentChain e.id chain ∧ ∀ x ∈ chain, x.isDeleted = false

theorem shape_parent (known : c.byHandle h = some e) :
    c.shape.parent h = if e.isRoot then none else c.ids[e.parentId]? := by
  simp [shape, known]

namespace WellFormed
variable (wf : WellFormed c)
include wf

theorem isParent_iff (known : c.byHandle h = some e) :
    c.shape.IsParent k h ↔
      e.isRoot = false ∧ ∃ parent, c.byHandle k = some parent ∧ parent.id = e.parentId := by
  rw [TreeShape.IsParent, shape_parent known]
  cases root : e.isRoot with
  | true => simp
  | false => simpa using wf.ids e.parentId k

/-- The entry that another names as its parent is its parent in the shape. -/
theorem isParent_of_byId {parent : Entry} (known : c.byHandle h = some e)
    (inner : e.isRoot = false) (found : c.byId e.parentId = some parent) :
    c.byHandle parent.handle = some parent ∧ parent.id = e.parentId ∧
      c.shape.IsParent parent.handle h := by
  obtain ⟨parentKnown, named⟩ := wf.byId_iff.mp found
  exact ⟨parentKnown, named, (wf.isParent_iff known).mpr ⟨inner, parent, parentKnown, named⟩⟩

theorem ends_root : c.shape.Ends rootHandle := by
  obtain ⟨root, known, rootId, -⟩ := wf.root
  apply TreeShape.Ends.top
  rw [shape_parent known, (wf.isRoot_iff known).mpr rfl]
  rfl

/-- Where a chain of parents leads to the root, so do the parents of the shape. -/
theorem ends_of_chain {id : EntryId} {chain : List Entry} (parents : c.ParentChain id chain)
    (known : c.byHandle h = some e) (named : e.id = id) : c.shape.Ends h := by
  induction parents generalizing h e with
  | root found =>
    have root : e.isRoot = true := by simp [Entry.isRoot, EntryId.isRoot, named]
    exact (wf.isRoot_iff known).mp root ▸ wf.ends_root
  | @up id x rest found inner above ih =>
    subst named
    cases found.symm.trans (wf.byId_of_byHandle known)
    obtain ⟨parent, further, -, parentFound⟩ := above.head
    have notRoot : x.isRoot = false := by simpa [Entry.isRoot, EntryId.isRoot] using inner
    obtain ⟨parentKnown, parentNamed, next⟩ := wf.isParent_of_byId known notRoot parentFound
    exact .child next (ih parentKnown parentNamed)

end WellFormed

section Live
variable (wf : WellFormed c) (live : LiveChains c)
include wf live

theorem LiveChains.ends (known : c.byHandle h = some e) (alive : e.isDeleted = false) :
    c.shape.Ends h := by
  obtain ⟨chain, parents, -⟩ := live h e known alive
  exact wf.ends_of_chain parents known rfl

/-- A live entry but the root has a live parent. -/
theorem LiveChains.exists_parent (known : c.byHandle h = some e) (alive : e.isDeleted = false)
    (inner : e.isRoot = false) :
    ∃ k parent, c.shape.IsParent k h ∧ c.byHandle k = some parent ∧ parent.isDeleted = false ∧
      parent.id = e.parentId := by
  obtain ⟨chain, parents, allAlive⟩ := live h e known alive
  generalize named : e.id = id at parents
  cases parents with
  | root found => simp [Entry.isRoot, EntryId.isRoot, named] at inner
  | up found _ above =>
    subst named
    cases (wf.byId_of_byHandle known).symm.trans found
    obtain ⟨parent, rest, rfl, parentFound⟩ := above.head
    obtain ⟨parentKnown, parentNamed, next⟩ := wf.isParent_of_byId known inner parentFound
    exact ⟨parent.handle, parent, next, parentKnown, allAlive _ (by simp), parentNamed⟩

/-- What a live entry hangs from is live. -/
theorem LiveChains.parent_alive (known : c.byHandle h = some e) (alive : e.isDeleted = false)
    (next : c.shape.IsParent k h) : ∃ parent, c.byHandle k = some parent ∧
      parent.isDeleted = false := by
  obtain ⟨inner, -⟩ := (wf.isParent_iff known).mp next
  obtain ⟨own, parent, again, parentKnown, parentAlive, -⟩ :=
    live.exists_parent wf known alive inner
  cases next.symm.trans again
  exact ⟨parent, parentKnown, parentAlive⟩

/-- What hangs from a tombstone is one. -/
theorem LiveChains.gone_below (known : c.byHandle h = some e) (gone : e.isDeleted = true)
    {x : Entry} (below : c.byHandle k = some x) (next : c.shape.IsParent h k) :
    x.isDeleted = true := by
  by_contra alive
  obtain ⟨parent, parentKnown, parentAlive⟩ :=
    live.parent_alive wf below (by simpa using alive) next
  cases known.symm.trans parentKnown
  cases gone.symm.trans parentAlive

end Live

/-- Where parents are older than their children, every chain of them ends. -/
theorem liveChains_of_older (wf : WellFormed c)
    (older : ∀ p ∈ c.entries.toList, p.2.isDeleted = false → p.2.id = .root ∨
      ∃ q ∈ c.entries.toList, q.2.isDeleted = false ∧ q.2.id = p.2.parentId ∧
        q.1.number.toNat < p.1.number.toNat) : LiveChains c := by
  have listed {h : Handle} {e : Entry} : (h, e) ∈ c.entries.toList ↔ c.byHandle h = some e :=
    Std.ExtTreeMap.mem_toList_iff_getElem?_eq_some
  intro h
  induction age : h.number.toNat using Nat.strongRecOn generalizing h with
  | ind n ih =>
    intro e known alive
    subst age
    have found := wf.byId_of_byHandle known
    by_cases root : e.id = .root
    · rw [root] at found ⊢
      exact ⟨[e], .root found, by simpa using alive⟩
    · rcases older _ (listed.mpr known) alive with
        isRoot | ⟨⟨k, parent⟩, member, parentAlive, named, less⟩
      · exact absurd isRoot root
      · obtain ⟨chain, parents, allAlive⟩ := ih _ less k rfl parent (listed.mp member) parentAlive
        refine ⟨e :: chain, .up found root (named ▸ parents), ?_⟩
        simpa [alive] using allAlive

/-- A record that is no deletion is of a live entry. -/
theorem Due.alive {opened closed : Contents} {r : Change} (due : Due opened closed r)
    (other : r.kind ≠ .delete) :
    ∃ e, closed.byHandle r.id = some e ∧ e.isRoot = false ∧ e.isDeleted = false := by
  cases due with
  | added now inner _ live => exact ⟨_, now, inner, live⟩
  | deleted => exact absurd rfl other
  | updated now inner _ live => exact ⟨_, now, inner, live⟩

/-- A deletion is of an entry that was live and is no longer. -/
theorem Due.removed {opened closed : Contents} {r : Change} (due : Due opened closed r)
    (deletes : r.kind = .delete) :
    ∃ b e, opened.byHandle r.id = some b ∧ b.isDeleted = false ∧
      closed.byHandle r.id = some e ∧ e.isRoot = false ∧ e.isDeleted = true := by
  cases due with
  | added => cases deletes
  | deleted now inner _ gone before wasLive => exact ⟨_, _, before, wasLive, now, inner, gone⟩
  | updated => cases deletes

end Contents

namespace Client
variable {σ : Type}

/-- The list that a client makes of a transaction in which the syncer writes. -/
def syncerList (client : Client σ) (d : Directory) (writes : List Write) : List Change :=
  (client.changesToTell (writes.foldl Transaction.write (d.write .syncer)).closed).1

/-- It is the difference that the transaction made, whatever the client noted before. -/
theorem syncerList_eq (client : Client σ) {d : Directory} (reachable : d.contents.Reachable)
    (writes : List Write) :
    client.syncerList d writes =
      d.contents.changesSince (writes.foldl Contents.write d.contents) := by
  have faithful := Directory.write_faithful reachable .syncer writes
  have written : (writes.foldl Transaction.write (d.write .syncer)).contents =
      writes.foldl Contents.write d.contents := Transaction.contents_writes _ _
  have tagged : (writes.foldl Transaction.write (d.write .syncer)).closed.writer = .syncer :=
    Transaction.writer_writes _ _
  have drained := Observations.drain_closed faithful
    (written ▸ (reachable.writes writes).wellFormed) client.observations
  rw [syncerList, changesToTell, tagged]
  simp [drained, written]

end Client

end SharedTree
