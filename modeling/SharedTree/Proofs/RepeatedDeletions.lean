import SharedTree.Proofs.ObservationFolding

/-! What is told of an entry that goes more than once. One observation is kept of an entry,
and an addition takes the place of whatever it finds. So once an entry came, it is forgotten
whether it was there before all of this, and if it goes then, that is cancelled against its
coming. `deletion_folded` says what is told of any history, and that the deletion of an
entry that was there, and is not there at the end, is told exactly if it went but once. -/
namespace SharedTree

namespace Observations

/-- Of an entry that came, nothing is pending but its addition, as long as it is there, and
whether or not it was there before. -/
theorem History.fold_came {h : Handle} {before : Bool} {own : List Note} {alive : Bool}
    (history : History h before own alive) (came : own.any (·.isAddition) = true) :
    own.foldl Note.fold none = if alive then some .add else none := by
  induction history with
  | start => cases came
  | added past => simp [Note.fold]
  | deleted past ih =>
    have earlier := ih (by simpa [Note.isAddition] using came)
    simp [earlier, Note.fold]
  | updated past ih =>
    have earlier := ih (by simpa [Note.isAddition] using came)
    simp [earlier, Note.fold, foldUpdate]

/-- An entry comes and goes in turn. -/
theorem History.balance {h : Handle} {before : Bool} {own : List Note} {alive : Bool}
    (history : History h before own alive) :
    own.countP (·.isAddition) + before.toNat = own.countP (·.isDeletion) + alive.toNat := by
  induction history with
  | start => simp
  | added past ih => simp [Note.isAddition, Note.isDeletion] at ih ⊢; omega
  | deleted past ih => simp [Note.isAddition, Note.isDeletion] at ih ⊢; omega
  | updated past ih => simpa [Note.isAddition, Note.isDeletion] using ih

/-- An entry that was there before and is not there at the end went at least once, and
just once if it never came. -/
theorem History.went {h : Handle} {own : List Note} (history : History h true own false) :
    own.any (·.isDeletion) = true ∧
      (own.countP (·.isDeletion) = 1 ↔ own.any (·.isAddition) = false) := by
  have balance : own.countP (·.isAddition) + 1 = own.countP (·.isDeletion) := history.balance
  have going : own.any (·.isDeletion) = true ↔ 0 < own.countP (·.isDeletion) := by
    rw [List.any_eq_true, List.countP_pos_iff]
  have coming : own.any (·.isAddition) = false ↔ own.countP (·.isAddition) = 0 := by
    rw [List.any_eq_false, List.countP_eq_zero]
  rw [going, coming]
  exact ⟨by omega, by omega⟩

/-- Whatever becomes of an entry, one that came at least once is told as added if it is
there at the end, and not at all if it is not. Of any other a deletion is told, if there was
one, else one update that says whether any of them was a move. So an entry that is not there
at the end is told as deleted exactly if it was there before and went once; if it went more
often, nothing is told of it. -/
theorem deletion_folded (notes : List Note) (h : Handle) {before alive : Bool}
    (history : History h before (notes.filter (·.entry = h)) alive) (tree : TreeShape) :
    let own := notes.filter (·.entry = h)
    let told := ((noted notes).inTreeOrder tree).filter (·.id = h)
    (told =
      if own.any (·.isAddition) then if alive then [.added h] else []
      else if own.any (·.isDeletion) then [.deleted h]
      else if own.isEmpty then []
      else [.updated h (own.any (·.isMove))]) ∧
    (alive = false →
      told = if before = true ∧ own.countP (·.isDeletion) = 1 then [.deleted h] else []) := by
  intro own told
  have exported : told = ((own.foldl Note.fold none).map (record h)).toList := by
    rw [← byEntry_noted notes h]
    exact inTreeOrder_filter _ tree h
  have old (never : own.any (·.isAddition) = false) : ∀ n ∈ own, n.isAddition = false :=
    fun n member => Bool.eq_false_iff.mpr (List.any_eq_false.mp never n member)
  refine ⟨?_, fun gone => ?_⟩
  · rw [exported]
    cases came : own.any (·.isAddition) with
    | true =>
      rw [history.fold_came came]
      cases alive <;> rfl
    | false =>
      rw [fold_of_noAddition (old came)]
      cases own.any (·.isDeletion) <;> cases own.isEmpty <;> cases own.any (·.isMove) <;> rfl
  · subst gone
    rw [exported]
    cases before with
    | false =>
      rw [history.fold_new]
      rfl
    | true =>
      obtain ⟨went, once⟩ := history.went
      cases came : own.any (·.isAddition) with
      | true =>
        have again : ¬ (true = true ∧ own.countP (·.isDeletion) = 1) := fun ⟨_, single⟩ => by
          cases came.symm.trans (once.mp single)
        rw [history.fold_came came, if_neg again]
        rfl
      | false =>
        rw [fold_of_noAddition (old came), if_pos went, if_pos ⟨rfl, once.mpr came⟩]
        rfl

/-- One entry goes, comes and goes again, while a second one goes and comes and changes and
a third one goes for the first time. -/
def flickering : List Note :=
  [.updated 5 true, .deleted 5, .deleted 6, .added 5, .updated 7 false, .added 6, .deleted 7,
    .updated 5 false, .updated 6 true, .deleted 5]

theorem deletion_folded_flickering :
    History 7 true (flickering.filter (·.entry = 7)) false ∧
      ((noted flickering).inTreeOrder folders).filter (·.id = 7) = [.deleted 7] ∧
      History 6 true (flickering.filter (·.entry = 6)) true ∧
      ((noted flickering).inTreeOrder folders).filter (·.id = 6) = [.added 6] := by
  have seventh : History 7 true (flickering.filter (·.entry = 7)) false :=
    .deleted (.updated .start)
  have sixth : History 6 true (flickering.filter (·.entry = 6)) true :=
    .updated (.added (.deleted .start))
  exact ⟨seventh, (deletion_folded flickering 7 seventh folders).2 rfl, sixth,
    (deletion_folded flickering 6 sixth folders).1⟩

/-- The first entry was there before and is not there at the end, and nothing is told of it. -/
theorem deletion_lost :
    History 5 true (flickering.filter (·.entry = 5)) false ∧
      ((noted flickering).inTreeOrder folders).filter (·.id = 5) = [] := by
  refine ⟨.deleted (.updated (.added (.deleted (.updated .start)))), ?_⟩
  rw [inTreeOrder_filter, byEntry_noted]
  rfl

end Observations

end SharedTree
