import Mathlib.Data.List.Induction
import Mathlib.Data.List.Nodup
import SharedTree.Proofs.TreeOrder

/-! What repeated observations of one entry come to. Each entry is folded for itself: what
is left to tell of it depends on what was noted of it alone, in its order, and not on what
was noted of others in between. Of an entry that was there before, a deletion is what is
told if there was one, else one update that says whether any of them was a move. Of an
entry that came into being, and went, and came again, an addition is told if it is there
at the end, and nothing if it is not. -/
namespace SharedTree

namespace Observations

/-- What is left to tell after a run of notes. -/
def noted (notes : List Note) : Observations := notes.foldl note empty

namespace Note

/-- The entry that a note is of. -/
def entry : Note → Handle
  | .added id | .deleted id | .updated id _ => id

def isAddition : Note → Bool
  | .added _ => true
  | _ => false

def isDeletion : Note → Bool
  | .deleted _ => true
  | _ => false

/-- It says that the entry has another place. -/
def isMove : Note → Bool
  | .updated _ positionChanged => positionChanged
  | _ => false

/-- What a note makes of what is pending for its entry. -/
def fold (pending : Option Observation) : Note → Option Observation
  | .added _ => some .add
  | .deleted _ => if pending = some .add then none else some .delete
  | .updated _ positionChanged => some (foldUpdate pending positionChanged)

end Note

/-! ## Each entry is folded for itself -/

theorem byEntry_note (observations : Observations) (n : Note) (h : Handle) :
    (observations.note n).byEntry[h]? =
      if n.entry = h then n.fold observations.byEntry[h]? else observations.byEntry[h]? := by
  by_cases own : n.entry = h
  · subst own
    rw [if_pos rfl]
    cases n with
    | added id => simp [note, noteAdded, Note.entry, Note.fold]
    | updated id positionChanged => simp [note, noteUpdated, Note.entry, Note.fold]
    | deleted id =>
      simp only [note, noteDeleted, Note.entry, Note.fold]
      by_cases cancels : observations.byEntry[id]? = some .add <;> simp [cancels]
  · rw [if_neg own]
    cases n with
    | added id =>
      have apart : ¬ id = h := own
      simp [note, noteAdded, Std.ExtTreeMap.getElem?_insert, apart]
    | updated id positionChanged =>
      have apart : ¬ id = h := own
      simp [note, noteUpdated, Std.ExtTreeMap.getElem?_insert, apart]
    | deleted id =>
      have apart : ¬ id = h := own
      simp only [note, noteDeleted]
      split
      · simp [Std.ExtTreeMap.getElem?_erase, apart]
      · simp [Std.ExtTreeMap.getElem?_insert, apart]

/-- Notes of two entries may change places. -/
theorem note_comm (observations : Observations) {a b : Note} (apart : a.entry ≠ b.entry) :
    (observations.note a).note b = (observations.note b).note a := by
  have same : ((observations.note a).note b).byEntry = ((observations.note b).note a).byEntry := by
    apply Std.ExtTreeMap.ext_getElem?
    intro h
    simp only [byEntry_note]
    by_cases first : a.entry = h
    · have second : ¬ b.entry = h := fun other => apart (first.trans other.symm)
      simp only [first, second, ↓reduceIte]
    · simp only [first, ↓reduceIte]
  exact congrArg Observations.mk same

theorem byEntry_notes (notes : List Note) (observations : Observations) (h : Handle) :
    (notes.foldl note observations).byEntry[h]? =
      (notes.filter (·.entry = h)).foldl Note.fold observations.byEntry[h]? := by
  induction notes generalizing observations with
  | nil => rfl
  | cons n notes ih =>
    rw [List.foldl_cons, ih, byEntry_note]
    by_cases own : n.entry = h <;> simp [own]

/-- What is pending for an entry is made of its own notes alone. -/
theorem byEntry_noted (notes : List Note) (h : Handle) :
    (noted notes).byEntry[h]? = (notes.filter (·.entry = h)).foldl Note.fold none := by
  rw [noted, byEntry_notes]
  simp [empty]

/-- What is pending for an entry is what is told of it. -/
theorem inTreeOrder_filter (observations : Observations) (tree : TreeShape) (h : Handle) :
    (observations.inTreeOrder tree).filter (·.id = h) =
      (observations.byEntry[h]?.map (record h)).toList := by
  have once : ((observations.inTreeOrder tree).filter (·.id = h)).Nodup :=
    (List.Nodup.of_map _ (observations.inTreeOrder_ids_nodup tree)).filter _
  have members (r : Change) : r ∈ (observations.inTreeOrder tree).filter (·.id = h) ↔
      observations.byEntry[h]?.map (record h) = some r := by
    rw [List.mem_filter, mem_inTreeOrder, Option.map_eq_some_iff, decide_eq_true_iff]
    constructor
    · rintro ⟨⟨k, o, pending, rfl⟩, own⟩
      rw [record_id] at own
      subst own
      exact ⟨o, pending, rfl⟩
    · rintro ⟨o, pending, rfl⟩
      exact ⟨⟨h, o, pending, rfl⟩, record_id h o⟩
  generalize (observations.inTreeOrder tree).filter (·.id = h) = told at once members
  cases pending : observations.byEntry[h]?.map (record h) with
  | none =>
    rw [pending] at members
    exact List.eq_nil_iff_forall_not_mem.mpr fun r member => nomatch (members r).mp member
  | some due =>
    rw [pending] at members
    apply List.perm_singleton.mp
    rw [List.perm_ext_iff_of_nodup once (List.nodup_singleton due)]
    intro r
    rw [members, Option.some.injEq, List.mem_singleton, eq_comm]

/-- As many entries are counted as have something pending. -/
theorem exists_pending (observations : Observations) :
    ∃ pending : List Handle, pending.Nodup ∧
      (∀ h, h ∈ pending ↔ (observations.byEntry[h]?).isSome) ∧
      observations.size = pending.length := by
  refine ⟨observations.byEntry.keys, Std.ExtTreeMap.nodup_keys, fun h => ?_,
    Std.ExtTreeMap.length_keys.symm⟩
  rw [Std.ExtTreeMap.mem_keys, Std.ExtTreeMap.mem_iff_isSome_getElem?]

/-! ## What the notes of one entry come to -/

/-- Without additions a deletion stays, and an update says whether any was a move. -/
theorem fold_of_noAddition {own : List Note} (old : ∀ n ∈ own, n.isAddition = false) :
    own.foldl Note.fold none =
      if own.any (·.isDeletion) then some .delete
      else if own.isEmpty then none
      else some (if own.any (·.isMove) then .updatePosition else .updateProperties) := by
  induction own using List.reverseRecOn with
  | nil => rfl
  | append_singleton own n ih =>
    obtain ⟨earlier, last⟩ := List.forall_mem_append.mp old
    rw [List.foldl_append, List.foldl_cons, List.foldl_nil, ih earlier]
    cases n with
    | added id => cases last _ List.mem_cons_self
    | deleted id =>
      have deletion : (Note.deleted id).isDeletion = true := rfl
      have uncancelled : (own.foldl Note.fold none) ≠ some .add := by
        rw [ih earlier]
        split
        · nofun
        · split
          · nofun
          · split <;> nofun
      rw [← ih earlier]
      simp [Note.fold, uncancelled, deletion]
    | updated id positionChanged =>
      have kept : (Note.updated id positionChanged).isDeletion = false := rfl
      have move : (Note.updated id positionChanged).isMove = positionChanged := rfl
      by_cases gone : own.any (·.isDeletion) = true
      · simp [Note.fold, foldUpdate, gone]
      · cases own with
        | nil => cases positionChanged <;> rfl
        | cons first rest =>
          rw [if_neg gone, List.any_append, List.any_append, Bool.eq_false_iff.mpr gone]
          cases (first :: rest).any (·.isMove) <;>
            simp [Note.fold, foldUpdate, kept, move]

/-- The notes of an entry that was there before, or was not, and whether it is there after
them. It comes only while it is not there, and goes or changes only while it is. -/
inductive History (h : Handle) (before : Bool) : List Note → Bool → Prop where
  | start : History h before [] before
  | added {own : List Note} (past : History h before own false) :
    History h before (own ++ [.added h]) true
  | deleted {own : List Note} (past : History h before own true) :
    History h before (own ++ [.deleted h]) false
  | updated {own : List Note} {positionChanged : Bool} (past : History h before own true) :
    History h before (own ++ [.updated h positionChanged]) true

/-- Of an entry that was not there before, nothing is pending but its addition, as long as
it is there. -/
theorem History.fold_new {h : Handle} {own : List Note} {alive : Bool}
    (history : History h false own alive) :
    own.foldl Note.fold none = if alive then some .add else none := by
  induction history with
  | start => rfl
  | added past ih => simp [ih, Note.fold]
  | deleted past ih => simp [ih, Note.fold]
  | updated past ih => simp [ih, Note.fold, foldUpdate]

/-- Whatever is noted, what is left to tell of an entry is made of the notes of that entry
alone, so that notes of two entries may change places, and there is as much left as entries
have something pending. Told of an entry that nothing came of but deletions and updates is
its deletion, if there was one, else one update that says whether any of them was a move.
Told of one that was not there before is its addition, if it is there at the end, and else
nothing. -/
theorem noted_fold (notes : List Note) (h : Handle) :
    let own := notes.filter (·.entry = h)
    let told tree := ((noted notes).inTreeOrder tree).filter (·.id = h)
    (∀ others : List Note, others.filter (·.entry = h) = own →
      (noted others).byEntry[h]? = (noted notes).byEntry[h]?) ∧
    (∀ a b later, a.entry ≠ b.entry →
      noted (notes ++ a :: b :: later) = noted (notes ++ b :: a :: later)) ∧
    (∃ pending : List Handle, pending.Nodup ∧
      (∀ k, k ∈ pending ↔ ((noted notes).byEntry[k]?).isSome) ∧
      (noted notes).size = pending.length) ∧
    ((∀ n ∈ own, n.isAddition = false) → ∀ tree, told tree =
      if own.any (·.isDeletion) then [.deleted h]
      else if own.isEmpty then []
      else [.updated h (own.any (·.isMove))]) ∧
    ∀ alive, History h false own alive → ∀ tree, told tree = if alive then [.added h] else [] := by
  intro own told
  have pending : (noted notes).byEntry[h]? = own.foldl Note.fold none := byEntry_noted notes h
  have exported (tree : TreeShape) :
      told tree = ((own.foldl Note.fold none).map (record h)).toList := by
    rw [← pending]
    exact inTreeOrder_filter _ tree h
  refine ⟨fun others same => ?_, fun a b later apart => ?_, (noted notes).exists_pending,
    fun old tree => ?_, fun alive history tree => ?_⟩
  · rw [byEntry_noted, same, pending]
  · simp only [noted, List.foldl_append, List.foldl_cons]
    rw [note_comm _ apart]
  · rw [exported, fold_of_noAddition old]
    cases own.any (·.isDeletion) <;> cases own.isEmpty <;> cases own.any (·.isMove) <;> rfl
  · rw [exported, history.fold_new]
    cases alive <;> rfl

/-- One entry comes, goes and comes again, while a second one changes and a third one
goes. -/
def mingled : List Note :=
  [.added 5, .updated 6 false, .deleted 5, .updated 7 true, .added 5, .updated 6 true,
    .updated 5 true, .deleted 7, .updated 6 false]

theorem noted_fold_mingled :
    History 5 false (mingled.filter (·.entry = 5)) true ∧
      ((noted mingled).inTreeOrder folders).filter (·.id = 5) = [.added 5] ∧
      ((noted mingled).inTreeOrder folders).filter (·.id = 6) = [.updated 6 true] ∧
      ((noted mingled).inTreeOrder folders).filter (·.id = 7) = [.deleted 7] ∧
      noted (mingled ++ [.added 8, .deleted 9]) = noted (mingled ++ [.deleted 9, .added 8]) := by
  have history : History 5 false (mingled.filter (·.entry = 5)) true :=
    .updated (.added (.deleted (.added .start)))
  obtain ⟨-, swapped, -, -, new⟩ := noted_fold mingled 5
  obtain ⟨-, -, -, sixth, -⟩ := noted_fold mingled 6
  obtain ⟨-, -, -, seventh, -⟩ := noted_fold mingled 7
  exact ⟨history, new true history folders, sixth (by decide) folders,
    seventh (by decide) folders, swapped (.added 8) (.deleted 9) [] (by decide)⟩

end Observations

end SharedTree
