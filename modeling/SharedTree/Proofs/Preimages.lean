import SharedTree.Directory
import SharedTree.Proofs.ContentsWrites

/-! What a transaction remembers. However often it writes, and whatever, the
remembered entries and the present contents together tell what the contents were
when it opened: an entry that was not touched is still what it was, a touched one
is remembered as it was, and one that came in since is remembered as a tombstone. -/
namespace SharedTree.Transaction

/-- One write in a transaction; a write that is refused leaves it as it is. -/
def write (t : Transaction) : Write → Transaction
  | .insert id parentId ordinal => (t.insertFresh id parentId ordinal).2
  | .modify h change => (t.modify h change).2

/-- What a transaction remembers of the contents that it opened on. -/
structure Faithful (opened : Contents) (t : Transaction) : Prop where
  untouched : ∀ h, t.preimages[h]? = none → t.contents.byHandle h = opened.byHandle h
  touched : ∀ h e, opened.byHandle h = some e → ∀ b, t.preimages[h]? = some b → b = e
  created : ∀ h, opened.byHandle h = none → ∀ b, t.preimages[h]? = some b → b.isDeleted = true
  /-- Entries never go, so that no new one takes the handle of an old one. -/
  kept : ∀ h, opened.byHandle h ≠ none → t.contents.byHandle h ≠ none

theorem insertFresh_eq (t : Transaction) (id parentId : EntryId) (ordinal : Ordinal) :
    t.insertFresh id parentId ordinal =
      if t.contents.ids[id]?.isSome then (none, t)
      else (some t.contents.nextHandle, { t with
        contents := t.contents.inserted id parentId ordinal
        preimages := t.preimages.insert t.contents.nextHandle
          { Entry.create t.contents.nextHandle id parentId ordinal with isDeleted := true } }) := by
  rw [insertFresh, Contents.insertFresh_eq, Std.ExtTreeMap.contains_eq_isSome_getElem?]
  cases t.contents.ids[id]? <;> rfl

theorem contents_insertFresh {t : Transaction} {id : EntryId} (parentId : EntryId)
    (ordinal : Ordinal) (free : t.contents.ids[id]? = none) :
    (t.insertFresh id parentId ordinal).2.contents = t.contents.inserted id parentId ordinal := by
  rw [insertFresh_eq, free]
  rfl

@[simp] theorem contents_modify (t : Transaction) (h : Handle) (change : Entry → Entry) :
    (t.modify h change).2.contents = t.contents.modify h change := by
  unfold modify
  cases known : t.contents.byHandle h with
  | none => exact (Contents.modify_unknown change known).symm
  | some before => rfl

/-- A transaction writes to its contents what it is asked to write. -/
@[simp] theorem contents_write (t : Transaction) (w : Write) :
    (t.write w).contents = t.contents.write w := by
  cases w with
  | insert id parentId ordinal =>
    simp only [write, Contents.write, insertFresh_eq, Contents.insertFresh_eq,
      Std.ExtTreeMap.contains_eq_isSome_getElem?]
    cases t.contents.ids[id]? <;> rfl
  | modify h change => exact t.contents_modify h change

@[simp] theorem contents_writes (t : Transaction) (writes : List Write) :
    (writes.foldl write t).contents = writes.foldl Contents.write t.contents := by
  induction writes generalizing t with
  | nil => rfl
  | cons w writes ih => rw [List.foldl_cons, List.foldl_cons, ih, contents_write]

@[simp] theorem writer_write (t : Transaction) (w : Write) : (t.write w).writer = t.writer := by
  cases w with
  | insert id parentId ordinal =>
    simp only [write, insertFresh_eq]
    split <;> rfl
  | modify h change =>
    simp only [write, modify]
    split <;> rfl

@[simp] theorem writer_writes (t : Transaction) (writes : List Write) :
    (writes.foldl write t).writer = t.writer := by
  induction writes generalizing t with
  | nil => rfl
  | cons w writes ih => rw [List.foldl_cons, ih, writer_write]

/-! ## One write -/

namespace Faithful
variable {opened : Contents} {t : Transaction}

theorem opening (d : Directory) (writer : Writer) : Faithful d.contents (d.write writer) where
  untouched _ _ := rfl
  touched _ _ _ _ remembered := by simp [Directory.write] at remembered
  created _ _ _ remembered := by simp [Directory.write] at remembered
  kept _ known := known

theorem insertFresh (faithful : Faithful opened t) (wf : t.contents.WellFormed)
    (id parentId : EntryId) (ordinal : Ordinal) :
    Faithful opened (t.insertFresh id parentId ordinal).2 := by
  rw [insertFresh_eq]
  split
  · exact faithful
  have fresh : opened.byHandle t.contents.nextHandle = none := by
    cases known : opened.byHandle t.contents.nextHandle with
    | none => rfl
    | some e =>
      have kept := faithful.kept _ (by rw [known]; exact Option.some_ne_none e)
      exact absurd wf.nextHandle_unknown kept
  constructor
  case untouched =>
    intro h unseen
    simp only [Std.ExtTreeMap.getElem?_insert, Std.LawfulEqCmp.compare_eq_iff_eq] at unseen
    split at unseen
    · cases unseen
    · rename_i other
      rw [Contents.byHandle_inserted, if_neg other]
      exact faithful.untouched h unseen
  case touched =>
    intro h e known b remembered
    have other : t.contents.nextHandle ≠ h := by
      rintro rfl
      cases fresh.symm.trans known
    rw [Std.ExtTreeMap.getElem?_insert, if_neg (by simpa using other)] at remembered
    exact faithful.touched h e known b remembered
  case created =>
    intro h unknown b remembered
    simp only [Std.ExtTreeMap.getElem?_insert, Std.LawfulEqCmp.compare_eq_iff_eq] at remembered
    split at remembered
    · cases remembered
      rfl
    · exact faithful.created h unknown b remembered
  case kept =>
    intro h known
    rw [Contents.byHandle_inserted]
    split
    · exact Option.some_ne_none _
    · exact faithful.kept h known

theorem modify (faithful : Faithful opened t) (h : Handle) (change : Entry → Entry) :
    Faithful opened (t.modify h change).2 := by
  rcases known : t.contents.byHandle h with _ | before
  · simpa only [Transaction.modify, known] using faithful
  simp only [Transaction.modify, known]
  -- an entry is remembered at its first touch, while it is still what it was
  have first {k : Handle} {b : Entry} (remembered : (t.preimages.insertIfNew h before)[k]? = some b) :
      t.preimages[k]? = some b ∨ opened.byHandle k = some b := by
    rw [Std.ExtTreeMap.getElem?_insertIfNew] at remembered
    split at remembered
    · rename_i touched
      obtain ⟨same, unseen⟩ := touched
      cases Std.LawfulEqCmp.compare_eq_iff_eq.mp same
      cases remembered
      rw [Std.ExtTreeMap.mem_iff_isSome_getElem?, Option.not_isSome_iff_eq_none] at unseen
      exact .inr (faithful.untouched h unseen ▸ known)
    · exact .inl remembered
  constructor
  case untouched =>
    intro k unseen
    rw [Std.ExtTreeMap.getElem?_insertIfNew] at unseen
    split at unseen
    · cases unseen
    · rename_i touched
      have other : h ≠ k := by
        rintro rfl
        refine touched ⟨Std.ReflCmp.compare_self, ?_⟩
        simp [Std.ExtTreeMap.mem_iff_isSome_getElem?, unseen]
      rw [Contents.byHandle_modify, if_neg other]
      exact faithful.untouched k unseen
  case touched =>
    intro k e knownE b remembered
    rcases first remembered with earlier | own
    · exact faithful.touched k e knownE b earlier
    · exact Option.some.inj (own.symm.trans knownE)
  case created =>
    intro k unknown b remembered
    rcases first remembered with earlier | own
    · exact faithful.created k unknown b earlier
    · cases unknown.symm.trans own
  case kept =>
    intro k knownK
    rw [Contents.byHandle_modify]
    split
    · rename_i same
      cases same
      rw [known]
      exact Option.some_ne_none _
    · exact faithful.kept k knownK

theorem write (faithful : Faithful opened t) (wf : t.contents.WellFormed) (w : Write) :
    Faithful opened (t.write w) := by
  cases w with
  | insert id parentId ordinal => exact faithful.insertFresh wf id parentId ordinal
  | modify h change => exact faithful.modify h change

theorem writes (faithful : Faithful opened t) (reachable : t.contents.Reachable)
    (writes : List Write) : Faithful opened (writes.foldl Transaction.write t) := by
  induction writes generalizing t with
  | nil => exact faithful
  | cons w writes ih =>
    have next : (t.write w).contents.Reachable := t.contents_write w ▸ reachable.write w
    exact ih (faithful.write reachable.wellFormed w) next

end Faithful

end SharedTree.Transaction

namespace SharedTree.Directory

/-- A transaction after any number of writes remembers what it opened on. -/
theorem write_faithful {d : Directory} (reachable : d.contents.Reachable)
    (writer : Writer) (writes : List Write) :
    Transaction.Faithful d.contents (writes.foldl Transaction.write (d.write writer)) :=
  (Transaction.Faithful.opening d writer).writes reachable writes

end SharedTree.Directory
