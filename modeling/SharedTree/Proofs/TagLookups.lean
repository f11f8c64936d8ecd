import Mathlib.Data.List.Induction
import SharedTree.Node.View
import SharedTree.Proofs.ContentsWrites

/-! What is found by a tag. The look-up holds one handle for each tag: that of the entry
that was last written while it had the tag, for as long as it has it (`tags_writes`). So
whatever is found has the tag, and an entry whose tag no other entry has had meanwhile is
found by it. Nothing is found once the holder has given a shared tag away. -/
namespace SharedTree

/-- The entry that a write is for, there or not. -/
def Write.target (c : Contents) : Write → Handle
  | .insert .. => c.nextHandle
  | .modify h _ => h

namespace Contents
variable {c : Contents}

/-- The tag of an entry. -/
def tagOf (c : Contents) (h : Handle) : Option String := (c.byHandle h).bind (·.uniqueTag)

theorem tagOf_eq_some_iff {h : Handle} {tag : String} :
    c.tagOf h = some tag ↔ ∃ e, c.byHandle h = some e ∧ e.uniqueTag = some tag :=
  Option.bind_eq_some_iff

theorem tagOf_initial (h : Handle) : initial.tagOf h = none := by
  rw [tagOf, Option.bind_eq_none_iff]
  intro e known
  obtain ⟨-, rfl⟩ := byHandle_initial.mp known
  rfl

/-! ## One write -/

/-- Whatever is found by a tag has it. -/
def TagsSound (c : Contents) : Prop := ∀ tag h, c.tags[tag]? = some h → c.tagOf h = some tag

theorem byHandle_write_other (w : Write) {k : Handle} (other : w.target c ≠ k) :
    (c.write w).byHandle k = c.byHandle k := by
  cases w with
  | insert id parentId ordinal =>
    simp only [write, insertFresh_eq]
    split
    · rfl
    · exact (byHandle_inserted c id parentId ordinal k).trans (if_neg other)
  | modify h change => exact (byHandle_modify c h change k).trans (if_neg other)

theorem tagOf_write_other (w : Write) {k : Handle} (other : w.target c ≠ k) :
    (c.write w).tagOf k = c.tagOf k := by
  rw [tagOf, tagOf, byHandle_write_other w other]

theorem tags_addToIndexes (c : Contents) (e : Entry) (tag : String) :
    (c.addToIndexes e).tags[tag]? =
      if e.uniqueTag = some tag then some e.handle else c.tags[tag]? := by
  cases own : e.uniqueTag <;> simp [addToIndexes, own, Std.ExtTreeMap.getElem?_insert]

theorem tags_dropFromIndexes (c : Contents) (e : Entry) (tag : String) :
    (c.dropFromIndexes e).tags[tag]? =
      if e.uniqueTag = some tag ∧ c.tags[tag]? = some e.handle then none else c.tags[tag]? := by
  cases own : e.uniqueTag with
  | none => simp [dropFromIndexes, own]
  | some mine =>
    by_cases same : mine = tag
    · subst same
      by_cases held : c.tags[mine]? = some e.handle <;> simp [dropFromIndexes, own, held]
    · simp only [dropFromIndexes, own, Option.some.injEq, same, false_and, ↓reduceIte]
      split
      · simp [Std.ExtTreeMap.getElem?_erase, same]
      · rfl

section Write
variable (wf : WellFormed c) (sound : TagsSound c)
include wf sound

theorem tags_modify {h : Handle} {before : Entry} (change : Entry → Entry)
    (known : c.byHandle h = some before) (tag : String) :
    (c.modify h change).tags[tag]? =
      if (changed before change).uniqueTag = some tag then some h
      else if c.tags[tag]? = some h then none else c.tags[tag]? := by
  have own : (changed before change).handle = h :=
    (changed_keeps before change).1.trans (wf.handles h before known)
  have held : before.uniqueTag = some tag ∧ c.tags[tag]? = some before.handle ↔
      c.tags[tag]? = some h := by
    rw [wf.handles h before known]
    refine ⟨And.right, fun listed => ⟨?_, listed⟩⟩
    have tagged := sound tag h listed
    rwa [tagOf, known] at tagged
  rw [modify_eq change known]
  change ((c.dropFromIndexes before).addToIndexes (changed before change)).tags[tag]? = _
  simp only [tags_addToIndexes, tags_dropFromIndexes, own, held]

/-- After a write the tag leads to the written entry if that has it by then. It leads
nowhere if it led to that entry before; what else it led to is as it was. -/
theorem tags_write (w : Write) (tag : String) :
    (c.write w).tags[tag]? =
      if (c.write w).tagOf (w.target c) = some tag then some (w.target c)
      else if c.tags[tag]? = some (w.target c) then none else c.tags[tag]? := by
  -- nothing leads to a handle under which there is no entry
  have unlisted {h : Handle} (unknown : c.byHandle h = none) : c.tags[tag]? ≠ some h := by
    intro listed
    have tagged := sound tag h listed
    rw [tagOf, unknown] at tagged
    cases tagged
  cases w with
  | insert id parentId ordinal =>
    have fresh := wf.nextHandle_unknown
    simp only [write, insertFresh_eq, Write.target, unlisted fresh, ↓reduceIte]
    split
    · simp [tagOf, fresh]
    · have untagged : (c.inserted id parentId ordinal).tagOf c.nextHandle = none := by
        rw [tagOf, byHandle_inserted, if_pos rfl]
        rfl
      simp only [Option.map_some, Option.getD_some, untagged, reduceCtorEq, ↓reduceIte]
      exact tags_addToIndexes c (.create c.nextHandle id parentId ordinal) tag
  | modify h change =>
    change (c.modify h change).tags[tag]? = if (c.modify h change).tagOf h = some tag then some h
      else if c.tags[tag]? = some h then none else c.tags[tag]?
    cases known : c.byHandle h with
    | none => simp [modify_unknown change known, tagOf, known, unlisted known]
    | some before =>
      rw [tags_modify wf sound change known, tagOf, byHandle_modify, if_pos rfl, known]
      rfl

theorem TagsSound.write (w : Write) : TagsSound (c.write w) := by
  intro tag h listed
  rw [tags_write wf sound] at listed
  split at listed
  · rename_i tagged
    exact Option.some.inj listed ▸ tagged
  · split at listed
    · cases listed
    · rename_i elsewhere
      have other : w.target c ≠ h := by
        rintro rfl
        exact elsewhere listed
      rw [tagOf_write_other w other]
      exact sound tag h listed

end Write

theorem Reachable.tagsSound (reachable : Reachable c) : TagsSound c := by
  induction reachable with
  | initial => simp [TagsSound, Contents.initial]
  | write reachable w ih => exact ih.write reachable.wellFormed w
  | markFirstSyncDone _ ih => exact ih

/-! ## A run of writes -/

/-- The entry that was last written while it had a tag, or that came to have it. -/
def lastTagged (tag : String) : Contents → List Write → Option Handle
  | _, [] => none
  | c, w :: writes =>
    (lastTagged tag (c.write w) writes).or
      (if (c.write w).tagOf (w.target c) = some tag then some (w.target c) else none)

theorem lastTagged_concat (tag : String) (c : Contents) (writes : List Write) (w : Write) :
    lastTagged tag c (writes ++ [w]) =
      if ((writes ++ [w]).foldl write c).tagOf (w.target (writes.foldl write c)) = some tag
      then some (w.target (writes.foldl write c)) else lastTagged tag c writes := by
  induction writes generalizing c with
  | nil => exact Option.none_or
  | cons first writes ih =>
    rw [List.cons_append, lastTagged, ih, List.foldl_cons, List.foldl_cons, lastTagged]
    split <;> simp

/-- A tag leads to the entry that was last written with it, if that has it still. -/
theorem tags_writes (tag : String) (writes : List Write) :
    (writes.foldl write initial).tags[tag]? =
      (lastTagged tag initial writes).filter
        fun h => (writes.foldl write initial).tagOf h = some tag := by
  induction writes using List.reverseRecOn with
  | nil => rfl
  | append_singleton writes w ih =>
    have reachable := Reachable.initial.writes writes
    have step := tags_write reachable.wellFormed reachable.tagsSound w tag
    rw [lastTagged_concat]
    simp only [List.foldl_append, List.foldl_cons, List.foldl_nil]
    generalize writes.foldl write initial = before at *
    rw [step]
    split
    · rename_i tagged
      simp [Option.filter_some, tagged]
    · rename_i untagged
      rw [ih]
      cases lastTagged tag initial writes with
      | none => simp
      | some k =>
        by_cases other : w.target before = k
        · subst other
          by_cases had : before.tagOf (w.target before) = some tag <;>
            simp [Option.filter_some, untagged, had]
        · by_cases had : before.tagOf k = some tag <;>
            simp [Option.filter_some, tagOf_write_other w other, had, Ne.symm other]

/-- No two entries, tombstones included, had the tag at one time. -/
def Unshared (tag : String) (writes : List Write) : Prop :=
  ∀ earlier, earlier <+: writes → ∀ h k, (earlier.foldl write initial).tagOf h = some tag →
    (earlier.foldl write initial).tagOf k = some tag → h = k

/-- Whoever has a tag that was never shared was the last to be written with it. -/
theorem Unshared.lastTagged {tag : String} {writes : List Write} (unshared : Unshared tag writes)
    {h : Handle} (tagged : (writes.foldl write initial).tagOf h = some tag) :
    Contents.lastTagged tag initial writes = some h := by
  induction writes using List.reverseRecOn with
  | nil => cases (tagOf_initial h).symm.trans tagged
  | append_singleton writes w ih =>
    rw [lastTagged_concat]
    split
    · rename_i target
      exact congrArg some (unshared _ (List.prefix_refl _) _ _ target tagged)
    · rename_i untagged
      have other : w.target (writes.foldl write initial) ≠ h := by
        rintro rfl
        exact untagged tagged
      refine ih (fun earlier start => unshared earlier (start.trans (List.prefix_append _ _))) ?_
      rw [← tagOf_write_other w other]
      simpa using tagged

/-- Whatever a tag finds has the tag. A live entry that has it is found if it was the last
to be written with it, as it was if the tag was never shared. -/
theorem nodeByTag?_lastTagged {tag : String} (writes : List Write) (named : tag ≠ "") :
    let c := writes.foldl write initial
    (∀ e, c.byTag tag = some e → e.uniqueTag = some tag) ∧
    (∀ h e, c.byHandle h = some e → e.isDeleted = false → e.uniqueTag = some tag →
      (lastTagged tag initial writes = some h → c.nodeByTag? tag = some ⟨h⟩) ∧
      (Unshared tag writes → c.nodeByTag? tag = some ⟨h⟩)) := by
  intro c
  have reachable : c.Reachable := Reachable.initial.writes writes
  constructor
  · intro e found
    obtain ⟨h, listed, known⟩ := Option.bind_eq_some_iff.mp found
    have tagged := reachable.tagsSound tag h listed
    rwa [tagOf, known] at tagged
  · intro h e known live carried
    have tagged : c.tagOf h = some tag := tagOf_eq_some_iff.mpr ⟨e, known, carried⟩
    have bound (last : lastTagged tag initial writes = some h) : c.nodeByTag? tag = some ⟨h⟩ := by
      have listed : c.tags[tag]? = some h := by
        rw [tags_writes, last, Option.filter_some, if_pos (decide_eq_true tagged)]
      have own := reachable.wellFormed.handles h e known
      simp [nodeByTag?, named, byTag, listed, known, liveHandle, live, own]
    exact ⟨bound, fun unshared => bound (unshared.lastTagged tagged)⟩

/-- Two entries that are given one tag, the older of them last. -/
def sharing : List Write :=
  [.insert ⟨"a"⟩ .root .initial, .insert ⟨"b"⟩ .root .initial,
    .modify 3 fun e => { e with uniqueTag := some "t" },
    .modify 2 fun e => { e with uniqueTag := some "t" }]

theorem nodeByTag?_lastTagged_sharing :
    "t" ≠ "" ∧ lastTagged "t" initial sharing = some 2 ∧
      (sharing.foldl write initial).nodeByTag? "t" = some ⟨2⟩ := by
  have named : "t" ≠ "" := by decide
  have last : lastTagged "t" initial sharing = some 2 := by decide +kernel
  have known : (sharing.foldl write initial).byHandle 2 =
      some { Entry.create 2 ⟨"a"⟩ .root .initial with uniqueTag := some "t" } := by
    decide +kernel
  exact ⟨named, last, ((nodeByTag?_lastTagged sharing named).2 2 _ known rfl rfl).1 last⟩

/-- The older one loses the tag again. -/
def unsharing : List Write := sharing ++ [.modify 2 fun e => { e with uniqueTag := none }]

/-- A tag finds nothing once the last entry that got it has lost it, although another
live entry has it still. -/
theorem nodeByTag?_unsharing :
    (unsharing.foldl write initial).Reachable ∧
      (∃ e, (unsharing.foldl write initial).byHandle 3 = some e ∧ e.isDeleted = false ∧
        e.uniqueTag = some "t") ∧
      (unsharing.foldl write initial).nodeByTag? "t" = none :=
  ⟨Reachable.initial.writes unsharing,
    ⟨{ Entry.create 3 ⟨"b"⟩ .root .initial with uniqueTag := some "t" }, by decide +kernel, rfl,
      rfl⟩,
    by decide +kernel⟩

end Contents

end SharedTree
