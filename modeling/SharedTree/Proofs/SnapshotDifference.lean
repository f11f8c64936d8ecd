import SharedTree.Delivery
import SharedTree.Proofs.Preimages

/-! The difference of two contents, as observers are told of it. It is defined
without any transaction, entry by entry of the later contents; a transaction that
is compared with what it remembers gives just this difference, whatever it wrote
in between and whatever an earlier comparison left behind. -/
namespace SharedTree

/-- What is to be told of an entry, given what it was and what it is. -/
def Observation.between (before : Option Entry) (after : Entry) : Option Observation :=
  if after.isRoot || !after.isShown then none
  else
    match before.filter (!·.isDeleted) with
    | none => if after.isDeleted then none else some .add
    | some before =>
      if after.isDeleted then some .delete
      else if before.visiblyDiffers after then
        some (if before.placeDiffers after then .updatePosition else .updateProperties)
      else none

/-- What is to be told once some contents have become others. -/
def Observations.between (opened closed : Contents) : Observations :=
  ⟨closed.entries.filterMap fun h after => Observation.between (opened.byHandle h) after⟩

/-- The changes from some contents to others, in the tree order of the latter. -/
def Contents.changesSince (opened closed : Contents) : List Change :=
  (Observations.between opened closed).inTreeOrder closed.shape

namespace Entry

theorem placeDiffers_iff {a b : Entry} :
    a.placeDiffers b = true ↔ a.parentId ≠ b.parentId ∨ a.ordinal ≠ b.ordinal := by
  simp [placeDiffers]

theorem visiblyDiffers_iff {a b : Entry} :
    a.visiblyDiffers b = true ↔ a.transportName ≠ b.transportName ∨ a.isFolder ≠ b.isFolder ∨
      a.url ≠ b.url ∨ a.favicon ≠ b.favicon ∨ a.parentId ≠ b.parentId ∨ a.ordinal ≠ b.ordinal := by
  simp [visiblyDiffers, placeDiffers_iff, or_assoc]

end Entry

/-- The records that are due once some contents have become others. -/
inductive Contents.Due (opened closed : Contents) : Change → Prop where
  /-- An entry that was not there, or was a tombstone, is live. -/
  | added {h : Handle} {e : Entry} (now : closed.byHandle h = some e)
      (inner : e.isRoot = false) (shown : e.isShown = true) (live : e.isDeleted = false)
      (absent : ∀ b, opened.byHandle h = some b → b.isDeleted = true) : Due opened closed (.added h)
  /-- An entry that was live is a tombstone. -/
  | deleted {h : Handle} {b e : Entry} (now : closed.byHandle h = some e)
      (inner : e.isRoot = false) (shown : e.isShown = true) (gone : e.isDeleted = true)
      (before : opened.byHandle h = some b) (wasLive : b.isDeleted = false) :
      Due opened closed (.deleted h)
  /-- An entry that was and is live looks different. -/
  | updated {h : Handle} {b e : Entry} {moved : Bool} (now : closed.byHandle h = some e)
      (inner : e.isRoot = false) (shown : e.isShown = true) (live : e.isDeleted = false)
      (before : opened.byHandle h = some b) (wasLive : b.isDeleted = false)
      (differs : b.transportName ≠ e.transportName ∨ b.isFolder ≠ e.isFolder ∨ b.url ≠ e.url ∨
        b.favicon ≠ e.favicon ∨ b.parentId ≠ e.parentId ∨ b.ordinal ≠ e.ordinal)
      (place : moved = true ↔ b.parentId ≠ e.parentId ∨ b.ordinal ≠ e.ordinal) :
      Due opened closed (.updated h moved)

/-! ## The records of a difference -/

namespace Observations

/-- Ordering the records neither adds nor loses any. -/
theorem inTreeOrder_perm (observations : Observations) (tree : TreeShape) :
    (observations.inTreeOrder tree).Perm
      (observations.byEntry.toList.map fun p => record p.1 p.2) := by
  have deletions : ((observations.byEntry.toList.filter (·.2 = .delete)).map fun p =>
      ((tree.path p.1).length, p.1)).map (fun d => Change.deleted d.2) =
        (observations.byEntry.toList.filter (·.2 = .delete)).map fun p => record p.1 p.2 := by
    rw [List.map_map]
    apply List.map_congr_left
    intro p member
    have deleted : p.2 = .delete := of_decide_eq_true (List.mem_filter.mp member).2
    simp [record, deleted]
  have others : ((observations.byEntry.toList.filter (·.2 ≠ .delete)).map fun p =>
      (tree.path p.1, record p.1 p.2)).map (·.2) =
        (observations.byEntry.toList.filter (·.2 ≠ .delete)).map fun p => record p.1 p.2 := by
    rw [List.map_map]
    rfl
  have sorted := ((List.mergeSort_perm ((observations.byEntry.toList.filter (·.2 = .delete)).map
      fun p => ((tree.path p.1).length, p.1)) fun a b => (compareDepths a b).isLE).map
        fun d => Change.deleted d.2).append
    ((List.mergeSort_perm ((observations.byEntry.toList.filter (·.2 ≠ .delete)).map
      fun p => (tree.path p.1, record p.1 p.2)) fun a b => (comparePaths a.1 b.1).isLE).map (·.2))
  rw [deletions, others, ← List.map_append] at sorted
  refine sorted.trans (List.Perm.map _ ?_)
  simpa using List.filter_append_perm (fun p : Handle × Observation => decide (p.2 = .delete))
    observations.byEntry.toList

theorem mem_inTreeOrder {observations : Observations} {tree : TreeShape} {r : Change} :
    r ∈ observations.inTreeOrder tree ↔
      ∃ h o, observations.byEntry[h]? = some o ∧ record h o = r := by
  rw [(observations.inTreeOrder_perm tree).mem_iff, List.mem_map]
  constructor
  · rintro ⟨⟨h, o⟩, member, made⟩
    exact ⟨h, o, Std.ExtTreeMap.mem_toList_iff_getElem?_eq_some.mp member, made⟩
  · rintro ⟨h, o, noted, made⟩
    exact ⟨(h, o), Std.ExtTreeMap.mem_toList_iff_getElem?_eq_some.mpr noted, made⟩

@[simp] theorem record_id (h : Handle) (o : Observation) : (record h o).id = h := by
  cases o <;> rfl

/-- There is at most one record for an entry. -/
theorem inTreeOrder_ids_nodup (observations : Observations) (tree : TreeShape) :
    ((observations.inTreeOrder tree).map (·.id)).Nodup := by
  have perm := (observations.inTreeOrder_perm tree).map (·.id)
  rw [perm.nodup_iff, List.map_map, List.Nodup, List.pairwise_map]
  apply Std.ExtTreeMap.distinct_keys_toList.imp
  intro a b distinct same
  simp only [Function.comp_apply, record_id] at same
  exact distinct (by rw [same]; exact Std.ReflCmp.compare_self)

theorem byEntry_between (opened closed : Contents) (h : Handle) :
    (between opened closed).byEntry[h]? =
      (closed.byHandle h).bind (Observation.between (opened.byHandle h)) := by
  rw [between, Std.ExtTreeMap.getElem?_filterMap']
  rfl

end Observations

/-! ## What is due -/

namespace Contents
variable {opened closed : Contents}

theorem due_of_between {h : Handle} {e : Entry} {o : Observation}
    (now : closed.byHandle h = some e)
    (noted : Observation.between (opened.byHandle h) e = some o) :
    Due opened closed (Observations.record h o) := by
  unfold Observation.between at noted
  split at noted
  · cases noted
  · rename_i told
    simp only [Bool.or_eq_true, Bool.not_eq_true', not_or, Bool.not_eq_true, Bool.not_eq_false]
      at told
    obtain ⟨inner, shown⟩ := told
    cases before : (opened.byHandle h).filter (!·.isDeleted) with
    | none =>
      rw [before] at noted
      cases life : e.isDeleted with
      | true => simp [life] at noted
      | false =>
        simp only [life, Bool.false_eq_true, ↓reduceIte, Option.some.injEq] at noted
        subst noted
        apply Due.added now inner shown life
        intro b known
        rw [known] at before
        simpa using before
    | some b =>
      obtain ⟨known, wasLive⟩ := Option.filter_eq_some_iff.mp before
      rw [Bool.not_eq_true'] at wasLive
      rw [before] at noted
      cases life : e.isDeleted with
      | true =>
        simp only [life, ↓reduceIte, Option.some.injEq] at noted
        subst noted
        exact .deleted now inner shown life known wasLive
      | false =>
        simp only [life, Bool.false_eq_true, ↓reduceIte] at noted
        split at noted
        · rename_i differs
          cases noted
          rw [Entry.visiblyDiffers_iff] at differs
          by_cases place : b.placeDiffers e = true
          · rw [if_pos place]
            exact .updated now inner shown life known wasLive differs
              ⟨fun _ => Entry.placeDiffers_iff.mp place, fun _ => rfl⟩
          · rw [if_neg place]
            exact .updated now inner shown life known wasLive differs
              ⟨fun impossible => absurd impossible Bool.false_ne_true,
                fun moved => absurd (Entry.placeDiffers_iff.mpr moved) place⟩
        · cases noted

theorem between_of_due {r : Change} (due : Due opened closed r) :
    ∃ h e o, closed.byHandle h = some e ∧
      Observation.between (opened.byHandle h) e = some o ∧ Observations.record h o = r := by
  cases due with
  | @added h e now inner shown live absent =>
    have before : (opened.byHandle h).filter (!·.isDeleted) = none := by
      rw [Option.filter_eq_none_iff]
      intro b known
      simp [absent b known]
    exact ⟨h, e, .add, now, by simp [Observation.between, inner, shown, live, before], rfl⟩
  | @deleted h b e now inner shown gone before wasLive =>
    exact ⟨h, e, .delete, now,
      by simp [Observation.between, inner, shown, gone, before, wasLive, Option.filter_some], rfl⟩
  | @updated h b e moved now inner shown live before wasLive differs place =>
    have visible := Entry.visiblyDiffers_iff.mpr differs
    rw [← Entry.placeDiffers_iff] at place
    refine ⟨h, e, if b.placeDiffers e then .updatePosition else .updateProperties, now,
      by simp [Observation.between, inner, shown, live, before, wasLive, visible,
        Option.filter_some], ?_⟩
    cases moved with
    | true => rw [if_pos (place.mp rfl)]; rfl
    | false =>
      rw [if_neg fun differs => Bool.false_ne_true (place.mpr differs)]
      rfl

/-- The changes are the records that are due, and nothing else. -/
theorem mem_changesSince {r : Change} : r ∈ opened.changesSince closed ↔ Due opened closed r := by
  rw [changesSince, Observations.mem_inTreeOrder]
  constructor
  · rintro ⟨h, o, noted, rfl⟩
    rw [Observations.byEntry_between] at noted
    obtain ⟨e, now, between⟩ := Option.bind_eq_some_iff.mp noted
    exact due_of_between now between
  · intro due
    obtain ⟨h, e, o, now, between, made⟩ := between_of_due due
    refine ⟨h, o, ?_, made⟩
    rw [Observations.byEntry_between, now]
    exact between

/-- What was written and taken back leaves no trace. -/
theorem changesSince_unchanged (same : ∀ h, closed.byHandle h = opened.byHandle h) :
    opened.changesSince closed = [] := by
  apply List.eq_nil_iff_forall_not_mem.mpr
  intro r member
  cases mem_changesSince.mp member with
  | @added h e now inner shown live absent =>
    have gone := absent e ((same h).symm.trans now)
    cases live.symm.trans gone
  | @deleted h b e now inner shown gone before wasLive =>
    cases ((same h).symm.trans now).symm.trans before
    cases wasLive.symm.trans gone
  | @updated h b e moved now inner shown live before wasLive differs place =>
    cases ((same h).symm.trans now).symm.trans before
    simp at differs

end Contents

/-! ## Comparing a transaction -/

namespace Observation

/-- An entry that is what it was is not told of. -/
theorem between_self (e : Entry) : between (some e) e = none := by
  have same : e.visiblyDiffers e = false := by
    rw [Bool.eq_false_iff, ne_eq, Entry.visiblyDiffers_iff]
    simp
  cases life : e.isDeleted <;> simp [between, life, same, Option.filter_some]

/-- A tombstone is no more than nothing. -/
theorem between_tombstone {b : Entry} (gone : b.isDeleted = true) (after : Entry) :
    between (some b) after = between none after := by
  simp [between, gone, Option.filter_some]

end Observation

namespace Observations

/-- One comparison concerns one entry. -/
theorem byEntry_observe_other (observations : Observations) (before : Entry) {after : Entry}
    {k : Handle} (other : after.handle ≠ k) :
    (observations.observe before after).byEntry[k]? = observations.byEntry[k]? := by
  unfold observe
  split
  · rfl
  · split
    · simp [noteAdded, Std.ExtTreeMap.getElem?_insert, other]
    · unfold noteDeleted
      split
      · simp [Std.ExtTreeMap.getElem?_erase, other]
      · simp [Std.ExtTreeMap.getElem?_insert, other]
    · split
      · simp [noteUpdated, Std.ExtTreeMap.getElem?_insert, other]
      · rfl
    · rfl

/-- The first comparison of an entry notes what is to be told of it. -/
theorem byEntry_observe {observations : Observations} (before : Entry) {after : Entry}
    (fresh : observations.byEntry[after.handle]? = none) :
    (observations.observe before after).byEntry[after.handle]? =
      Observation.between (some before) after := by
  unfold observe Observation.between
  rw [Option.filter_some]
  split
  · exact fresh
  · cases before.isDeleted <;> cases after.isDeleted
    · by_cases differs : before.visiblyDiffers after = true
      · simp [differs, noteUpdated, foldUpdate, fresh]
      · simpa [differs] using fresh
    · simp [noteDeleted, fresh]
    · simp [noteAdded]
    · simpa using fresh

section Comparing
variable {steps : List (Handle × Entry × Option Entry)} {k : Handle}

private theorem byEntry_compare_other (own : ∀ s ∈ steps, ∀ e ∈ s.2.2, e.handle = s.1)
    (apart : ∀ s ∈ steps, s.1 ≠ k) (observations : Observations) :
    (steps.foldl (fun noted (_, before, after?) => after?.elim noted (noted.observe before))
      observations).byEntry[k]? = observations.byEntry[k]? := by
  induction steps generalizing observations with
  | nil => rfl
  | cons s steps ih =>
    obtain ⟨h, before, after?⟩ := s
    rw [List.foldl_cons, ih (fun s member => own s (List.mem_cons_of_mem _ member))
      fun s member => apart s (List.mem_cons_of_mem _ member)]
    cases after? with
    | none => rfl
    | some after =>
      have named : after.handle = h := own _ List.mem_cons_self after rfl
      exact byEntry_observe_other observations before (named ▸ apart _ List.mem_cons_self)

private theorem byEntry_compare (own : ∀ s ∈ steps, ∀ e ∈ s.2.2, e.handle = s.1)
    (distinct : steps.Pairwise (·.1 ≠ ·.1)) {before : Entry} {after? : Option Entry}
    (member : (k, before, after?) ∈ steps) :
    (steps.foldl (fun noted (_, before, after?) => after?.elim noted (noted.observe before))
      empty).byEntry[k]? = after?.bind (Observation.between (some before)) := by
  obtain ⟨earlier, later, whole⟩ := List.append_of_mem member
  subst whole
  rw [List.pairwise_append, List.pairwise_cons] at distinct
  obtain ⟨-, ⟨apartLater, -⟩, apartEarlier⟩ := distinct
  rw [List.foldl_append, List.foldl_cons,
    byEntry_compare_other (fun s late => own s (by simp [late])) fun s late =>
      (apartLater s late).symm]
  have fresh := byEntry_compare_other (fun s (early : s ∈ earlier) => own s (by simp [early]))
    (fun s early => apartEarlier s early _ List.mem_cons_self) empty
  cases after? with
  | none => simpa [empty] using fresh
  | some after =>
    have named : after.handle = k := own _ member after rfl
    subst named
    exact byEntry_observe before (by simpa [empty] using fresh)

end Comparing

/-- Comparing a transaction with what it remembers finds the difference of the
contents that it opened on and those that it leaves. -/
theorem observeAll_closed {opened : Contents} {t : Transaction}
    (faithful : t.Faithful opened) (wf : t.contents.WellFormed) :
    empty.observeAll t.closed = between opened t.contents := by
  have own : ∀ s ∈ t.closed.touched, ∀ e ∈ s.2.2, e.handle = s.1 := by
    intro s member e known
    obtain ⟨p, -, rfl⟩ := List.mem_map.mp member
    exact wf.handles _ e known
  have distinct : t.closed.touched.Pairwise (·.1 ≠ ·.1) := by
    rw [ClosedTransaction.touched, List.pairwise_map]
    apply Std.ExtTreeMap.distinct_keys_toList.imp
    intro a b distinct same
    exact distinct (by rw [show a.1 = b.1 from same]; exact Std.ReflCmp.compare_self)
  have same (k : Handle) : (empty.observeAll t.closed).byEntry[k]? =
      (between opened t.contents).byEntry[k]? := by
    rw [byEntry_between]
    cases remembered : t.preimages[k]? with
    | none =>
      have apart : ∀ s ∈ t.closed.touched, s.1 ≠ k := by
        rintro s member rfl
        obtain ⟨p, listed, rfl⟩ := List.mem_map.mp member
        cases remembered.symm.trans (Std.ExtTreeMap.mem_toList_iff_getElem?_eq_some.mp listed)
      have silent := byEntry_compare_other own apart empty
      rw [faithful.untouched k remembered]
      cases opened.byHandle k with
      | none => simpa [observeAll, empty] using silent
      | some e => simpa [observeAll, empty, Observation.between_self] using silent
    | some b =>
      have listed : (k, b, t.contents.byHandle k) ∈ t.closed.touched :=
        List.mem_map.mpr ⟨(k, b), Std.ExtTreeMap.mem_toList_iff_getElem?_eq_some.mpr remembered, rfl⟩
      have noted := byEntry_compare own distinct listed
      refine Eq.trans noted ?_
      congr 1
      funext after
      cases known : opened.byHandle k with
      | none => exact Observation.between_tombstone (faithful.created k known b remembered) after
      | some e => rw [faithful.touched k e known b remembered]
  have tables : (empty.observeAll t.closed).byEntry = (between opened t.contents).byEntry :=
    Std.ExtTreeMap.ext_getElem? same
  exact congrArg Observations.mk tables

/-- The list of a transaction is the difference, whatever was left over before. -/
theorem drain_closed {opened : Contents} {t : Transaction} (faithful : t.Faithful opened)
    (wf : t.contents.WellFormed) (leftover : Observations) :
    leftover.drain t.closed = (opened.changesSince t.contents, empty) := by
  have cleared : leftover.dropStale.2 = empty := by
    unfold dropStale
    split
    · rename_i nothing
      exact congrArg Observations.mk (Std.ExtTreeMap.isEmpty_iff.mp nothing)
    · rfl
  unfold drain
  rw [cleared, observeAll_closed faithful wf]
  rfl

end Observations

end SharedTree
