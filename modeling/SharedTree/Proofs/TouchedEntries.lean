import SharedTree.Proofs.DeliveredLists

/-! Which entries a transaction touches, and what it remembers of each. A write that is
granted touches one entry, and one that is refused touches none. What was there when
the transaction opened is remembered as it was, once and for all; what the transaction
created is remembered as a tombstone of what it created, whatever it wrote to it later.
Whoever looks for changes when the transaction closes is given just this. -/
namespace SharedTree

/-- Entries never go. -/
theorem Contents.byHandle_write_ne_none {c : Contents} (w : Write) {h : Handle}
    (known : c.byHandle h ≠ none) : (c.write w).byHandle h ≠ none := by
  cases w with
  | insert id parentId ordinal =>
    rw [write, insertFresh_eq]
    split
    · exact known
    · rw [Option.map_some, Option.getD_some, byHandle_inserted]
      split
      · exact Option.some_ne_none _
      · exact known
  | modify k change =>
    rw [write, byHandle_modify]
    split
    · rename_i same
      subst same
      simpa using known
    · exact known

namespace Transaction
open Contents

/-- The entry that a write touches, going by the answer to the write. -/
def touches? (t : Transaction) : Write → Option Handle
  | .insert id parentId ordinal => (t.insertFresh id parentId ordinal).1
  | .modify h change => if (t.modify h change).1 then some h else none

/-- The entry that a write creates, as it is found right after. -/
def born? (t : Transaction) : Write → Option Entry
  | .insert id parentId ordinal =>
    (t.insertFresh id parentId ordinal).1.bind
      (t.insertFresh id parentId ordinal).2.contents.byHandle
  | .modify _ _ => none

/-- The entries that were touched by writes, one after the other. -/
def touchedBy (t : Transaction) : List Write → List Handle
  | [] => []
  | w :: rest => (t.touches? w).toList ++ (t.write w).touchedBy rest

/-- The entries that were created by writes, as they were created. -/
def createdBy (t : Transaction) : List Write → List Entry
  | [] => []
  | w :: rest => (t.born? w).toList ++ (t.write w).createdBy rest

/-- What a write does to what is remembered: nothing where it is refused. -/
inductive Remembers (t : Transaction) (w : Write) : Prop where
  | refused (untouched : t.touches? w = none) (nothing : t.born? w = none)
      (same : t.write w = t)
  | created (e : Entry) (touched : t.touches? w = some e.handle) (made : t.born? w = some e)
      (there : (t.write w).contents.byHandle e.handle = some e)
      (fresh : t.contents.byHandle e.handle = none)
      (remembered : ∀ h, (t.write w).preimages[h]? =
        if e.handle = h then some { e with isDeleted := true } else t.preimages[h]?)
  | changed (h : Handle) (before : Entry) (touched : t.touches? w = some h)
      (nothing : t.born? w = none) (known : t.contents.byHandle h = some before)
      (remembered : ∀ k, (t.write w).preimages[k]? =
        if h = k ∧ t.preimages[k]? = none then some before else t.preimages[k]?)

theorem write_remembers {t : Transaction} (wf : t.contents.WellFormed) (w : Write) :
    t.Remembers w := by
  cases w with
  | insert id parentId ordinal =>
    cases free : t.contents.ids[id]? with
    | some taken =>
      have refused : t.insertFresh id parentId ordinal = (none, t) := by
        rw [insertFresh_eq, free]
        rfl
      exact .refused (congrArg (·.1) refused) (by rw [born?, refused]; rfl)
        (congrArg (·.2) refused)
    | none =>
      have made := t.insertFresh_eq id parentId ordinal
      rw [free, Option.isSome_none, if_neg Bool.false_ne_true] at made
      have there : (t.contents.inserted id parentId ordinal).byHandle t.contents.nextHandle =
          some (.create t.contents.nextHandle id parentId ordinal) :=
        (byHandle_inserted ..).trans (if_pos rfl)
      refine .created (.create t.contents.nextHandle id parentId ordinal)
        (congrArg (·.1) made) ?_ ?_ wf.nextHandle_unknown ?_
      · rw [born?, made]
        exact there
      · rw [write, made]
        exact there
      · intro h
        rw [write, made, Std.ExtTreeMap.getElem?_insert]
        simp only [Std.LawfulEqCmp.compare_eq_iff_eq]
        rfl
  | modify h change =>
    cases known : t.contents.byHandle h with
    | none =>
      have refused : t.modify h change = (false, t) := by rw [modify, known]
      exact .refused (by rw [touches?, refused]; rfl) rfl (congrArg (·.2) refused)
    | some before =>
      refine .changed h before ?_ rfl known ?_
      · rw [touches?, modify, known]
        rfl
      · intro k
        rw [write, modify, known, Std.ExtTreeMap.getElem?_insertIfNew]
        simp only [Std.LawfulEqCmp.compare_eq_iff_eq, Std.ExtTreeMap.mem_iff_isSome_getElem?,
          Option.not_isSome_iff_eq_none]
        by_cases same : h = k
        · rw [same]
        · simp [same]

theorem insertFresh_refused {t : Transaction} {id parentId : EntryId} {ordinal : Ordinal}
    (refused : (t.insertFresh id parentId ordinal).1 = none) :
    (t.insertFresh id parentId ordinal).2 = t := by
  rw [insertFresh_eq] at refused ⊢
  split
  · rfl
  · rename_i free
    rw [if_neg free] at refused
    cases refused

/-! ## What is touched -/

theorem mem_touched_iff {t : Transaction} {h : Handle} :
    h ∈ t.touched ↔ t.preimages[h]? ≠ none := by
  rw [touched, Std.ExtTreeMap.mem_keys, Std.ExtTreeMap.mem_iff_isSome_getElem?,
    Option.isSome_iff_ne_none]

theorem mem_touched_write {t : Transaction} (wf : t.contents.WellFormed) (w : Write)
    {h : Handle} : h ∈ (t.write w).touched ↔ h ∈ t.touched ∨ h ∈ (t.touches? w).toList := by
  simp only [mem_touched_iff, Option.mem_toList]
  cases write_remembers wf w with
  | refused untouched _ same => simp [untouched, same]
  | created e touched _ _ _ remembered =>
    rw [remembered, touched]
    split <;> simp_all
  | changed k before touched _ _ remembered =>
    rw [remembered, touched]
    split <;> simp_all

theorem mem_touched_writes {t : Transaction} (reachable : t.contents.Reachable)
    (writes : List Write) {h : Handle} :
    h ∈ (writes.foldl write t).touched ↔ h ∈ t.touched ∨ h ∈ t.touchedBy writes := by
  induction writes generalizing t with
  | nil => simp [touchedBy]
  | cons w writes ih =>
    have next : (t.write w).contents.Reachable := t.contents_write w ▸ reachable.write w
    rw [List.foldl_cons, ih next, mem_touched_write reachable.wellFormed, touchedBy,
      List.mem_append, or_assoc]

/-! ## What is remembered of what was created -/

/-- What a transaction remembers of the entries that it created. -/
structure Recalls (opened : Contents) (created : List Entry) (t : Transaction) : Prop where
  /-- Whatever is remembered is there now. -/
  present : ∀ h, t.preimages[h]? ≠ none → t.contents.byHandle h ≠ none
  either : ∀ h b, t.preimages[h]? = some b →
    opened.byHandle h = some b ∨ ∃ e ∈ created, e.handle = h
  buried : ∀ e ∈ created, opened.byHandle e.handle = none ∧
    t.preimages[e.handle]? = some { e with isDeleted := true }

namespace Recalls
variable {opened : Contents} {created : List Entry} {t : Transaction}

theorem opening (d : Directory) (writer : Writer) : Recalls d.contents [] (d.write writer) where
  present _ remembered := absurd rfl remembered
  either _ _ remembered := by simp [Directory.write] at remembered
  buried _ member := by cases member

/-- The handle of an entry that is being created was never given before. -/
theorem buried_apart (recalls : Recalls opened created t) {h : Handle}
    (fresh : t.contents.byHandle h = none) : ∀ e ∈ created, e.handle ≠ h := by
  rintro e member rfl
  refine recalls.present e.handle ?_ fresh
  rw [(recalls.buried e member).2]
  exact Option.some_ne_none _

/-- The first touch of an entry that is not new finds it as it was at the opening, and no
later touch remembers anything. -/
theorem write (recalls : Recalls opened created t) (faithful : Faithful opened t)
    (wf : t.contents.WellFormed) (w : Write) :
    Recalls opened (created ++ (t.born? w).toList) (t.write w) := by
  have kept (h : Handle) (known : t.contents.byHandle h ≠ none) :
      (t.write w).contents.byHandle h ≠ none := by
    rw [contents_write]
    exact Contents.byHandle_write_ne_none w known
  cases write_remembers wf w with
  | refused _ nothing same =>
    rw [nothing, same, Option.toList_none, List.append_nil]
    exact recalls
  | created e _ made there fresh remembered =>
    -- the handle is a new one, so that the tombstone takes the place of nothing
    have unopened : opened.byHandle e.handle = none :=
      Classical.byContradiction fun known => faithful.kept e.handle known fresh
    rw [made, Option.toList_some]
    constructor
    case present =>
      intro h
      rw [remembered]
      split
      · rintro -
        subst h
        rw [there]
        exact Option.some_ne_none _
      · exact fun seen => kept h (recalls.present h seen)
    case either =>
      intro h b
      rw [remembered]
      split
      · rintro -
        exact .inr ⟨e, by simp, ‹_›⟩
      · intro seen
        rcases recalls.either h b seen with old | ⟨x, member, named⟩
        · exact .inl old
        · exact .inr ⟨x, List.mem_append_left _ member, named⟩
    case buried =>
      intro x member
      rw [remembered]
      rcases List.mem_append.mp member with earlier | new
      · rw [if_neg (recalls.buried_apart fresh x earlier).symm]
        exact recalls.buried x earlier
      · obtain rfl := List.mem_singleton.mp new
        exact ⟨unopened, if_pos rfl⟩
  | changed k before _ nothing known remembered =>
    rw [nothing, Option.toList_none, List.append_nil]
    constructor
    case present =>
      intro h
      rw [remembered]
      split
      · rename_i first
        rintro -
        rw [← first.1]
        exact kept k (known ▸ Option.some_ne_none before)
      · exact fun seen => kept h (recalls.present h seen)
    case either =>
      intro h b
      rw [remembered]
      split
      · rename_i first
        rintro ⟨⟩
        left
        rw [← faithful.untouched h first.2, ← first.1]
        exact known
      · exact recalls.either h b
    case buried =>
      -- what was created was touched then, so that a later change remembers nothing
      intro x member
      obtain ⟨unopened, seen⟩ := recalls.buried x member
      rw [remembered, if_neg (by simp [seen])]
      exact ⟨unopened, seen⟩

theorem writes (recalls : Recalls opened created t) (faithful : Faithful opened t)
    (reachable : t.contents.Reachable) (writes : List Write) :
    Recalls opened (created ++ t.createdBy writes) (writes.foldl Transaction.write t) := by
  induction writes generalizing t created with
  | nil => rwa [createdBy, List.append_nil]
  | cons w writes ih =>
    have next : (t.write w).contents.Reachable := t.contents_write w ▸ reachable.write w
    rw [List.foldl_cons, createdBy, ← List.append_assoc]
    exact ih (recalls.write faithful reachable.wellFormed w)
      (faithful.write reachable.wellFormed w) next

end Recalls

end Transaction

namespace Directory

/-- A transaction that was opened on a directory, after its writes. -/
def written (d : Directory) (batch : Batch) : Transaction :=
  batch.writes.foldl Transaction.write (d.write batch.writer)

end Directory

namespace Client
open Transaction
variable {σ : Type} {client : Client σ} {id : DirectoryId} {d : Directory}

/-- The client when a directory holds what a transaction left, and nobody was told yet. -/
def holding (client : Client σ) (id : DirectoryId) (contents : Contents) : Client σ :=
  { client with registry := client.registry.modify id fun d => { d with contents } }

/-- What a listener is given to find the changes in, when a transaction closes. -/
theorem transact_heard (react : Reaction σ) (found : client.registry.directory? id = some d)
    (hooked : d.hasListener = true) (batch : Batch) :
    client.transact react id batch =
      ((client.holding id (d.written batch).contents).changesToTell
          (d.written batch).closed).2.deliver react (d.written batch).contents
        ((client.holding id (d.written batch).contents).changesToTell
          (d.written batch).closed).1 := by
  unfold transact commit
  rw [found]
  dsimp only
  rw [if_pos hooked]
  rfl

end Client

namespace Directory
open Transaction

/-- Whatever a transaction writes, it remembers what it touched as it was at the opening,
and what it created as a tombstone of what it created; nothing else changed, and what is
refused counts as nothing. Just that is given to whoever listens for changes. -/
theorem preimages_exact {d : Directory} (reachable : d.contents.Reachable) (batch : Batch) :
    (∀ h, h ∉ (d.written batch).touched →
      (d.written batch).contents.byHandle h = d.contents.byHandle h) ∧
    (∀ h ∈ (d.written batch).touched, ∀ e, d.contents.byHandle h = some e →
      (d.written batch).preimages[h]? = some e) ∧
    (∀ h ∈ (d.written batch).touched, d.contents.byHandle h = none →
      ∃ e ∈ (d.write batch.writer).createdBy batch.writes, e.handle = h ∧
        (d.written batch).preimages[h]? = some { e with isDeleted := true }) ∧
    (∀ e ∈ (d.write batch.writer).createdBy batch.writes,
      d.contents.byHandle e.handle = none ∧ e.handle ∈ (d.written batch).touched) ∧
    (∀ h, h ∈ (d.written batch).touched ↔
      h ∈ (d.write batch.writer).touchedBy batch.writes) ∧
    (∀ id parentId ordinal, ((d.written batch).insertFresh id parentId ordinal).1 = none →
      ((d.written batch).insertFresh id parentId ordinal).2 = d.written batch) ∧
    (∀ h change, (d.written batch).contents.byHandle h = none →
      (d.written batch).modify h change = (false, d.written batch)) ∧
    ∀ {σ : Type} (react : Reaction σ) (client : Client σ) (id : DirectoryId),
      client.registry.directory? id = some d → d.hasListener = true →
      ∃ event : ClosedTransaction, event.writer = batch.writer ∧
        event.preimages = (d.written batch).preimages ∧
        event.contents = batch.writes.foldl Contents.write d.contents ∧
        client.transact react id batch =
          ((client.holding id event.contents).changesToTell event).2.deliver react event.contents
            ((client.holding id event.contents).changesToTell event).1 := by
  have opening := Recalls.opening d batch.writer
  have faithful := write_faithful reachable batch.writer batch.writes
  have recalls := opening.writes (.opening d batch.writer) reachable batch.writes
  refine ⟨?_, ?_, ?_, ?_, ?_, ?_, ?_, ?_⟩
  · intro h untouched
    have unseen : (d.written batch).preimages[h]? = none :=
      Classical.byContradiction fun seen => untouched (mem_touched_iff.mpr seen)
    exact faithful.untouched h unseen
  · intro h touched e known
    obtain ⟨b, remembered⟩ := Option.ne_none_iff_exists'.mp (mem_touched_iff.mp touched)
    rw [remembered, faithful.touched h e known b remembered]
  · intro h touched unknown
    obtain ⟨b, remembered⟩ := Option.ne_none_iff_exists'.mp (mem_touched_iff.mp touched)
    rcases recalls.either h b remembered with old | ⟨e, member, rfl⟩
    · cases unknown.symm.trans old
    · exact ⟨e, member, rfl, (recalls.buried e member).2⟩
  · intro e member
    obtain ⟨unknown, remembered⟩ := recalls.buried e member
    exact ⟨unknown, mem_touched_iff.mpr (remembered ▸ Option.some_ne_none _)⟩
  · intro h
    rw [written, mem_touched_writes reachable]
    simp [touched, write]
  · intro id parentId ordinal refused
    exact insertFresh_refused refused
  · intro h change unknown
    rw [Transaction.modify, unknown]
  · intro σ react client id found hooked
    refine ⟨(d.written batch).closed, writer_writes _ _, rfl, contents_writes _ _, ?_⟩
    exact client.transact_heard react found hooked batch

/-- One user's directory with one entry in it. -/
def tidied : Directory where
  name := "tester"
  contents := Contents.initial.write (.insert ⟨"a"⟩ .root .initial)
  hasListener := true

/-- The entry is renamed twice, another one comes, is renamed, and comes again in vain. -/
def relabelling : Batch where
  writer := .syncer
  writes := [.modify 2 fun e => { e with url := "one" }, .modify 2 fun e => { e with url := "two" },
    .insert ⟨"b"⟩ ⟨"a"⟩ .initial, .modify 3 fun e => { e with url := "three" },
    .insert ⟨"b"⟩ .root .initial, .modify 9 fun e => { e with url := "four" }]

theorem preimages_exact_relabelling :
    tidied.contents.Reachable ∧ (tidied.written relabelling).touched = [2, 3] ∧
      (tidied.written relabelling).contents.byHandle 1 = tidied.contents.byHandle 1 ∧
      (tidied.written relabelling).preimages[(2 : Handle)]? =
        some (.create 2 ⟨"a"⟩ .root .initial) ∧
      ∃ e ∈ (tidied.write .syncer).createdBy relabelling.writes, e.handle = 3 ∧
        (tidied.written relabelling).preimages[(3 : Handle)]? =
          some { e with isDeleted := true } := by
  have reachable : tidied.contents.Reachable :=
    Contents.Reachable.initial.write (.insert ⟨"a"⟩ .root .initial)
  obtain ⟨untouched, opened, created, -⟩ := preimages_exact reachable relabelling
  have touched : (tidied.written relabelling).touched = [2, 3] := by decide +kernel
  refine ⟨reachable, touched, untouched 1 ?_, opened 2 ?_ _ ?_, created 3 ?_ ?_⟩
  · rw [touched]
    decide
  · rw [touched]
    decide
  · decide +kernel
  · rw [touched]
    decide
  · decide +kernel

end Directory

end SharedTree
