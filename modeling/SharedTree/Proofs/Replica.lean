import SharedTree.Proofs.DeliveredLists
import SharedTree.Proofs.Replay

/-! An observer that keeps a replica of what it can see. It takes in the lists as they
are delivered, and reads what it is told of in the contents that it is shown meanwhile.
A list tells of an entry by what the entry is in the end: once it is hidden nothing is
told of it any more, not even that it went. So a replica that is right about an entry
stays so until a transaction hides it from sight, or brings it back looking as it did
before (`transact_inSight_iff`); what becomes of other entries does not matter. A replica
that went wrong about an entry is right again from the next record of it on
(`transactions_inSight_of_told`). -/
namespace SharedTree

/-- What an observer can see of an entry. -/
structure Appearance where
  transportName : String
  isFolder : Bool
  url : String
  favicon : List UInt8
  parentId : EntryId
  ordinal : Ordinal
  deriving DecidableEq

/-- The entries that an observer knows of, each as it looked when it was last told of. -/
abbrev Replica := Std.ExtTreeMap Handle Appearance

namespace Entry

def appearance (e : Entry) : Appearance :=
  ⟨e.transportName, e.isFolder, e.url, e.favicon, e.parentId, e.ordinal⟩

/-- The appearance of an entry that can be seen: the root, the tombstones and what is
hidden can not. -/
def sight (e : Entry) : Option Appearance :=
  if e.isRoot || e.isDeleted || !e.isShown then none else some e.appearance

/-- Entries that look different are those that an update is told of. -/
theorem visiblyDiffers_iff_appearance {a b : Entry} :
    a.visiblyDiffers b = true ↔ a.appearance ≠ b.appearance := by
  simp only [visiblyDiffers_iff, appearance, ne_eq, Appearance.mk.injEq, not_and_or]

end Entry

/-- The live entries but the root that observers are told about. -/
def Contents.inSight (c : Contents) : Replica := c.entries.filterMap fun _ e => e.sight

theorem Contents.getElem?_inSight (c : Contents) (h : Handle) :
    c.inSight[h]? = (c.byHandle h).bind Entry.sight := by
  rw [inSight, Std.ExtTreeMap.getElem?_filterMap']
  rfl

/-! ## Taking in a list -/

namespace Replica
variable {c opened closed : Contents} {replica : Replica} {h : Handle}

/-- Takes in one record: what was deleted is dropped, anything else is looked at. -/
def take (c : Contents) (replica : Replica) (r : Change) : Replica :=
  match r.kind with
  | .delete => replica.erase r.id
  | .add | .update =>
    match c.byHandle r.id with
    | some e => replica.insert r.id e.appearance
    | none => replica

/-- A record concerns one entry. -/
theorem getElem?_take_other {r : Change} (other : r.id ≠ h) :
    (replica.take c r)[h]? = replica[h]? := by
  unfold take
  split
  · simp [Std.ExtTreeMap.getElem?_erase, other]
  all_goals
    split
    · simp [Std.ExtTreeMap.getElem?_insert, other]
    · rfl

theorem getElem?_take_record {e : Entry} (known : c.byHandle h = some e) (o : Observation) :
    (replica.take c (Observations.record h o))[h]? =
      if o = .delete then none else some e.appearance := by
  cases o <;> simp [take, Observations.record, Change.added, Change.updated, Change.deleted, known]

theorem getElem?_foldl_take_other {changes : List Change} (others : ∀ r ∈ changes, r.id ≠ h) :
    (changes.foldl (take c) replica)[h]? = replica[h]? := by
  induction changes generalizing replica with
  | nil => rfl
  | cons r changes ih =>
    rw [List.foldl_cons, ih fun r later => others r (List.mem_cons_of_mem _ later)]
    exact getElem?_take_other (others r List.mem_cons_self)

/-- Of the records of a list the one of an entry decides what is known of it. -/
theorem getElem?_foldl_take {changes : List Change} (distinct : (changes.map (·.id)).Nodup)
    {r : Change} (member : r ∈ changes) :
    ∃ met : Replica, (changes.foldl (take c) replica)[r.id]? = (met.take c r)[r.id]? := by
  obtain ⟨earlier, later, rfl⟩ := List.append_of_mem member
  rw [List.map_append, List.map_cons, List.nodup_append, List.nodup_cons] at distinct
  have others : ∀ s ∈ later, s.id ≠ r.id := by
    intro s told same
    exact distinct.2.1.1 (List.mem_map.mpr ⟨s, told, same⟩)
  refine ⟨earlier.foldl (take c) replica, ?_⟩
  rw [List.foldl_append, List.foldl_cons, getElem?_foldl_take_other others]

/-- A record that is due tells all that can be seen of its entry. -/
theorem getElem?_take_due {r : Change} (due : opened.Due closed r) :
    (replica.take closed r)[r.id]? = closed.inSight[r.id]? := by
  rw [Contents.getElem?_inSight]
  cases due with
  | added now inner shown live =>
    simp [take, Change.added, Entry.sight, now, inner, shown, live]
  | deleted now inner shown gone => simp [take, Change.deleted, Entry.sight, now, gone]
  | updated now inner shown live =>
    simp [take, Change.updated, Entry.sight, now, inner, shown, live]

/-- What is known of an entry after a transaction, given what was known before. -/
def noted (before : Option Entry) (after : Entry) (known : Option Appearance) :
    Option Appearance :=
  match Observation.between before after with
  | none => known
  | some o => if o = .delete then none else some after.appearance

/-- Taking in a difference looks at each entry by itself. -/
theorem getElem?_changesSince (opened closed : Contents) (replica : Replica) (h : Handle) :
    ((opened.changesSince closed).foldl (take closed) replica)[h]? =
      (closed.byHandle h).elim replica[h]? fun after =>
        noted (opened.byHandle h) after replica[h]? := by
  have untold (nothing : (Observations.between opened closed).byEntry[h]? = none) :
      ∀ r ∈ opened.changesSince closed, r.id ≠ h := by
    rintro r member rfl
    obtain ⟨k, o, found, rfl⟩ := Observations.mem_inTreeOrder.mp member
    rw [Observations.record_id, found] at nothing
    cases nothing
  have looked := Observations.byEntry_between opened closed h
  cases known : closed.byHandle h with
  | none =>
    rw [known] at looked
    exact getElem?_foldl_take_other (untold looked)
  | some after =>
    rw [known, Option.bind_some] at looked
    rw [Option.elim_some, noted]
    cases between : Observation.between (opened.byHandle h) after with
    | none => exact getElem?_foldl_take_other (untold (looked.trans between))
    | some o =>
      have told : Observations.record h o ∈ opened.changesSince closed :=
        Observations.mem_inTreeOrder.mpr ⟨h, o, looked.trans between, rfl⟩
      obtain ⟨met, decided⟩ := getElem?_foldl_take (Observations.inTreeOrder_ids_nodup _ _) told
      rw [Observations.record_id] at decided
      exact decided.trans (getElem?_take_record known o)

/-- What was known of an entry before does not matter once there is a record of it. -/
theorem getElem?_changesSince_of_told (told : ∃ r ∈ opened.changesSince closed, r.id = h) :
    ((opened.changesSince closed).foldl (take closed) replica)[h]? = closed.inSight[h]? := by
  obtain ⟨r, member, rfl⟩ := told
  obtain ⟨met, decided⟩ := getElem?_foldl_take (Observations.inTreeOrder_ids_nodup _ _) member
  exact decided.trans (getElem?_take_due (Contents.mem_changesSince.mp member))

end Replica

/-! ## What a list leaves out -/

/-- What became of an entry can be told: it was not hidden while it could be seen, nor
came into sight looking as it did while it was hidden. -/
def Entry.Tellable (before after : Entry) : Prop :=
  before.isRoot = false → before.isDeleted = false →
    if before.isShown then after.isShown = true else after.sight ≠ some before.appearance

instance (before after : Entry) : Decidable (before.Tellable after) :=
  inferInstanceAs (Decidable (_ → _ → _))

namespace Replica

/-- A new entry is told of if it can be seen. -/
theorem noted_new (after : Entry) : noted none after none = after.sight := by
  cases root : after.isRoot <;> cases gone : after.isDeleted <;> cases shown : after.isShown <;>
    simp [noted, Observation.between, Entry.sight, root, gone, shown]

/-- Of a live entry that is shown in the end a deletion is told, or another look. -/
theorem noted_live {before after : Entry} (inner : after.isRoot = false)
    (live : before.isDeleted = false) (known : Option Appearance) :
    noted (some before) after known =
      if after.isShown = false then known
      else if after.isDeleted then none
      else if before.appearance = after.appearance then known else some after.appearance := by
  have differs := Entry.visiblyDiffers_iff_appearance (a := before) (b := after)
  cases shown : after.isShown with
  | false => simp [noted, Observation.between, shown]
  | true =>
    cases gone : after.isDeleted with
    | true => simp [noted, Observation.between, Option.filter_some, inner, live, shown, gone]
    | false =>
      by_cases looks : before.appearance = after.appearance
      · simp [noted, Observation.between, Option.filter_some, inner, live, shown, gone, looks,
          differs]
      · by_cases moved : before.placeDiffers after = true <;>
          simp [noted, Observation.between, Option.filter_some, inner, live, shown, gone, looks,
            differs, moved]

/-- Who knew an entry as it was knows it as it is, if that can be told, and else not. -/
theorem noted_iff {before after : Entry} (same : after.isRoot = before.isRoot) :
    noted (some before) after before.sight = after.sight ↔ before.Tellable after := by
  cases root : before.isRoot with
  | true => simp [noted, Observation.between, Entry.sight, Entry.Tellable, root, same]
  | false =>
    have inner := same.trans root
    cases gone : before.isDeleted with
    | true =>
      have unseen : before.sight = none := by simp [Entry.sight, gone]
      have fresh := noted_new after
      rw [noted] at fresh
      rw [noted, Observation.between_tombstone gone, unseen, fresh]
      simp [Entry.Tellable, gone]
    | false =>
      rw [noted_live inner gone]
      cases shown : before.isShown <;> cases shownAfter : after.isShown <;>
        cases goneAfter : after.isDeleted <;>
        simp [Entry.sight, Entry.Tellable, root, inner, gone, shown, shownAfter, goneAfter, eq_comm]

end Replica

/-! ## Following a run of transactions -/

/-- An observer that keeps a replica takes in every list that it is told of. -/
def Reaction.follow : Reaction Replica := fun _ callback client =>
  match callback with
  | .changesApplied contents changes =>
    { client with embedder := changes.foldl (Replica.take contents) client.embedder }
  | _ => client

theorem Reaction.follow_heeds (id : DirectoryId) : follow.Heeds id :=
  ⟨fun _ _ _ _ => rfl, fun _ _ _ _ => rfl, fun _ _ _ _ => rfl⟩

/-- What became of an entry in a transaction can be told. -/
def Contents.Tells (opened closed : Contents) (h : Handle) : Prop :=
  ∀ before after, opened.byHandle h = some before → closed.byHandle h = some after →
    before.Tellable after

instance (opened closed : Contents) : Decidable (∀ h, opened.Tells closed h) :=
  decidable_of_iff
    (∀ p ∈ closed.entries.toList, ∀ before ∈ opened.byHandle p.1, before.Tellable p.2)
    ⟨fun all h _ after was now =>
        all (h, after) (Std.ExtTreeMap.mem_toList_iff_getElem?_eq_some.mpr now) _ was,
      fun tells p member before was =>
        tells p.1 before p.2 was (Std.ExtTreeMap.mem_toList_iff_getElem?_eq_some.mp member)⟩

namespace Batch

/-- What transactions that follow one another make of some contents. -/
def applyAll (batches : List Batch) (c : Contents) : Contents :=
  batches.foldl (fun c batch => batch.apply c) c

/-- What became of an entry can be told, in each of the transactions. -/
def AllTell (h : Handle) (c : Contents) : List Batch → Prop
  | [] => True
  | batch :: batches => c.Tells (batch.apply c) h ∧ AllTell h (batch.apply c) batches

instance decidableAllTell (c : Contents) :
    (batches : List Batch) → Decidable (∀ h, AllTell h c batches)
  | [] => isTrue fun _ => trivial
  | batch :: batches =>
    have := decidableAllTell (batch.apply c) batches
    decidable_of_iff ((∀ h, c.Tells (batch.apply c) h) ∧ ∀ h, AllTell h (batch.apply c) batches)
      forall_and.symm

end Batch

namespace Client
variable {id : DirectoryId} {client : Client Replica} {d : Directory} {observer : String}

theorem embedder_changesToTell (client : Client Replica) (t : ClosedTransaction) :
    (client.changesToTell t).2.embedder = client.embedder := by
  unfold changesToTell
  split
  · dsimp only
    split <;> rfl
  all_goals rfl

theorem embedder_deliver (watched : client.Watches id d observer) (contents : Contents)
    (changes : List Change) : (client.deliver .follow contents changes).embedder =
      changes.foldl (Replica.take contents) client.embedder := by
  cases changes with
  | nil => rfl
  | cons r changes => simp [deliver, tell, watched.observed, Reaction.follow, record]

/-- When a transaction closes, the difference that it made is taken in. -/
theorem embedder_commit {t : Transaction} (watched : client.Watches id d observer)
    (faithful : t.Faithful d.contents) (wf : t.contents.WellFormed)
    (other : t.writer ≠ .embedder) : (client.commit .follow id t).embedder =
      (d.contents.changesSince t.contents).foldl (Replica.take t.contents) client.embedder := by
  obtain ⟨changes, watches, -⟩ :=
    changesToTell_watched faithful wf (watched.store t.contents)
  rw [if_neg other] at changes
  unfold commit
  rw [watched.found]
  dsimp only
  rw [if_pos watched.hooked, embedder_deliver watches, changes, embedder_changesToTell]

/-- A transaction of anybody but the embedder is taken in as the difference that it made. -/
theorem embedder_transact (watched : client.Watches id d observer)
    (reachable : d.contents.Reachable) {batch : Batch} (other : batch.writer ≠ .embedder) :
    (client.transact .follow id batch).embedder =
      (d.contents.changesSince (batch.apply d.contents)).foldl
        (Replica.take (batch.apply d.contents)) client.embedder := by
  obtain ⟨t, closes, faithful, written, tagged⟩ := transact_eq_commit watched reachable batch
  have taken := embedder_commit watched faithful
    (written ▸ (reachable.writes batch.writes).wellFormed) (tagged ▸ other)
  rwa [written, ← closes] at taken

/-- One transaction: a replica that was right about an entry is right about it after,
if what became of the entry can be told, and else not. -/
theorem transact_inSight_iff (watched : client.Watches id d observer)
    (reachable : d.contents.Reachable) {batch : Batch} (other : batch.writer ≠ .embedder)
    {h : Handle} (right : client.embedder[h]? = d.contents.inSight[h]?) :
    (client.transact .follow id batch).embedder[h]? = (batch.apply d.contents).inSight[h]? ↔
      d.contents.Tells (batch.apply d.contents) h := by
  rw [embedder_transact watched reachable other, Replica.getElem?_changesSince, right,
    Contents.getElem?_inSight, Contents.getElem?_inSight]
  cases before : d.contents.byHandle h with
  | none =>
    have new : d.contents.Tells (batch.apply d.contents) h := by
      intro b after was
      cases before.symm.trans was
    refine iff_of_true ?_ new
    cases (batch.apply d.contents).byHandle h with
    | none => rfl
    | some after => exact Replica.noted_new after
  | some b =>
    -- an entry never goes, nor does it become the root or cease to be it
    obtain ⟨after, now, sameId⟩ := reachable.wellFormed.exists_writes batch.writes before
    have same : after.isRoot = b.isRoot := congrArg EntryId.isRoot sameId
    rw [show (batch.apply d.contents).byHandle h = some after from now]
    refine (Replica.noted_iff same).trans ⟨?_, fun tells => tells b after before now⟩
    intro tellable was is before' now'
    cases before.symm.trans before'
    cases now.symm.trans now'
    exact tellable

/-- One transaction, whatever was known of an entry: the replica is right about it after
if the list tells of it, or if it was known already as it is now; and else not. -/
theorem transact_inSight_iff_told (watched : client.Watches id d observer)
    (reachable : d.contents.Reachable) {batch : Batch} (other : batch.writer ≠ .embedder)
    {h : Handle} :
    (client.transact .follow id batch).embedder[h]? = (batch.apply d.contents).inSight[h]? ↔
      (∃ r ∈ d.contents.changesSince (batch.apply d.contents), r.id = h) ∨
        client.embedder[h]? = (batch.apply d.contents).inSight[h]? := by
  rw [embedder_transact watched reachable other]
  by_cases told : ∃ r ∈ d.contents.changesSince (batch.apply d.contents), r.id = h
  · exact iff_of_true (Replica.getElem?_changesSince_of_told told) (.inl told)
  · have untold : ∀ r ∈ d.contents.changesSince (batch.apply d.contents), r.id ≠ h :=
      fun r member same => told ⟨r, member, same⟩
    rw [Replica.getElem?_foldl_take_other untold]
    exact (or_iff_right told).symm

theorem transact_watches (watched : client.Watches id d observer)
    (reachable : d.contents.Reachable) (batch : Batch) :
    (client.transact .follow id batch).Watches id
      { d with contents := batch.apply d.contents } observer :=
  (transact_watched (Reaction.follow_heeds id) watched reachable batch).1

/-- The client goes on listening, to what the transactions make of the directory. -/
theorem transactions_watches (watched : client.Watches id d observer)
    (reachable : d.contents.Reachable) (batches : List Batch) :
    (batches.foldl (transact .follow id) client).Watches id
      { d with contents := Batch.applyAll batches d.contents } observer := by
  induction batches generalizing client d with
  | nil => exact watched
  | cons batch batches ih =>
    exact ih (transact_watches watched reachable batch) (reachable.writes batch.writes)

theorem transactions_inSight (watched : client.Watches id d observer)
    (reachable : d.contents.Reachable) {batches : List Batch}
    (others : ∀ batch ∈ batches, batch.writer ≠ .embedder) {h : Handle}
    (tell : Batch.AllTell h d.contents batches)
    (right : client.embedder[h]? = d.contents.inSight[h]?) :
    (batches.foldl (transact .follow id) client).embedder[h]? =
      (Batch.applyAll batches d.contents).inSight[h]? := by
  induction batches generalizing client d with
  | nil => exact right
  | cons batch batches ih =>
    obtain ⟨tells, tell⟩ := tell
    have other := others batch List.mem_cons_self
    exact ih (transact_watches watched reachable batch) (reachable.writes batch.writes)
      (fun b later => others b (List.mem_cons_of_mem _ later)) tell
      ((transact_inSight_iff watched reachable other right).mpr tells)

/-- However wrong a replica was about an entry, it is right about it from the next record
of it on, for as long as the transactions tell what became of it. -/
theorem transactions_inSight_of_told (watched : client.Watches id d observer)
    (reachable : d.contents.Reachable) {batch : Batch} {later : List Batch}
    (others : ∀ b ∈ batch :: later, b.writer ≠ .embedder) {h : Handle}
    (told : ∃ r ∈ d.contents.changesSince (batch.apply d.contents), r.id = h)
    (tell : Batch.AllTell h (batch.apply d.contents) later) :
    ((batch :: later).foldl (transact .follow id) client).embedder[h]? =
      (Batch.applyAll (batch :: later) d.contents).inSight[h]? := by
  obtain ⟨other, others⟩ := List.forall_mem_cons.mp others
  have right := (transact_inSight_iff_told watched reachable other).mpr (.inl told)
  exact transactions_inSight (transact_watches watched reachable batch)
    (reachable.writes batch.writes) others tell right

/-- A replica that starts out right is right, after any transactions of others than the
embedder, about each entry of which they all tell what became of it. If they do of all
the entries, it is what can be seen of the directory. -/
theorem follow_inSight (watched : client.Watches id d observer)
    (reachable : d.contents.Reachable) (right : client.embedder = d.contents.inSight)
    (batches : List Batch) (others : ∀ batch ∈ batches, batch.writer ≠ .embedder) :
    let after := batches.foldl (transact .follow id) client
    let c := Batch.applyAll batches d.contents
    after.Watches id { d with contents := c } observer ∧
      (∀ h, Batch.AllTell h d.contents batches → after.embedder[h]? = c.inSight[h]?) ∧
      ((∀ h, Batch.AllTell h d.contents batches) → after.embedder = c.inSight) := by
  have entrywise (h : Handle) (tell : Batch.AllTell h d.contents batches) :
      (batches.foldl (transact .follow id) client).embedder[h]? =
        (Batch.applyAll batches d.contents).inSight[h]? :=
    transactions_inSight watched reachable others tell (by rw [right])
  exact ⟨transactions_watches watched reachable batches, entrywise,
    fun tell => Std.ExtTreeMap.ext_getElem? fun h => entrywise h (tell h)⟩

/-- A client that listens to one new directory, of which its observer keeps a replica. -/
def following : Client Replica where
  settings := {}
  services := {}
  observer := some "main"
  registry := { location := "", directories := [{ name := "tester", hasListener := true }] }
  embedder := ∅

/-- Of two new entries one is hidden at first; it comes into sight with an address, while
the other is deleted; that one comes back in another place. -/
def comingAndGoing : List Batch :=
  [⟨.syncer, [.insert ⟨"sa"⟩ .root .initial, .insert ⟨"sb"⟩ .root .initial,
      .modify 3 fun e => { e with isShown := false }]⟩,
    ⟨.unittest, [.modify 3 fun e => { e with isShown := true, url := "u" },
      .modify 2 fun e => { e with isDeleted := true }]⟩,
    ⟨.syncer, [.modify 2 fun e => { e with isDeleted := false, parentId := ⟨"sb"⟩ }]⟩]

theorem follow_inSight_comingAndGoing :
    following.Watches ⟨0⟩ { name := "tester", hasListener := true } "main" ∧
      Contents.initial.Reachable ∧ following.embedder = Contents.initial.inSight ∧
      (∀ batch ∈ comingAndGoing, batch.writer ≠ .embedder) ∧
      (∀ h, Batch.AllTell h .initial comingAndGoing) ∧
      (comingAndGoing.foldl (transact .follow ⟨0⟩) following).embedder.toList =
        [(2, ⟨" ", true, "", [], ⟨"sb"⟩, .initial⟩),
          (3, ⟨" ", true, "u", [], .root, .initial⟩)] := by
  have watched : following.Watches ⟨0⟩ { name := "tester", hasListener := true } "main" :=
    ⟨rfl, rfl, rfl⟩
  have right : following.embedder = Contents.initial.inSight := by decide +kernel
  have others : ∀ batch ∈ comingAndGoing, batch.writer ≠ .embedder := by decide
  have tell : ∀ h, Batch.AllTell h .initial comingAndGoing := by decide +kernel
  refine ⟨watched, .initial, right, others, tell, ?_⟩
  rw [(follow_inSight watched .initial right comingAndGoing others).2.2 tell]
  decide +kernel

/-- One entry is hidden, after it was told of, and another one is shown as it was. -/
def blinking : List Batch :=
  [⟨.syncer, [.insert ⟨"sa"⟩ .root .initial, .insert ⟨"sb"⟩ .root .initial,
      .modify 3 fun e => { e with isShown := false }]⟩,
    ⟨.syncer, [.modify 2 fun e => { e with isShown := false }]⟩,
    ⟨.syncer, [.modify 3 fun e => { e with isShown := true }]⟩]

/-- An entry that is hidden stays in the replica, and one that comes into sight looking
as it did is not in it. -/
theorem follow_blinking :
    following.Watches ⟨0⟩ { name := "tester", hasListener := true } "main" ∧
      Contents.initial.Reachable ∧ following.embedder = Contents.initial.inSight ∧
      (∀ batch ∈ blinking, batch.writer ≠ .embedder) ∧
      (blinking.foldl (transact .follow ⟨0⟩) following).embedder.keys = [2] ∧
      (Batch.applyAll blinking .initial).inSight.keys = [3] ∧
      (blinking.foldl (transact .follow ⟨0⟩) following).embedder ≠
        (Batch.applyAll blinking .initial).inSight := by
  have kept : (blinking.foldl (transact .follow ⟨0⟩) following).embedder.keys = [2] := by
    decide +kernel
  have seen : (Batch.applyAll blinking .initial).inSight.keys = [3] := by decide +kernel
  refine ⟨⟨rfl, rfl, rfl⟩, .initial, by decide +kernel, by decide, kept, seen, fun same => ?_⟩
  rw [same, seen] at kept
  cases kept

end Client

end SharedTree
