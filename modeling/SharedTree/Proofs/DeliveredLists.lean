import SharedTree.Client.Commit
import SharedTree.Proofs.OpenDirectories
import SharedTree.Proofs.SnapshotDifference

/-! What the observer of a client is told of the transactions on a directory that
the client listens to. A transaction of the syncer is told as the difference that
it made, if it made any, and one of the embedder is not told; nothing else about a
transaction matters, nor does anything that was noted before it. -/
namespace SharedTree

/-- The lists of changes that were told, with who was told, in order. -/
def Effect.listsTold (effects : List Effect) : List (String × List Change) :=
  effects.filterMap fun
    | .toldObserver observer (.changesApplied _ changes) => some (observer, changes)
    | _ => none

theorem Effect.listsTold_append (first second : List Effect) :
    listsTold (first ++ second) = listsTold first ++ listsTold second :=
  List.filterMap_append

/-- These are all the lists that were delivered. -/
theorem Effect.listsTold_changes (effects : List Effect) :
    (listsTold effects).map (·.2) = changeLists effects := by
  induction effects with
  | nil => rfl
  | cons effect effects ih =>
    cases effect with
    | toldObserver observer callback =>
      cases callback with
      | changesApplied contents changes => exact congrArg (changes :: ·) ih
      | _ => exact ih
    | _ => exact ih

/-- Observers may do as they like when they are told of changes, but they are not
to write, which would bring about further lists, and here they stay where they are. -/
structure Reaction.Heeds {σ : Type} (react : Reaction σ) (id : DirectoryId) : Prop where
  directory : ∀ observer contents changes client,
    (react observer (.changesApplied contents changes) client).registry.directory? id =
      client.registry.directory? id
  observer : ∀ observer contents changes client,
    (react observer (.changesApplied contents changes) client).observer = client.observer
  lists : ∀ observer contents changes client,
    Effect.listsTold (react observer (.changesApplied contents changes) client).effects =
      Effect.listsTold client.effects

theorem Reaction.quiet_heeds {σ : Type} (id : DirectoryId) : (quiet : Reaction σ).Heeds id :=
  ⟨fun _ _ _ _ => rfl, fun _ _ _ _ => rfl, fun _ _ _ _ => rfl⟩

/-- A write transaction from its opening to its close. -/
structure Batch where
  writer : Writer
  writes : List Write

namespace Batch

/-- What the writes alone make of some contents. -/
def apply (batch : Batch) (c : Contents) : Contents := batch.writes.foldl Contents.write c

/-- The list that is to be told of a transaction, if there is any. -/
def list? (batch : Batch) (c : Contents) : Option (List Change) :=
  if batch.writer = .embedder ∨ c.changesSince (batch.apply c) = [] then none
  else some (c.changesSince (batch.apply c))

/-- The lists that are to be told of transactions that follow one another. -/
def lists (c : Contents) : List Batch → List (List Change)
  | [] => []
  | batch :: batches => (batch.list? c).toList ++ lists (batch.apply c) batches

end Batch

namespace Client
variable {σ : Type} {react : Reaction σ} {id : DirectoryId} {client : Client σ}

/-- Opens a write transaction on a directory, writes, and closes it. -/
def transact (react : Reaction σ) (id : DirectoryId) (client : Client σ) (batch : Batch) :
    Client σ :=
  match client.registry.directory? id with
  | none => client
  | some d => client.commit react id (batch.writes.foldl Transaction.write (d.write batch.writer))

/-- The client listens to a directory and has somebody to tell. -/
structure Watches (client : Client σ) (id : DirectoryId) (d : Directory) (observer : String) :
    Prop where
  found : client.registry.directory? id = some d
  hooked : d.hasListener = true
  observed : client.observer = some observer

/-- The contents may be replaced meanwhile. -/
theorem Watches.store {d : Directory} {observer : String} (watched : client.Watches id d observer)
    (contents : Contents) :
    Watches { client with registry := client.registry.modify id fun d => { d with contents } } id
      { d with contents } observer := by
  refine ⟨?_, watched.hooked, watched.observed⟩
  rw [Registry.directory?_modify, if_pos rfl, watched.found]
  rfl

theorem changesToTell_watched {d : Directory} {observer : String} {opened : Contents}
    {t : Transaction} (faithful : t.Faithful opened) (wf : t.contents.WellFormed)
    (watched : client.Watches id d observer) :
    (client.changesToTell t.closed).1 =
        (if t.writer = .embedder then [] else opened.changesSince t.contents) ∧
      (client.changesToTell t.closed).2.Watches id d observer ∧
      Effect.listsTold (client.changesToTell t.closed).2.effects =
        Effect.listsTold client.effects := by
  have drained := Observations.drain_closed faithful wf client.observations
  obtain ⟨found, hooked, observed⟩ := watched
  cases writer : t.writer with
  | embedder =>
    simp only [changesToTell, Transaction.closed, writer]
    split
    · refine ⟨rfl, ⟨found, hooked, observed⟩, ?_⟩
      rw [record, Effect.listsTold_append]
      exact List.append_nil _
    · exact ⟨rfl, ⟨found, hooked, observed⟩, rfl⟩
  | syncer =>
    have told : client.changesToTell t.closed =
        (opened.changesSince t.contents, { client with observations := .empty }) := by
      simp [changesToTell, drained, show t.closed.writer = .syncer from writer]
    rw [told]
    exact ⟨rfl, ⟨found, hooked, observed⟩, rfl⟩
  | unittest =>
    have told : client.changesToTell t.closed =
        (opened.changesSince t.contents, { client with observations := .empty }) := by
      simp [changesToTell, drained, show t.closed.writer = .unittest from writer]
    rw [told]
    exact ⟨rfl, ⟨found, hooked, observed⟩, rfl⟩

/-- Nothing is told of nothing; else the observer is told once. -/
theorem deliver_watched {d : Directory} {observer : String} (heeds : react.Heeds id)
    (watched : client.Watches id d observer) (contents : Contents) (changes : List Change) :
    (client.deliver react contents changes).Watches id d observer ∧
      Effect.listsTold (client.deliver react contents changes).effects =
        Effect.listsTold client.effects ++
          if changes = [] then [] else [(observer, changes)] := by
  unfold deliver
  cases changes with
  | nil => exact ⟨watched, (List.append_nil _).symm⟩
  | cons change changes =>
    simp only [List.isEmpty_cons, Bool.false_eq_true, ↓reduceIte, tell, watched.observed]
    refine ⟨⟨?_, watched.hooked, ?_⟩, ?_⟩
    · rw [heeds.directory]
      exact watched.found
    · rw [heeds.observer]
      exact watched.observed
    · rw [heeds.lists, record, Effect.listsTold_append]
      rfl

/-- When a transaction closes, the directory holds what it left, and the observer
is told the difference, unless the embedder wrote. -/
theorem commit_watched {d : Directory} {observer : String} {t : Transaction}
    (heeds : react.Heeds id) (watched : client.Watches id d observer)
    (faithful : t.Faithful d.contents) (wf : t.contents.WellFormed) :
    (client.commit react id t).Watches id { d with contents := t.contents } observer ∧
      Effect.listsTold (client.commit react id t).effects = Effect.listsTold client.effects ++
        if t.writer = .embedder ∨ d.contents.changesSince t.contents = [] then []
        else [(observer, d.contents.changesSince t.contents)] := by
  obtain ⟨changes, watches, silent⟩ :=
    changesToTell_watched faithful wf (watched.store t.contents)
  obtain ⟨watches, delivered⟩ := deliver_watched heeds watches t.contents _
  unfold commit
  rw [watched.found]
  dsimp only
  rw [if_pos watched.hooked]
  refine ⟨watches, ?_⟩
  rw [delivered, silent, changes]
  by_cases embedder : t.writer = .embedder <;> simp [embedder]

/-- A transaction closes on what was written, and remembers what was there before. -/
theorem transact_eq_commit {d : Directory} {observer : String}
    (watched : client.Watches id d observer) (reachable : d.contents.Reachable) (batch : Batch) :
    ∃ t : Transaction, client.transact react id batch = client.commit react id t ∧
      t.Faithful d.contents ∧ t.contents = batch.apply d.contents ∧ t.writer = batch.writer := by
  refine ⟨batch.writes.foldl Transaction.write (d.write batch.writer), ?_,
    Directory.write_faithful reachable batch.writer batch.writes,
    Transaction.contents_writes _ _, Transaction.writer_writes _ _⟩
  unfold transact
  rw [watched.found]

/-- One transaction: the directory holds what was written, and the observer was
told what there was to tell. -/
theorem transact_watched {d : Directory} {observer : String} (heeds : react.Heeds id)
    (watched : client.Watches id d observer) (reachable : d.contents.Reachable) (batch : Batch) :
    (client.transact react id batch).Watches id
        { d with contents := batch.apply d.contents } observer ∧
      Effect.listsTold (client.transact react id batch).effects =
        Effect.listsTold client.effects ++
          (batch.list? d.contents).toList.map fun changes => (observer, changes) := by
  obtain ⟨t, closes, faithful, written, tagged⟩ := transact_eq_commit watched reachable batch
  obtain ⟨watches, told⟩ := commit_watched heeds watched faithful
    (written ▸ (reachable.writes batch.writes).wellFormed)
  rw [written] at watches told
  rw [tagged] at told
  rw [closes]
  refine ⟨watches, told.trans ?_⟩
  unfold Batch.list?
  split <;> rfl

theorem transactions_watched {d : Directory} {observer : String} (heeds : react.Heeds id)
    (watched : client.Watches id d observer) (reachable : d.contents.Reachable)
    (batches : List Batch) :
    Effect.listsTold (batches.foldl (transact react id) client).effects =
      Effect.listsTold client.effects ++
        (Batch.lists d.contents batches).map fun changes => (observer, changes) := by
  induction batches generalizing client d with
  | nil => exact (List.append_nil _).symm
  | cons batch batches ih =>
    obtain ⟨watches, told⟩ := transact_watched heeds watched reachable batch
    rw [List.foldl_cons, ih watches (reachable.writes batch.writes), told, Batch.lists,
      List.map_append, List.append_assoc]

/-- The observer is told, transaction by transaction, the differences of the
contents before and after it, of everybody's transactions but the embedder's; and
a difference has one record for each entry that came, went or looks different. -/
theorem lists_exact {d : Directory} {observer : String} (heeds : react.Heeds id)
    (watched : client.Watches id d observer) (reachable : d.contents.Reachable)
    (batches : List Batch) :
    Effect.listsTold (batches.foldl (transact react id) client).effects =
      Effect.listsTold client.effects ++
        (Batch.lists d.contents batches).map (fun changes => (observer, changes)) ∧
    Effect.changeLists (batches.foldl (transact react id) client).effects =
      Effect.changeLists client.effects ++ Batch.lists d.contents batches ∧
    ∀ opened closed : Contents,
      ((opened.changesSince closed).map (·.id)).Nodup ∧
        (∀ r, r ∈ opened.changesSince closed ↔ opened.Due closed r) ∧
        ((∀ h, closed.byHandle h = opened.byHandle h) → opened.changesSince closed = []) := by
  have told := transactions_watched heeds watched reachable batches
  refine ⟨told, ?_, ?_⟩
  · rw [← Effect.listsTold_changes, told, List.map_append, Effect.listsTold_changes, List.map_map]
    exact congrArg _ (List.map_id _)
  · intro opened closed
    exact ⟨Observations.inTreeOrder_ids_nodup _ _, fun _ => Contents.mem_changesSince,
      Contents.changesSince_unchanged⟩

/-- A client that listens to one new directory, with a note left over from before. -/
def listening : Client Unit where
  settings := {}
  services := {}
  observations := Observations.empty.noteAdded 4242
  observer := some "main"
  registry := { location := "", directories := [{ name := "tester", hasListener := true }] }
  embedder := ()

/-- An entry comes while another comes and goes; the embedder makes one; a change is
taken back; the embedder's entry is moved, and then goes while the other changes. -/
def fiveBatches : List Batch :=
  [⟨.syncer, [.insert ⟨"sa"⟩ .root .initial, .insert ⟨"sb"⟩ .root .initial,
      .modify 3 fun e => { e with isDeleted := true }]⟩,
    ⟨.embedder, [.insert ⟨"c"⟩ .root .initial]⟩,
    ⟨.syncer, [.modify 2 fun e => { e with url := "u" }, .modify 2 fun e => { e with url := "" }]⟩,
    ⟨.unittest, [.modify 4 fun e => { e with parentId := ⟨"sa"⟩ }]⟩,
    ⟨.syncer, [.modify 2 fun e => { e with url := "u" },
      .modify 4 fun e => { e with isDeleted := true }]⟩]

theorem lists_exact_fiveBatches :
    (Reaction.quiet : Reaction Unit).Heeds ⟨0⟩ ∧
      listening.Watches ⟨0⟩ { name := "tester", hasListener := true } "main" ∧
      Contents.initial.Reachable ∧
      Effect.listsTold (fiveBatches.foldl (transact .quiet ⟨0⟩) listening).effects =
        [("main", [.added 2]), ("main", [.updated 4 true]),
          ("main", [.deleted 4, .updated 2 false])] := by
  have heeds : (Reaction.quiet : Reaction Unit).Heeds ⟨0⟩ := Reaction.quiet_heeds ⟨0⟩
  have watched : listening.Watches ⟨0⟩ { name := "tester", hasListener := true } "main" :=
    ⟨rfl, rfl, rfl⟩
  refine ⟨heeds, watched, .initial, ?_⟩
  refine (lists_exact heeds watched .initial fiveBatches).1.trans ?_
  decide +kernel

end Client

end SharedTree
