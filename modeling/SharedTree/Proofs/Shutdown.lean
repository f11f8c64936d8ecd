import Mathlib.Data.Fintype.EquivFin
import SharedTree.Proofs.ClientRuns
import SharedTree.Proofs.LocalNudges

/-! What is left of a client that was shut down. It gives out no directory, and no call
makes it do anything. It may still be heard from when somebody writes to one of its
directories: shutting down stops it from listening to the directory of the user that it
has then, and to no other. So it is quiet from then on if and only if that is the only
user that it ever came to listen for. -/
namespace SharedTree

namespace Client
variable {σ : Type} {react : Reaction σ} {client after : Client σ}

/-! ## Shutting down -/

/-- What is left of a client that listened for some users. -/
structure Stopped (client : Client σ) (listened : List String) : Prop where
  down : client.isShutDown = true
  hooked : ∀ id name hook, client.registry.standing id = some (name, hook) →
    (hook = true ↔ name ∈ listened ∧ client.username ≠ some name)
  listed : ∀ name ∈ listened, ∃ id hook, client.registry.standing id = some (name, hook)
  gone : ∀ name ∈ client.username, client.registry.get? name = none

theorem Stopped.sameHooks {listened : List String} (stopped : client.Stopped listened)
    (same : client.SameHooks after) : after.Stopped listened := by
  constructor
  case down => exact same.isShutDown.trans stopped.down
  case hooked =>
    intro id name hook
    rw [same.standing, same.username]
    exact stopped.hooked id name hook
  case listed =>
    intro name heard
    obtain ⟨id, hook, known⟩ := stopped.listed name heard
    exact ⟨id, hook, (same.standing id).trans known⟩
  case gone =>
    intro name user
    rw [same.username] at user
    exact (same.get? name).trans (stopped.gone name user)

theorem SameStanding.closeDirectory (same : client.SameStanding after) :
    client.closeDirectory.SameStanding after.closeDirectory := by
  unfold Client.closeDirectory
  rw [same.username, same.registry]
  split
  · split
    · exact ⟨rfl, rfl, same.isShutDown⟩
    · exact same
  · exact same

theorem closeDirectory_gone (client : Client σ) {name : String}
    (user : client.username = some name) : client.closeDirectory.registry.get? name = none := by
  unfold closeDirectory
  rw [user]
  dsimp only
  cases found : client.registry.get? name with
  | none => exact found
  | some id => exact (Registry.get?_close _ name name).trans (if_pos rfl)

/-- Nobody listens to the user's directory any more; all others are as they were. -/
theorem closeDirectory_standing {listened : List String}
    (tracks : client.registry.Tracks listened) (k : DirectoryId) :
    client.closeDirectory.registry.standing k = (client.registry.standing k).map
      fun standing => (standing.1, standing.2 && client.username ≠ some standing.1) := by
  unfold closeDirectory
  cases user : client.username with
  | none => simp
  | some name =>
    -- the user's directory is the only one of that name
    have apart {id : DirectoryId} {other : String} {hook : Bool}
        (known : client.registry.standing id = some (other, hook))
        (elsewhere : client.registry.get? name ≠ some id) : name ≠ other := by
      rintro rfl
      exact elsewhere ((tracks.opened name id).mpr ⟨hook, known⟩)
    dsimp only
    cases found : client.registry.get? name with
    | none =>
      cases known : client.registry.standing k with
      | none => rfl
      | some standing =>
        have different := apart known (by simp [found])
        simp [different]
    | some id =>
      change (client.registry.modify id _).standing k = _
      rw [Registry.standing_hook]
      split
      · rename_i same
        subst same
        obtain ⟨hook, known⟩ := (tracks.opened name id).mp found
        simp [known]
      · rename_i other
        cases known : client.registry.standing k with
        | none => rfl
        | some standing =>
          have different := apart known (by simpa [found] using other)
          simp [different]

theorem closeDirectory_stopped {listened : List String} (down : client.isShutDown = true)
    (tracks : client.registry.Tracks listened) : client.closeDirectory.Stopped listened := by
  have standing := closeDirectory_standing tracks
  have same : client.closeDirectory.username = client.username ∧
      client.closeDirectory.isShutDown = client.isShutDown := by
    unfold closeDirectory
    split
    · split <;> exact ⟨rfl, rfl⟩
    · exact ⟨rfl, rfl⟩
  constructor
  case down => exact same.2.trans down
  case hooked =>
    intro k name hook known
    rw [standing] at known
    obtain ⟨⟨other, before⟩, there, changed⟩ := Option.map_eq_some_iff.mp known
    obtain ⟨rfl, rfl⟩ := Prod.mk.inj changed
    have heard : before = true ↔ other ∈ listened := tracks.hooked k other before there
    simp [same.1, heard]
  case listed =>
    intro name heard
    obtain ⟨id, found⟩ := Option.ne_none_iff_exists'.mp (tracks.listed name heard)
    obtain ⟨hook, known⟩ := (tracks.opened name id).mp found
    exact ⟨id, _, by rw [standing, known, Option.map_some]⟩
  case gone =>
    intro name user
    exact client.closeDirectory_gone (same.1.symm.trans user)

theorem shutDown_stopped {listened : List String} (running : client.isShutDown = false)
    (tracks : client.registry.Tracks listened) : client.shutDown.Stopped listened := by
  have closed : SameStanding (closeDirectory { client with isShutDown := true })
      client.shutDown := by
    unfold shutDown
    rw [if_neg (by simp [running])]
    refine SameStanding.trans (SameStanding.closeDirectory ?_) ⟨rfl, rfl, rfl⟩
    exact ⟨rfl, rfl, rfl⟩
  have tracks : ({ client with isShutDown := true } : Client σ).registry.Tracks listened := tracks
  exact (closeDirectory_stopped rfl tracks).sameHooks closed.hooks

/-! ## A run -/

/-- Where a client stands that listened for some users. -/
def Follows (client : Client σ) (listened : List String) : Prop :=
  (client.isShutDown = false ∧ client.registry.Tracks listened) ∨ client.Stopped listened

theorem Follows.sameHooks {listened : List String} (follows : client.Follows listened)
    (same : client.SameHooks after) : after.Follows listened := by
  rcases follows with ⟨running, tracks⟩ | stopped
  · exact .inl ⟨same.isShutDown.trans running, tracks.congr same.get? same.standing⟩
  · exact .inr (stopped.sameHooks same)

/-- All that a call changes of a client that is shut down is who its observer is. -/
theorem call_down (react : Reaction σ) (down : client.isShutDown = true) (call : Call) :
    ∃ observer, (client.call react call).2 = { client with observer } := by
  have refused : client.checkRunning = .error .shutDown := by simp [checkRunning, down]
  have unchanged {after : Client σ} (same : after = client) :
      ∃ observer, after = { client with observer } := ⟨client.observer, same⟩
  cases call with
  | start lsid => exact unchanged (by simp only [Client.call, start, if_pos down])
  | offerPassword credentials =>
    exact unchanged (by simp only [Client.call, offerPassword, refused])
  | offerLsid lsid => exact unchanged (by simp only [Client.call, offerLsid, refused])
  | authReport report => exact unchanged (by simp only [Client.call, handleAuthReport, if_pos down])
  | syncerReport report =>
    exact unchanged (by simp only [Client.call, handleSyncerReport, if_pos down])
  | setObserver name => exact ⟨some name, rfl⟩
  | removeObserver => exact ⟨none, rfl⟩
  | skipSignIn username => exact unchanged (by simp only [Client.call, skipSignIn, refused])
  | shutDown => exact unchanged (by simp only [Client.call, shutDown, if_pos down])

theorem listensFor_down (down : client.isShutDown = true) (act : Act) :
    client.listensFor act = [] := by
  unfold listensFor
  split
  · rw [if_pos down]
  · simp [checkRunning, down]
  · rfl

theorem act_down (keeps : react.KeepsToItself) (down : client.isShutDown = true) (act : Act) :
    client.SameHooks (client.act react act) := by
  cases act with
  | call call =>
    obtain ⟨observer, same⟩ := call_down react down call
    rw [act, same]
    exact SameStanding.hooks ⟨rfl, rfl, rfl⟩
  | transaction id batch => exact transact_sameHooks keeps client id batch
  | markFirstSyncDone id => exact client.modify_sameHooks id _ fun _ => ⟨rfl, rfl⟩
  | answers services => exact SameStanding.hooks ⟨rfl, rfl, rfl⟩

theorem Follows.act {listened : List String} (keeps : react.KeepsToItself)
    (follows : client.Follows listened) (act : Act) :
    (client.act react act).Follows (listened ++ client.listensFor act) := by
  rcases follows with ⟨running, tracks⟩ | stopped
  · have step := act_step keeps running act
    generalize client.listensFor act = heard at step ⊢
    generalize client.act react act = after at step ⊢
    cases step with
    | stays same =>
      rw [List.append_nil]
      exact Follows.sameHooks (.inl ⟨running, tracks⟩) same
    | binds name same =>
      rw [List.append_nil]
      have bound : Follows { client with
          registry := (client.registry.openAs name).2, username := some name } listened :=
        .inl ⟨running, (tracks.openAs name).1⟩
      exact bound.sameHooks same
    | listens name same =>
      obtain ⟨opened, found⟩ := tracks.openAs name
      have hooked : (listenToDirectory { client with username := some name }).Follows
          (listened ++ [name]) := .inl ⟨running, opened.listen found⟩
      exact hooked.sameHooks same
    | stops =>
      rw [List.append_nil]
      exact .inr (shutDown_stopped running tracks)
  · rw [listensFor_down stopped.down, List.append_nil]
    exact .inr (stopped.sameHooks (act_down keeps stopped.down act))

theorem acts_follows {listened : List String} (keeps : react.KeepsToItself)
    (follows : client.Follows listened) (acts : List Act) :
    (client.acts react acts).Follows (listened ++ client.listenedFor react acts) := by
  induction acts generalizing client listened with
  | nil => simpa [Client.acts, listenedFor] using follows
  | cons act acts ih =>
    rw [listenedFor, ← List.append_assoc]
    exact ih (follows.act keeps act)

/-! ## After shutting down -/

theorem Stopped.act {listened : List String} (keeps : react.KeepsToItself)
    (stopped : client.Stopped listened) (act : Act) : (client.act react act).Stopped listened :=
  stopped.sameHooks (act_down keeps stopped.down act)

theorem Stopped.acts {listened : List String} (keeps : react.KeepsToItself)
    (stopped : client.Stopped listened) (acts : List Act) :
    (client.acts react acts).Stopped listened := by
  induction acts generalizing client with
  | nil => exact stopped
  | cons act acts ih => exact ih (stopped.act keeps act)

/-- Shutting down stops a client, whatever was done to it. -/
theorem shutDown_afterActs (keeps : react.KeepsToItself) (settings : Settings)
    (services : Services) (embedder : σ) (acts : List Act) :
    ((create settings services embedder).acts react acts).shutDown.Stopped
      ((create settings services embedder).listenedFor react acts) := by
  have new : (create settings services embedder).Follows [] := .inl ⟨rfl, Registry.tracks_new _⟩
  rcases acts_follows keeps new acts with ⟨running, tracks⟩ | stopped
  · exact shutDown_stopped running tracks
  · rw [shutDown, if_pos stopped.down]
    exact stopped

theorem Stopped.userDirectory {listened : List String} (stopped : client.Stopped listened) :
    ∃ refusal, client.userDirectory = .error refusal := by
  unfold Client.userDirectory
  split
  · exact ⟨_, rfl⟩
  · split
    · exact ⟨_, rfl⟩
    · rename_i name user
      rw [stopped.gone name user]
      exact ⟨_, rfl⟩

/-- A client that is shut down is heard from only when somebody writes to a directory
that it was left listening to. -/
theorem act_unheard (down : client.isShutDown = true) {act : Act}
    (unheard : ∀ id batch, act = .transaction id batch →
      ∀ name, ¬ client.registry.Hooked id name) :
    (client.act react act).effects = client.effects := by
  cases act with
  | call call =>
    obtain ⟨observer, same⟩ := call_down react down call
    rw [Client.act, same]
  | transaction id batch => exact transact_unheard react client (unheard id batch rfl) batch
  | markFirstSyncDone id => rfl
  | answers services => rfl

theorem acts_unheard {listened : List String} (keeps : react.KeepsToItself)
    (stopped : client.Stopped listened) {later : List Act}
    (unheard : ∀ id batch, .transaction id batch ∈ later →
      ∀ name, ¬ client.registry.Hooked id name) :
    (client.acts react later).effects = client.effects := by
  induction later generalizing client with
  | nil => rfl
  | cons act later ih =>
    have same := act_down keeps stopped.down act
    refine (ih (stopped.sameHooks same) ?_).trans
      (act_unheard stopped.down fun id batch here => unheard id batch (here ▸ List.mem_cons_self))
    intro id batch member name
    rw [Registry.Hooked, same.standing]
    exact unheard id batch (List.mem_cons_of_mem _ member) name

end Client

/-! ## Being heard -/

/-- There is always an id that no entry has. -/
theorem Contents.exists_free (c : Contents) : ∃ id : EntryId, c.ids[id]? = none ∧ id ≠ .root := by
  obtain ⟨text, fresh⟩ :=
    Infinite.exists_notMem_finset ((EntryId.root :: c.ids.keys).map (·.text)).toFinset
  simp only [List.mem_toFinset, List.mem_map, not_exists, not_and] at fresh
  refine ⟨⟨text⟩, ?_, fun isRoot =>
    fresh .root List.mem_cons_self (congrArg EntryId.text isRoot).symm⟩
  cases taken : c.ids[EntryId.mk text]? with
  | none => rfl
  | some h =>
    have key : EntryId.mk text ∈ c.ids.keys := by
      rw [Std.ExtTreeMap.mem_keys, Std.ExtTreeMap.mem_iff_isSome_getElem?, taken]
      rfl
    exact absurd rfl (fresh _ (List.mem_cons_of_mem _ key))

/-- For the server to have to hear of something, the embedder needs but to create an entry
and mark it. -/
theorem Transaction.needsSync_created {t : Transaction} {id : EntryId} (parentId : EntryId)
    (ordinal : Ordinal) (free : t.contents.ids[id]? = none) (inner : id ≠ .root) :
    ((t.write (.insert id parentId ordinal)).write (.modify t.contents.nextHandle
      fun e => { e with isUnsynced := true })).closed.needsSync = true := by
  have made : (t.contents.inserted id parentId ordinal).byHandle t.contents.nextHandle =
      some (.create t.contents.nextHandle id parentId ordinal) := by
    rw [Contents.byHandle_inserted, if_pos rfl]
  have inner : id.isRoot = false := decide_eq_false inner
  have marked : ((t.contents.inserted id parentId ordinal).modify t.contents.nextHandle
      fun e => { e with isUnsynced := true }).byHandle t.contents.nextHandle =
      some { Entry.create t.contents.nextHandle id parentId ordinal with isUnsynced := true } := by
    rw [Contents.byHandle_modify, if_pos rfl, made]
    simp [Contents.changed, Entry.isRoot, Entry.create, inner]
  simp only [write, insertFresh_eq, free, modify, made, Option.isSome_none, Bool.false_eq_true,
    ↓reduceIte]
  refine needsSync_iff.mpr ⟨t.contents.nextHandle,
    { Entry.create t.contents.nextHandle id parentId ordinal with isDeleted := true }, _, ?_,
    marked, inner, rfl, rfl, .inl rfl⟩
  rw [Std.ExtTreeMap.getElem?_insertIfNew, if_neg (by simp), Std.ExtTreeMap.getElem?_insert_self]

namespace Client
variable {σ : Type} {react : Reaction σ} {client : Client σ}

/-- Somebody can always write a transaction that makes a client that listens nudge the
syncer. -/
theorem exists_nudge (react : Reaction σ) {id : DirectoryId} {name : String}
    (hooked : client.registry.Hooked id name) :
    ∃ batch, (client.transact react id batch).effects =
      client.effects ++ [.nudged client.settings.syncer.nudgeDelay .localEdit] := by
  obtain ⟨d, found, standing⟩ := Option.map_eq_some_iff.mp hooked
  obtain ⟨-, listening⟩ := Prod.mk.inj standing
  obtain ⟨fresh, free, inner⟩ := d.contents.exists_free
  refine ⟨⟨.embedder, [.insert fresh .root .initial,
    .modify d.contents.nextHandle fun e => { e with isUnsynced := true }]⟩, ?_⟩
  unfold transact
  rw [found]
  have needed := Transaction.needsSync_created (t := d.write .embedder) .root .initial free inner
  exact (commit_embedder react found listening (Transaction.writer_writes _ _)).trans
    (congrArg (client.effects ++ ·) (if_pos needed))

/-- Whatever was done to a client before it was shut down, it gives out no directory
afterwards. It is heard from again only when somebody writes to the directory of a
user that it listened for and had left by then, so that it is quiet forever if and only
if there is no such user. -/
theorem quiet_shutDown_iff (keeps : react.KeepsToItself) (settings : Settings)
    (services : Services) (embedder : σ) (acts : List Act) :
    let users := (create settings services embedder).listenedFor react acts
    let closed := ((create settings services embedder).acts react acts).shutDown
    (∀ later, ∃ refusal, (closed.acts react later).userDirectory = .error refusal) ∧
    (∀ later,
      (∀ id batch, .transaction id batch ∈ later → ∀ d, closed.registry.directory? id = some d →
        d.name ∈ users → closed.username = some d.name) →
      (closed.acts react later).effects = closed.effects) ∧
    ((∀ later, (closed.acts react later).effects = closed.effects) ↔
      ∀ name ∈ users, closed.username = some name) := by
  intro users closed
  have stopped : closed.Stopped users := shutDown_afterActs keeps settings services embedder acts
  have left {id : DirectoryId} {name : String} (hooked : closed.registry.Hooked id name) :
      name ∈ users ∧ closed.username ≠ some name := (stopped.hooked id name true hooked).mp rfl
  refine ⟨fun later => (stopped.acts keeps later).userDirectory, ?_, ?_, ?_⟩
  · intro later spared
    refine acts_unheard keeps stopped fun id batch member name hooked => ?_
    obtain ⟨d, found, standing⟩ := Option.map_eq_some_iff.mp hooked
    obtain ⟨rfl, -⟩ := Prod.mk.inj standing
    exact (left hooked).2 (spared id batch member d found (left hooked).1)
  · intro quiet name heard
    by_contra different
    obtain ⟨id, hook, known⟩ := stopped.listed name heard
    obtain rfl := (stopped.hooked id name hook known).mpr ⟨heard, different⟩
    obtain ⟨batch, nudged⟩ := exists_nudge react known
    have silent := quiet [.transaction id batch]
    rw [show closed.acts react [.transaction id batch] = closed.transact react id batch from rfl,
      nudged] at silent
    simp at silent
  · intro loyal later
    exact acts_unheard keeps stopped fun _ _ _ name hooked =>
      (left hooked).2 (loyal name (left hooked).1)

/-- A client that had one user is quiet. -/
theorem quiet_shutDown_oneUser :
    (Reaction.quiet : Reaction Unit).KeepsToItself ∧ ∀ later,
      (((create {} {} ()).acts .quiet
        [.call (.start none), .call (.skipSignIn "first")]).shutDown.acts .quiet later).effects =
      ((create {} {} ()).acts .quiet
        [.call (.start none), .call (.skipSignIn "first")]).shutDown.effects :=
  ⟨Reaction.quiet_keepsToItself,
    (quiet_shutDown_iff Reaction.quiet_keepsToItself {} {} () _).2.2.mpr (by decide +kernel)⟩

/-- A client that was given a second user after it had listened for the first. -/
def changedUser : Client Unit :=
  (create {} {} ()).acts .quiet
    [.call (.start none), .call (.skipSignIn "first"), .call (.skipSignIn "second")]

/-- The first user's directory, to which something is written for the server. -/
def laterEdit : Act :=
  .transaction ⟨0⟩ ⟨.embedder, [.insert ⟨"c"⟩ .root .initial,
    .modify 2 fun e => { e with isUnsynced := true }]⟩

theorem changedUser_nudges :
    Effect.nudges changedUser.shutDown.effects = [] ∧
      Effect.nudges (changedUser.shutDown.acts .quiet [laterEdit]).effects = [200] := by
  decide +kernel

end Client

end SharedTree
