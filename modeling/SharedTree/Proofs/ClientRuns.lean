import SharedTree.Client.Call
import SharedTree.Proofs.DeliveredLists

/-! Whole runs of a client: its embedder and its services call it, and whoever holds
one of its directories writes to it. What the session wants done in answer to a call
leaves a client's standing alone, by which is meant its user, its directories, and
whether it was shut down; except that it comes to listen to the user's directory, when
signing in worked or was skipped. So there are four things that an act can do to a
client, and `act_step` says once which. -/
namespace SharedTree

/-- An observer that does not turn to the client when it is told something. It may
keep account of what it is told. -/
def Reaction.KeepsToItself {σ : Type} (react : Reaction σ) : Prop :=
  ∀ observer callback client, ∃ embedder,
    react observer callback client = { client with embedder }

theorem Reaction.quiet_keepsToItself {σ : Type} : (quiet : Reaction σ).KeepsToItself :=
  fun _ _ client => ⟨client.embedder, rfl⟩

/-- One thing that is done to a client or to one of its directories, open or closed. -/
inductive Act where
  | call (call : Call)
  | transaction (id : DirectoryId) (batch : Batch)
  | markFirstSyncDone (id : DirectoryId)
  /-- From now on the services answer in another way. -/
  | answers (services : Services)

/-- The events at which a session listens to the user's directory. -/
def SessionEvent.Listens : SessionEvent → Prop
  | .signedIn _ | .signInSkipped => True
  | _ => False

namespace Session

theorem deaf_becomeReady (s : Session) : .listenToDirectory ∉ s.becomeReady.2 := by
  unfold becomeReady
  split <;> simp

theorem deaf_onEvent (s : Session) {event : SessionEvent} (deaf : ¬ event.Listens) :
    .listenToDirectory ∉ (s.onEvent event).2 := by
  cases event with
  | passwordOffered passwordEmpty =>
    rw [onEvent]
    split
    · exact List.not_mem_nil
    · cases passwordEmpty <;> simp [raise]
  | syncerAccount account =>
    change .listenToDirectory ∉ (s.onAccount account).2
    unfold onAccount
    split
    · split
      · exact deaf_becomeReady _
      · exact List.not_mem_nil
    · split
      · cases more : account.hasMore <;> simp [endCycle, more]
      · exact List.not_mem_nil
  | signedIn ended => exact absurd trivial deaf
  | signInSkipped => exact absurd trivial deaf
  | notificationTried success => simp [onEvent]
  | rememberedUserFound | lsidOffered | attemptStarted | otherReport => simp [onEvent]
  | nothingToOffer | signInFailed => simp [onEvent, raise]

theorem authenticated_becomeReady {s : Session} (known : s.authenticated = true) :
    s.becomeReady.1.authenticated = true := by
  unfold becomeReady
  split <;> exact known

/-- What a session makes of a success: it listens to the user's directory, and before
that the observer hears at most that all is well. -/
theorem listens_onEvent (s : Session) {event : SessionEvent} (listens : event.Listens) :
    (s.onEvent event).1.authenticated = true ∧ ∃ before after,
      (s.onEvent event).2 = before ++ .listenToDirectory :: after ∧
      (before = [] ∨ before = [.tellAuthProblem .healthy]) ∧ .listenToDirectory ∉ after := by
  cases event with
  | signedIn ended =>
    exact ⟨authenticated_becomeReady rfl, [.tellAuthProblem .healthy], _, rfl, .inr rfl,
      deaf_becomeReady _⟩
  | signInSkipped =>
    exact ⟨authenticated_becomeReady rfl, [], _, rfl, .inl rfl, deaf_becomeReady _⟩
  | _ => exact absurd listens id

end Session

namespace Client
variable {σ : Type} {react : Reaction σ}

def act (react : Reaction σ) (client : Client σ) : Act → Client σ
  | .call call => (client.call react call).2
  | .transaction id batch => client.transact react id batch
  | .markFirstSyncDone id =>
    { client with registry := client.registry.modify id Directory.markFirstSyncDone }
  | .answers services => { client with services }

/-- A client after all that was done to it, one thing after the other. -/
def acts (react : Reaction σ) (client : Client σ) (acts : List Act) : Client σ :=
  acts.foldl (act react) client

/-! ## What the session wants done -/

/-- What a client is, whatever it tells and whatever its session thinks. -/
structure SameStanding (client after : Client σ) : Prop where
  registry : after.registry = client.registry
  username : after.username = client.username
  isShutDown : after.isShutDown = client.isShutDown

theorem SameStanding.refl (client : Client σ) : client.SameStanding client := ⟨rfl, rfl, rfl⟩

theorem SameStanding.trans {first second third : Client σ} (start : first.SameStanding second)
    (rest : second.SameStanding third) : first.SameStanding third :=
  ⟨rest.registry.trans start.registry, rest.username.trans start.username,
    rest.isShutDown.trans start.isShutDown⟩

theorem tell_sameStanding (keeps : react.KeepsToItself) (client : Client σ)
    (callback : Callback) : client.SameStanding (client.tell react callback) := by
  unfold tell
  split
  · rename_i observer _
    obtain ⟨embedder, same⟩ :=
      keeps observer callback (client.record (.toldObserver observer callback))
    rw [same]
    exact ⟨rfl, rfl, rfl⟩
  · exact .refl client

theorem notifyPeers_sameStanding (client : Client σ) : client.SameStanding client.notifyPeers :=
  ⟨rfl, rfl, rfl⟩

/-- Where a client comes to listen depends on its standing alone. -/
theorem SameStanding.listenToDirectory {client after : Client σ}
    (same : client.SameStanding after) :
    client.listenToDirectory.SameStanding after.listenToDirectory := by
  unfold Client.listenToDirectory
  rw [same.username, same.registry]
  split
  · exact ⟨rfl, rfl, same.isShutDown⟩
  · exact same

theorem carryOut_sameStanding (keeps : react.KeepsToItself) (material : SignInMaterial)
    (client : Client σ) {action : SessionAction} (deaf : action ≠ .listenToDirectory) :
    client.SameStanding (carryOut react material client action) := by
  cases action with
  | tellAuthProblem | tellInitialized | tellCycleCompleted => exact tell_sameStanding keeps _ _
  | tryPassword | tryToken | tryLsid => cases material <;> exact ⟨rfl, rfl, rfl⟩
  | listenToDirectory => exact absurd rfl deaf
  | notifyPeers => exact notifyPeers_sameStanding client

theorem actions_sameStanding (keeps : react.KeepsToItself) (material : SignInMaterial)
    (client : Client σ) {actions : List SessionAction} (deaf : .listenToDirectory ∉ actions) :
    client.SameStanding (actions.foldl (carryOut react material) client) := by
  induction actions generalizing client with
  | nil => exact .refl client
  | cons action actions ih =>
    obtain ⟨here, later⟩ := not_or.mp (fun met => deaf (List.mem_cons.mpr met))
    exact (carryOut_sameStanding keeps material client (Ne.symm here)).trans (ih _ later)

/-- A session that is told nothing of a success listens to nothing new. -/
theorem run_sameStanding (keeps : react.KeepsToItself) (client : Client σ) (event : SessionEvent)
    (deaf : ¬ event.Listens) (material : SignInMaterial) :
    client.SameStanding (run react client event material) := by
  have stays : client.SameStanding { client with session := (client.session.onEvent event).1 } :=
    ⟨rfl, rfl, rfl⟩
  exact stays.trans (actions_sameStanding keeps material _ (client.session.deaf_onEvent deaf))

/-- A session that is told of one listens to the directory, and that is all that it
does to the client's standing. -/
theorem run_listens (keeps : react.KeepsToItself) (client : Client σ) (event : SessionEvent)
    (listens : event.Listens) (material : SignInMaterial) :
    client.listenToDirectory.SameStanding (run react client event material) := by
  obtain ⟨-, before, after, actions, quiet, deafAfter⟩ := client.session.listens_onEvent listens
  have deafBefore : .listenToDirectory ∉ before := by rcases quiet with rfl | rfl <;> simp
  have stays : client.SameStanding { client with session := (client.session.onEvent event).1 } :=
    ⟨rfl, rfl, rfl⟩
  have start := stays.trans (actions_sameStanding keeps material _ deafBefore)
  unfold run
  simp only [actions, List.foldl_append, List.foldl_cons]
  exact start.listenToDirectory.trans (actions_sameStanding keeps material _ deafAfter)

section
variable {client after : Client σ}

/-- What of a client decides to what it listens; writing to its directories leaves
that as it is. -/
structure SameHooks (client after : Client σ) : Prop where
  get? : ∀ name, after.registry.get? name = client.registry.get? name
  standing : ∀ id, after.registry.standing id = client.registry.standing id
  username : after.username = client.username
  isShutDown : after.isShutDown = client.isShutDown

theorem SameHooks.trans {first second third : Client σ} (start : first.SameHooks second)
    (rest : second.SameHooks third) : first.SameHooks third :=
  ⟨fun name => (rest.get? name).trans (start.get? name),
    fun id => (rest.standing id).trans (start.standing id), rest.username.trans start.username,
    rest.isShutDown.trans start.isShutDown⟩

theorem SameStanding.hooks (same : client.SameStanding after) : client.SameHooks after :=
  ⟨fun _ => congrArg (Registry.get? · _) same.registry,
    fun _ => congrArg (Registry.standing · _) same.registry, same.username, same.isShutDown⟩

theorem modify_sameHooks (client : Client σ) (id : DirectoryId) (change : Directory → Directory)
    (kept : ∀ d, (change d).name = d.name ∧ (change d).hasListener = d.hasListener) :
    client.SameHooks { client with registry := client.registry.modify id change } :=
  ⟨fun _ => rfl, Registry.standing_modify _ _ kept, rfl, rfl⟩

theorem changesToTell_sameStanding (client : Client σ) (t : ClosedTransaction) :
    client.SameStanding (client.changesToTell t).2 := by
  unfold changesToTell
  cases t.writer with
  | embedder =>
    dsimp only
    split <;> exact ⟨rfl, rfl, rfl⟩
  | syncer | unittest => exact ⟨rfl, rfl, rfl⟩

theorem deliver_sameStanding (keeps : react.KeepsToItself) (client : Client σ)
    (contents : Contents) (changes : List Change) :
    client.SameStanding (client.deliver react contents changes) := by
  unfold deliver
  split
  · exact .refl client
  · exact tell_sameStanding keeps client _

theorem transact_sameHooks (keeps : react.KeepsToItself) (client : Client σ) (id : DirectoryId)
    (batch : Batch) : client.SameHooks (client.transact react id batch) := by
  unfold transact
  split
  · exact (SameStanding.refl client).hooks
  · rename_i d found
    generalize batch.writes.foldl Transaction.write (d.write batch.writer) = t
    unfold commit
    simp only [found]
    have stored := client.modify_sameHooks id (fun d => { d with contents := t.contents })
      fun _ => ⟨rfl, rfl⟩
    split
    · exact stored.trans ((changesToTell_sameStanding _ _).trans
        (deliver_sameStanding keeps _ _ _)).hooks
    · exact stored

/-- Nobody hears of what is written to a directory that nobody listens to. -/
theorem transact_unheard (react : Reaction σ) (client : Client σ) {id : DirectoryId}
    (unheard : ∀ name, ¬ client.registry.Hooked id name) (batch : Batch) :
    (client.transact react id batch).effects = client.effects := by
  unfold transact
  split
  · rfl
  · rename_i d found
    have silent : d.hasListener = false := by
      refine Bool.eq_false_iff.mpr fun hooked => unheard d.name ?_
      rw [Registry.Hooked, Registry.standing, found, Option.map_some, hooked]
    simp [commit, found, silent]

/-! ## One act -/

/-- The user for whose directory an act makes a client listen. -/
def listensFor (client : Client σ) : Act → List String
  | .call (.authReport (.succeeded userEmail)) =>
    if client.isShutDown then [] else [client.username.getD userEmail]
  | .call (.skipSignIn username) =>
    match client.checkRunning with
    | .ok () => [username]
    | .error _ => []
  | _ => []

/-- The users for whose directories a client comes to listen, one after the other. -/
def listenedFor (react : Reaction σ) (client : Client σ) : List Act → List String
  | [] => []
  | act :: rest => client.listensFor act ++ listenedFor react (client.act react act) rest

/-- What an act can do to a client that runs, with the user that it makes it listen
for. -/
inductive ActStep (client : Client σ) : List String → Client σ → Prop where
  | stays {after : Client σ} (same : client.SameHooks after) : ActStep client [] after
  | binds {after : Client σ} (name : String)
      (same : SameHooks { client with
        registry := (client.registry.openAs name).2, username := some name } after) :
    ActStep client [] after
  | listens {after : Client σ} (name : String)
      (same : SameHooks (listenToDirectory { client with username := some name }) after) :
    ActStep client [name] after
  | stops : ActStep client [] client.shutDown

/-- A directory that was just opened is open. -/
theorem listenToDirectory_opened (client : Client σ) (name : String) :
    SameStanding (listenToDirectory { client with username := some name })
      (listenToDirectory { client with
        registry := (client.registry.openAs name).2, username := some name }) := by
  have again : (client.registry.openAs name).2.openAs name = client.registry.openAs name :=
    Registry.openAs_open (client.registry.get?_openAs name)
  exact ⟨by simp [listenToDirectory, again], rfl, rfl⟩

/-- Looking for the last user leaves a client as it is. -/
theorem lookUpLastUser_same (client : Client σ) :
    client.SameStanding client.lookUpLastUser.2 ∧
      client.lookUpLastUser.2.isInitialized = client.isInitialized ∧
      client.lookUpLastUser.2.session = client.session := by
  unfold lookUpLastUser
  split <;> exact ⟨⟨rfl, rfl, rfl⟩, rfl, rfl⟩

theorem start_step (keeps : react.KeepsToItself) (running : client.isShutDown = false)
    (lsid : Option String) : client.ActStep [] (client.start react lsid).2 := by
  unfold start
  rw [if_neg (by simp [running])]
  split
  · exact .stays (SameStanding.refl client).hooks
  have begun : client.SameStanding { client with isInitialized := true } := ⟨rfl, rfl, rfl⟩
  have looked := begun.trans (lookUpLastUser_same { client with isInitialized := true }).1
  generalize lookUpLastUser { client with isInitialized := true } = found at looked ⊢
  obtain ⟨remembered, looking⟩ := found
  dsimp only at looked ⊢
  cases remembered with
  | some remembered =>
    dsimp only
    refine .binds remembered.username (SameHooks.trans ?_
      (run_sameStanding keeps _ (.rememberedUserFound _) id _).hooks)
    rw [← looked.registry]
    exact ⟨fun _ => rfl, fun _ => rfl, rfl, looked.isShutDown⟩
  | none =>
    cases lsid.filter (· ≠ "") with
    | some lsid =>
      dsimp only
      exact .stays (looked.trans (run_sameStanding keeps _ .lsidOffered id _)).hooks
    | none =>
      dsimp only
      exact .stays (looked.trans (run_sameStanding keeps _ .nothingToOffer id _)).hooks

theorem handleAuthReport_step (keeps : react.KeepsToItself)
    (running : client.isShutDown = false) (report : AuthReport) :
    client.ActStep (client.listensFor (.call (.authReport report)))
      (client.handleAuthReport react report) := by
  unfold handleAuthReport
  rw [if_neg (by simp [running])]
  cases report with
  | succeeded userEmail =>
    have heard : client.listensFor (.call (.authReport (.succeeded userEmail))) =
        [client.username.getD userEmail] := by simp [listensFor, running]
    rw [heard]
    exact .listens _ ((listenToDirectory_opened client _).trans
      (run_listens keeps _ (.signedIn _) trivial _)).hooks
  | attemptStarted =>
    exact .stays (run_sameStanding keeps client .attemptStarted id _).hooks
  | accountRefused refusal =>
    cases refusal <;>
      exact .stays (run_sameStanding keeps client (.signInFailed _) id _).hooks
  | serviceRefused | serviceUserNotSignedUp | serviceUnreachable =>
    exact .stays (run_sameStanding keeps client (.signInFailed _) id _).hooks
  | other => exact .stays (run_sameStanding keeps client .otherReport id _).hooks

theorem skipSignIn_step (keeps : react.KeepsToItself) (username : String) :
    client.ActStep (client.listensFor (.call (.skipSignIn username)))
      (client.skipSignIn react username).2 := by
  unfold skipSignIn
  simp only [listensFor]
  cases client.checkRunning with
  | error refusal => exact .stays (SameStanding.refl client).hooks
  | ok _ =>
    exact .listens username ((listenToDirectory_opened client username).trans
      (run_listens keeps _ .signInSkipped trivial _)).hooks

theorem offerPassword_sameStanding (keeps : react.KeepsToItself) (credentials : Credentials) :
    client.SameStanding (client.offerPassword react credentials).2 := by
  unfold offerPassword
  cases client.checkRunning with
  | error refusal => exact .refl client
  | ok _ =>
    dsimp only
    split
    · split
      · exact run_sameStanding keeps client (.passwordOffered _) id _
      · exact .refl client
    · exact run_sameStanding keeps client (.passwordOffered _) id _

theorem offerLsid_sameStanding (keeps : react.KeepsToItself) (lsid : String) :
    client.SameStanding (client.offerLsid react lsid).2 := by
  unfold offerLsid
  cases client.checkRunning with
  | error refusal => exact .refl client
  | ok _ =>
    dsimp only
    split <;> dsimp only
    · exact .refl client
    · exact run_sameStanding keeps client .lsidOffered id _

theorem handleSyncerReport_sameStanding (keeps : react.KeepsToItself) (report : SyncerReport) :
    client.SameStanding (client.handleSyncerReport react report) := by
  unfold handleSyncerReport
  split
  · exact .refl client
  · exact run_sameStanding keeps client (.syncerAccount _) id _

/-- Every act does one of the four things. -/
theorem act_step (keeps : react.KeepsToItself) (running : client.isShutDown = false)
    (act : Act) : client.ActStep (client.listensFor act) (client.act react act) := by
  cases act with
  | call call =>
    cases call with
    | start lsid => exact start_step keeps running lsid
    | offerPassword credentials => exact .stays (offerPassword_sameStanding keeps credentials).hooks
    | offerLsid lsid => exact .stays (offerLsid_sameStanding keeps lsid).hooks
    | authReport report => exact handleAuthReport_step keeps running report
    | syncerReport report => exact .stays (handleSyncerReport_sameStanding keeps report).hooks
    | setObserver name => exact .stays (SameStanding.hooks ⟨rfl, rfl, rfl⟩)
    | removeObserver => exact .stays (SameStanding.hooks ⟨rfl, rfl, rfl⟩)
    | skipSignIn username => exact skipSignIn_step keeps username
    | shutDown => exact .stops
  | transaction id batch => exact .stays (transact_sameHooks keeps client id batch)
  | markFirstSyncDone id => exact .stays (client.modify_sameHooks id _ fun _ => ⟨rfl, rfl⟩)
  | answers services => exact .stays (SameStanding.hooks ⟨rfl, rfl, rfl⟩)

end

end Client

end SharedTree
