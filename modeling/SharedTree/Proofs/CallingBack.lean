import SharedTree.Proofs.ClientRuns

/-! Observers that turn to the client in the middle of what they are told. Such an
observer may do whatever anybody may do, and is told more while it does; there the
client is in the middle of what its session wanted done. So an invariant has to hold at
all these moments, and `Responds.preserves` says that it is then enough to look at one
act, carried out for an observer that preserves the invariant. What an act does is said
once, by `act_done`: it goes on without listening to anything new, it listens to the
user's directory after one report to the observer at most, or it stops the client. -/
namespace SharedTree

variable {σ : Type}

/-- What comes of a client through acts of a kind, while its embedder takes notes. -/
inductive Client.Worked (may : Act → Prop) (react : Reaction σ) (client : Client σ) :
    Client σ → Prop where
  | still : Worked may react client client
  | act {after : Client σ} {act : Act} (before : Worked may react client after)
      (allowed : may act) : Worked may react client (after.act react act)
  | note {after : Client σ} (before : Worked may react client after) (embedder : σ) :
    Worked may react client { after with embedder }

namespace Reaction

/-- An observer that turns to the client when it is told something, with acts of a kind,
and does the same when it is told more in the middle of them, until it has enough. At
every depth it minds its manners. -/
inductive Responds (may : Act → Prop) (manners : Reaction σ → Prop) : Reaction σ → Prop where
  | listens {react : Reaction σ} (keeps : react.KeepsToItself) (mannered : manners react) :
    Responds may manners react
  | calls {react : Reaction σ} (inner : String → Callback → Client σ → Reaction σ)
      (inside : ∀ observer callback client, Responds may manners (inner observer callback client))
      (works : ∀ observer callback (client : Client σ),
        client.Worked may (inner observer callback client) (react observer callback client))
      (mannered : manners react) : Responds may manners react

theorem Responds.mannered {may : Act → Prop} {manners : Reaction σ → Prop} {react : Reaction σ}
    (responds : react.Responds may manners) : manners react := by
  cases responds with
  | listens _ mannered => exact mannered
  | calls _ _ _ mannered => exact mannered

theorem Responds.mono {may : Act → Prop} {manners kind : Reaction σ → Prop} {react : Reaction σ}
    (responds : react.Responds may manners) (minds : ∀ react, manners react → kind react) :
    react.Responds may kind := by
  induction responds with
  | listens keeps mannered => exact .listens keeps (minds _ mannered)
  | calls inner _ works mannered ih => exact .calls inner ih works (minds _ mannered)

/-- Whatever the observer does when it is told something, this stays true of the client. -/
def Preserves (react : Reaction σ) (P : Client σ → Prop) : Prop :=
  ∀ observer callback client, P client → P (react observer callback client)

end Reaction

namespace Client

/-- What acts of a kind preserve, whoever observes, so long as the observer does. The
invariant may be weaker in the middle of things, so that it comes as a family. -/
structure Invariant {ι : Type} (may : Act → Prop) (manners : Reaction σ → Prop)
    (P : ι → Client σ → Prop) : Prop where
  note : ∀ i client embedder, P i client → P i { client with embedder }
  act : ∀ {react : Reaction σ}, manners react → (∀ i, react.Preserves (P i)) →
    ∀ i client act, may act → P i client → P i (client.act react act)

end Client

section
variable {ι : Type} {may : Act → Prop} {manners : Reaction σ → Prop} {P : ι → Client σ → Prop}

theorem Client.Invariant.worked (invariant : Client.Invariant may manners P) {react : Reaction σ}
    (mannered : manners react) (preserves : ∀ i, react.Preserves (P i)) {i : ι}
    {client after : Client σ} (holds : P i client) (worked : client.Worked may react after) :
    P i after := by
  induction worked with
  | still => exact holds
  | act _ allowed ih => exact invariant.act mannered preserves i _ _ allowed ih
  | note _ embedder ih => exact invariant.note i _ embedder ih

/-- An observer that turns to the client preserves what the acts of its kind preserve. -/
theorem Reaction.Responds.preserves (invariant : Client.Invariant may manners P)
    {react : Reaction σ} (responds : react.Responds may manners) (i : ι) :
    react.Preserves (P i) := by
  -- by the depth to which it may be told more while it is being told something
  induction responds generalizing i with
  | listens keeps =>
    intro observer callback client holds
    obtain ⟨embedder, same⟩ := keeps observer callback client
    exact same ▸ invariant.note i client embedder holds
  | calls inner inside works _ ih =>
    intro observer callback client holds
    exact invariant.worked (inside observer callback client).mannered
      (ih observer callback client) holds (works observer callback client)

theorem Client.Invariant.acts (invariant : Client.Invariant may manners P) {react : Reaction σ}
    (responds : react.Responds may manners) {i : ι} {client : Client σ} {acts : List Act}
    (allowed : ∀ act ∈ acts, may act) (holds : P i client) : P i (client.acts react acts) := by
  induction acts generalizing client with
  | nil => exact holds
  | cons act acts ih =>
    obtain ⟨here, later⟩ := List.forall_mem_cons.mp allowed
    exact ih later (invariant.act responds.mannered (responds.preserves invariant) i client act
      here holds)

end

/-! ## What an act does -/

namespace Client
variable {react : Reaction σ} {client after : Client σ}

/-- What users of the share can tell of a client. -/
structure SameShare (client after : Client σ) : Prop extends client.SameHooks after where
  isInitialized : after.isInitialized = client.isInitialized
  session : after.session = client.session

theorem modify_sameShare (client : Client σ) (id : DirectoryId) (change : Directory → Directory)
    (kept : ∀ d, (change d).name = d.name ∧ (change d).hasListener = d.hasListener) :
    client.SameShare { client with registry := client.registry.modify id change } :=
  ⟨client.modify_sameHooks id change kept, rfl, rfl⟩

/-- A client goes on, and listens to no other directory than before unless its observer
makes it. -/
inductive Goes (react : Reaction σ) (client : Client σ) : Client σ → Prop where
  | still : Goes react client client
  | same {before after : Client σ} (goes : Goes react client before)
      (same : before.SameShare after) : Goes react client after
  | hears {before : Client σ} (goes : Goes react client before) (event : SessionEvent)
      (deaf : ¬ event.Listens) :
    Goes react client { before with session := (before.session.onEvent event).1 }
  | reacts {before : Client σ} (goes : Goes react client before) (observer : String)
      (callback : Callback) : Goes react client (react observer callback before)

theorem Goes.tell (goes : client.Goes react after) (callback : Callback) :
    client.Goes react (after.tell react callback) := by
  unfold Client.tell
  split
  · rename_i observer _
    have noted : after.SameShare (after.record (.toldObserver observer callback)) :=
      ⟨SameStanding.hooks ⟨rfl, rfl, rfl⟩, rfl, rfl⟩
    exact (goes.same noted).reacts observer callback
  · exact goes

theorem Goes.carryOut (goes : client.Goes react after) (material : SignInMaterial)
    {action : SessionAction} (deaf : action ≠ .listenToDirectory) :
    client.Goes react (carryOut react material after action) := by
  cases action with
  | tellAuthProblem | tellInitialized | tellCycleCompleted => exact goes.tell _
  | tryPassword | tryToken | tryLsid =>
    cases material <;> exact goes.same ⟨SameStanding.hooks ⟨rfl, rfl, rfl⟩, rfl, rfl⟩
  | listenToDirectory => exact absurd rfl deaf
  | notifyPeers =>
    have sent : after.SameShare
        ({ after with services := after.services.notifyPeers.2 }.record
          (.peersNotified after.services.notifyPeers.1)) :=
      ⟨SameStanding.hooks ⟨rfl, rfl, rfl⟩, rfl, rfl⟩
    exact (goes.same sent).hears (.notificationTried after.services.notifyPeers.1) id

theorem Goes.actions (goes : client.Goes react after) (material : SignInMaterial)
    {actions : List SessionAction} (deaf : .listenToDirectory ∉ actions) :
    client.Goes react (actions.foldl (Client.carryOut react material) after) := by
  induction actions generalizing after with
  | nil => exact goes
  | cons action actions ih =>
    obtain ⟨here, later⟩ := not_or.mp (fun met => deaf (List.mem_cons.mpr met))
    exact ih (goes.carryOut material (Ne.symm here)) later

theorem Goes.run (goes : client.Goes react after) (event : SessionEvent) (deaf : ¬ event.Listens)
    (material : SignInMaterial) : client.Goes react (run react after event material) :=
  (goes.hears event deaf).actions material (after.session.deaf_onEvent deaf)

theorem changesToTell_sameShare (client : Client σ) (t : ClosedTransaction) :
    client.SameShare (client.changesToTell t).2 := by
  refine ⟨(client.changesToTell_sameStanding t).hooks, ?_, ?_⟩ <;>
    · unfold changesToTell
      cases t.writer with
      | embedder =>
        dsimp only
        split <;> rfl
      | syncer | unittest => rfl

theorem Goes.deliver (goes : client.Goes react after) (contents : Contents)
    (changes : List Change) : client.Goes react (after.deliver react contents changes) := by
  unfold Client.deliver
  split
  · exact goes
  · exact goes.tell _

theorem transact_goes (react : Reaction σ) (client : Client σ) (id : DirectoryId)
    (batch : Batch) : client.Goes react (client.transact react id batch) := by
  unfold transact
  split
  · exact .still
  · rename_i d found
    generalize batch.writes.foldl Transaction.write (d.write batch.writer) = t
    unfold commit
    simp only [found]
    have stored : client.Goes react { client with
        registry := client.registry.modify id fun d => { d with contents := t.contents } } :=
      Goes.still.same (client.modify_sameShare id _ fun _ => ⟨rfl, rfl⟩)
    split
    · exact (stored.same (changesToTell_sameShare _ _)).deliver _ _
    · exact stored

/-- A client that just took somebody for its user, and heard of the success. -/
def bound (client : Client σ) (name : String) (event : SessionEvent) : Client σ :=
  { client with
    registry := (client.registry.openAs name).2
    username := some name
    session := (client.session.onEvent event).1 }

/-- What an act does to a client that was started. -/
inductive Done (react : Reaction σ) (client : Client σ) (act : Act) : Client σ → Prop where
  | goes {after : Client σ} (goes : client.Goes react after) : Done react client act after
  | listens {told after : Client σ} (name : String) {event : SessionEvent}
      (listening : event.Listens) (running : client.isShutDown = false)
      (names : act = .call (.skipSignIn name) ∨ ∀ user ∈ client.username, name = user)
      (tells : told = client.bound name event ∨
        told = (client.bound name event).tell react (.authProblem .healthy))
      (goes : told.listenToDirectory.Goes react after) : Done react client act after
  | stops (asked : act = .call .shutDown) (running : client.isShutDown = false) :
    Done react client act client.shutDown

/-- What stays true of a client whatever it tells and writes, and whatever its session
hears, successes apart. -/
structure Carried (P : Client σ → Prop) : Prop where
  same : ∀ {client after : Client σ}, client.SameShare after → P client → P after
  hears : ∀ {client : Client σ} {event : SessionEvent}, ¬ event.Listens → P client →
    P { client with session := (client.session.onEvent event).1 }

theorem Goes.carries {P : Client σ → Prop} (carried : Carried P) (preserves : react.Preserves P)
    (goes : client.Goes react after) (holds : P client) : P after := by
  induction goes with
  | still => exact holds
  | same _ same ih => exact carried.same same ih
  | hears _ _ deaf ih => exact carried.hears deaf ih
  | reacts _ observer callback ih => exact preserves observer callback _ ih

theorem Carried.told {P : Client σ → Prop} (carried : Carried P) (preserves : react.Preserves P)
    {told : Client σ} {callback : Callback} (holds : P client)
    (tells : told = client ∨ told = client.tell react callback) : P told := by
  rcases tells with rfl | rfl
  · exact holds
  · exact (Goes.still.tell callback).carries carried preserves holds

/-- A success: the observer is told at most that all is well, and then the client listens
to the directory of whoever is its user by now. -/
theorem run_done {act : Act} (name : String) (event : SessionEvent) (listening : event.Listens)
    (running : client.isShutDown = false)
    (names : act = .call (.skipSignIn name) ∨ ∀ user ∈ client.username, name = user)
    (material : SignInMaterial) :
    Done react client act (run react { client with
      registry := (client.registry.openAs name).2, username := some name } event material) := by
  obtain ⟨-, before, rest, actions, quiet, deaf⟩ := client.session.listens_onEvent listening
  unfold run
  simp only [actions, List.foldl_append, List.foldl_cons]
  refine .listens name listening running names ?_ (Goes.still.actions material deaf)
  rcases quiet with rfl | rfl
  · exact .inl rfl
  · exact .inr rfl

theorem handleAuthReport_done (report : AuthReport) :
    Done react client (.call (.authReport report)) (client.handleAuthReport react report) := by
  unfold handleAuthReport
  split
  · exact .goes .still
  rename_i running
  cases report with
  | succeeded userEmail =>
    refine run_done (client.username.getD userEmail) (.signedIn _) trivial
      (Bool.eq_false_iff.mpr running) (.inr ?_) _
    rintro user known
    rw [Option.mem_def.mp known, Option.getD_some]
  | attemptStarted => exact .goes (Goes.still.run .attemptStarted id _)
  | accountRefused refusal =>
    cases refusal <;> exact .goes (Goes.still.run (.signInFailed _) id _)
  | serviceRefused | serviceUserNotSignedUp | serviceUnreachable =>
    exact .goes (Goes.still.run (.signInFailed _) id _)
  | other => exact .goes (Goes.still.run .otherReport id _)

theorem skipSignIn_done (username : String) :
    Done react client (.call (.skipSignIn username)) (client.skipSignIn react username).2 := by
  unfold skipSignIn
  cases allowed : client.checkRunning with
  | error refusal => exact .goes .still
  | ok _ =>
    refine run_done username .signInSkipped trivial ?_ (.inl rfl) _
    unfold checkRunning at allowed
    split at allowed
    · cases allowed
    · exact Bool.eq_false_iff.mpr ‹_›

theorem offerPassword_goes (credentials : Credentials) :
    client.Goes react (client.offerPassword react credentials).2 := by
  unfold offerPassword
  cases client.checkRunning with
  | error refusal => exact .still
  | ok _ =>
    dsimp only
    split
    · split
      · exact Goes.still.run (.passwordOffered _) id _
      · exact .still
    · exact Goes.still.run (.passwordOffered _) id _

theorem offerLsid_goes (lsid : String) : client.Goes react (client.offerLsid react lsid).2 := by
  unfold offerLsid
  cases client.checkRunning with
  | error refusal => exact .still
  | ok _ =>
    dsimp only
    split <;> dsimp only
    · exact .still
    · exact Goes.still.run .lsidOffered id _

theorem handleSyncerReport_goes (report : SyncerReport) :
    client.Goes react (client.handleSyncerReport react report) := by
  unfold handleSyncerReport
  split
  · exact .still
  · exact Goes.still.run (.syncerAccount _) id _

/-- A client that was started is not started again. -/
theorem start_again (react : Reaction σ) (started : client.isInitialized = true)
    (lsid : Option String) : (client.start react lsid).2 = client := by
  unfold start
  rw [if_pos started]
  split <;> rfl

/-- Every act of a client that was started does one of three things. -/
theorem act_done (react : Reaction σ) (started : client.isInitialized = true) (act : Act) :
    Done react client act (client.act react act) := by
  have shows {after : Client σ} (same : client.SameShare after) : Done react client act after :=
    .goes (Goes.still.same same)
  cases act with
  | call call =>
    cases call with
    | start lsid =>
      rw [Client.act, Client.call, start_again react started]
      exact .goes .still
    | offerPassword credentials => exact .goes (offerPassword_goes credentials)
    | offerLsid lsid => exact .goes (offerLsid_goes lsid)
    | authReport report => exact handleAuthReport_done report
    | syncerReport report => exact .goes (handleSyncerReport_goes report)
    | setObserver name => exact shows ⟨SameStanding.hooks ⟨rfl, rfl, rfl⟩, rfl, rfl⟩
    | removeObserver => exact shows ⟨SameStanding.hooks ⟨rfl, rfl, rfl⟩, rfl, rfl⟩
    | skipSignIn username => exact skipSignIn_done username
    | shutDown =>
      cases running : client.isShutDown with
      | false => exact .stops rfl running
      | true =>
        rw [Client.act, Client.call, shutDown, if_pos running]
        exact .goes .still
  | transaction id batch => exact .goes (transact_goes react client id batch)
  | markFirstSyncDone id => exact shows (client.modify_sameShare id _ fun _ => ⟨rfl, rfl⟩)
  | answers services => exact shows ⟨SameStanding.hooks ⟨rfl, rfl, rfl⟩, rfl, rfl⟩

/-- What is carried along is an invariant, if it stands when the client comes to listen to
a directory, and when it stops. -/
theorem Invariant.of_carried {ι : Type} {may : Act → Prop} {manners : Reaction σ → Prop}
    {P : ι → Client σ → Prop} (carried : ∀ i, Carried (P i))
    (started : ∀ i client, P i client → client.isInitialized = true)
    (listens : ∀ {react : Reaction σ}, manners react → (∀ i, react.Preserves (P i)) →
      ∀ i {client told : Client σ} {act : Act} {event : SessionEvent} (name : String), may act →
      P i client → event.Listens → client.isShutDown = false →
      (act = .call (.skipSignIn name) ∨ ∀ user ∈ client.username, name = user) →
      (told = client.bound name event ∨
        told = (client.bound name event).tell react (.authProblem .healthy)) →
      P i told.listenToDirectory)
    (stops : ∀ i {client : Client σ}, may (.call .shutDown) → client.isShutDown = false →
      P i client → P i client.shutDown) :
    Invariant may manners P where
  note i client _ := (carried i).same ⟨SameStanding.hooks ⟨rfl, rfl, rfl⟩, rfl, rfl⟩
  act {react} mannered preserves i client act allowed holds := by
    have done := act_done react (started i client holds) act
    generalize client.act react act = after at done ⊢
    cases done with
    | goes goes => exact goes.carries (carried i) (preserves i) holds
    | listens name listening running names tells goes =>
      exact goes.carries (carried i) (preserves i)
        (listens mannered preserves i name allowed holds listening running names tells)
    | stops asked running => exact stops i (asked ▸ allowed) running holds

/-! ## The first call -/

/-- A client that has a user at most, and has not told anything yet. -/
structure Begun (location : String) (client : Client σ) : Prop where
  started : client.isInitialized = true
  running : client.isShutDown = false
  session : client.session = .initial
  share : (client.username = none ∧ client.registry = { location }) ∨
    ∃ name, client.username = some name ∧ client.registry = (Registry.openAs { location } name).2

theorem start_goes (react : Reaction σ) (client : Client σ) {location : String}
    (new : client.isInitialized = false) (running : client.isShutDown = false)
    (session : client.session = .initial) (nobody : client.username = none)
    (nothing : client.registry = { location }) (lsid : Option String) :
    ∃ begun : Client σ, begun.Begun location ∧ begun.Goes react (client.start react lsid).2 := by
  unfold start
  rw [if_neg (Bool.eq_false_iff.mp running), if_neg (Bool.eq_false_iff.mp new)]
  have looked := lookUpLastUser_same { client with isInitialized := true }
  generalize lookUpLastUser { client with isInitialized := true } = found at looked ⊢
  obtain ⟨remembered, looking⟩ := found
  obtain ⟨same, started, unmoved⟩ := looked
  have running : looking.isShutDown = false := same.isShutDown.trans running
  have session : looking.session = .initial := unmoved.trans session
  have nothing : looking.registry = { location } := same.registry.trans nothing
  have begun : looking.Begun location :=
    ⟨started, running, session, .inl ⟨same.username.trans nobody, nothing⟩⟩
  cases remembered with
  | some remembered =>
    dsimp only
    refine ⟨{ looking with
      registry := (looking.registry.openAs remembered.username).2
      username := some remembered.username },
      ⟨started, running, session, .inr ⟨_, rfl, ?_⟩⟩,
      Goes.still.run (.rememberedUserFound _) id _⟩
    exact congrArg (fun r => (Registry.openAs r remembered.username).2) nothing
  | none =>
    cases lsid.filter (· ≠ "") with
    | some lsid =>
      dsimp only
      exact ⟨looking, begun, Goes.still.run .lsidOffered id _⟩
    | none =>
      dsimp only
      exact ⟨looking, begun, Goes.still.run .nothingToOffer id _⟩

section
variable (react : Reaction σ) (settings : Settings) (services : Services) (embedder : σ)
  (observer : Option String) (lsid : Option String)

/-- A new client, perhaps with an observer, when it was started. -/
def started : Client σ :=
  (start react { create settings services embedder with observer } lsid).2

variable {react} {ι : Type} {may : Act → Prop} {manners : Reaction σ → Prop}
  {P : ι → Client σ → Prop} {i : ι}

/-- So an invariant that is carried along need only stand when a client begins. -/
theorem Invariant.afterStart (invariant : Invariant may manners P)
    (responds : react.Responds may manners) (carried : Carried (P i))
    (begins : ∀ {begun : Client σ}, begun.Begun settings.directory.location → P i begun)
    {acts : List Act} (allowed : ∀ act ∈ acts, may act) :
    P i ((started react settings services embedder observer lsid).acts react acts) := by
  obtain ⟨begun, new, goes⟩ :=
    start_goes react { create settings services embedder with observer } rfl rfl rfl rfl rfl lsid
  exact invariant.acts responds allowed
    (goes.carries carried (responds.preserves invariant i) (begins new))

end

end Client

end SharedTree
