import SharedTree.Proofs.CallingBack

/-! What a call of a client comes to. It either puts an event to the session, once, with the
client as it is by then and with what there is at hand to sign in with, or it says nothing to
the session. `prompt?` tells which, and `call_called` says that there is no more to a call.
Whatever else happens to a client leaves its session as it is, and neither the auth watcher
nor the peers hear of it, unless its observer sees to that; so what is true of a client by
its session, its requests and its notifications stays true (`Mindful.turn`). -/
namespace SharedTree

variable {σ : Type}

/-- An event that is put to the session of a client. -/
structure Prompt (σ : Type) where
  /-- The client as it is when the session hears of the event. -/
  client : Client σ
  event : SessionEvent
  /-- What there is at hand to sign in with. -/
  material : SignInMaterial

/-- What a session is told of a report of the auth watcher that is not a success. -/
def AuthReport.event : AuthReport → SessionEvent
  | .attemptStarted => .attemptStarted
  | report => (report.problem?.map .signInFailed).getD .otherReport

theorem AuthReport.event_cases (report : AuthReport) :
    report.event = .attemptStarted ∨ (∃ problem, report.event = .signInFailed problem) ∨
      report.event = .otherReport := by
  cases report with
  | attemptStarted => exact .inl rfl
  | succeeded | other => exact .inr (.inr rfl)
  | accountRefused refusal => cases refusal <;> exact .inr (.inl ⟨_, rfl⟩)
  | serviceRefused | serviceUserNotSignedUp | serviceUnreachable => exact .inr (.inl ⟨_, rfl⟩)

theorem AuthReport.event_deaf (report : AuthReport) : ¬ report.event.Listens := by
  rcases report.event_cases with event | ⟨problem, event⟩ | event <;> exact event ▸ id

/-- One thing that happens to a client: an act, or something about its watch on the network. -/
inductive Turn where
  | act (act : Act)
  | watchNetwork (watch : NetworkWatch)
  | sendNetworkChange
  | closeNetworkChannel
  | settleNetworkWatch

/-- The request that an action makes of the auth watcher, with what there is at hand. -/
def SignInMaterial.request? : SignInMaterial → SessionAction → Option SignInRequest
  | .password credentials, .tryPassword => some (.password credentials)
  | .token remembered, .tryToken => some (.token remembered)
  | .lsid cookie, .tryLsid => some (.lsid cookie)
  | _, _ => Option.none

/-- The calls that may be refused. -/
def Call.Asks : Call → Prop
  | .start _ | .offerPassword _ | .offerLsid _ | .skipSignIn _ => True
  | .authReport _ | .syncerReport _ | .setObserver _ | .removeObserver | .shutDown => False

namespace Client

def turn (react : Reaction σ) (client : Client σ) : Turn → Client σ
  | .act act => client.act react act
  | .watchNetwork watch => client.watchNetwork watch
  | .sendNetworkChange => client.sendNetworkChange.2
  | .closeNetworkChannel => client.closeNetworkChannel
  | .settleNetworkWatch => client.settleNetworkWatch

/-- A client after all that happened to it, one thing after the other. -/
def turns (react : Reaction σ) (client : Client σ) (turns : List Turn) : Client σ :=
  turns.foldl (turn react) client

/-- The last user, if the settings ask for one. -/
def lastUser? (client : Client σ) : Option RememberedUser :=
  if client.settings.auth.resumesLastUser then client.services.remembered else none

/-- What the session hears first: of the last user, whose directory is open by then, else of
an LSID cookie, else that there is nothing to sign in with. -/
def firstPrompt (client : Client σ) (lsid : Option String) : Prompt σ :=
  let looking := (lookUpLastUser { client with isInitialized := true }).2
  match client.lastUser?, lsid.filter (· ≠ "") with
  | some remembered, _ =>
    let (id, registry) := looking.registry.openAs remembered.username
    ⟨{ looking with registry, username := some remembered.username },
      .rememberedUserFound ((registry.directory? id).any (·.firstSyncDone)), .token remembered⟩
  | none, some lsid => ⟨looking, .lsidOffered, .lsid lsid⟩
  | none, none => ⟨looking, .nothingToOffer, .none⟩

/-- What a call puts to the session, unless it is refused or ignored, or is of no concern to
the session. -/
def prompt? (client : Client σ) : Call → Option (Prompt σ)
  | .start lsid =>
    if client.isShutDown || client.isInitialized then none else some (client.firstPrompt lsid)
  | .offerPassword credentials =>
    if client.checkRunning.isOk && client.username.all (sameUser · credentials.username) then
      some ⟨client, .passwordOffered credentials.password.isEmpty, .password credentials⟩
    else none
  | .offerLsid lsid =>
    if client.checkRunning.isOk && lsid ≠ "" then some ⟨client, .lsidOffered, .lsid lsid⟩
    else none
  | .skipSignIn username =>
    if client.checkRunning.isOk then
      some ⟨{ client with
        registry := (client.registry.openAs username).2, username := some username },
        .signInSkipped, .none⟩
    else none
  | .authReport report =>
    if client.isShutDown then none
    else
      match report with
      | .succeeded userEmail =>
        some ⟨(client.adoptUser userEmail).2, .signedIn (client.adoptUser userEmail).1, .none⟩
      | report => some ⟨client, report.event, .none⟩
  | .syncerReport report =>
    if client.isShutDown then none
    else some ⟨client, .syncerAccount report.account, .none⟩
  | .setObserver _ | .removeObserver | .shutDown => none

/-- What the session hears of something that happens to a client. -/
def heard? (client : Client σ) : Turn → Option (Prompt σ)
  | .act (.call call) => client.prompt? call
  | _ => none

/-- What a call does to a client when it puts nothing to the session. -/
def aside (client : Client σ) : Call → Client σ
  | .setObserver name => { client with observer := some name }
  | .removeObserver => { client with observer := none }
  | .shutDown => client.shutDown
  | .start _ | .offerPassword _ | .offerLsid _ | .skipSignIn _ | .authReport _
  | .syncerReport _ => client

variable {react : Reaction σ} {client after : Client σ} {call : Call} {prompt : Prompt σ}

theorem prompt?_signedIn (running : client.isShutDown = false) (userEmail : String) :
    client.prompt? (.authReport (.succeeded userEmail)) =
      some ⟨(client.adoptUser userEmail).2, .signedIn (client.adoptUser userEmail).1,
        .none⟩ := by
  simp [prompt?, running]

theorem prompt?_authReport (running : client.isShutDown = false) (report : AuthReport)
    (noSuccess : ∀ userEmail, report ≠ .succeeded userEmail) :
    client.prompt? (.authReport report) = some ⟨client, report.event, .none⟩ := by
  cases report with
  | succeeded userEmail => exact absurd rfl (noSuccess userEmail)
  | _ => simp [prompt?, running]

theorem prompt?_syncerReport (running : client.isShutDown = false) (report : SyncerReport) :
    client.prompt? (.syncerReport report) =
      some ⟨client, .syncerAccount report.account, .none⟩ := by
  simp [prompt?, running]

/-- What a call puts to the session, call by call. -/
inductive Prompts (client : Client σ) : Call → Prompt σ → Prop where
  | start (lsid : Option String) : Prompts client (.start lsid) (client.firstPrompt lsid)
  | offerPassword (credentials : Credentials) :
    Prompts client (.offerPassword credentials)
      ⟨client, .passwordOffered credentials.password.isEmpty, .password credentials⟩
  | offerLsid (lsid : String) : Prompts client (.offerLsid lsid) ⟨client, .lsidOffered, .lsid lsid⟩
  | skipSignIn (username : String) :
    Prompts client (.skipSignIn username)
      ⟨{ client with
        registry := (client.registry.openAs username).2, username := some username },
        .signInSkipped, .none⟩
  | signedIn (userEmail : String) :
    Prompts client (.authReport (.succeeded userEmail))
      ⟨(client.adoptUser userEmail).2, .signedIn (client.adoptUser userEmail).1, .none⟩
  | authReport (report : AuthReport) (noSuccess : ∀ userEmail, report ≠ .succeeded userEmail) :
    Prompts client (.authReport report) ⟨client, report.event, .none⟩
  | syncerReport (report : SyncerReport) (running : client.isShutDown = false) :
    Prompts client (.syncerReport report) ⟨client, .syncerAccount report.account, .none⟩

theorem prompts_of_prompt? (prompted : client.prompt? call = some prompt) :
    client.Prompts call prompt := by
  cases call with
  | start lsid =>
    rw [prompt?, Option.ite_none_left_eq_some] at prompted
    cases prompted.2
    exact .start lsid
  | offerPassword credentials =>
    rw [prompt?, Option.ite_none_right_eq_some] at prompted
    cases prompted.2
    exact .offerPassword credentials
  | offerLsid lsid =>
    rw [prompt?, Option.ite_none_right_eq_some] at prompted
    cases prompted.2
    exact .offerLsid lsid
  | skipSignIn username =>
    rw [prompt?, Option.ite_none_right_eq_some] at prompted
    cases prompted.2
    exact .skipSignIn username
  | authReport report =>
    unfold prompt? at prompted
    rw [Option.ite_none_left_eq_some] at prompted
    obtain ⟨-, prompted⟩ := prompted
    cases report with
    | succeeded userEmail =>
      cases prompted
      exact .signedIn userEmail
    | _ =>
      cases prompted
      exact .authReport _ nofun
  | syncerReport report =>
    rw [prompt?, Option.ite_none_left_eq_some] at prompted
    obtain ⟨running, prompted⟩ := prompted
    cases prompted
    exact .syncerReport report (Bool.eq_false_iff.mpr running)
  | setObserver | removeObserver | shutDown => cases prompted

theorem start_prompted (lsid : Option String) (running : client.isShutDown = false)
    (new : client.isInitialized = false) :
    client.start react lsid = (.ok (), run react (client.firstPrompt lsid).client
      (client.firstPrompt lsid).event (client.firstPrompt lsid).material) := by
  have looked : (lookUpLastUser { client with isInitialized := true }).1 = client.lastUser? := by
    unfold lookUpLastUser lastUser?
    split <;> rfl
  -- both look for the last user first, and go on alike from there
  unfold start firstPrompt
  rw [if_neg (Bool.eq_false_iff.mp running), if_neg (Bool.eq_false_iff.mp new)]
  generalize lookUpLastUser { client with isInitialized := true } = found at looked ⊢
  obtain ⟨remembered, looking⟩ := found
  subst looked
  cases client.lastUser? with
  | some remembered => rfl
  | none => cases lsid.filter (· ≠ "") <;> rfl

/-- What a call comes to, with its answer: what the session makes of an event, a refusal that
changes nothing, or something that is of no concern to the session. -/
inductive Called (react : Reaction σ) (client : Client σ) (call : Call) :
    Except ClientFailure Unit × Client σ → Prop where
  | prompts (prompt : Prompt σ) (prompted : client.prompt? call = some prompt) :
    Called react client call (.ok (), run react prompt.client prompt.event prompt.material)
  | refused (silent : client.prompt? call = none) (refusal : ClientFailure) :
    Called react client call (.error refusal, client)
  | passes (silent : client.prompt? call = none) (asks : ¬ call.Asks) :
    Called react client call (.ok (), client.aside call)

theorem start_called (lsid : Option String) :
    Called react client (.start lsid) (client.start react lsid) := by
  cases down : client.isShutDown with
  | true =>
    rw [start, if_pos down]
    exact .refused (by simp [prompt?, down]) _
  | false =>
    cases begun : client.isInitialized with
    | true =>
      rw [start, if_neg (Bool.eq_false_iff.mp down), if_pos begun]
      exact .refused (by simp [prompt?, begun]) _
    | false =>
      rw [start_prompted lsid down begun]
      exact .prompts (client.firstPrompt lsid) (by simp [prompt?, down, begun])

theorem offerPassword_called (credentials : Credentials) :
    Called react client (.offerPassword credentials) (client.offerPassword react credentials) := by
  unfold offerPassword
  cases allowed : client.checkRunning with
  | error refusal => exact .refused (by simp [prompt?, allowed, Except.isOk, Except.toBool]) refusal
  | ok _ =>
    have prompted (same : client.username.all (sameUser · credentials.username)) :
        client.prompt? (.offerPassword credentials) =
          some ⟨client, .passwordOffered credentials.password.isEmpty, .password credentials⟩ := by
      simp [prompt?, allowed, same, Except.isOk, Except.toBool]
    cases user : client.username with
    | none => exact .prompts _ (prompted (by simp [user]))
    | some current =>
      dsimp only
      split
      · rename_i same
        exact .prompts _ (prompted (by simp [user, same]))
      · rename_i other
        exact .refused (by simp [prompt?, allowed, user, other, Except.isOk, Except.toBool]) _

theorem offerLsid_called (lsid : String) :
    Called react client (.offerLsid lsid) (client.offerLsid react lsid) := by
  unfold offerLsid
  cases allowed : client.checkRunning with
  | error refusal => exact .refused (by simp [prompt?, allowed, Except.isOk, Except.toBool]) refusal
  | ok _ =>
    dsimp only
    split
    · rename_i empty
      exact .refused (by simp [prompt?, empty]) _
    · rename_i given
      have prompted : client.prompt? (.offerLsid lsid) =
          some ⟨client, .lsidOffered, .lsid lsid⟩ := by
        simp [prompt?, allowed, given, Except.isOk, Except.toBool]
      exact .prompts _ prompted

theorem skipSignIn_called (username : String) :
    Called react client (.skipSignIn username) (client.skipSignIn react username) := by
  unfold skipSignIn
  cases allowed : client.checkRunning with
  | error refusal => exact .refused (by simp [prompt?, allowed, Except.isOk, Except.toBool]) refusal
  | ok _ =>
    have prompted : client.prompt? (.skipSignIn username) = some ⟨{ client with
        registry := (client.registry.openAs username).2, username := some username },
        .signInSkipped, .none⟩ := by
      simp [prompt?, allowed, Except.isOk, Except.toBool]
    exact .prompts _ prompted

theorem handleAuthReport_called (report : AuthReport) :
    Called react client (.authReport report) (.ok (), client.handleAuthReport react report) := by
  unfold handleAuthReport
  cases down : client.isShutDown with
  | true =>
    rw [if_pos rfl]
    exact .passes (by simp [prompt?, down]) id
  | false =>
    rw [if_neg Bool.false_ne_true]
    have prompted := prompt?_authReport down report
    cases report with
    | succeeded userEmail => exact .prompts _ (prompt?_signedIn down userEmail)
    | accountRefused refusal =>
      cases refusal <;> exact .prompts _ (prompted nofun)
    | attemptStarted | serviceRefused | serviceUserNotSignedUp | serviceUnreachable | other =>
      exact .prompts _ (prompted nofun)

theorem handleSyncerReport_called (report : SyncerReport) :
    Called react client (.syncerReport report)
      (.ok (), client.handleSyncerReport react report) := by
  unfold handleSyncerReport
  cases down : client.isShutDown with
  | true =>
    rw [if_pos rfl]
    exact .passes (by simp [prompt?, down]) id
  | false =>
    rw [if_neg Bool.false_ne_true]
    exact .prompts _ (prompt?_syncerReport down report)

/-- Every call comes to one of the three. -/
theorem call_called (react : Reaction σ) (client : Client σ) (call : Call) :
    Called react client call (client.call react call) := by
  cases call with
  | start lsid => exact start_called lsid
  | offerPassword credentials => exact offerPassword_called credentials
  | offerLsid lsid => exact offerLsid_called lsid
  | authReport report => exact handleAuthReport_called report
  | syncerReport report => exact handleSyncerReport_called report
  | skipSignIn username => exact skipSignIn_called username
  | setObserver | removeObserver | shutDown => exact .passes rfl id

end Client

/-! ## What is done on the side -/

namespace Effect

/-- Whether neither the auth watcher nor the peers hear of it. -/
def isAside : Effect → Bool
  | .signInRequested _ | .peersNotified _ => false
  | _ => true

theorem signInRequests_append (earlier later : List Effect) :
    signInRequests (earlier ++ later) = signInRequests earlier ++ signInRequests later :=
  List.filterMap_append

theorem deliveries_append (earlier later : List Effect) :
    deliveries (earlier ++ later) = deliveries earlier ++ deliveries later :=
  List.filterMap_append

theorem signInRequests_aside {effects : List Effect} (aside : ∀ effect ∈ effects, effect.isAside) :
    signInRequests effects = [] := by
  refine List.filterMap_eq_nil_iff.mpr fun effect member => ?_
  have quiet := aside effect member
  cases effect with
  | signInRequested => cases quiet
  | _ => rfl

theorem deliveries_aside {effects : List Effect} (aside : ∀ effect ∈ effects, effect.isAside) :
    deliveries effects = [] := by
  refine List.filterMap_eq_nil_iff.mpr fun effect member => ?_
  have quiet := aside effect member
  cases effect with
  | peersNotified => cases quiet
  | _ => rfl

end Effect

namespace Client
variable {react : Reaction σ} {client after : Client σ}

/-- The session stayed as it was, and neither the auth watcher nor the peers heard of
anything. -/
structure SameMind (client after : Client σ) : Prop where
  session : after.session = client.session
  effects : ∃ more, after.effects = client.effects ++ more ∧ ∀ effect ∈ more, effect.isAside

theorem SameMind.of_effects (session : after.session = client.session)
    (effects : after.effects = client.effects) : client.SameMind after :=
  ⟨session, [], by simpa using effects, by simp⟩

theorem SameMind.refl (client : Client σ) : client.SameMind client := .of_effects rfl rfl

theorem SameMind.trans {first second third : Client σ} (start : first.SameMind second)
    (rest : second.SameMind third) : first.SameMind third := by
  obtain ⟨before, started, quiet⟩ := start.effects
  obtain ⟨more, grown, still⟩ := rest.effects
  refine ⟨rest.session.trans start.session, before ++ more, ?_, ?_⟩
  · rw [grown, started, List.append_assoc]
  · intro effect member
    rcases List.mem_append.mp member with early | late
    · exact quiet effect early
    · exact still effect late

theorem SameMind.deliveries (same : client.SameMind after) :
    Effect.deliveries after.effects = Effect.deliveries client.effects := by
  obtain ⟨more, grown, aside⟩ := same.effects
  rw [grown, Effect.deliveries_append, Effect.deliveries_aside aside, List.append_nil]

theorem SameMind.signInRequests (same : client.SameMind after) :
    Effect.signInRequests after.effects = Effect.signInRequests client.effects := by
  obtain ⟨more, grown, aside⟩ := same.effects
  rw [grown, Effect.signInRequests_append, Effect.signInRequests_aside aside, List.append_nil]

theorem record_sameMind (client : Client σ) {effect : Effect} (aside : effect.isAside = true) :
    client.SameMind (client.record effect) :=
  ⟨rfl, [effect], rfl, by simpa using aside⟩

theorem lookUpLastUser_sameMind (client : Client σ) :
    client.SameMind client.lookUpLastUser.2 := by
  unfold lookUpLastUser
  split
  · exact client.record_sameMind rfl
  · exact .refl client

theorem firstPrompt_sameMind (client : Client σ) (lsid : Option String) :
    client.SameMind (client.firstPrompt lsid).client := by
  have begun : client.SameMind { client with isInitialized := true } := .of_effects rfl rfl
  have looked := begun.trans (lookUpLastUser_sameMind _)
  unfold firstPrompt
  dsimp only
  split
  · exact looked.trans (.of_effects rfl rfl)
  · exact looked
  · exact looked

/-- Up to the moment at which the session hears of a call, nothing is asked or sent. -/
theorem Prompts.sameMind {call : Call} {prompt : Prompt σ} (prompts : client.Prompts call prompt) :
    client.SameMind prompt.client := by
  cases prompts with
  | start lsid => exact client.firstPrompt_sameMind lsid
  | offerPassword | offerLsid | authReport | syncerReport => exact .refl client
  | skipSignIn | signedIn => exact .of_effects rfl rfl

theorem listenToDirectory_sameMind (client : Client σ) :
    client.SameMind client.listenToDirectory := by
  unfold listenToDirectory
  split <;> exact .of_effects rfl rfl

theorem closeDirectory_sameMind (client : Client σ) : client.SameMind client.closeDirectory := by
  unfold closeDirectory
  split
  · split <;> exact .of_effects rfl rfl
  · exact .refl client

theorem shutDown_sameMind (client : Client σ) : client.SameMind client.shutDown := by
  unfold shutDown
  split
  · exact .refl client
  · refine SameMind.trans ?_ ((closeDirectory_sameMind _).trans (.of_effects rfl rfl))
    refine ⟨rfl, [.authShutDown, .syncerStopped client.settings.syncer.stopTimeout
      client.services.stopSyncer.1, .notifierLoggedOut], ?_, ?_⟩
    · simp [record, Services.stopSyncer]
    · simp [Effect.isAside]

theorem aside_sameMind (client : Client σ) (call : Call) : client.SameMind (client.aside call) := by
  cases call with
  | shutDown => exact client.shutDown_sameMind
  | _ => exact .of_effects rfl rfl

theorem changesToTell_sameMind (client : Client σ) (t : ClosedTransaction) :
    client.SameMind (client.changesToTell t).2 := by
  unfold changesToTell
  cases t.writer with
  | embedder =>
    dsimp only
    split
    · exact ⟨rfl, _, rfl, by simp [Effect.isAside]⟩
    · exact .of_effects rfl rfl
  | syncer | unittest => exact .of_effects rfl rfl

theorem settleNetworkWatch_sameMind (client : Client σ) :
    client.SameMind client.settleNetworkWatch := by
  unfold settleNetworkWatch
  dsimp only
  split
  · exact .of_effects rfl rfl
  · exact ⟨rfl, _, rfl, fun effect member => by rw [List.eq_of_mem_replicate member]; rfl⟩
  · split
    · exact ⟨rfl, [.connectionChecked], rfl, by simp [Effect.isAside]⟩
    · exact .of_effects rfl rfl
    · exact .of_effects rfl rfl

/-! ## What stays true of a client whatever is done on the side -/

/-- What holds of a client by its session, its requests and its notifications. -/
def Mindful (P : Client σ → Prop) : Prop :=
  ∀ ⦃client after : Client σ⦄, P client → client.SameMind after → P after

/-- An observer that keeps to itself puts nothing to the session. -/
theorem Mindful.preserved {P : Client σ → Prop} (mindful : Mindful P)
    (keeps : react.KeepsToItself) : react.Preserves P := by
  intro observer callback client holds
  obtain ⟨embedder, same⟩ := keeps observer callback client
  rw [same]
  exact mindful holds (.of_effects rfl rfl)

section
variable {P : Client σ → Prop} (mindful : Mindful P) (preserves : react.Preserves P)
include mindful preserves

theorem Mindful.tell (holds : P client) (callback : Callback) :
    P (client.tell react callback) := by
  unfold Client.tell
  split
  · exact preserves _ _ _ (mindful holds (client.record_sameMind rfl))
  · exact holds

theorem Mindful.transact (holds : P client) (id : DirectoryId) (batch : Batch) :
    P (client.transact react id batch) := by
  unfold Client.transact
  split
  · exact holds
  · rename_i d found
    generalize batch.writes.foldl Transaction.write (d.write batch.writer) = t
    unfold commit
    simp only [found]
    have stored : P { client with
        registry := client.registry.modify id fun d => { d with contents := t.contents } } :=
      mindful holds (.of_effects rfl rfl)
    split
    · have compared := mindful stored (changesToTell_sameMind _ t.closed)
      unfold deliver
      split
      · exact compared
      · exact mindful.tell preserves compared _
    · exact stored

/-- An action that makes no request and does not notify the peers. -/
theorem Mindful.carryOut (holds : P client) {material : SignInMaterial} {action : SessionAction}
    (noRequest : material.request? action = none) (notNotified : action ≠ .notifyPeers) :
    P (carryOut react material client action) := by
  cases action with
  | tellAuthProblem | tellInitialized | tellCycleCompleted => exact mindful.tell preserves holds _
  | tryPassword =>
    cases material with
    | password => cases noRequest
    | _ => exact holds
  | tryToken =>
    cases material with
    | token => cases noRequest
    | _ => exact holds
  | tryLsid =>
    cases material with
    | lsid => cases noRequest
    | _ => exact holds
  | listenToDirectory => exact mindful holds (listenToDirectory_sameMind _)
  | notifyPeers => exact absurd rfl notNotified

/-- Whatever happens to a client without its session hearing of it. -/
theorem Mindful.turn (holds : P client) {turn : Turn} (unheard : client.heard? turn = none) :
    P (client.turn react turn) := by
  cases turn with
  | act act =>
    cases act with
    | call call =>
      change P (client.call react call).2
      generalize answered : client.call react call = answer
      have called := answered ▸ call_called react client call
      cases called with
      | prompts prompt prompted => cases Eq.trans (Eq.symm unheard) prompted
      | refused => exact holds
      | passes => exact mindful holds (client.aside_sameMind call)
    | transaction id batch => exact mindful.transact preserves holds id batch
    | markFirstSyncDone | answers => exact mindful holds (.of_effects rfl rfl)
  | watchNetwork watch => exact mindful holds (.of_effects rfl rfl)
  | sendNetworkChange =>
    refine mindful holds ?_
    change client.SameMind client.sendNetworkChange.2
    unfold sendNetworkChange
    split <;> exact .of_effects rfl rfl
  | closeNetworkChannel =>
    refine mindful holds ?_
    change client.SameMind client.closeNetworkChannel
    unfold closeNetworkChannel
    split <;> exact .of_effects rfl rfl
  | settleNetworkWatch => exact mindful holds client.settleNetworkWatch_sameMind

end

/-- An attempt to sign in that has what it needs makes its request, whoever observes. -/
theorem carryOut_request {material : SignInMaterial} {action : SessionAction}
    {request : SignInRequest} (requested : material.request? action = some request) :
    carryOut react material client action = client.record (.signInRequested request) := by
  unfold SignInMaterial.request? at requested
  split at requested
  · cases requested
    rfl
  · cases requested
    rfl
  · cases requested
    rfl
  · cases requested

/-- A call that is put to the session comes to what the session makes of it. -/
theorem call_prompted (react : Reaction σ) {call : Call} {prompt : Prompt σ}
    (prompted : client.prompt? call = some prompt) :
    client.call react call =
      (.ok (), run react prompt.client prompt.event prompt.material) := by
  generalize answered : client.call react call = answer
  have called := answered ▸ call_called react client call
  cases called with
  | prompts other same =>
    cases prompted.symm.trans same
    rfl
  | refused silent => cases silent.symm.trans prompted
  | passes silent => cases silent.symm.trans prompted

/-- The session hears of calls only. -/
theorem exists_call_of_heard {turn : Turn} {prompt : Prompt σ}
    (heard : client.heard? turn = some prompt) :
    ∃ call, turn = .act (.call call) ∧ client.prompt? call = some prompt := by
  unfold heard? at heard
  split at heard
  · exact ⟨_, rfl, heard⟩
  · cases heard

theorem turn_heard (react : Reaction σ) {turn : Turn} {prompt : Prompt σ}
    (heard : client.heard? turn = some prompt) :
    client.turn react turn = run react prompt.client prompt.event prompt.material := by
  obtain ⟨call, rfl, prompted⟩ := exists_call_of_heard heard
  exact congrArg Prod.snd (call_prompted react prompted)

theorem heard_sameMind {turn : Turn} {prompt : Prompt σ}
    (heard : client.heard? turn = some prompt) : client.SameMind prompt.client := by
  obtain ⟨call, rfl, prompted⟩ := exists_call_of_heard heard
  exact (prompts_of_prompt? prompted).sameMind

end Client

end SharedTree
