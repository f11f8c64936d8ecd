import SharedTree.Auth.Report
import SharedTree.Client.NetworkWatch
import SharedTree.Failure
import SharedTree.SyncerReport

/-!
What an embedder asks of a client, and what the services report to it. A request is refused before
the client is initialized and after it is shut down; a report is ignored once it is shut down.
-/

namespace SharedTree

/-- Whether two texts name one user: they differ at most in the case of ASCII letters. -/
def sameUser (a b : String) : Bool :=
  a.toList.map Char.toLower = b.toList.map Char.toLower

namespace Client

variable {σ : Type}

/-- Requests are taken between initialization and shutdown. -/
def checkRunning (client : Client σ) : Except ClientFailure Unit :=
  if client.isShutDown then .error .shutDown
  else if !client.isInitialized then .error (.sync .notInitialized)
  else .ok ()

/-- Starts with the token of the last user: the user's directory is opened first. -/
def signInRemembered (react : Reaction σ) (client : Client σ) (remembered : RememberedUser) :
    Client σ :=
  let (id, registry) := client.registry.openAs remembered.username
  let ended := (registry.directory? id).any (·.firstSyncDone)
  run react { client with registry, username := some remembered.username }
    (.rememberedUserFound ended) (.token remembered)

/-- The last user, where the settings ask for one. -/
def lookUpLastUser (client : Client σ) : Option RememberedUser × Client σ :=
  if client.settings.auth.resumesLastUser then
    (client.services.remembered,
      client.record (.lastUserLookedUp client.settings.auth.serviceId))
  else (none, client)

/-- Starts a client: with the token of the last user, else with an LSID cookie, else by telling the
observer that credentials are needed. -/
def start (react : Reaction σ) (client : Client σ) (lsid : Option String) :
    Except ClientFailure Unit × Client σ :=
  if client.isShutDown then (.error .shutDown, client)
  else if client.isInitialized then (.error .alreadyInitialized, client)
  else
    let (remembered, client) := lookUpLastUser { client with isInitialized := true }
    match remembered, lsid.filter (· ≠ "") with
    | some remembered, _ => (.ok (), signInRemembered react client remembered)
    | none, some lsid => (.ok (), run react client .lsidOffered (.lsid lsid))
    | none, none => (.ok (), run react client .nothingToOffer .none)

/-- Signs in with a user name and a password. -/
def offerPassword (react : Reaction σ) (client : Client σ) (credentials : Credentials) :
    Except ClientFailure Unit × Client σ :=
  match client.checkRunning with
  | .error refusal => (.error refusal, client)
  | .ok () =>
    let event := .passwordOffered credentials.password.isEmpty
    match client.username with
    | some current =>
      if sameUser current credentials.username then
        (.ok (), run react client event (.password credentials))
      else (.error (.usernameChanged current credentials.username), client)
    | none => (.ok (), run react client event (.password credentials))

/-- Signs in with an LSID cookie. -/
def offerLsid (react : Reaction σ) (client : Client σ) (lsid : String) :
    Except ClientFailure Unit × Client σ :=
  match client.checkRunning with
  | .error refusal => (.error refusal, client)
  | .ok () =>
    if lsid = "" then (.error (.sync (.invalidData "empty LSID")), client)
    else (.ok (), run react client .lsidOffered (.lsid lsid))

/-- Gives the share to a user, unless it belongs to one already, and opens the user's directory;
tells whether its first download has ended. -/
def adoptUser (client : Client σ) (userEmail : String) : Bool × Client σ :=
  let name := client.username.getD userEmail
  let (id, registry) := client.registry.openAs name
  ((registry.directory? id).any (·.firstSyncDone),
    { client with registry, username := some name })

/-- Takes a report of the auth watcher. -/
def handleAuthReport (react : Reaction σ) (client : Client σ) (report : AuthReport) : Client σ :=
  if client.isShutDown then client
  else
    match report with
    | .attemptStarted => run react client .attemptStarted .none
    | .succeeded userEmail =>
      let (ended, client) := client.adoptUser userEmail
      run react client (.signedIn ended) .none
    | report =>
      match report.problem? with
      | some error => run react client (.signInFailed error) .none
      | none => run react client .otherReport .none

/-- Takes a report of the syncer. -/
def handleSyncerReport (react : Reaction σ) (client : Client σ) (report : SyncerReport) :
    Client σ :=
  if client.isShutDown then client
  else run react client (.syncerAccount report.account) .none

/-- Skips signing in: the share belongs to `username` from now on. -/
def skipSignIn (react : Reaction σ) (client : Client σ) (username : String) :
    Except ClientFailure Unit × Client σ :=
  match client.checkRunning with
  | .error refusal => (.error refusal, client)
  | .ok () =>
    let (_, registry) := client.registry.openAs username
    (.ok (), run react { client with registry, username := some username } .signInSkipped .none)

/-- Closes the user's directory, and no longer listens for its changes. -/
def closeDirectory (client : Client σ) : Client σ :=
  match client.username with
  | some name =>
    match client.registry.get? name with
    | some id =>
      let registry := (client.registry.close name).2
      { client with registry := registry.modify id fun d => { d with hasListener := false } }
    | none => client
  | none => client

/-- Stops a client, once and for all. The auth watcher stops first, so that a late success cannot
open the directory again; then the syncer, the notifier, the directory and the watch on the network.
-/
def shutDown (client : Client σ) : Client σ :=
  if client.isShutDown then client
  else
    let client := { client with isShutDown := true }.record .authShutDown
    let (inTime, services) := client.services.stopSyncer
    let client := { client with services }.record
      (.syncerStopped client.settings.syncer.stopTimeout inTime)
    let client := { client with services := client.services.logOutNotifier }
    let client := client.record .notifierLoggedOut
    client.closeDirectory.callOffNetworkWatch

/-- The user's directory, once the client is ready. -/
def userDirectory (client : Client σ) : Except ClientFailure DirectoryId :=
  if !client.session.isReady then .error (.sync .notInitialized)
  else
    match client.username with
    | none => .error (.sync .notAuthenticated)
    | some name =>
      match client.registry.get? name with
      | some id => .ok id
      | none => .error (.sync (.directoryNotOpen name))

/-- The state of the client and its services. -/
def status (client : Client σ) : Status where
  syncer := client.services.syncer
  connection := client.services.connection
  notifier := client.services.notifier
  authenticated := client.session.authenticated

/-- A client as descriptions show it. -/
def describe (client : Client σ) : String :=
  "SyncManager \x7b username: " ++ Quoted.quoteOption client.username ++ ", session: " ++
    client.session.describe ++ ", .. \x7d"

/-- The client is gone; its directories remain with whoever holds them, and nobody listens to them.
-/
def abandon (client : Client σ) : Client σ :=
  { client with registry :=
    { client.registry with
      directories := client.registry.directories.map fun d => { d with hasListener := false } } }

end Client

/-- What an embedder and the services may ask of a client. -/
inductive Call where
  | start (lsid : Option String)
  | offerPassword (credentials : Credentials)
  | offerLsid (lsid : String)
  | authReport (report : AuthReport)
  | syncerReport (report : SyncerReport)
  | setObserver (name : String)
  | removeObserver
  | skipSignIn (username : String)
  | shutDown

/-- Carries out a call. -/
def Client.call {σ : Type} (react : Reaction σ) (client : Client σ) :
    Call → Except ClientFailure Unit × Client σ
  | .start lsid => client.start react lsid
  | .offerPassword credentials => client.offerPassword react credentials
  | .offerLsid lsid => client.offerLsid react lsid
  | .authReport report => (.ok (), client.handleAuthReport react report)
  | .syncerReport report => (.ok (), client.handleSyncerReport react report)
  | .setObserver name => (.ok (), { client with observer := some name })
  | .removeObserver => (.ok (), { client with observer := none })
  | .skipSignIn username => client.skipSignIn react username
  | .shutDown => (.ok (), client.shutDown)

end SharedTree
