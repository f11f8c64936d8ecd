import SharedTree.Client.Effect
import SharedTree.Client.Services
import SharedTree.NetworkWatch
import SharedTree.Directory
import SharedTree.Observations
import SharedTree.Session
import SharedTree.Settings.Basic

/-!
The client: a session, the directories it has opened, and the services it works with. A client
carries out the actions of its session one after the other.

The observer may call the client again while it is being told something. A `Reaction` is what it
does: it takes the client as it is at that moment, in the middle of a run of actions, and gives it
back. The session has already taken its step by then, so that a reaction sees the state that the
callback is about.
-/

namespace SharedTree

/-- A sync client. `σ` is whatever its embedder keeps for itself. -/
structure Client (σ : Type) where
  settings : Settings
  services : Services
  session : Session := .initial
  /-- Empty except while a transaction is being compared. -/
  observations : Observations := .empty
  /-- The name of the observer, if there is one. -/
  observer : Option String := none
  /-- The user that the share belongs to, once known. -/
  username : Option String := none
  isInitialized : Bool := false
  isShutDown : Bool := false
  registry : Registry
  /-- The watch on the network, while there is one. -/
  networkWatch : Option NetworkWatch := none
  /-- The watch on the channel that changes are sent on was called off, and the listening end has
  not gone yet. -/
  channelLingers : Bool := false
  /-- Everything done to the outside so far. -/
  effects : List Effect := []
  embedder : σ

/-- What an observer does when it is told something. -/
abbrev Reaction (σ : Type) := String → Callback → Client σ → Client σ

/-- An observer that only listens. -/
def Reaction.quiet {σ : Type} : Reaction σ := fun _ _ client => client

/-- What an attempt to sign in has at hand. -/
inductive SignInMaterial where
  | none
  | password (credentials : Credentials)
  | token (remembered : RememberedUser)
  | lsid (lsid : String)

namespace Client

variable {σ : Type}

/-- A client before anything has happened. -/
def create (settings : Settings) (services : Services) (embedder : σ) : Client σ where
  settings
  services
  registry := { location := settings.directory.location }
  embedder

/-- Does one thing to the outside. -/
def record (client : Client σ) (effect : Effect) : Client σ :=
  { client with effects := client.effects ++ [effect] }

/-- Tells the observer, if there is one, and lets it react. -/
def tell (react : Reaction σ) (client : Client σ) (callback : Callback) : Client σ :=
  match client.observer with
  | some observer => react observer callback (client.record (.toldObserver observer callback))
  | none => client

/-- Listens for changes of the user's directory, opening it if need be. -/
def listenToDirectory (client : Client σ) : Client σ :=
  match client.username with
  | some name =>
    let (id, registry) := client.registry.openAs name
    { client with registry := registry.modify id fun d => { d with hasListener := true } }
  | none => client

/-- Sends a notification to the peers, and lets the session know how it went. -/
def notifyPeers (client : Client σ) : Client σ :=
  let (delivered, services) := client.services.notifyPeers
  let client := { client with services }.record (.peersNotified delivered)
  { client with session := (client.session.onEvent (.notificationTried delivered)).1 }

/-- Carries out one action. An attempt to sign in goes nowhere unless what it needs is at hand. -/
def carryOut (react : Reaction σ) (material : SignInMaterial) (client : Client σ) :
    SessionAction → Client σ
  | .tellAuthProblem error => client.tell react (.authProblem error)
  | .tryPassword =>
    match material with
    | .password credentials => client.record (.signInRequested (.password credentials))
    | _ => client
  | .tryToken =>
    match material with
    | .token remembered => client.record (.signInRequested (.token remembered))
    | _ => client
  | .tryLsid =>
    match material with
    | .lsid lsid => client.record (.signInRequested (.lsid lsid))
    | _ => client
  | .listenToDirectory => client.listenToDirectory
  | .tellInitialized => client.tell react .initializationComplete
  | .tellCycleCompleted => client.tell react .syncCycleCompleted
  | .notifyPeers => client.notifyPeers

/-- Lets the session take an event, and carries out what follows from it. -/
def run (react : Reaction σ) (client : Client σ) (event : SessionEvent)
    (material : SignInMaterial) : Client σ :=
  let (session, actions) := client.session.onEvent event
  actions.foldl (carryOut react material) { client with session }

end Client

end SharedTree
