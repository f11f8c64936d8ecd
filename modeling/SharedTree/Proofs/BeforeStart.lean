import SharedTree.Proofs.ClientCalls

/-! Calls that come before a client is started. Requests are refused then, but reports are
not. As long as none comes that a session heeds, nothing happens, and the client stays like
new but for its observer (`acts_idle`). The first one that comes leaves its mark on the
session, and the first success gives the share to a user whose directory is opened and
listened to, all before anybody has started the client. -/
namespace SharedTree

variable {σ : Type}

namespace Call

/-- The calls that neither start a client nor stop it. -/
def IsEarly : Call → Prop
  | .start _ | .shutDown => False
  | _ => True

/-- The reports that a session heeds, started or not. -/
def isHeeded : Call → Bool
  | .authReport .attemptStarted | .authReport .other => false
  | .authReport _ => true
  | .syncerReport report => report.account.isUsable
  | _ => false

/-- The user of whose success a call tells. -/
def signsIn? : Call → Option String
  | .authReport (.succeeded userEmail) => some userEmail
  | _ => none

def observerAfter (observer : Option String) : Call → Option String
  | .setObserver name => some name
  | .removeObserver => none
  | _ => observer

end Call

/-- Whether the observer is told something or the peers are. -/
def Effect.isTold : Effect → Bool
  | .toldObserver _ _ | .peersNotified _ => true
  | _ => false

/-- The directories if nobody's was ever opened but that of one user, which is listened to. -/
def Registry.listened (location : String) : Option String → Registry
  | none => { location }
  | some name =>
    { location
      directories := [{ name, hasListener := true }]
      opened := (∅ : Std.ExtTreeMap String DirectoryId).insert name ⟨0⟩ }

/-- To open and listen to the directory of the one user comes to the same, whether that was
done before or not. -/
theorem Registry.listened_listen (location : String) (user : Option String) (name : String)
    (same : ∀ known ∈ user, known = name) :
    let opened := (Registry.listened location user).openAs name
    let (id, again) := opened.2.openAs name
    again.modify id (fun d => { d with hasListener := true }) =
      Registry.listened location (some name) := by
  intro opened
  have again : opened.2.openAs name = opened :=
    Registry.openAs_open (Registry.get?_openAs _ name)
  rw [again]
  cases user with
  | none =>
    have absent : (Registry.listened location none).get? name = none := by
      simp [Registry.listened, Registry.get?]
    simp only [opened, Registry.openAs, absent]
    rfl
  | some known =>
    obtain rfl := same known rfl
    have present : (Registry.listened location (some known)).get? known = some ⟨0⟩ := by
      simp [Registry.listened, Registry.get?]
    simp only [opened, Registry.openAs_open present]
    rfl

namespace Client
variable {react : Reaction σ} {client : Client σ} {location : String} {user : Option String}

/-- A client that was not started, and did nothing to the outside but tell something. -/
structure Waits (client : Client σ) : Prop where
  new : client.isInitialized = false
  told : ∀ effect ∈ client.effects, effect.isTold = true

/-- A client that was neither started nor stopped, with the user who signed in if anybody
did. -/
structure Unstarted (location : String) (user : Option String) (client : Client σ) : Prop
    extends client.Waits where
  running : client.isShutDown = false
  username : client.username = user
  registry : client.registry = Registry.listened location user

theorem create_unstarted (settings : Settings) (services : Services) (embedder : σ) :
    (create settings services embedder).Unstarted settings.directory.location none :=
  ⟨⟨rfl, nofun⟩, rfl, rfl, rfl⟩

/-- A client that was not started refuses every request but to be started. -/
theorem call_refused (react : Reaction σ) (new : client.isInitialized = false)
    (running : client.isShutDown = false) {call : Call} (asks : call.Asks) (early : call.IsEarly) :
    client.call react call = (.error (.sync .notInitialized), client) := by
  have refused : client.checkRunning = .error (.sync .notInitialized) := by
    rw [checkRunning, running, new]
    rfl
  cases call with
  | start | shutDown => exact absurd early id
  | offerPassword | offerLsid | skipSignIn =>
    simp [Client.call, offerPassword, offerLsid, skipSignIn, refused]
  | authReport | syncerReport | setObserver | removeObserver => exact absurd asks id

/-! ## Reports -/

theorem Waits.record (waits : client.Waits) {effect : Effect} (told : effect.isTold = true) :
    (client.record effect).Waits := by
  refine ⟨waits.new, fun other member => ?_⟩
  rcases List.mem_append.mp member with early | last
  · exact waits.told other early
  · exact List.mem_singleton.mp last ▸ told

theorem Waits.tell (keeps : react.KeepsToItself) (waits : client.Waits) (callback : Callback) :
    (client.tell react callback).Waits := by
  unfold Client.tell
  split
  · rename_i observer _
    obtain ⟨embedder, same⟩ :=
      keeps observer callback (client.record (.toldObserver observer callback))
    rw [same]
    exact ⟨waits.new, (waits.record rfl).told⟩
  · exact waits

theorem Waits.carryOut (keeps : react.KeepsToItself) (waits : client.Waits)
    (action : SessionAction) : (carryOut react .none client action).Waits := by
  cases action with
  | tellAuthProblem | tellInitialized | tellCycleCompleted => exact waits.tell keeps _
  | tryPassword | tryToken | tryLsid => exact waits
  | listenToDirectory =>
    rw [Client.carryOut, listenToDirectory]
    split <;> exact ⟨waits.new, waits.told⟩
  | notifyPeers => exact ⟨waits.new, (waits.record rfl).told⟩

theorem Waits.run (keeps : react.KeepsToItself) (waits : client.Waits) (event : SessionEvent) :
    (run react client event .none).Waits := by
  have actions (actions : List SessionAction) {client : Client σ} (waits : client.Waits) :
      (actions.foldl (Client.carryOut react .none) client).Waits := by
    induction actions generalizing client with
    | nil => exact waits
    | cons action actions ih => exact ih (waits.carryOut keeps action)
  exact actions _ ⟨waits.new, waits.told⟩

/-- A success gives the share to its user, unless it has one. -/
theorem Unstarted.signIn (keeps : react.KeepsToItself) (unstarted : client.Unstarted location user)
    (userEmail : String) (event : SessionEvent) (listens : event.Listens) :
    (run react (client.adoptUser userEmail).2 event .none).Unstarted location
      (user.or (some userEmail)) := by
  have same := run_listens keeps (client.adoptUser userEmail).2 event listens .none
  have name : user.or (some userEmail) = some (client.username.getD userEmail) := by
    rw [unstarted.username]
    cases user <;> rfl
  have listened : (client.adoptUser userEmail).2.listenToDirectory.registry =
      Registry.listened location (user.or (some userEmail)) := by
    rw [name, ← Registry.listened_listen location user (client.username.getD userEmail) ?_,
      ← unstarted.registry]
    · rfl
    · intro known member
      rw [unstarted.username, Option.mem_def.mp member, Option.getD_some]
  have waits : (client.adoptUser userEmail).2.Waits := ⟨unstarted.new, unstarted.told⟩
  refine ⟨waits.run keeps event, ?_, ?_, ?_⟩
  · exact same.isShutDown.trans unstarted.running
  · exact same.username.trans name.symm
  · exact same.registry.trans listened

theorem Unstarted.call (keeps : react.KeepsToItself) (unstarted : client.Unstarted location user)
    {call : Call} (early : call.IsEarly) :
    (client.call react call).2.Unstarted location (user.or call.signsIn?) := by
  have deaf (event : SessionEvent) (deaf : ¬ event.Listens) :
      (run react client event .none).Unstarted location (user.or none) := by
    have same := run_sameStanding keeps client event deaf .none
    rw [Option.or_none]
    exact ⟨unstarted.run keeps event, same.isShutDown.trans unstarted.running,
      same.username.trans unstarted.username, same.registry.trans unstarted.registry⟩
  have refused (asks : call.Asks) (nobody : call.signsIn? = none) :
      (client.call react call).2.Unstarted location (user.or call.signsIn?) := by
    rw [call_refused react unstarted.new unstarted.running asks early, nobody, Option.or_none]
    exact unstarted
  cases call with
  | start | shutDown => exact absurd early id
  | offerPassword | offerLsid | skipSignIn => exact refused trivial rfl
  | setObserver | removeObserver =>
    change Unstarted location (user.or none) _
    rw [Option.or_none]
    exact ⟨⟨unstarted.new, unstarted.told⟩, unstarted.running, unstarted.username,
      unstarted.registry⟩
  | syncerReport report =>
    rw [call_prompted react (prompt?_syncerReport unstarted.running report)]
    exact deaf (.syncerAccount report.account) id
  | authReport report =>
    by_cases success : ∃ userEmail, report = .succeeded userEmail
    · obtain ⟨userEmail, rfl⟩ := success
      rw [call_prompted react (prompt?_signedIn unstarted.running userEmail)]
      exact unstarted.signIn keeps userEmail (.signedIn _) trivial
    · have noSuccess := not_exists.mp success
      have nobody : (Call.authReport report).signsIn? = none := by
        cases report with
        | succeeded userEmail => exact absurd rfl (noSuccess userEmail)
        | _ => rfl
      rw [call_prompted react (prompt?_authReport unstarted.running report noSuccess), nobody]
      exact deaf _ report.event_deaf

theorem Unstarted.acts (keeps : react.KeepsToItself)
    (unstarted : client.Unstarted location user) {early : List Call}
    (allEarly : ∀ call ∈ early, call.IsEarly) :
    (client.acts react (early.map .call)).Unstarted location
      (user.or (early.findSome? Call.signsIn?)) := by
  induction early generalizing client user with
  | nil => rwa [List.findSome?_nil, Option.or_none]
  | cons call rest ih =>
    obtain ⟨here, later⟩ := List.forall_mem_cons.mp allEarly
    have next := ih (unstarted.call keeps here) later
    rw [Option.or_assoc] at next
    rw [List.findSome?_cons]
    generalize call.signsIn? = signed at next ⊢
    cases signed <;> exact next

/-! ## Nothing happens until a report is heeded -/

theorem run_quiet (react : Reaction σ) (client : Client σ) {event : SessionEvent}
    (quiet : client.session.onEvent event = (client.session, [])) (material : SignInMaterial) :
    run react client event material = client := by
  rw [run, quiet]
  rfl

/-- A client whose session is new makes nothing of a call that comes early, unless that
changes the observer or is a report that is heeded. -/
theorem call_idle (react : Reaction σ) (new : client.isInitialized = false)
    (running : client.isShutDown = false) (session : client.session = .initial) {call : Call}
    (early : call.IsEarly) (idle : call.isHeeded = false) :
    (client.call react call).2 =
      { client with observer := call.observerAfter client.observer } := by
  have refused (asks : call.Asks) : (client.call react call).2 = client := by
    rw [call_refused react new running asks early]
  cases call with
  | start | shutDown => exact absurd early id
  | offerPassword | offerLsid | skipSignIn => exact refused trivial
  | setObserver | removeObserver => rfl
  | syncerReport report =>
    have unusable : report.account.isUsable = false := idle
    have quiet : client.session.onEvent (.syncerAccount report.account) = (client.session, []) := by
      rw [session]
      change Session.initial.onAccount report.account = _
      simp [Session.onAccount, Session.initial, unusable]
    rw [call_prompted react (prompt?_syncerReport running report)]
    exact run_quiet react client quiet .none
  | authReport report =>
    have prompted := prompt?_authReport running report
    cases report with
    | attemptStarted =>
      rw [call_prompted react (prompted nofun)]
      have quiet : client.session.onEvent .attemptStarted = (client.session, []) := rfl
      exact run_quiet react client quiet .none
    | other =>
      have quiet : client.session.onEvent .otherReport = (client.session, []) := by
        rw [session]
        rfl
      rw [call_prompted react (prompted nofun)]
      exact run_quiet react client quiet .none
    | succeeded | accountRefused | serviceRefused | serviceUserNotSignedUp | serviceUnreachable =>
      cases idle

theorem acts_idle (react : Reaction σ) (new : client.isInitialized = false)
    (running : client.isShutDown = false) (session : client.session = .initial)
    {early : List Call} (allEarly : ∀ call ∈ early, call.IsEarly)
    (idle : ∀ call ∈ early, call.isHeeded = false) :
    client.acts react (early.map .call) =
      { client with observer := early.foldl Call.observerAfter client.observer } := by
  induction early generalizing client with
  | nil => rfl
  | cons call rest ih =>
    obtain ⟨here, later⟩ := List.forall_mem_cons.mp allEarly
    obtain ⟨quiet, still⟩ := List.forall_mem_cons.mp idle
    have first := call_idle react new running session here quiet
    rw [List.map_cons, Client.acts, List.foldl_cons, act, first]
    exact ih new running session later still

/-- A session stays as an event made it while its actions are carried out, but for what it
owes; an attempt has nothing at hand here. -/
theorem run_session (keeps : react.KeepsToItself) (client : Client σ) (event : SessionEvent) :
    ∃ owes, (run react client event .none).session =
      { (client.session.onEvent event).1 with owesNotification := owes } := by
  let made (after : Client σ) : Prop := ∃ owes,
    after.session = { (client.session.onEvent event).1 with owesNotification := owes }
  have mindful : Mindful made := fun _ _ holds same =>
    holds.imp fun _ session => same.session.trans session
  have actions (actions : List SessionAction) {after : Client σ} (holds : made after) :
      made (actions.foldl (carryOut react .none) after) := by
    induction actions generalizing after with
    | nil => exact holds
    | cons action actions ih =>
      refine ih ?_
      by_cases notifies : action = .notifyPeers
      · -- the one action whose result the session hears of
        obtain ⟨owes, session⟩ := holds
        rw [notifies]
        change ∃ owes, (after.session.onEvent
          (.notificationTried after.services.notifyPeers.1)).1 = _
        rw [session]
        cases after.services.notifyPeers.1 with
        | true => exact ⟨false, rfl⟩
        | false => exact ⟨owes, rfl⟩
      · exact mindful.carryOut (mindful.preserved keeps) holds (by cases action <;> rfl) notifies
  exact actions _ ⟨_, rfl⟩

/-- A report that is heeded leaves its mark on a new session: somebody signed in, there is a
problem with signing in, or the first download has ended. -/
theorem call_heeded (keeps : react.KeepsToItself) (running : client.isShutDown = false)
    (session : client.session = .initial) {call : Call} (heeded : call.isHeeded = true) :
    (client.call react call).2.session ≠ .initial := by
  have marked {after : Client σ} (unmoved : after.session = .initial) {event : SessionEvent}
      (marks : ∀ owes, { (Session.initial.onEvent event).1 with owesNotification := owes } ≠
        Session.initial) : (run react after event .none).session ≠ .initial := by
    obtain ⟨owes, same⟩ := run_session keeps after event
    rw [same, unmoved]
    exact marks owes
  cases call with
  | syncerReport report =>
    rw [call_prompted react (prompt?_syncerReport running report)]
    refine marked session fun owes same => ?_
    have usable : report.account.isUsable = true := heeded
    have ended := congrArg Session.firstSyncDone same
    change (Session.initial.onAccount report.account).1.firstSyncDone = false at ended
    simp [Session.onAccount, Session.initial, usable, Session.becomeReady] at ended
  | authReport report =>
    have prompted := prompt?_authReport running report
    cases report with
    | succeeded userEmail =>
      rw [call_prompted react (prompt?_signedIn running userEmail)]
      have unmoved : (client.adoptUser userEmail).2.session = .initial := session
      have listens : (SessionEvent.signedIn (client.adoptUser userEmail).1).Listens := trivial
      refine marked unmoved fun owes same => ?_
      have authenticated := (Session.initial.listens_onEvent listens).1
      exact Bool.false_ne_true ((congrArg Session.authenticated same).symm.trans authenticated)
    | accountRefused refusal =>
      rw [call_prompted react (prompted nofun)]
      cases refusal <;>
        exact marked session fun owes same => nomatch congrArg Session.authProblem same
    | serviceRefused | serviceUserNotSignedUp | serviceUnreachable =>
      rw [call_prompted react (prompted nofun)]
      exact marked session fun owes same => nomatch congrArg Session.authProblem same
    | attemptStarted | other => cases heeded
  | start | offerPassword | offerLsid | setObserver | removeObserver | skipSignIn | shutDown =>
    cases heeded

/-- Before a client is started it refuses all requests but that one, asks nothing of the auth
watcher and does not wake the syncer. It is like new but for its observer as long as no
report is heeded, which is as long as its session is new. Of the successes that are reported
the first one gives the share to a user, whose directory is opened and listened to. -/
theorem beforeStart_reports (keeps : react.KeepsToItself) (settings : Settings)
    (services : Services) (embedder : σ) {early : List Call}
    (allEarly : ∀ call ∈ early, call.IsEarly) :
    let new := create settings services embedder
    let after (calls : List Call) := new.acts react (calls.map .call)
    ((∀ call ∈ early, call.isHeeded = false) ↔
        ∀ calls, calls <+: early → (after calls).session = .initial) ∧
      ((∀ call ∈ early, call.isHeeded = false) → ∀ other : Reaction σ,
        new.acts other (early.map .call) =
          { new with observer := early.foldl Call.observerAfter none }) ∧
      (after early).Unstarted settings.directory.location (early.findSome? Call.signsIn?) ∧
      ∀ call : Call, call.Asks → call.IsEarly →
        (after early).call react call = (.error (.sync .notInitialized), after early) := by
  intro new after
  have unstarted {calls : List Call} (allEarly : ∀ call ∈ calls, call.IsEarly) :
      (after calls).Unstarted settings.directory.location (calls.findSome? Call.signsIn?) :=
    (create_unstarted settings services embedder).acts keeps allEarly
  have idle (other : Reaction σ) {calls : List Call} (allEarly : ∀ call ∈ calls, call.IsEarly)
      (quiet : ∀ call ∈ calls, call.isHeeded = false) :
      new.acts other (calls.map .call) =
        { new with observer := calls.foldl Call.observerAfter none } :=
    acts_idle other rfl rfl rfl allEarly quiet
  refine ⟨⟨fun quiet calls start => ?_, fun still call member => Bool.eq_false_iff.mpr ?_⟩,
    fun quiet other => idle other allEarly quiet, unstarted allEarly, fun call asks here => ?_⟩
  · have part := start.subset
    exact congrArg session (idle react (fun call member => allEarly call (part member))
      fun call member => quiet call (part member))
  · -- a report that is heeded would be the end of a run that leaves the session as it is
    intro heeded
    obtain ⟨earlier, later, rfl⟩ := List.append_of_mem member
    have before := unstarted (fun other known => allEarly other (List.mem_append_left _ known))
    have next := still (earlier ++ [call]) ⟨later, by simp⟩
    refine call_heeded keeps before.running (still earlier (List.prefix_append _ _)) heeded ?_
    simpa [after, Client.acts, act] using next
  · exact call_refused react (unstarted allEarly).new (unstarted allEarly).running asks here

/-- Requests and reports that come before a client is started. -/
def hasty : List Call :=
  [.setObserver "main", .offerLsid "cookie", .authReport .other, .skipSignIn "w",
    .authReport (.succeeded "u"), .authReport (.succeeded "v"), .syncerReport (.statusChanged true)]

theorem beforeStart_reports_hasty :
    (Reaction.quiet : Reaction Unit).KeepsToItself ∧ (∀ call ∈ hasty, call.IsEarly) ∧
      ((create {} {} () : Client Unit).acts .quiet (hasty.map .call)).Unstarted
        ({} : Settings).directory.location (some "u") ∧
      ¬ ∀ calls, calls <+: hasty →
        ((create {} {} () : Client Unit).acts .quiet (calls.map .call)).session = .initial := by
  have allEarly : ∀ call ∈ hasty, call.IsEarly := by simp [hasty, Call.IsEarly]
  obtain ⟨idle, -, unstarted, -⟩ :=
    beforeStart_reports Reaction.quiet_keepsToItself {} {} () allEarly
  refine ⟨Reaction.quiet_keepsToItself, allEarly, unstarted, fun still => ?_⟩
  exact Bool.noConfusion (idle.mpr still (.authReport (.succeeded "u")) (by simp [hasty]))

/-- A success that is reported before the client is started is told to the observer, gives
the share to the user and makes the client listen; and the user stays when it is started. -/
theorem beforeStart_signedIn :
    let new : Client Unit := create {} {} ()
    let client := new.acts .quiet
      [.call (.setObserver "main"), .call (.authReport (.succeeded "u"))]
    client.isInitialized = false ∧ client.session ≠ .initial ∧ client.username = some "u" ∧
      client.registry.directories.map (·.hasListener) = [true] ∧
      Effect.callbacks client.effects = [.authProblem .healthy] ∧
      (client.act .quiet (.call (.start none))).username = some "u" ∧
      ((new.act .quiet (.call (.setObserver "main"))).act .quiet (.call (.start none))).username =
        none := by
  intro new client
  have unstarted := (create_unstarted {} {} ()).acts Reaction.quiet_keepsToItself
    (by simp [Call.IsEarly] : ∀ call ∈ [.setObserver "main", .authReport (.succeeded "u")],
      Call.IsEarly call)
  refine ⟨rfl, fun same => ?_, rfl, ?_, rfl, rfl, rfl⟩
  · exact Bool.noConfusion (congrArg Session.authenticated same)
  · have registry : client.registry = Registry.listened _ (some "u") := unstarted.registry
    rw [registry]
    rfl

end Client

end SharedTree
