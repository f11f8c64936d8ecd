import SharedTree.Proofs.CallingBack
import SharedTree.Proofs.Readiness
import SharedTree.Proofs.Shutdown

/-! The directory that a client gives out. It is the one that is open under the name of
the client's user, and the client listens to it. The session counts as signed in a little
earlier than the directory is listened to: in between the observer hears that all is well,
and may turn to the client. So the invariant `Stands` leaves that one thing out while it
is due. An observer that shuts the client down at just that moment has it opened again
right after; so it is only for observers that do not that a client which was shut down
gives nothing out. -/
namespace SharedTree

/-! ## Directories and their names -/

namespace Registry

/-- What is open under a name bears that name. -/
def NamesKept (r : Registry) : Prop :=
  ∀ name id, r.get? name = some id → ∃ hook, r.standing id = some (name, hook)

theorem namesKept_new (location : String) : NamesKept { location } := by
  intro name id found
  simp [get?] at found

theorem NamesKept.openAs {r : Registry} (kept : r.NamesKept) (name : String) :
    (r.openAs name).2.NamesKept := by
  cases found : r.get? name with
  | some id => rwa [openAs_open found]
  | none =>
    obtain ⟨id, unused, -, standing, get?⟩ := openAs_new found
    intro other k known
    rw [get?] at known
    rw [standing]
    split at known
    · rename_i same
      cases known
      exact ⟨false, by rw [if_pos rfl, same]⟩
    · obtain ⟨hook, old⟩ := kept other k known
      have different : k ≠ id := by
        rintro rfl
        cases unused.symm.trans old
      exact ⟨hook, by rw [if_neg different, old]⟩

theorem NamesKept.hook {r : Registry} (kept : r.NamesKept) (id : DirectoryId) (hook : Bool) :
    (r.modify id fun d => { d with hasListener := hook }).NamesKept := by
  intro name k known
  obtain ⟨before, old⟩ := kept name k known
  rw [standing_hook, old]
  split
  · exact ⟨hook, rfl⟩
  · exact ⟨before, rfl⟩

theorem NamesKept.close {r : Registry} (kept : r.NamesKept) (name : String) :
    (r.close name).2.NamesKept := by
  intro other k known
  rw [get?_close] at known
  split at known
  · cases known
  · exact kept other k known

end Registry

/-- Only a success makes a session signed in. -/
theorem Session.onEvent_authenticated (s : Session) {event : SessionEvent}
    (deaf : ¬ event.Listens) : (s.onEvent event).1.authenticated = s.authenticated := by
  have advance := s.onEvent_advance event
  have unheard := s.deaf_onEvent deaf
  generalize s.onEvent event = result at advance unheard ⊢
  obtain ⟨next, actions⟩ := result
  refine Bool.eq_iff_iff.mpr ⟨fun known => ?_, advance.keeps.authenticated⟩
  cases advance with
  | stays _ _ listens => exact (listens known).resolve_right unheard
  | completes _ _ _ _ listens =>
    exact listens.resolve_right fun heard => unheard (List.mem_append_left _ heard)

theorem Session.onEvent_known (s : Session) (event : SessionEvent)
    (known : s.phase = .ready → s.authenticated = true)
    (ready : (s.onEvent event).1.phase = .ready) :
    (s.onEvent event).1.authenticated = true := by
  have advance := s.onEvent_advance event
  generalize s.onEvent event = result at advance ready ⊢
  obtain ⟨next, actions⟩ := result
  cases advance with
  | stays keeps waits => exact keeps.authenticated (known (waits ready))
  | completes _ _ authenticated => exact authenticated

namespace Client
variable {σ : Type} {react : Reaction σ} {client after told : Client σ}

/-! ## Listening and stopping -/

/-- The directory of a client's user is open, and listened to, once the client listens. -/
theorem listenToDirectory_hooked (kept : client.registry.NamesKept) {name : String}
    (user : client.username = some name) :
    ∃ id, client.listenToDirectory.registry.get? name = some id ∧
      client.listenToDirectory.registry.Hooked id name := by
  have found := client.registry.get?_openAs name
  obtain ⟨hook, known⟩ := kept.openAs name name _ found
  refine ⟨(client.registry.openAs name).1, ?_, ?_⟩
  · rw [listenToDirectory, user]
    exact found
  · rw [listenToDirectory, user, Registry.Hooked]
    dsimp only
    rw [Registry.standing_hook, if_pos rfl, known]
    rfl

theorem listenToDirectory_namesKept (kept : client.registry.NamesKept) :
    client.listenToDirectory.registry.NamesKept := by
  unfold listenToDirectory
  split
  · exact (kept.openAs _).hook _ true
  · exact kept

/-- Listening changes nothing but the directories. -/
theorem listenToDirectory_same (client : Client σ) :
    ∃ registry, client.listenToDirectory = { client with registry } := by
  unfold listenToDirectory
  split
  · exact ⟨_, rfl⟩
  · exact ⟨_, rfl⟩

/-- A client that stops closes the directory of its user. -/
structure Closes (client after : Client σ) : Prop where
  down : after.isShutDown = true
  isInitialized : after.isInitialized = client.isInitialized
  session : after.session = client.session
  username : after.username = client.username
  registry : after.registry = client.closeDirectory.registry

theorem shutDown_closes (running : client.isShutDown = false) : client.Closes client.shutDown := by
  have closed : client.shutDown = { client.shutDown with
      isShutDown := true
      isInitialized := client.isInitialized
      session := client.session
      username := client.username
      registry := client.closeDirectory.registry } := by
    unfold shutDown
    rw [if_neg (Bool.eq_false_iff.mp running)]
    -- neither the services nor the watch on the network have to do with any of these
    cases client with
    | mk =>
      simp only [callOffNetworkWatch, closeDirectory, record]
      split
      · split <;> rfl
      · rfl
  rw [closed]
  exact ⟨rfl, rfl, rfl, rfl, rfl⟩

theorem closeDirectory_namesKept (kept : client.registry.NamesKept) :
    client.closeDirectory.registry.NamesKept := by
  unfold closeDirectory
  split
  · split
    · exact (kept.close _).hook _ false
    · exact kept
  · exact kept

/-! ## Where a client stands -/

/-- What stands of a client at any time after it was started. It may be due that it
listens to its user's directory. -/
structure Stands (due : Bool) (client : Client σ) : Prop where
  started : client.isInitialized = true
  known : client.session.phase = .ready → client.session.authenticated = true
  named : client.registry.NamesKept
  shares : client.isShutDown = false → client.session.authenticated = true →
    ∃ name id, client.username = some name ∧ client.registry.get? name = some id
  heeds : due = false → client.session.authenticated = true → ∀ name id,
    client.username = some name → client.registry.get? name = some id →
    client.registry.Hooked id name

theorem Stands.of_begun {location : String} (begun : client.Begun location) :
    client.Stands false := by
  have stranger : client.session.authenticated ≠ true := by simp [begun.session, Session.initial]
  refine ⟨begun.started, ?_, ?_, fun _ known => absurd known stranger,
    fun _ known => absurd known stranger⟩
  · simp [begun.session, Session.initial]
  · rcases begun.share with ⟨-, nothing⟩ | ⟨name, -, opened⟩
    · exact nothing ▸ Registry.namesKept_new location
    · exact opened ▸ (Registry.namesKept_new location).openAs name

theorem stands_carried (due : Bool) : Carried (σ := σ) (Stands due) where
  same {client after} same stands := by
    constructor
    case started => exact same.isInitialized.trans stands.started
    case known => exact same.session ▸ stands.known
    case named =>
      intro name id
      rw [same.get?, same.standing]
      exact stands.named name id
    case shares =>
      intro running
      rw [same.isShutDown] at running
      simp only [same.session, same.username, same.get?]
      exact stands.shares running
    case heeds =>
      simp only [Registry.Hooked, same.session, same.username, same.get?, same.standing]
      exact stands.heeds
  hears {client event} deaf stands := by
    have signed := client.session.onEvent_authenticated deaf
    constructor
    case started => exact stands.started
    case known => exact client.session.onEvent_known event stands.known
    case named => exact stands.named
    case shares => exact fun running known => stands.shares running (signed ▸ known)
    case heeds => exact fun done known => stands.heeds done (signed ▸ known)

/-- A success is known before its directory is listened to. -/
theorem Stands.bound {due : Bool} (stands : client.Stands due) (name : String)
    {event : SessionEvent} (listens : event.Listens) : (client.bound name event).Stands true where
  started := stands.started
  known _ := (client.session.listens_onEvent listens).1
  named := stands.named.openAs name
  shares _ _ := ⟨name, _, rfl, client.registry.get?_openAs name⟩
  heeds := nofun

theorem Stands.listenToDirectory {due : Bool} (stands : client.Stands due) :
    client.listenToDirectory.Stands false := by
  have named := listenToDirectory_namesKept stands.named
  cases user : client.username with
  | none =>
    have unchanged : client.listenToDirectory = client := by rw [Client.listenToDirectory, user]
    rw [unchanged]
    exact ⟨stands.started, stands.known, stands.named, stands.shares,
      fun _ _ name _ given => by cases user.symm.trans given⟩
  | some name =>
    obtain ⟨id, found, hooked⟩ := listenToDirectory_hooked stands.named user
    obtain ⟨registry, same⟩ := client.listenToDirectory_same
    rw [same] at named found hooked ⊢
    refine ⟨stands.started, stands.known, named, fun _ _ => ⟨name, id, user, found⟩, ?_⟩
    intro _ _ other k given there
    cases user.symm.trans given
    cases found.symm.trans there
    exact hooked

theorem Stands.shutDown {due : Bool} (stands : client.Stands due)
    (running : client.isShutDown = false) : client.shutDown.Stands due := by
  have closes := shutDown_closes running
  constructor
  case started => exact closes.isInitialized.trans stands.started
  case known => exact closes.session ▸ stands.known
  case named => exact closes.registry ▸ closeDirectory_namesKept stands.named
  case shares =>
    intro up
    cases closes.down.symm.trans up
  case heeds =>
    intro _ _ name id user found
    rw [closes.username] at user
    rw [closes.registry, client.closeDirectory_gone user] at found
    cases found

theorem stands_invariant (may : Act → Prop) (manners : Reaction σ → Prop) :
    Invariant may manners Stands := by
  refine .of_carried stands_carried (fun _ _ stands => stands.started) ?_ ?_
  · intro react _ preserves due client told act event name _ stands listens _ _ tells
    have bound := stands.bound name listens
    -- the observer may turn to the client here, while the directory is not listened to yet
    have listening :=
      ((stands_carried true).told (preserves true) bound tells).listenToDirectory
    cases due with
    | false => exact listening
    | true => exact ⟨listening.started, listening.known, listening.named, listening.shares, nofun⟩
  · intro due client _ running stands
    exact stands.shutDown running

/-! ## Shutting down for good -/

/-- A client that was started and shut down. -/
structure Down (client : Client σ) : Prop where
  started : client.isInitialized = true
  down : client.isShutDown = true

theorem down_invariant (may : Act → Prop) (manners : Reaction σ → Prop) :
    Invariant may manners fun _ : Unit => Down := by
  refine .of_carried (fun _ => ⟨?_, ?_⟩) (fun _ _ stopped => stopped.started) ?_ ?_
  · intro client after same stopped
    exact ⟨same.isInitialized.trans stopped.started, same.isShutDown.trans stopped.down⟩
  · exact fun _ stopped => ⟨stopped.started, stopped.down⟩
  · intro react _ _ _ client told act event name _ stopped _ running
    cases stopped.down.symm.trans running
  · intro _ client _ running stopped
    cases stopped.down.symm.trans running

/-- A client that was started and was not shut down. -/
structure Up (client : Client σ) : Prop where
  started : client.isInitialized = true
  running : client.isShutDown = false

theorem up_carried : Carried (σ := σ) Up where
  same same up := ⟨same.isInitialized.trans up.started, same.isShutDown.trans up.running⟩
  hears _ up := ⟨up.started, up.running⟩

theorem Up.listenToDirectory (up : client.Up) : client.listenToDirectory.Up := by
  obtain ⟨registry, same⟩ := client.listenToDirectory_same
  exact same ▸ ⟨up.started, up.running⟩

theorem up_invariant (manners : Reaction σ → Prop) :
    Invariant (· ≠ .call .shutDown) manners fun _ : Unit => Up := by
  refine .of_carried (fun _ => up_carried) (fun _ _ up => up.started) ?_ ?_
  · intro react _ preserves _ client told act event name _ up _ _ _ tells
    have bound : (client.bound name event).Up := ⟨up.started, up.running⟩
    exact (up_carried.told (preserves ()) bound tells).listenToDirectory
  · exact fun _ _ asked => absurd rfl asked

end Client

/-- An observer that does not shut the client down when it is told that all is well. -/
def Reaction.LeavesRunning (react : Reaction σ) : Prop :=
  ∀ observer client, (react observer (.authProblem .healthy) client).isShutDown = client.isShutDown

namespace Client
variable {σ : Type} {react : Reaction σ} {client after told : Client σ}

theorem told_running (leaves : react.LeavesRunning) {name : String} {event : SessionEvent}
    (running : client.isShutDown = false)
    (tells : told = client.bound name event ∨
      told = (client.bound name event).tell react (.authProblem .healthy)) :
    told.isShutDown = false := by
  rcases tells with rfl | rfl
  · exact running
  · unfold tell
    split
    · exact (leaves _ _).trans running
    · exact running

/-- A client that was started, and whose user's directory is closed if it was shut down. -/
structure Gone (client : Client σ) : Prop where
  started : client.isInitialized = true
  closed : client.isShutDown = true → ∀ name, client.username = some name →
    client.registry.get? name = none

theorem gone_carried : Carried (σ := σ) Gone where
  same {client after} same gone := by
    refine ⟨same.isInitialized.trans gone.started, ?_⟩
    simp only [same.isShutDown, same.username, same.get?]
    exact gone.closed
  hears _ gone := ⟨gone.started, gone.closed⟩

theorem gone_invariant (may : Act → Prop) :
    Invariant (σ := σ) may Reaction.LeavesRunning fun _ : Unit => Gone := by
  refine .of_carried (fun _ => gone_carried) (fun _ _ gone => gone.started) ?_ ?_
  · intro react leaves preserves _ client told act event name _ gone _ running _ tells
    have bound : (client.bound name event).Gone :=
      ⟨gone.started, fun down => by cases running.symm.trans down⟩
    -- had it been shut down by now, listening would open the directory that was closed
    have running := told_running leaves running tells
    obtain ⟨registry, same⟩ := told.listenToDirectory_same
    rw [same]
    exact ⟨(gone_carried.told (preserves ()) bound tells).started,
      fun down => by cases running.symm.trans down⟩
  · intro _ client _ running gone
    have closes := shutDown_closes running
    refine ⟨closes.isInitialized.trans gone.started, fun _ name user => ?_⟩
    rw [closes.username] at user
    rw [closes.registry]
    exact client.closeDirectory_gone user

/-! ## What is given out -/

theorem userDirectory_eq_ok_iff {id : DirectoryId} :
    client.userDirectory = .ok id ↔ client.session.isReady = true ∧
      ∃ name, client.username = some name ∧ client.registry.get? name = some id := by
  unfold userDirectory
  cases client.session.isReady with
  | false => simp
  | true =>
    cases client.username with
    | none => simp
    | some name => cases found : client.registry.get? name <;> simp [found]

theorem Stands.userDirectory (stands : client.Stands false) {id : DirectoryId}
    (given : client.userDirectory = .ok id) :
    ∃ name, client.username = some name ∧ client.registry.get? name = some id ∧
      client.registry.Hooked id name := by
  obtain ⟨ready, name, user, found⟩ := userDirectory_eq_ok_iff.mp given
  exact ⟨name, user, found,
    stands.heeds rfl (stands.known (of_decide_eq_true ready)) name id user found⟩

theorem Stands.exists_userDirectory_iff {due : Bool} (stands : client.Stands due)
    (running : client.isShutDown = false) :
    (∃ id, client.userDirectory = .ok id) ↔ client.session.isReady = true := by
  simp only [userDirectory_eq_ok_iff]
  constructor
  · rintro ⟨id, ready, -⟩
    exact ready
  · intro ready
    obtain ⟨name, id, user, found⟩ :=
      stands.shares running (stands.known (of_decide_eq_true ready))
    exact ⟨id, ready, name, user, found⟩

theorem Gone.userDirectory (gone : client.Gone) (down : client.isShutDown = true)
    (id : DirectoryId) : client.userDirectory ≠ .ok id := by
  intro given
  obtain ⟨-, name, user, found⟩ := userDirectory_eq_ok_iff.mp given
  rw [gone.closed down name user] at found
  cases found

theorem shutDown_down (client : Client σ) : client.shutDown.isShutDown = true := by
  cases running : client.isShutDown with
  | false => exact (shutDown_closes running).down
  | true => rwa [shutDown, if_pos running]

/-- A client is shut down for good by whoever asks for it. -/
theorem acts_down {may : Act → Prop} {manners : Reaction σ → Prop}
    (responds : react.Responds may manners) {acts : List Act} (allowed : ∀ act ∈ acts, may act)
    (stands : client.Stands false) (asked : .call .shutDown ∈ acts) :
    (client.acts react acts).isShutDown = true := by
  obtain ⟨before, later, rfl⟩ := List.append_of_mem asked
  obtain ⟨early, late⟩ := List.forall_mem_append.mp allowed
  rw [Client.acts, List.foldl_append, List.foldl_cons]
  have there : (client.acts react before).Stands false :=
    (stands_invariant may manners).acts responds early stands
  have stopped : ((client.acts react before).act react (.call .shutDown)).Down :=
    ⟨((stands_invariant may manners).act responds.mannered
      (responds.preserves (stands_invariant may manners)) false _ _
      (late _ List.mem_cons_self) there).started, shutDown_down _⟩
  exact ((down_invariant may manners).acts responds (i := ())
    (fun act member => late act (List.mem_cons_of_mem _ member)) stopped).down

/-! ## Every observer that calls back -/

/-- Whoever observes a client that was started, and however it calls back: what the client
gives out is the directory that is open under its user's name, and it listens to it; while
it runs, it gives that out once the session is ready. Shutting down is for good. After it
the client gives out nothing, if the observer does not shut it down when all is well. -/
theorem userDirectory_watched (responds : react.Responds (fun _ => True) fun _ => True)
    (settings : Settings) (services : Services) (embedder : σ) (observer : Option String)
    (lsid : Option String) (acts : List Act) :
    let client := (started react settings services embedder observer lsid).acts react acts
    (∀ id, client.userDirectory = .ok id →
      ∃ name, client.username = some name ∧ client.registry.get? name = some id ∧
        client.registry.Hooked id name) ∧
    (client.isShutDown = false →
      ((∃ id, client.userDirectory = .ok id) ↔ client.session.isReady = true)) ∧
    (.call .shutDown ∈ acts → client.isShutDown = true) ∧
    (react.Responds (· ≠ .call .shutDown) (fun _ => True) →
      (client.isShutDown = true ↔ .call .shutDown ∈ acts)) ∧
    (react.Responds (fun _ => True) Reaction.LeavesRunning →
      ((∃ id, client.userDirectory = .ok id) ↔
        client.session.isReady = true ∧ client.isShutDown = false)) := by
  intro client
  have anything : ∀ act ∈ acts, True := fun _ _ => trivial
  have begins : (started react settings services embedder observer lsid).Stands false :=
    (stands_invariant _ _).afterStart settings services embedder observer lsid responds
      (stands_carried false) Stands.of_begun (List.forall_mem_nil _)
  have stands : client.Stands false := (stands_invariant _ _).acts responds anything begins
  have asked := acts_down responds anything begins
  have given := stands.exists_userDirectory_iff
  refine ⟨fun id => stands.userDirectory, given, asked, fun spares => ?_, fun leaves => ?_⟩
  · refine ⟨fun down => ?_, asked⟩
    by_contra unasked
    have up : client.Up :=
      (up_invariant _).afterStart settings services embedder observer lsid spares (i := ())
        up_carried (fun begun => ⟨begun.started, begun.running⟩)
        fun act member same => unasked (same ▸ member)
    cases up.running.symm.trans down
  · have gone : client.Gone :=
      (gone_invariant _).afterStart settings services embedder observer lsid leaves (i := ())
        gone_carried (fun begun => ⟨begun.started, fun down => by
          cases begun.running.symm.trans down⟩) anything
    cases down : client.isShutDown with
    | false => simpa using given down
    | true =>
      simp only [reduceCtorEq, and_false, iff_false, not_exists]
      exact gone.userDirectory down

end Client

/-! ## Two observers that call back -/

namespace Reaction

/-- An observer that offers a cookie when there is a problem. -/
def offering : Reaction Unit := fun _ callback client =>
  match callback with
  | .authProblem problem =>
    if problem.isHealthy then client else client.act .quiet (.call (.offerLsid "cookie"))
  | _ => client

theorem offering_responds {may : Act → Prop} (allowed : may (.call (.offerLsid "cookie"))) :
    offering.Responds may LeavesRunning := by
  refine .calls (fun _ _ _ => .quiet) (fun _ _ _ => .listens quiet_keepsToItself fun _ _ => rfl)
    ?_ fun _ _ => rfl
  intro observer callback client
  unfold offering
  split
  · split
    · exact .still
    · exact Client.Worked.still.act allowed
  · exact .still

/-- An observer that shuts the client down when it hears of signing in, however it went. -/
def leaving : Reaction Unit := fun _ callback client =>
  match callback with
  | .authProblem _ => client.act .quiet (.call .shutDown)
  | _ => client

theorem leaving_responds {may : Act → Prop} (allowed : may (.call .shutDown)) :
    leaving.Responds may fun _ => True := by
  refine .calls (fun _ _ _ => .quiet) (fun _ _ _ => .listens quiet_keepsToItself trivial) ?_ trivial
  intro observer callback client
  unfold leaving
  split
  · exact Client.Worked.still.act allowed
  · exact .still

end Reaction

namespace Client

/-- The share can be used, and then signing in works. -/
def signingIn : List Act :=
  [.call (.syncerReport (.statusChanged true)), .call (.authReport (.succeeded "u"))]

/-- A client of a remembered user who signed in. -/
def resumed (react : Reaction Unit) : Client Unit :=
  (started react {} { remembered := some ⟨"u", "T"⟩ } () (some "main") none).acts react signingIn

theorem userDirectory_watched_offering :
    Reaction.offering.Responds (fun _ => True) (fun _ => True) ∧
      Reaction.offering.Responds (fun _ => True) Reaction.LeavesRunning ∧
      (resumed .offering).userDirectory = .ok ⟨0⟩ ∧
      (∃ name, (resumed .offering).username = some name ∧
        (resumed .offering).registry.get? name = some ⟨0⟩ ∧
        (resumed .offering).registry.Hooked ⟨0⟩ name) ∧
      (resumed .offering).isShutDown = false ∧
      ((∃ id, (resumed .offering).userDirectory = .ok id) ↔
        (resumed .offering).session.isReady = true ∧ (resumed .offering).isShutDown = false) := by
  have leaves : Reaction.offering.Responds (fun _ => True) Reaction.LeavesRunning :=
    Reaction.offering_responds trivial
  have responds := leaves.mono fun _ _ => trivial
  have spares : Reaction.offering.Responds (· ≠ .call .shutDown) fun _ => True :=
    (Reaction.offering_responds (by simp)).mono fun _ _ => trivial
  obtain ⟨watched, -, -, asked, given⟩ := userDirectory_watched responds
    {} { remembered := some ⟨"u", "T"⟩ } () (some "main") none signingIn
  have ready : (resumed .offering).userDirectory = .ok ⟨0⟩ := by rfl
  have running : (resumed .offering).isShutDown = false := by
    refine Bool.eq_false_iff.mpr fun down => ?_
    have unasked := (asked spares).mp down
    simp [signingIn] at unasked
  exact ⟨responds, leaves, ready, watched _ ready, running, given leaves⟩

/-- Shut down while it is told that all is well, a client opens its user's directory once
more, listens to it, and gives it out. -/
theorem userDirectory_leaving :
    Reaction.leaving.Responds (fun _ => True) (fun _ => True) ∧
      (resumed .leaving).isShutDown = true ∧ (resumed .leaving).userDirectory = .ok ⟨1⟩ :=
  ⟨Reaction.leaving_responds trivial, rfl, rfl⟩

end Client

end SharedTree
