import Mathlib.Data.List.Forall2
import SharedTree.Proofs.SharedDirectory

/-! The one user of a client. Unless signing in is skipped, a client takes whoever is named
first for its user, and keeps to it: all its directories bear that name, and a password
for anybody else is refused. It opens one directory at most, so long as it is not shut
down while it is told that all is well, which makes it open a second one. -/
namespace SharedTree

/-! ## Names that differ in case -/

/-- The same character, or a capital letter of the first 128 characters and its small one. -/
def SameLetter (a b : Char) : Prop :=
  a = b ∨ ∃ i < 26, (a.toNat = 65 + i ∧ b.toNat = 97 + i) ∨ (a.toNat = 97 + i ∧ b.toNat = 65 + i)

theorem toNat_toLower (c : Char) :
    c.toLower.toNat = if 65 ≤ c.toNat ∧ c.toNat ≤ 90 then c.toNat + 32 else c.toNat := by
  have capital : c.val ≥ 'A'.val ∧ c.val ≤ 'Z'.val ↔ 65 ≤ c.toNat ∧ c.toNat ≤ 90 := by
    simp only [ge_iff_le, UInt32.le_iff_toNat_le]
    exact .rfl
  unfold Char.toLower
  by_cases within : 65 ≤ c.toNat ∧ c.toNat ≤ 90
  · rw [dif_pos (capital.mpr within), if_pos within]
    change (c.val + 32).toNat = c.val.toNat + 32
    have small : c.val.toNat ≤ 90 := within.2
    rw [UInt32.toNat_add]
    exact Nat.mod_eq_of_lt (by simp; omega)
  · rw [dif_neg (mt capital.mp within), if_neg within]

theorem toLower_eq_iff {a b : Char} : a.toLower = b.toLower ↔ SameLetter a b := by
  rw [← Char.toNat_inj, toNat_toLower, toNat_toLower, SameLetter, ← Char.toNat_inj]
  constructor
  · intro same
    split at same <;> split at same
    · left; omega
    · right; exact ⟨a.toNat - 65, by omega, by omega⟩
    · right; exact ⟨b.toNat - 65, by omega, by omega⟩
    · left; omega
  · rintro (same | ⟨i, small, same⟩)
    · rw [same]
    · split <;> split <;> omega

theorem sameUser_iff {a b : String} :
    sameUser a b = true ↔ List.Forall₂ SameLetter a.toList b.toList := by
  rw [sameUser, decide_eq_true_eq, ← List.forall₂_eq_eq_eq, List.forall₂_map_left_iff,
    List.forall₂_map_right_iff]
  simp only [toLower_eq_iff]

/-! ## The names of directories -/

namespace Registry

/-- The name of a directory, open or closed. -/
def nameOf (r : Registry) (id : DirectoryId) : Option String := (r.standing id).map (·.1)

@[simp] theorem nameOf_hook (r : Registry) (id : DirectoryId) (hook : Bool) (k : DirectoryId) :
    (r.modify id fun d => { d with hasListener := hook }).nameOf k = r.nameOf k := by
  rw [nameOf, standing_hook]
  split
  · simp [nameOf, Function.comp_def]
  · rfl

theorem nameOf_openAs (r : Registry) (name : String) (k : DirectoryId) :
    (r.openAs name).2.nameOf k =
      if r.get? name = none ∧ k = (r.openAs name).1 then some name else r.nameOf k := by
  cases found : r.get? name with
  | some id =>
    rw [openAs_open found]
    simp
  | none =>
    obtain ⟨id, -, given, standing, -⟩ := openAs_new found
    rw [nameOf, standing, given]
    simp only [true_and]
    split <;> rfl

theorem nameOf_of_mem {r : Registry} {d : Directory} (member : d ∈ r.directories) :
    ∃ id, r.nameOf id = some d.name := by
  obtain ⟨i, there⟩ := List.mem_iff_getElem?.mp member
  exact ⟨⟨i⟩, by simp [nameOf, standing, directory?, there]⟩

/-- There is one directory at most, and it is open. -/
structure Single (r : Registry) : Prop where
  one : ∀ id k, r.nameOf id ≠ none → r.nameOf k ≠ none → id = k
  opened : ∀ id name, r.nameOf id = some name → r.get? name = some id

theorem single_new (location : String) : Single { location } := by
  constructor <;> simp [nameOf, standing, directory?]

/-- The one directory is not opened twice. -/
theorem Single.openAs {r : Registry} (single : r.Single) (name : String)
    (own : ∀ id other, r.nameOf id = some other → other = name) : (r.openAs name).2.Single := by
  cases found : r.get? name with
  | some id => rwa [openAs_open found]
  | none =>
    -- a directory that there is would bear the name, and be open under it
    have nothing (k : DirectoryId) : r.nameOf k = none := by
      cases old : r.nameOf k with
      | none => rfl
      | some other =>
        obtain rfl := own k other old
        cases found.symm.trans (single.opened k other old)
    have names (k : DirectoryId) :
        (r.openAs name).2.nameOf k = if k = (r.openAs name).1 then some name else none := by
      rw [nameOf_openAs, found, nothing]
      simp
    constructor
    · intro id k
      simp only [names]
      split <;> split <;> simp_all
    · intro id other
      rw [names]
      split
      · rintro ⟨⟩
        subst id
        exact r.get?_openAs name
      · rintro ⟨⟩

theorem length_le_one {r : Registry}
    (one : ∀ id k, r.nameOf id ≠ none → r.nameOf k ≠ none → id = k) :
    r.directories.length ≤ 1 := by
  by_contra several
  have named (i : Nat) (early : i < r.directories.length) : r.nameOf ⟨i⟩ ≠ none := by
    simp [nameOf, standing, directory?, early]
  have same := one ⟨0⟩ ⟨1⟩ (named 0 (by omega)) (named 1 (by omega))
  cases same

end Registry

/-- Anything but skipping to sign in. -/
def Act.SignsIn (act : Act) : Prop := ∀ name, act ≠ .call (.skipSignIn name)

namespace Client
variable {σ : Type} {react : Reaction σ} {client after told : Client σ}

theorem closeDirectory_nameOf (client : Client σ) (k : DirectoryId) :
    client.closeDirectory.registry.nameOf k = client.registry.nameOf k := by
  unfold closeDirectory
  split
  · split
    · exact Registry.nameOf_hook _ _ false k
    · rfl
  · rfl

theorem listenToDirectory_nameOf {name : String} (user : client.username = some name)
    (k : DirectoryId) :
    client.listenToDirectory.registry.nameOf k = (client.registry.openAs name).2.nameOf k := by
  unfold listenToDirectory
  rw [user]
  exact Registry.nameOf_hook _ _ true k

/-! ## The user stays -/

/-- The user of a client that was started. -/
structure Serves (name : String) (client : Client σ) : Prop where
  started : client.isInitialized = true
  user : client.username = some name

theorem serves_carried (name : String) : Carried (σ := σ) (Serves name) where
  same same serves :=
    ⟨same.isInitialized.trans serves.started, same.username.trans serves.user⟩
  hears _ serves := ⟨serves.started, serves.user⟩

theorem serves_invariant (manners : Reaction σ → Prop) :
    Invariant Act.SignsIn manners Serves := by
  refine .of_carried serves_carried (fun _ _ serves => serves.started) ?_ ?_
  · intro react _ preserves user client told act event name signs serves _ _ names tells
    have same : name = user := (names.resolve_left (signs name)) user serves.user
    have bound : (client.bound name event).Serves user := ⟨serves.started, same ▸ rfl⟩
    have serving := (serves_carried user).told (preserves user) bound tells
    obtain ⟨registry, listening⟩ := told.listenToDirectory_same
    rw [listening]
    exact ⟨serving.started, serving.user⟩
  · intro user client _ running serves
    have closes := shutDown_closes running
    exact ⟨closes.isInitialized.trans serves.started, closes.username.trans serves.user⟩

/-- All directories of a client that was started bear the name of its user. -/
structure OwnNames (client : Client σ) : Prop where
  started : client.isInitialized = true
  own : ∀ id name, client.registry.nameOf id = some name → client.username = some name

theorem SameShare.nameOf (same : client.SameShare after) (id : DirectoryId) :
    after.registry.nameOf id = client.registry.nameOf id := by
  rw [Registry.nameOf, same.standing]
  rfl

theorem ownNames_carried : Carried (σ := σ) OwnNames where
  same same names := by
    refine ⟨same.isInitialized.trans names.started, ?_⟩
    simp only [same.nameOf, same.username]
    exact names.own
  hears _ names := ⟨names.started, names.own⟩

/-- Opening the user's directory leaves all names the user's. -/
theorem OwnNames.openAs (names : client.OwnNames) {name : String}
    (kept : ∀ user ∈ client.username, name = user) {id : DirectoryId} {other : String}
    (named : (client.registry.openAs name).2.nameOf id = some other) : name = other := by
  rw [Registry.nameOf_openAs] at named
  split at named
  · exact Option.some.inj named
  · exact kept other (names.own id other named)

theorem OwnNames.bound (names : client.OwnNames) {name : String}
    (kept : ∀ user ∈ client.username, name = user) (event : SessionEvent) :
    (client.bound name event).OwnNames :=
  ⟨names.started, fun _ _ named => congrArg some (names.openAs kept named)⟩

theorem OwnNames.listenToDirectory (names : client.OwnNames) :
    client.listenToDirectory.OwnNames := by
  obtain ⟨registry, same⟩ := client.listenToDirectory_same
  refine ⟨by rw [same]; exact names.started, ?_⟩
  intro id other named
  have user : client.listenToDirectory.username = client.username := by rw [same]
  rw [user]
  cases given : client.username with
  | none =>
    rw [Client.listenToDirectory, given] at named
    exact given ▸ names.own id other named
  | some name =>
    rw [listenToDirectory_nameOf given] at named
    exact congrArg some (names.openAs (fun _ same => Option.some.inj (given ▸ same)) named)

theorem OwnNames.shutDown (names : client.OwnNames) (running : client.isShutDown = false) :
    client.shutDown.OwnNames := by
  have closes := shutDown_closes running
  refine ⟨closes.isInitialized.trans names.started, ?_⟩
  simp only [closes.registry, closes.username, closeDirectory_nameOf]
  exact names.own

theorem ownNames_invariant (manners : Reaction σ → Prop) :
    Invariant Act.SignsIn manners fun _ : Unit => OwnNames := by
  refine .of_carried (fun _ => ownNames_carried) (fun _ _ names => names.started) ?_ ?_
  · intro react _ preserves _ client told act event name signs names _ _ user tells
    have bound := names.bound (user.resolve_left (signs name)) event
    exact (ownNames_carried.told (preserves ()) bound tells).listenToDirectory
  · exact fun _ _ _ running names => names.shutDown running

/-! ## The directory is opened once -/

/-- A client that has one directory at most, which is open while it runs. -/
structure Lone (client : Client σ) : Prop extends client.OwnNames where
  one : ∀ id k, client.registry.nameOf id ≠ none → client.registry.nameOf k ≠ none → id = k
  opened : client.isShutDown = false → ∀ id name, client.registry.nameOf id = some name →
    client.registry.get? name = some id

theorem Lone.single (lone : client.Lone) (running : client.isShutDown = false) :
    client.registry.Single := ⟨lone.one, lone.opened running⟩

theorem lone_carried : Carried (σ := σ) Lone where
  same same lone := by
    refine ⟨ownNames_carried.same same lone.toOwnNames, ?_, ?_⟩
    · simp only [same.nameOf]
      exact lone.one
    · simp only [same.nameOf, same.isShutDown, same.get?]
      exact lone.opened
  hears deaf lone := ⟨ownNames_carried.hears deaf lone.toOwnNames, lone.one, lone.opened⟩

theorem Lone.bound (lone : client.Lone) (running : client.isShutDown = false) {name : String}
    (kept : ∀ user ∈ client.username, name = user) (event : SessionEvent) :
    (client.bound name event).Lone := by
  have single := (lone.single running).openAs name fun id other named =>
    (kept other (lone.own id other named)).symm
  exact ⟨lone.toOwnNames.bound kept event, single.one, fun _ => single.opened⟩

theorem Lone.listenToDirectory (lone : client.Lone) (running : client.isShutDown = false) :
    client.listenToDirectory.Lone := by
  have names := lone.toOwnNames.listenToDirectory
  cases given : client.username with
  | none =>
    have unchanged : client.listenToDirectory = client := by
      rw [Client.listenToDirectory, given]
    rw [unchanged]
    exact lone
  | some name =>
    have single := (lone.single running).openAs name fun id other named =>
      Option.some.inj ((lone.own id other named).symm.trans given)
    refine ⟨names, ?_, fun _ => ?_⟩
    · simp only [listenToDirectory_nameOf given]
      exact single.one
    · simp only [listenToDirectory_nameOf given]
      rw [Client.listenToDirectory, given]
      exact single.opened

theorem lone_invariant : Invariant (σ := σ) Act.SignsIn Reaction.LeavesRunning fun _ : Unit =>
    Lone := by
  refine .of_carried (fun _ => lone_carried) (fun _ _ lone => lone.started) ?_ ?_
  · intro react leaves preserves _ client told act event name signs lone _ running user tells
    have bound := lone.bound running (user.resolve_left (signs name)) event
    exact (lone_carried.told (preserves ()) bound tells).listenToDirectory
      (told_running leaves running tells)
  · intro _ client _ running lone
    have closes := shutDown_closes running
    refine ⟨lone.toOwnNames.shutDown running, ?_, fun up => by cases closes.down.symm.trans up⟩
    simp only [closes.registry, closeDirectory_nameOf]
    exact lone.one

/-! ## A run with one user -/

theorem Begun.ownNames {location : String} (begun : client.Begun location) : client.OwnNames := by
  refine ⟨begun.started, fun id other named => ?_⟩
  rcases begun.share with ⟨-, nothing⟩ | ⟨name, user, opened⟩
  · rw [nothing] at named
    simp [Registry.nameOf, Registry.standing, Registry.directory?] at named
  · rw [opened, Registry.nameOf_openAs] at named
    split at named
    · exact named ▸ user
    · simp [Registry.nameOf, Registry.standing, Registry.directory?] at named

theorem Begun.lone {location : String} (begun : client.Begun location) : client.Lone := by
  have single : client.registry.Single := by
    rcases begun.share with ⟨-, nothing⟩ | ⟨name, -, opened⟩
    · exact nothing ▸ Registry.single_new location
    · exact opened ▸ (Registry.single_new location).openAs name
        (by simp [Registry.nameOf, Registry.standing, Registry.directory?])
  exact ⟨begun.ownNames, single.one, fun _ => single.opened⟩

/-- What a client that was started answers to somebody who offers a password. -/
theorem offerPassword_user (started : client.isInitialized = true) {current : String}
    (user : client.username = some current) (credentials : Credentials) :
    (¬ List.Forall₂ SameLetter current.toList credentials.username.toList →
      client.offerPassword react credentials =
        (.error (if client.isShutDown then .shutDown
          else .usernameChanged current credentials.username), client)) ∧
    (List.Forall₂ SameLetter current.toList credentials.username.toList →
      (client.offerPassword react credentials).1 =
        if client.isShutDown then .error .shutDown else .ok ()) := by
  rw [← sameUser_iff]
  unfold offerPassword checkRunning
  cases client.isShutDown with
  | true => simp
  | false =>
    simp only [started, user]
    cases sameUser current credentials.username <;> simp

/-- Whoever observes a client that was started, and however it calls back, so long as
nobody skips to sign in: the user stays once there is one, all directories bear the user's
name, and there is one at most if the observer does not shut the client down when all is
well. A password for the user is taken, in whatever case the name is written; for
anybody else it is refused, and nothing else happens. -/
theorem oneUser_forGood (responds : react.Responds Act.SignsIn fun _ => True)
    (settings : Settings) (services : Services) (embedder : σ) (observer : Option String)
    (lsid : Option String) (acts : List Act) (signs : ∀ act ∈ acts, act.SignsIn) :
    let client := (started react settings services embedder observer lsid).acts react acts
    (∀ name, client.username = some name → ∀ later : List Act, (∀ act ∈ later, act.SignsIn) →
      (client.acts react later).username = some name) ∧
    (∀ d ∈ client.registry.directories, client.username = some d.name) ∧
    (react.Responds Act.SignsIn Reaction.LeavesRunning →
      client.registry.directories.length ≤ 1) ∧
    ∀ current, client.username = some current → ∀ credentials,
      (¬ List.Forall₂ SameLetter current.toList credentials.username.toList →
        client.offerPassword react credentials =
          (.error (if client.isShutDown then .shutDown
            else .usernameChanged current credentials.username), client)) ∧
      (List.Forall₂ SameLetter current.toList credentials.username.toList →
        (client.offerPassword react credentials).1 =
          if client.isShutDown then .error .shutDown else .ok ()) := by
  intro client
  have names : client.OwnNames :=
    (ownNames_invariant _).afterStart settings services embedder observer lsid responds (i := ())
      ownNames_carried Begun.ownNames signs
  refine ⟨?_, ?_, ?_, fun current user => offerPassword_user names.started user⟩
  · intro name user later signs
    have serves : client.Serves name := ⟨names.started, user⟩
    exact ((serves_invariant _).acts responds signs serves).user
  · intro d member
    obtain ⟨id, named⟩ := Registry.nameOf_of_mem member
    exact names.own id d.name named
  · intro leaves
    have lone : client.Lone :=
      lone_invariant.afterStart settings services embedder observer lsid leaves (i := ())
        lone_carried Begun.lone signs
    exact Registry.length_le_one lone.one

theorem oneUser_forGood_offering :
    Reaction.offering.Responds Act.SignsIn Reaction.LeavesRunning ∧
      (∀ act ∈ signingIn, act.SignsIn) ∧
      (resumed .offering).username = some "u" ∧
      ((resumed .offering).acts .offering
        [.call (.authReport (.succeeded "v"))]).username = some "u" ∧
      (resumed .offering).registry.directories.length ≤ 1 ∧
      (resumed .offering).offerPassword .offering { username := "v", password := "secret" } =
        (.error (.usernameChanged "u" "v"), resumed .offering) ∧
      ((resumed .offering).offerPassword .offering
        { username := "U", password := "secret" }).1 = .ok () := by
  have responds : Reaction.offering.Responds Act.SignsIn Reaction.LeavesRunning :=
    Reaction.offering_responds fun _ => by simp
  have signs : ∀ act ∈ signingIn, act.SignsIn := by simp [signingIn, Act.SignsIn]
  obtain ⟨stays, -, single, offered⟩ := oneUser_forGood (responds.mono fun _ _ => trivial)
    {} { remembered := some ⟨"u", "T"⟩ } () (some "main") none signingIn signs
  have user : (resumed .offering).username = some "u" := rfl
  have different : ¬ List.Forall₂ SameLetter "u".toList "v".toList := by
    rw [← sameUser_iff]
    decide
  have same : List.Forall₂ SameLetter "u".toList "U".toList := by
    rw [← sameUser_iff]
    decide
  exact ⟨responds, signs, user, stays "u" user _ (by simp [Act.SignsIn]), single responds,
    (offered "u" user { username := "v", password := "secret" }).1 different,
    (offered "u" user { username := "U", password := "secret" }).2 same⟩

/-- Shut down while it is told that all is well, a client comes to have two directories. -/
theorem directories_leaving :
    Reaction.leaving.Responds Act.SignsIn (fun _ => True) ∧
      (∀ act ∈ signingIn, act.SignsIn) ∧ (resumed .leaving).username = some "u" ∧
      (resumed .leaving).registry.directories.length = 2 :=
  ⟨Reaction.leaving_responds fun _ => by simp, by simp [signingIn, Act.SignsIn], rfl, rfl⟩

end Client

end SharedTree
