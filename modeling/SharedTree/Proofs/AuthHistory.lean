import SharedTree.Proofs.SharedDirectory

/-! What a session thinks of authentication and what the observer was told of it, over whole
runs of events. Both follow from the history alone: `verdict?` is what an event says of
authentication and `report?` what the observer is to hear of it, given the events before,
and the two differ in one kind of event, which clears the problem without a word. So the
session's problem is the latest verdict, the observer heard all reports in order, and the
last one that was heard is the session's problem unless that was cleared since. -/
namespace SharedTree

instance : DecidablePred SessionEvent.Listens
  | .signedIn _ | .signInSkipped => isTrue trivial
  | .passwordOffered _ | .rememberedUserFound _ | .lsidOffered | .nothingToOffer
  | .attemptStarted | .signInFailed _ | .otherReport | .syncerAccount _
  | .notificationTried _ => isFalse id

/-- What an action tells the observer of authentication. -/
def SessionAction.problem? : SessionAction → Option AuthProblem
  | .tellAuthProblem error => some error
  | .tryPassword | .tryToken | .tryLsid | .listenToDirectory | .tellInitialized
  | .tellCycleCompleted | .notifyPeers => none

namespace Session

/-- What the observer is to hear of authentication at an event, given the events before. An
empty password counts for nothing once signing in worked or was skipped. -/
def report? (past : List SessionEvent) : SessionEvent → Option AuthProblem
  | .passwordOffered passwordEmpty =>
    if passwordEmpty ∧ ¬ ∃ event ∈ past, event.Listens then some (.ofState .credentialsNeeded)
    else none
  | .nothingToOffer => some (.ofState .credentialsNeeded)
  | .signedIn _ => some .healthy
  | .signInFailed error => some error
  | .rememberedUserFound _ | .lsidOffered | .attemptStarted | .otherReport | .signInSkipped
  | .syncerAccount _ | .notificationTried _ => none

/-- What an event says of authentication, given the events before. A report that is neither
a success nor a failure says that there is no problem, and nobody is told. -/
def verdict? (past : List SessionEvent) (event : SessionEvent) : Option AuthState :=
  if event = .otherReport then some .none else (report? past event).map (·.state)

/-- What was said by some events that followed others, in order. -/
def said {α : Type} (says? : List SessionEvent → SessionEvent → Option α) :
    (past events : List SessionEvent) → List α
  | _, [] => []
  | past, event :: later => (says? past event).toList ++ said says? (past ++ [event]) later

/-- The problem was cleared without a word, and the observer has heard nothing since. -/
def ClearedSince (events : List SessionEvent) : Prop :=
  ∃ earlier later, events = earlier ++ .otherReport :: later ∧
    said report? (earlier ++ [.otherReport]) later = []

/-- What actions tell the observer of authentication, in order. -/
def problemsTold (actions : List SessionAction) : List AuthProblem :=
  actions.filterMap SessionAction.problem?

@[simp] theorem problemsTold_nil : problemsTold [] = [] := rfl

@[simp] theorem problemsTold_cons (action : SessionAction) (actions : List SessionAction) :
    problemsTold (action :: actions) = action.problem?.toList ++ problemsTold actions := by
  cases told : action.problem? <;> simp [problemsTold, told]

@[simp] theorem problemsTold_append (first second : List SessionAction) :
    problemsTold (first ++ second) = problemsTold first ++ problemsTold second :=
  List.filterMap_append

theorem said_concat {α : Type} (says? : List SessionEvent → SessionEvent → Option α)
    (past events : List SessionEvent) (event : SessionEvent) :
    said says? past (events ++ [event]) =
      said says? past events ++ (says? (past ++ events) event).toList := by
  induction events generalizing past with
  | nil => simp [said]
  | cons first events ih => simp [said, ih]

/-! ## One event -/

@[simp] theorem beginSigningIn_authProblem (s : Session) :
    s.beginSigningIn.authProblem = s.authProblem := by
  unfold beginSigningIn
  split <;> rfl

@[simp] theorem becomeReady_authProblem (s : Session) :
    s.becomeReady.1.authProblem = s.authProblem := by
  unfold becomeReady
  split <;> rfl

@[simp] theorem problemsTold_becomeReady (s : Session) : problemsTold s.becomeReady.2 = [] := by
  unfold becomeReady
  split <;> rfl

/-- The syncer has no say in authentication. -/
theorem onAccount_problem (s : Session) (account : SyncerAccount) :
    (s.onAccount account).1.authProblem = s.authProblem ∧
      problemsTold (s.onAccount account).2 = [] := by
  unfold onAccount
  split
  · split <;> simp
  · split
    · refine ⟨rfl, ?_⟩
      cases more : account.hasMore <;> cases owes : s.owesNotification || 0 < account.commits <;>
        simp [endCycle, more, owes, SessionAction.problem?]
    · simp

/-- An event says what it does of authentication, and the observer is told just that, once. -/
theorem onEvent_problem {s : Session} {past : List SessionEvent}
    (known : s.authenticated = true ↔ ∃ event ∈ past, event.Listens) (event : SessionEvent) :
    (s.onEvent event).1.authProblem = (verdict? past event).getD s.authProblem ∧
      problemsTold (s.onEvent event).2 = (report? past event).toList := by
  cases event with
  | passwordOffered passwordEmpty =>
    have heard : report? past (.passwordOffered passwordEmpty) =
        if passwordEmpty ∧ s.authenticated = false then some (.ofState .credentialsNeeded)
        else none := by simp [report?, ← known]
    rw [verdict?, heard]
    cases signedIn : s.authenticated <;> cases passwordEmpty <;>
      simp [onEvent, raise, signedIn, SessionAction.problem?]
  | syncerAccount account => exact s.onAccount_problem account
  | notificationTried success => cases success <;> exact ⟨rfl, rfl⟩
  | signedIn ended =>
    simp [onEvent, verdict?, report?, SessionAction.problem?, AuthProblem.healthy]
  | signInSkipped => simp [onEvent, verdict?, report?, SessionAction.problem?]
  | rememberedUserFound ended => simp [onEvent, verdict?, report?, SessionAction.problem?]
  | lsidOffered => simp [onEvent, verdict?, report?, SessionAction.problem?]
  | nothingToOffer | attemptStarted | signInFailed | otherReport => exact ⟨rfl, rfl⟩

theorem onEvent_authenticated_iff (s : Session) (event : SessionEvent) :
    (s.onEvent event).1.authenticated = true ↔ s.authenticated = true ∨ event.Listens := by
  by_cases listens : event.Listens
  · simp [listens, (s.listens_onEvent listens).1]
  · simp [listens, s.onEvent_authenticated listens]

/-! ## A run of events -/

/-- A session is signed in from the first success on. -/
theorem onEvents_authenticated_iff (events : List SessionEvent) :
    (initial.onEvents events).1.authenticated = true ↔ ∃ event ∈ events, event.Listens := by
  induction events using List.reverseRecOn with
  | nil => simp [onEvents, initial]
  | append_singleton events event ih =>
    rw [onEvents_concat, onEvent_authenticated_iff, ih]
    simp [or_and_right, exists_or]

/-- The session's problem is the latest verdict, and the observer heard every report. -/
theorem onEvents_problem (events : List SessionEvent) :
    (initial.onEvents events).1.authProblem = (said verdict? [] events).getLast?.getD .none ∧
      problemsTold (initial.onEvents events).2 = said report? [] events := by
  induction events using List.reverseRecOn with
  | nil => exact ⟨rfl, rfl⟩
  | append_singleton events event ih =>
    obtain ⟨problem, heard⟩ := ih
    obtain ⟨next, told⟩ := onEvent_problem (onEvents_authenticated_iff events) event
    rw [onEvents_concat, said_concat, said_concat, List.nil_append, problemsTold_append, next,
      told, heard, problem]
    refine ⟨?_, rfl⟩
    cases verdict? events event <;> simp

theorem clearedSince_concat {events : List SessionEvent} {event : SessionEvent} :
    ClearedSince (events ++ [event]) ↔
      event = .otherReport ∨ ClearedSince events ∧ report? events event = none := by
  constructor
  · rintro ⟨earlier, later, cut, silent⟩
    rcases List.eq_nil_or_concat later with rfl | ⟨rest, last, rfl⟩
    · obtain ⟨-, same⟩ := List.append_inj' cut rfl
      exact .inl (List.cons.inj same).1
    · rw [List.concat_eq_append, ← List.cons_append, ← List.append_assoc] at cut
      obtain ⟨rfl, same⟩ := List.append_inj' cut rfl
      obtain rfl := (List.cons.inj same).1
      rw [List.concat_eq_append, said_concat, List.append_eq_nil_iff] at silent
      refine .inr ⟨⟨earlier, rest, rfl, silent.1⟩, ?_⟩
      simpa using silent.2
  · rintro (rfl | ⟨⟨earlier, later, rfl, silent⟩, unheard⟩)
    · exact ⟨events, [], rfl, rfl⟩
    · refine ⟨earlier, later ++ [event], by simp, ?_⟩
      rw [said_concat, silent, List.append_assoc, List.singleton_append, unheard]
      rfl

/-- The last report that was heard is the session's problem, unless that was cleared since. -/
theorem verdict_of_report (events : List SessionEvent) :
    (ClearedSince events → (said verdict? [] events).getLast?.getD .none = .none) ∧
    (¬ ClearedSince events → (said verdict? [] events).getLast?.getD .none =
      ((said report? [] events).getLast?.map (·.state)).getD .none) := by
  induction events using List.reverseRecOn with
  | nil => exact ⟨fun _ => rfl, fun _ => rfl⟩
  | append_singleton events event ih =>
    rw [clearedSince_concat, said_concat, said_concat, List.nil_append]
    by_cases other : event = .otherReport
    · simp [other, verdict?]
    · cases heard : report? events event with
      | none => simpa [other, verdict?, heard] using ih
      | some error => simp [other, verdict?, heard]

/-- The problem that a session has with authentication is the latest verdict of its history.
An event tells the observer its own report, once, or nothing if it has none, so that the
whole run tells the reports in order; and what was told last is the session's problem, unless
that was cleared since by an event that is neither a success nor a failure. -/
theorem authProblem_follows (events : List SessionEvent) :
    let s := (initial.onEvents events).1
    let heard := problemsTold (initial.onEvents events).2
    (s.authenticated = true ↔ ∃ event ∈ events, event.Listens) ∧
    s.authProblem = (said verdict? [] events).getLast?.getD .none ∧
    (∀ event, problemsTold (s.onEvent event).2 = (report? events event).toList) ∧
    heard = said report? [] events ∧
    (ClearedSince events → s.authProblem = .none) ∧
    (¬ ClearedSince events → s.authProblem = (heard.getLast?.map (·.state)).getD .none) := by
  intro s heard
  have known := onEvents_authenticated_iff events
  obtain ⟨problem, told⟩ := onEvents_problem events
  obtain ⟨cleared, current⟩ := verdict_of_report events
  refine ⟨known, problem, fun event => ?_, told, fun since => ?_, fun since => ?_⟩
  · exact (onEvent_problem known event).2
  · exact problem.trans (cleared since)
  · exact (problem.trans (current since)).trans (told ▸ rfl)

/-- A captcha is asked for, and an empty password comes too late to be asked for another. -/
def askingForCaptcha : List SessionEvent :=
  [.passwordOffered true, .signInFailed (.ofCaptcha ⟨"token", "image", "unlock"⟩),
    .attemptStarted, .signInSkipped, .passwordOffered true]

/-- A report of no importance comes after it. -/
def forgettingCaptcha : List SessionEvent := askingForCaptcha ++ [.otherReport, .lsidOffered]

theorem authProblem_follows_captcha :
    ¬ ClearedSince askingForCaptcha ∧
      (initial.onEvents askingForCaptcha).1.authProblem = .captchaRequired ∧
      ClearedSince forgettingCaptcha ∧
      (initial.onEvents forgettingCaptcha).1.authProblem = .none := by
  have unsaid : ¬ ClearedSince askingForCaptcha := by
    rintro ⟨earlier, later, whole, -⟩
    have silent : SessionEvent.otherReport ∉ askingForCaptcha := by decide
    exact silent (whole ▸ by simp)
  have cleared : ClearedSince forgettingCaptcha :=
    ⟨askingForCaptcha, [.lsidOffered], rfl, rfl⟩
  obtain ⟨-, -, -, -, -, asked⟩ := authProblem_follows askingForCaptcha
  obtain ⟨-, -, -, -, forgotten, -⟩ := authProblem_follows forgettingCaptcha
  exact ⟨unsaid, asked unsaid, cleared, forgotten cleared⟩

end Session

end SharedTree
