import Mathlib.Data.List.Induction
import SharedTree.Session

/-! How a session becomes ready, over whole runs of events. What one event can do to
that end is said once, by `Advance`: it leaves the session where it is on the way, or it
completes it, as the last thing that it does. So the share is reported usable once, when
the session becomes ready, with the directory listened to since signing in worked.

A session looks whether it is ready when it hears of a success, of a usable share or of
signing in being skipped. It does not look when it finds a remembered user; `overdue_iff`
says that this is the one way in which it comes to wait although nothing is missing. -/
namespace SharedTree

/-- The events at which a session looks whether it is ready. -/
def SessionEvent.Looks : SessionEvent → Prop
  | .signedIn _ | .signInSkipped => True
  | .syncerAccount account => account.isUsable = true
  | _ => False

namespace Session

/-- A session after some events, and all that was to be done meanwhile, in order. -/
def onEvents (s : Session) (events : List SessionEvent) : Session × List SessionAction :=
  events.foldl (fun run event => ((run.1.onEvent event).1, run.2 ++ (run.1.onEvent event).2))
    (s, [])

theorem onEvents_concat (s : Session) (events : List SessionEvent) (event : SessionEvent) :
    s.onEvents (events ++ [event]) =
      (((s.onEvents events).1.onEvent event).1,
        (s.onEvents events).2 ++ ((s.onEvents events).1.onEvent event).2) := by
  simp [onEvents]

/-- What a session never goes back on. -/
structure Keeps (s next : Session) : Prop where
  ready : s.phase = .ready → next.phase = .ready
  authenticated : s.authenticated = true → next.authenticated = true
  firstSyncDone : s.firstSyncDone = true → next.firstSyncDone = true

theorem Keeps.refl (s : Session) : s.Keeps s := ⟨id, id, id⟩

theorem Keeps.trans {s t u : Session} (first : s.Keeps t) (second : t.Keeps u) : s.Keeps u :=
  ⟨second.ready ∘ first.ready, second.authenticated ∘ first.authenticated,
    second.firstSyncDone ∘ first.firstSyncDone⟩

/-! ## One event -/

/-- What an event can do to a session on its way, with what is to be done. -/
inductive Advance (s : Session) : Session → List SessionAction → Prop where
  /-- The session is ready if it was. -/
  | stays {next : Session} {actions : List SessionAction} (keeps : s.Keeps next)
      (waits : next.phase = .ready → s.phase = .ready)
      (listens : next.authenticated = true →
        s.authenticated = true ∨ .listenToDirectory ∈ actions)
      (silent : .tellInitialized ∉ actions) : Advance s next actions
  /-- The session becomes ready, and the observer is told so after all else. -/
  | completes {next : Session} {earlier : List SessionAction} (waited : s.phase ≠ .ready)
      (ready : next.phase = .ready) (authenticated : next.authenticated = true)
      (firstSyncDone : next.firstSyncDone = true)
      (listens : s.authenticated = true ∨ .listenToDirectory ∈ earlier)
      (silent : .tellInitialized ∉ earlier) : Advance s next (earlier ++ [.tellInitialized])

theorem Advance.keeps {s next : Session} {actions : List SessionAction}
    (advance : s.Advance next actions) : s.Keeps next := by
  cases advance with
  | stays keeps => exact keeps
  | completes waited _ authenticated firstSyncDone =>
    exact ⟨fun ready => absurd ready waited, fun _ => authenticated, fun _ => firstSyncDone⟩

/-- A session may note other things on its way, and that the first download has ended. -/
theorem advance_of_same {s next : Session} {actions : List SessionAction}
    (phase : next.phase = .ready ↔ s.phase = .ready)
    (authenticated : next.authenticated = s.authenticated)
    (firstSyncDone : s.firstSyncDone = true → next.firstSyncDone = true)
    (silent : .tellInitialized ∉ actions) : s.Advance next actions :=
  .stays ⟨phase.mpr, fun known => authenticated ▸ known, firstSyncDone⟩ phase.mp
    (fun known => .inl (authenticated ▸ known)) silent

/-- A session looks whether it is ready, after something was learnt and something is
to be done about that. -/
theorem advance_becomeReady {s learnt : Session} (earlier : List SessionAction)
    (phase : learnt.phase = s.phase)
    (authenticated : s.authenticated = true → learnt.authenticated = true)
    (firstSyncDone : s.firstSyncDone = true → learnt.firstSyncDone = true)
    (listens : learnt.authenticated = true →
      s.authenticated = true ∨ .listenToDirectory ∈ earlier)
    (silent : .tellInitialized ∉ earlier) :
    s.Advance learnt.becomeReady.1 (earlier ++ learnt.becomeReady.2) := by
  unfold becomeReady
  split
  · rename_i complete
    obtain ⟨waited, known, done⟩ := complete
    exact .completes (phase ▸ waited) rfl known done (listens known) silent
  · rw [List.append_nil]
    exact .stays ⟨fun ready => phase.trans ready, authenticated, firstSyncDone⟩
      (fun ready => phase.symm.trans ready) listens silent

theorem beginSigningIn_phase (s : Session) :
    s.beginSigningIn.phase = .ready ↔ s.phase = .ready := by
  unfold beginSigningIn
  split
  · rename_i fresh
    simp [fresh]
  · rfl

@[simp] theorem beginSigningIn_authenticated (s : Session) :
    s.beginSigningIn.authenticated = s.authenticated := by
  unfold beginSigningIn
  split <;> rfl

@[simp] theorem beginSigningIn_firstSyncDone (s : Session) :
    s.beginSigningIn.firstSyncDone = s.firstSyncDone := by
  unfold beginSigningIn
  split <;> rfl

theorem onEvent_advance (s : Session) (event : SessionEvent) :
    s.Advance (s.onEvent event).1 (s.onEvent event).2 := by
  cases event with
  | passwordOffered passwordEmpty =>
    rw [onEvent]
    split
    · exact advance_of_same .rfl rfl id (by simp)
    · cases passwordEmpty <;>
        exact advance_of_same s.beginSigningIn_phase (by simp [raise]) (by simp [raise])
          (by simp [raise])
  | rememberedUserFound ended =>
    exact advance_of_same s.beginSigningIn_phase (by simp [onEvent]) (by simp +contextual [onEvent])
      (by simp [onEvent])
  | lsidOffered =>
    exact advance_of_same s.beginSigningIn_phase (by simp [onEvent]) (by simp [onEvent])
      (by simp [onEvent])
  | nothingToOffer => exact advance_of_same .rfl rfl id (by simp [onEvent, raise])
  | attemptStarted => exact advance_of_same .rfl rfl id (by simp [onEvent])
  | signedIn ended =>
    exact advance_becomeReady [.tellAuthProblem .healthy, .listenToDirectory] rfl
      (fun _ => rfl) (by simp +contextual) (by simp) (by simp)
  | signInFailed error => exact advance_of_same .rfl rfl id (by simp [onEvent, raise])
  | otherReport => exact advance_of_same .rfl rfl id (by simp [onEvent])
  | signInSkipped =>
    exact advance_becomeReady [.listenToDirectory] rfl (fun _ => rfl) (fun _ => rfl) (by simp)
      (by simp)
  | syncerAccount account =>
    change s.Advance (s.onAccount account).1 (s.onAccount account).2
    unfold onAccount
    split
    · split
      · exact advance_becomeReady [] rfl id (fun _ => rfl) .inl (by simp)
      · exact advance_of_same .rfl rfl id (by simp)
    · split
      · refine advance_of_same .rfl rfl id ?_
        cases more : account.hasMore <;> simp [endCycle, more]
      · exact advance_of_same .rfl rfl id (by simp)
  | notificationTried success =>
    cases success <;> exact advance_of_same .rfl rfl id (by simp [onEvent])

/-! ## A run of events -/

/-- What a session and all that it wanted done so far have to do with each other. -/
structure Accounts (s : Session) (told : List SessionAction) : Prop where
  known : s.phase = .ready → s.authenticated = true ∧ s.firstSyncDone = true
  listens : s.authenticated = true → .listenToDirectory ∈ told
  once : told.count .tellInitialized = if s.phase = .ready then 1 else 0
  first : ∀ earlier later, told = earlier ++ .tellInitialized :: later →
    .listenToDirectory ∈ earlier

theorem accounts_initial : initial.Accounts [] where
  known := nofun
  listens := nofun
  once := rfl
  first := by simp

/-- A list that was told in full before the observer heard that the share is usable is
cut by that report where it ends. -/
theorem eq_of_told_once {told earlier later : List SessionAction}
    (silent : .tellInitialized ∉ told)
    (cut : told ++ [.tellInitialized] = earlier ++ .tellInitialized :: later) :
    earlier = told := by
  rcases List.eq_nil_or_concat later with rfl | ⟨rest, last, rfl⟩
  · exact (List.append_inj_left' cut rfl).symm
  · rw [List.concat_eq_append, ← List.cons_append, ← List.append_assoc] at cut
    refine absurd ?_ silent
    rw [List.append_inj_left' cut rfl]
    simp

theorem Accounts.step {s next : Session} {told actions : List SessionAction}
    (accounts : s.Accounts told) (advance : s.Advance next actions) :
    next.Accounts (told ++ actions) := by
  obtain ⟨known, listens, once, first⟩ := accounts
  cases advance with
  | stays keeps waits learns silent =>
    constructor
    case known =>
      intro ready
      obtain ⟨authenticated, firstSyncDone⟩ := known (waits ready)
      exact ⟨keeps.authenticated authenticated, keeps.firstSyncDone firstSyncDone⟩
    case listens =>
      intro authenticated
      rcases learns authenticated with before | now
      · exact List.mem_append_left _ (listens before)
      · exact List.mem_append_right _ now
    case once =>
      have same : next.phase = .ready ↔ s.phase = .ready := ⟨waits, keeps.ready⟩
      rw [List.count_append, once, List.count_eq_zero.mpr silent]
      simp [same]
    case first =>
      -- the report is not among the new actions, so that it stands in what was told before
      intro earlier later cut
      rcases List.append_eq_append_iff.mp cut with ⟨more, rfl, rest⟩ | ⟨more, whole, rest⟩
      · refine absurd ?_ silent
        rw [rest]
        simp
      · cases more with
        | nil =>
          refine absurd ?_ silent
          rw [← show SessionAction.tellInitialized :: later = actions from rest]
          simp
        | cons action more =>
          obtain ⟨rfl, -⟩ := List.cons.inj rest
          exact first earlier more whole
  | @completes earlier waited ready authenticated firstSyncDone learns silent =>
    have nothing : .tellInitialized ∉ told := by
      rw [if_neg waited] at once
      exact List.count_eq_zero.mp once
    have unheard : .tellInitialized ∉ told ++ earlier := by simp [nothing, silent]
    have listening : .listenToDirectory ∈ told ++ earlier := by
      rcases learns with before | now
      · exact List.mem_append_left _ (listens before)
      · exact List.mem_append_right _ now
    rw [← List.append_assoc]
    constructor
    case known => exact fun _ => ⟨authenticated, firstSyncDone⟩
    case listens => exact fun _ => List.mem_append_left _ listening
    case once =>
      rw [List.count_append, List.count_eq_zero.mpr unheard, if_pos ready]
      rfl
    case first =>
      intro start later cut
      exact eq_of_told_once unheard cut ▸ listening

theorem onEvents_accounts (events : List SessionEvent) :
    (initial.onEvents events).1.Accounts (initial.onEvents events).2 := by
  induction events using List.reverseRecOn with
  | nil => exact accounts_initial
  | append_singleton events event ih =>
    rw [onEvents_concat]
    exact ih.step (onEvent_advance _ event)

theorem onEvents_keeps (s : Session) (events more : List SessionEvent) :
    (s.onEvents events).1.Keeps (s.onEvents (events ++ more)).1 := by
  induction more using List.reverseRecOn with
  | nil => simpa using Keeps.refl _
  | append_singleton more event ih =>
    rw [← List.append_assoc, onEvents_concat]
    exact ih.trans (onEvent_advance _ event).keeps

/-- The share is reported usable when the session becomes ready, once, and the directory
was listened to before. A session that is ready is authenticated and had its first
download, and none of the three is ever taken back. -/
theorem tellInitialized_once (events more : List SessionEvent) :
    let s := (initial.onEvents events).1
    let told := (initial.onEvents events).2
    told.count .tellInitialized = (if s.phase = .ready then 1 else 0) ∧
    (∀ earlier later, told = earlier ++ .tellInitialized :: later →
      .listenToDirectory ∈ earlier) ∧
    (s.phase = .ready → s.authenticated = true ∧ s.firstSyncDone = true) ∧
    s.Keeps (initial.onEvents (events ++ more)).1 := by
  have accounts := onEvents_accounts events
  exact ⟨accounts.once, accounts.first, accounts.known, initial.onEvents_keeps events more⟩

/-! ## Waiting for nothing -/

/-- Both conditions are met, as far as the session knows, and it waits. -/
def Overdue (s : Session) : Prop :=
  s.authenticated = true ∧ s.firstSyncDone = true ∧ s.phase ≠ .ready

/-- Who looks is not overdue. -/
theorem not_overdue_becomeReady (s : Session) : ¬ s.becomeReady.1.Overdue := by
  unfold becomeReady
  split
  · simp [Overdue]
  · rename_i incomplete
    rintro ⟨authenticated, firstSyncDone, waiting⟩
    exact incomplete ⟨waiting, authenticated, firstSyncDone⟩

/-- Only a remembered user makes a session overdue, and it stays so until it looks. -/
theorem overdue_onEvent_iff (s : Session) (event : SessionEvent) :
    (s.onEvent event).1.Overdue ↔ s.Overdue ∧ ¬ event.Looks ∨
      s.authenticated = true ∧ s.firstSyncDone = false ∧ s.phase ≠ .ready ∧
        event = .rememberedUserFound true := by
  cases event with
  | passwordOffered passwordEmpty =>
    rw [onEvent]
    split
    · simp [SessionEvent.Looks]
    · rename_i stranger
      cases passwordEmpty <;> simp [Overdue, raise, stranger]
  | rememberedUserFound ended =>
    have phase := not_congr s.beginSigningIn_phase
    cases ended <;> cases done : s.firstSyncDone <;>
      simp [onEvent, Overdue, SessionEvent.Looks, phase, done]
  | lsidOffered =>
    have phase := not_congr s.beginSigningIn_phase
    simp [onEvent, Overdue, SessionEvent.Looks, phase]
  | signedIn ended =>
    simpa [SessionEvent.Looks, onEvent] using not_overdue_becomeReady { s with
      authProblem := .none, authenticated := true, firstSyncDone := s.firstSyncDone || ended }
  | signInSkipped =>
    simpa [SessionEvent.Looks, onEvent] using
      not_overdue_becomeReady { s with authenticated := true, firstSyncDone := true }
  | syncerAccount account =>
    change (s.onAccount account).1.Overdue ↔ _
    unfold onAccount
    split
    · split
      · rename_i usable
        simpa [SessionEvent.Looks, usable] using
          not_overdue_becomeReady { s with firstSyncDone := true }
      · rename_i useless
        simp [SessionEvent.Looks, useless]
    · rename_i ready
      split <;> simp_all [Overdue, endCycle]
  | notificationTried success =>
    cases success <;> simp [onEvent, Overdue, SessionEvent.Looks]
  | nothingToOffer => simp [onEvent, raise, Overdue, SessionEvent.Looks]
  | attemptStarted => simp [onEvent, SessionEvent.Looks]
  | signInFailed error => simp [onEvent, raise, Overdue, SessionEvent.Looks]
  | otherReport => simp [onEvent, Overdue, SessionEvent.Looks]

/-- A session is ready whenever nothing is missing, except in one case: it was
authenticated, did not know of the first download, found a remembered user for whom
the download had ended, and has not looked since. -/
theorem overdue_iff (events : List SessionEvent) :
    (initial.onEvents events).1.Overdue ↔
      ∃ earlier later, events = earlier ++ .rememberedUserFound true :: later ∧
        (initial.onEvents earlier).1.authenticated = true ∧
        (initial.onEvents earlier).1.firstSyncDone = false ∧
        ∀ event ∈ later, ¬ event.Looks := by
  induction events using List.reverseRecOn with
  | nil => simp [Overdue, onEvents, initial]
  | append_singleton events event ih =>
    rw [onEvents_concat, overdue_onEvent_iff, ih]
    constructor
    · rintro (⟨⟨earlier, later, rfl, signedIn, unsynced, blind⟩, looksNot⟩ |
        ⟨signedIn, unsynced, -, rfl⟩)
      · refine ⟨earlier, later ++ [event], by simp, signedIn, unsynced, ?_⟩
        intro other member
        rcases List.mem_append.mp member with member | member
        · exact blind other member
        · exact List.mem_singleton.mp member ▸ looksNot
      · exact ⟨events, [], rfl, signedIn, unsynced, nofun⟩
    · rintro ⟨earlier, later, cut, signedIn, unsynced, blind⟩
      rcases List.eq_nil_or_concat later with rfl | ⟨rest, last, rfl⟩
      · obtain ⟨rfl, found⟩ := List.append_inj' cut rfl
        have waiting : (initial.onEvents events).1.phase ≠ .ready := by
          intro ready
          have synced := ((onEvents_accounts events).known ready).2
          cases unsynced.symm.trans synced
        exact .inr ⟨signedIn, unsynced, waiting, (List.cons.inj found).1⟩
      · rw [List.concat_eq_append, ← List.cons_append, ← List.append_assoc] at cut
        obtain ⟨rfl, found⟩ := List.append_inj' cut rfl
        obtain rfl := (List.cons.inj found).1
        exact .inl ⟨⟨earlier, rest, rfl, signedIn, unsynced, fun other member =>
          blind other (by simp [member])⟩, blind event (by simp)⟩

/-- A success before the remembered user is looked up is one such case. -/
theorem overdue_rememberedUser :
    (initial.onEvents [.signedIn false, .rememberedUserFound true]).1.Overdue :=
  ⟨rfl, rfl, by decide⟩

end Session

end SharedTree
