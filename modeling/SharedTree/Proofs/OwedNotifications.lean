import SharedTree.Session

/-! What becomes of the notifications that a session owes its peers. Each one that it
wants sent is on its way until its one result is reported, which may be after any
other events and results. A session knows only that it owes; a result does not tell
which notification it is of. So a session that has reported a commit owes until any
result after that is a success, and `lost_iff` says when that success is of no use:
it is of a notification that was under way already when the commit was reported. -/
namespace SharedTree

/-- Whether an event reports to a session that is ready the end of a cycle that
committed something. -/
def Session.commits (s : Session) : SessionEvent → Bool
  | .syncerAccount account => s.phase = .ready && account.cycleEnded && 0 < account.commits
  | _ => false

/-- A notification that was to be sent. -/
structure Sending where
  /-- The moment at which the session wanted it sent. -/
  emitted : Nat
  /-- The moment at which its result was reported, and whether it was delivered. -/
  result : Option (Nat × Bool) := none

namespace Sending

def DeliveredAfter (sending : Sending) (moment : Nat) : Prop :=
  ∃ reported, moment < reported ∧ sending.result = some (reported, true)

def Delivered (sending : Sending) : Prop := ∃ reported, sending.result = some (reported, true)

end Sending

/-- A session with all the notifications that it ever wanted sent. A moment is the
number of events that came before. -/
structure Traffic where
  session : Session := .initial
  now : Nat := 0
  sendings : List Sending := []
  /-- The moment at which the end of a committing cycle was last reported. -/
  latestCommit : Option Nat := none

namespace Traffic

/-- The session hears of something, and each notification that it wants sent goes on
its way. -/
def tell (t : Traffic) (event : SessionEvent) : Traffic where
  session := (t.session.onEvent event).1
  now := t.now + 1
  sendings := t.sendings ++
    ((t.session.onEvent event).2.filter (· = .notifyPeers)).map fun _ => { emitted := t.now }
  latestCommit := if t.session.commits event then some t.now else t.latestCommit

/-- The session hears what came of a notification. -/
def answer (t : Traffic) (k : Nat) (success : Bool) : Traffic :=
  { t with
    session := (t.session.onEvent (.notificationTried success)).1
    now := t.now + 1
    sendings := t.sendings.modify k fun sending =>
      { sending with result := some (t.now, success) } }

/-- The session hears of anything at any time, but of each notification's result once
and after it was sent. -/
inductive Reachable : Traffic → Prop where
  | start : Reachable {}
  | told {t : Traffic} (event : SessionEvent)
      (noResult : ∀ success, event ≠ .notificationTried success) :
    Reachable t → Reachable (t.tell event)
  | answered {t : Traffic} {k : Nat} {sending : Sending} (success : Bool)
      (sent : t.sendings[k]? = some sending) (underWay : sending.result = none) :
    Reachable t → Reachable (t.answer k success)

/-- The session owes nothing, although no notification since the latest commit was
delivered. -/
def Lost (t : Traffic) : Prop :=
  t.session.owesNotification = false ∧ ∃ commit ∈ t.latestCommit,
    ∀ sending ∈ t.sendings, commit ≤ sending.emitted → ¬ sending.Delivered

/-! ## One event -/

theorem owes_becomeReady (s : Session) :
    s.becomeReady.1.owesNotification = s.owesNotification := by
  unfold Session.becomeReady
  split <;> rfl

theorem owes_beginSigningIn (s : Session) :
    s.beginSigningIn.owesNotification = s.owesNotification := by
  unfold Session.beginSigningIn
  split <;> rfl

/-- A session comes to owe by a commit alone, and only a result can change that. -/
theorem owes_onEvent (s : Session) {event : SessionEvent}
    (noResult : ∀ success, event ≠ .notificationTried success) :
    (s.onEvent event).1.owesNotification = (s.owesNotification || s.commits event) := by
  cases event with
  | passwordOffered passwordEmpty =>
    rw [Session.onEvent]
    split
    · simp [Session.commits]
    · cases passwordEmpty <;> simp [Session.raise, Session.commits, owes_beginSigningIn]
  | syncerAccount account =>
    change (s.onAccount account).1.owesNotification = _
    unfold Session.onAccount
    split
    · rename_i waiting
      split <;> simp [Session.commits, waiting, owes_becomeReady]
    · rename_i ready
      split
      · rename_i ended
        simp [Session.commits, Session.endCycle, Decidable.not_not.mp ready, ended]
      · rename_i running
        simp [Session.commits, running]
  | notificationTried success => exact absurd rfl (noResult success)
  | rememberedUserFound | lsidOffered =>
    simp [Session.onEvent, Session.commits, owes_beginSigningIn]
  | signedIn | signInSkipped => simp [Session.onEvent, Session.commits, owes_becomeReady]
  | nothingToOffer | attemptStarted | signInFailed | otherReport =>
    simp [Session.onEvent, Session.commits, Session.raise]

/-! ## A run of events -/

/-- What a session and the notifications have to do with each other. -/
structure Accounts (t : Traffic) : Prop where
  reported : ∀ sending ∈ t.sendings, ∀ moment, sending.DeliveredAfter moment → moment < t.now
  committed : ∀ commit ∈ t.latestCommit, commit < t.now
  owes : t.session.owesNotification = false ↔
    ∀ commit ∈ t.latestCommit, ∃ sending ∈ t.sendings, sending.DeliveredAfter commit

theorem accounts_start : Accounts {} where
  reported := by simp
  committed := by simp
  owes := by simp [Session.initial]

/-- Among what was sent, a new notification is none that was delivered. -/
theorem delivered_tell {t : Traffic} {event : SessionEvent} {moment : Nat} :
    (∃ sending ∈ (t.tell event).sendings, sending.DeliveredAfter moment) ↔
      ∃ sending ∈ t.sendings, sending.DeliveredAfter moment := by
  have new : ∀ sending ∈ ((t.session.onEvent event).2.filter (· = .notifyPeers)).map
      fun _ => ({ emitted := t.now } : Sending), ¬ sending.DeliveredAfter moment := by
    intro sending member
    obtain ⟨_, -, rfl⟩ := List.mem_map.mp member
    simp [Sending.DeliveredAfter]
  simp only [tell, List.mem_append, or_and_right, exists_or]
  exact or_iff_left fun ⟨sending, member, delivered⟩ => new sending member delivered

theorem Accounts.tell {t : Traffic} (accounts : t.Accounts) {event : SessionEvent}
    (noResult : ∀ success, event ≠ .notificationTried success) : (t.tell event).Accounts where
  reported sending member moment delivered := by
    obtain ⟨other, known, same⟩ := delivered_tell.mp ⟨sending, member, delivered⟩
    exact Nat.lt_succ_of_lt (accounts.reported other known moment same)
  committed commit latest := by
    change commit < t.now + 1
    simp only [Traffic.tell] at latest
    split at latest
    · cases latest
      exact Nat.lt_succ_self _
    · exact Nat.lt_succ_of_lt (accounts.committed commit latest)
  owes := by
    simp only [delivered_tell]
    simp only [Traffic.tell, owes_onEvent t.session noResult]
    cases committing : t.session.commits event with
    | false => simpa using accounts.owes
    | true =>
      -- nothing was reported after this moment
      have nothing : ¬ ∃ sending ∈ t.sendings, sending.DeliveredAfter t.now := by
        rintro ⟨sending, member, delivered⟩
        exact Nat.lt_irrefl _ (accounts.reported sending member _ delivered)
      simpa using nothing

/-- A result changes the one notification that it is of. -/
theorem sendings_answer {t : Traffic} {k : Nat} {sending : Sending} (success : Bool)
    (sent : t.sendings[k]? = some sending) :
    ∃ before after, t.sendings = before ++ sending :: after ∧
      (t.answer k success).sendings =
        before ++ { sending with result := some (t.now, success) } :: after := by
  obtain ⟨there, found⟩ := List.getElem?_eq_some_iff.mp sent
  refine ⟨t.sendings.take k, t.sendings.drop (k + 1), ?_, ?_⟩
  · rw [← found, List.getElem_cons_drop, List.take_append_drop]
  · rw [answer, List.modify_eq_take_cons_drop there, found]

theorem delivered_answer {t : Traffic} {k : Nat} {sending : Sending} {success : Bool}
    {moment : Nat} (sent : t.sendings[k]? = some sending) (underWay : sending.result = none) :
    (∃ sending ∈ (t.answer k success).sendings, sending.DeliveredAfter moment) ↔
      (success = true ∧ moment < t.now) ∨
        ∃ sending ∈ t.sendings, sending.DeliveredAfter moment := by
  obtain ⟨before, after, whole, answered⟩ := sendings_answer success sent
  have undelivered : ¬ sending.DeliveredAfter moment := by
    simp [Sending.DeliveredAfter, underWay]
  have now : Sending.DeliveredAfter { sending with result := some (t.now, success) } moment ↔
      success = true ∧ moment < t.now := by
    constructor
    · rintro ⟨_, later, same⟩
      cases same
      exact ⟨rfl, later⟩
    · rintro ⟨rfl, later⟩
      exact ⟨t.now, later, rfl⟩
  rw [answered, whole]
  simp only [List.mem_append, List.mem_cons, or_and_right, exists_or, exists_eq_left, now,
    undelivered, false_or]
  exact or_left_comm

theorem Accounts.answer {t : Traffic} (accounts : t.Accounts) {k : Nat} {sending : Sending}
    (success : Bool) (sent : t.sendings[k]? = some sending) (underWay : sending.result = none) :
    (t.answer k success).Accounts where
  reported sending member moment delivered := by
    rcases (delivered_answer sent underWay).mp ⟨sending, member, delivered⟩ with
      ⟨-, earlier⟩ | ⟨other, known, same⟩
    · exact Nat.lt_succ_of_lt earlier
    · exact Nat.lt_succ_of_lt (accounts.reported other known moment same)
  committed commit latest := Nat.lt_succ_of_lt (accounts.committed commit latest)
  owes := by
    simp only [delivered_answer sent underWay]
    cases success with
    | false => simpa [Traffic.answer, Session.onEvent] using accounts.owes
    | true =>
      have paid : (t.answer k true).session.owesNotification = false := rfl
      simp only [paid, true_iff]
      exact fun commit latest => .inl ⟨trivial, accounts.committed commit latest⟩

theorem Reachable.accounts {t : Traffic} (reachable : t.Reachable) : t.Accounts := by
  induction reachable with
  | start => exact accounts_start
  | told event noResult _ ih => exact ih.tell noResult
  | answered success sent underWay _ ih => exact ih.answer success sent underWay

/-- A session owes from a commit on until any notification is reported delivered. One
that owes nothing has lost a commit exactly when nothing that was sent since was
delivered, and what it took for that was already under way. -/
theorem lost_iff {t : Traffic} (reachable : t.Reachable) :
    (t.session.owesNotification = false ↔
      ∀ commit ∈ t.latestCommit, ∃ sending ∈ t.sendings, sending.DeliveredAfter commit) ∧
    (t.Lost ↔ ∃ commit ∈ t.latestCommit,
      (∃ sending ∈ t.sendings, sending.emitted < commit ∧ sending.DeliveredAfter commit) ∧
      ∀ sending ∈ t.sendings, commit ≤ sending.emitted → ¬ sending.Delivered) := by
  have owes := reachable.accounts.owes
  refine ⟨owes, ?_, ?_⟩
  · rintro ⟨free, commit, latest, undelivered⟩
    obtain ⟨sending, sent, reported, later, result⟩ := owes.mp free commit latest
    have early : sending.emitted < commit := Nat.lt_of_not_le fun late =>
      undelivered sending sent late ⟨reported, result⟩
    exact ⟨commit, latest, ⟨sending, sent, early, reported, later, result⟩, undelivered⟩
  · rintro ⟨commit, latest, ⟨sending, sent, -, delivered⟩, undelivered⟩
    refine ⟨owes.mpr ?_, commit, latest, undelivered⟩
    intro other same
    cases latest.symm.trans same
    exact ⟨sending, sent, delivered⟩

/-- The end of a cycle that committed one item. -/
def oneCommit : SessionEvent :=
  .syncerAccount { cycleEnded := true, hasMore := true, commits := 1 }

/-- The notification of a second commit fails while that of the first is still under
way, which is then delivered. -/
def overtaken : Traffic :=
  ((tell (tell (tell {} .signInSkipped) oneCommit) oneCommit).answer 1 false).answer 0 true

theorem overtaken_reachable : overtaken.Reachable :=
  .answered true rfl rfl (.answered false rfl rfl
    (.told _ (fun _ => nofun) (.told _ (fun _ => nofun) (.told _ (fun _ => nofun) .start))))

theorem lost_iff_overtaken :
    overtaken.Reachable ∧ ∃ commit ∈ overtaken.latestCommit, ∃ sending ∈ overtaken.sendings,
      sending.DeliveredAfter commit :=
  ⟨overtaken_reachable, 2, rfl, (lost_iff overtaken_reachable).1.mp rfl 2 rfl⟩

theorem lost_overtaken : overtaken.Reachable ∧ overtaken.Lost := by
  refine ⟨overtaken_reachable, rfl, 2, rfl, ?_⟩
  have sendings : overtaken.sendings = [⟨1, some (4, true)⟩, ⟨2, some (3, false)⟩] := rfl
  simp [sendings, Sending.Delivered]

end Traffic

end SharedTree
