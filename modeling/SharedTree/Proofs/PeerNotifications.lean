import SharedTree.Proofs.ClientCalls
import SharedTree.Proofs.OwedNotifications
import SharedTree.Proofs.SharedDirectory

/-! When a client notifies its peers. Its session owes them a notification from a committing
cycle on, and hears at once how each attempt went. So nothing but the end of a cycle makes a
client try, and it tries once, if a notification is owed by then. `Kept` says this of all
that happened so far, with whether one is still owed; what a list of such moments comes to,
in commits and deliveries, has nothing to do with clients any more. -/
namespace SharedTree

variable {σ : Type}

/-- What one thing that happens to a client is to its peers. -/
structure Moment where
  /-- How much the cycle committed whose end is reported, where one is. -/
  cycle : Option Nat
  /-- How the attempts to notify the peers went. -/
  answers : List Bool

namespace Moment

/-- The end of a cycle that committed something is reported. -/
def commits (moment : Moment) : Bool := moment.cycle.any (0 < ·)

/-- Some cycle committed something, and no notification was delivered since. -/
def Owed (past : List Moment) : Prop :=
  ∃ earlier commit later, past = earlier ++ commit :: later ∧ commit.commits = true ∧
    ∀ moment ∈ commit :: later, true ∉ moment.answers

theorem owed_concat (past : List Moment) (moment : Moment) :
    Owed (past ++ [moment]) ↔ (Owed past ∨ moment.commits = true) ∧ true ∉ moment.answers := by
  constructor
  · rintro ⟨earlier, commit, later, cut, commits, undelivered⟩
    rcases List.eq_nil_or_concat later with rfl | ⟨rest, last, rfl⟩
    · obtain ⟨rfl, same⟩ := List.append_inj' cut rfl
      cases same
      exact ⟨.inr commits, undelivered _ List.mem_cons_self⟩
    · rw [List.concat_eq_append, ← List.cons_append, ← List.append_assoc] at cut
      obtain ⟨rfl, same⟩ := List.append_inj' cut rfl
      cases same
      refine ⟨.inl ⟨earlier, commit, rest, rfl, commits, fun other member => ?_⟩, ?_⟩
      · refine undelivered other ?_
        rw [List.concat_eq_append, ← List.cons_append]
        exact List.mem_append_left _ member
      · exact undelivered _ (by simp)
  · rintro ⟨⟨earlier, commit, later, rfl, commits, undelivered⟩ | commits, failed⟩
    · refine ⟨earlier, commit, later ++ [moment], by simp, commits, fun other member => ?_⟩
      rw [← List.cons_append] at member
      rcases List.mem_append.mp member with early | last
      · exact undelivered other early
      · exact List.mem_singleton.mp last ▸ failed
    · exact ⟨past, moment, [], rfl, commits, by simpa using failed⟩

/-- What was delivered is not owed any more, until something else is committed. -/
theorem not_owed_delivered {earlier between : List Moment} {success : Moment}
    (delivered : true ∈ success.answers)
    (uncommitted : ∀ moment ∈ between, moment.commits = false) :
    ¬ Owed (earlier ++ success :: between) := by
  induction between using List.reverseRecOn with
  | nil => exact fun owed => ((owed_concat earlier success).mp owed).2 delivered
  | append_singleton between last ih =>
    intro owed
    rw [← List.cons_append, ← List.append_assoc, owed_concat] at owed
    rcases owed.1 with before | commits
    · exact ih (fun moment member => uncommitted moment (List.mem_append_left _ member)) before
    · exact Bool.false_ne_true ((uncommitted last (by simp)).symm.trans commits)

/-- At each moment the peers are notified once, if a cycle ends and that is owed, and else
not at all; with whether a notification is owed at last. -/
inductive Kept : List Moment → Bool → Prop where
  | start : Kept [] false
  | next {past : List Moment} {owes : Bool} {moment : Moment} (kept : Kept past owes)
      (once : moment.answers.length =
        if moment.cycle.isSome && (owes || moment.commits) then 1 else 0) :
    Kept (past ++ [moment]) ((owes || moment.commits) && !moment.answers.contains true)

theorem Kept.owed {past : List Moment} {owes : Bool} (kept : Kept past owes) :
    owes = true ↔ Owed past := by
  induction kept with
  | start => simp [Owed]
  | next _ _ ih => simp [owed_concat, ih]

/-- So it was at any of the moments. -/
theorem Kept.cut {whole earlier later : List Moment} {moment : Moment} {owes : Bool}
    (kept : Kept whole owes) (cut : whole = earlier ++ moment :: later) :
    ∃ before, Kept earlier before ∧ moment.answers.length =
      if moment.cycle.isSome && (before || moment.commits) then 1 else 0 := by
  induction kept generalizing later with
  | start => simp at cut
  | next kept once ih =>
    rcases List.eq_nil_or_concat later with rfl | ⟨rest, last, rfl⟩
    · obtain ⟨rfl, same⟩ := List.append_inj' cut rfl
      cases same
      exact ⟨_, kept, once⟩
    · rw [List.concat_eq_append, ← List.cons_append, ← List.append_assoc] at cut
      exact ih (List.append_inj_left' cut rfl)

theorem Kept.attempts {whole earlier later : List Moment} {moment : Moment} {owes : Bool}
    (kept : Kept whole owes) (cut : whole = earlier ++ moment :: later) :
    moment.answers.length ≤ 1 ∧ (moment.answers ≠ [] ↔
      moment.cycle.isSome = true ∧ (Owed earlier ∨ moment.commits = true)) := by
  obtain ⟨before, keptBefore, once⟩ := kept.cut cut
  rw [← keptBefore.owed, ← Bool.or_eq_true, ← Bool.and_eq_true, ← List.length_pos_iff]
  generalize (moment.cycle.isSome && (before || moment.commits)) = due at once ⊢
  cases due <;> simp [once]

/-- A delivery takes what is owed. -/
theorem deliveries_due {answers : List Bool} {ends due : Bool}
    (once : answers.length = if ends && due then 1 else 0) :
    answers.count true + (due && !answers.contains true).toNat = due.toNat := by
  match answers with
  | [] => simp
  | [answer] =>
    cases due with
    | false => simp at once
    | true => cases answer <;> rfl
  | _ :: _ :: _ => split at once <;> simp at once

/-- Each delivery has a commit of its own, and one that is still owed has another. -/
theorem Kept.deliveries_le {past : List Moment} {owes : Bool} (kept : Kept past owes) :
    (past.flatMap (·.answers)).count true + owes.toNat ≤ past.countP commits := by
  induction kept with
  | start => exact Nat.le_refl 0
  | @next past owes moment _ once ih =>
    have taken := deliveries_due once
    have due : (owes || moment.commits).toNat ≤ owes.toNat + [moment].countP commits := by
      rw [List.countP_singleton]
      cases owes <;> cases moment.commits <;> simp
    rw [List.flatMap_append, List.count_append, List.countP_append, List.flatMap_singleton]
    omega

end Moment

/-! ## One event -/

namespace Session

/-- Whether an event reports to a session that is ready the end of a cycle. -/
def endsCycle (s : Session) : SessionEvent → Bool
  | .syncerAccount account => s.phase = .ready && account.cycleEnded
  | _ => false

theorem silent_becomeReady (s : Session) : .notifyPeers ∉ s.becomeReady.2 := by
  unfold becomeReady
  split <;> simp

/-- A session wants its peers notified at the end of a cycle, after all else, if it owes
that by then. -/
theorem notifies_onEvent (s : Session) (event : SessionEvent) :
    ∃ earlier, .notifyPeers ∉ earlier ∧ (s.onEvent event).2 = earlier ++
      if s.endsCycle event && (s.onEvent event).1.owesNotification then [.notifyPeers] else [] := by
  -- all events but one kind of account are silent
  have silent {actions : List SessionAction} (none : .notifyPeers ∉ actions) :
      ∃ earlier, .notifyPeers ∉ earlier ∧ actions = earlier ++ [] :=
    ⟨actions, none, (List.append_nil _).symm⟩
  cases event with
  | passwordOffered passwordEmpty =>
    refine silent ?_
    rw [onEvent]
    split
    · exact List.not_mem_nil
    · cases passwordEmpty <;> simp [raise]
  | syncerAccount account =>
    change ∃ earlier, _ ∧ (s.onAccount account).2 = earlier ++
      if _ && (s.onAccount account).1.owesNotification then _ else _
    unfold onAccount
    split
    · rename_i waiting
      have unready : s.endsCycle (.syncerAccount account) = false := by simp [endsCycle, waiting]
      rw [unready]
      refine silent ?_
      split
      · exact silent_becomeReady _
      · exact List.not_mem_nil
    · rename_i ready
      split
      · rename_i ended
        have ends : s.endsCycle (.syncerAccount account) = true := by
          simp [endsCycle, Decidable.not_not.mp ready, ended]
        rw [ends, Bool.true_and]
        refine ⟨if account.hasMore then [] else [.tellCycleCompleted], ?_, rfl⟩
        split <;> simp
      · rename_i runs
        have unended : s.endsCycle (.syncerAccount account) = false := by simp [endsCycle, runs]
        rw [unended]
        exact silent List.not_mem_nil
  | signedIn ended =>
    refine silent ?_
    simpa [onEvent] using silent_becomeReady _
  | signInSkipped =>
    refine silent ?_
    simpa [onEvent] using silent_becomeReady _
  | notificationTried | rememberedUserFound | lsidOffered | attemptStarted | otherReport =>
    exact silent (by simp [onEvent])
  | nothingToOffer | signInFailed => exact silent (by simp [onEvent, raise])

end Session

namespace Client
variable {react : Reaction σ} {client : Client σ} {owes : Bool} {answers : List Bool}

/-- What a client owes its peers, and how all the attempts to notify them went. -/
structure Owing (owes : Bool) (answers : List Bool) (client : Client σ) : Prop where
  owes : client.session.owesNotification = owes
  answers : Effect.deliveries client.effects = answers

theorem owing_mindful (owes : Bool) (answers : List Bool) :
    Mindful fun client : Client σ => client.Owing owes answers :=
  fun _ _ owing same => ⟨(congrArg (·.owesNotification) same.session).trans owing.owes,
    same.deliveries.trans owing.answers⟩

theorem Owing.notified (owing : client.Owing owes answers) :
    ∃ delivered, client.notifyPeers.Owing (owes && !delivered) (answers ++ [delivered]) := by
  refine ⟨client.services.notifyPeers.1, ?_, ?_⟩
  · change (if client.services.notifyPeers.1 = true then
      { client.session with owesNotification := false } else client.session).owesNotification = _
    split
    · rename_i delivered
      rw [delivered, Bool.not_true, Bool.and_false]
    · rename_i failed
      rw [Bool.eq_false_iff.mpr failed, Bool.not_false, Bool.and_true]
      exact owing.owes
  · change Effect.deliveries (client.effects ++ [.peersNotified client.services.notifyPeers.1]) = _
    rw [Effect.deliveries_append, owing.answers]
    rfl

section
variable (preserves : ∀ owes answers, react.Preserves fun client : Client σ =>
  client.Owing owes answers)
include preserves

theorem Owing.actions (owing : client.Owing owes answers) (material : SignInMaterial)
    {actions : List SessionAction} (silent : .notifyPeers ∉ actions) :
    (actions.foldl (carryOut react material) client).Owing owes answers := by
  induction actions generalizing client with
  | nil => exact owing
  | cons action actions ih =>
    obtain ⟨here, later⟩ := not_or.mp (fun met => silent (List.mem_cons.mpr met))
    refine ih ?_ later
    cases requested : material.request? action with
    | none =>
      exact (owing_mindful owes answers).carryOut (preserves owes answers) owing requested
        (Ne.symm here)
    | some request =>
      rw [carryOut_request requested]
      refine ⟨owing.owes, ?_⟩
      rw [record, Effect.deliveries_append, owing.answers]
      exact List.append_nil answers

/-- What comes of an event for the peers: one attempt if a cycle ends while a notification is
owed, else none. -/
theorem Owing.run (owing : client.Owing owes answers) {event : SessionEvent}
    (noResult : ∀ success, event ≠ .notificationTried success) (material : SignInMaterial) :
    ∃ new : List Bool, new.length = (if client.session.endsCycle event &&
        (owes || client.session.commits event) then 1 else 0) ∧
      (run react client event material).Owing
        ((owes || client.session.commits event) && !new.contains true) (answers ++ new) := by
  obtain ⟨earlier, silent, actions⟩ := client.session.notifies_onEvent event
  have next : (client.session.onEvent event).1.owesNotification =
      (owes || client.session.commits event) := by
    rw [Traffic.owes_onEvent _ noResult, owing.owes]
  have heard : Owing (owes || client.session.commits event) answers
      { client with session := (client.session.onEvent event).1 } := ⟨next, owing.answers⟩
  have done := heard.actions preserves material silent
  unfold Client.run
  simp only [actions, List.foldl_append, next]
  cases due : client.session.endsCycle event && (owes || client.session.commits event) with
  | false => exact ⟨[], rfl, by simpa using done⟩
  | true =>
    obtain ⟨delivered, sent⟩ := done.notified
    exact ⟨[delivered], rfl, by simpa [carryOut] using sent⟩

end

/-! ## One thing that happens to a client -/

/-- How much the cycle committed whose end a client is told of that runs and is ready. -/
def cycle? (client : Client σ) : Turn → Option Nat
  | .act (.call (.syncerReport (.cycleEnded _ commits _))) =>
    if client.isShutDown || !client.session.isReady then none else some commits
  | _ => none

/-- The cycle is the one that the session hears of. -/
theorem Prompts.cycle? {call : Call} {prompt : Prompt σ} (prompts : client.Prompts call prompt) :
    (client.cycle? (.act (.call call))).isSome = prompt.client.session.endsCycle prompt.event ∧
      (client.cycle? (.act (.call call))).any (0 < ·) =
        prompt.client.session.commits prompt.event ∧
      ∀ success, prompt.event ≠ .notificationTried success := by
  cases prompts with
  | start lsid =>
    unfold firstPrompt
    dsimp only
    split <;> exact ⟨rfl, rfl, nofun⟩
  | offerPassword | offerLsid | skipSignIn | signedIn => exact ⟨rfl, rfl, nofun⟩
  | authReport report =>
    rcases report.event_cases with event | ⟨problem, event⟩ | event <;>
      exact event ▸ ⟨rfl, rfl, nofun⟩
  | syncerReport report running =>
    cases report with
    | cycleEnded hasMore commits isUsable =>
      have ends : client.session.endsCycle
          (.syncerAccount (SyncerReport.cycleEnded hasMore commits isUsable).account) =
            client.session.isReady := Bool.and_true _
      have committed : client.session.commits
          (.syncerAccount (SyncerReport.cycleEnded hasMore commits isUsable).account) =
            (client.session.isReady && 0 < commits) := congrArg (· && _) (Bool.and_true _)
      rw [ends, committed, Client.cycle?, running, Bool.false_or]
      cases client.session.isReady <;> exact ⟨rfl, rfl, nofun⟩
    | statusChanged isUsable =>
      simp [Client.cycle?, Session.endsCycle, Session.commits, SyncerReport.account]

theorem cycle?_unheard {turn : Turn} (unheard : client.heard? turn = none) :
    client.cycle? turn = none := by
  unfold cycle?
  split
  · have down : client.isShutDown = true := by simpa [heard?, prompt?] using unheard
    rw [down, Bool.true_or, if_pos rfl]
  · rfl

theorem cycle?_heard {turn : Turn} {prompt : Prompt σ}
    (heard : client.heard? turn = some prompt) :
    (client.cycle? turn).isSome = prompt.client.session.endsCycle prompt.event ∧
      (client.cycle? turn).any (0 < ·) = prompt.client.session.commits prompt.event ∧
      ∀ success, prompt.event ≠ .notificationTried success := by
  obtain ⟨call, rfl, prompted⟩ := exists_call_of_heard heard
  exact (prompts_of_prompt? prompted).cycle?

/-- Of all that happens to a client only the end of a cycle makes it notify its peers. -/
theorem Owing.turn
    (preserves : ∀ owes answers, react.Preserves fun client : Client σ => client.Owing owes answers)
    (owing : client.Owing owes answers) (turn : Turn) :
    ∃ new : List Bool, new.length = (if (client.cycle? turn).isSome &&
        (owes || (client.cycle? turn).any (0 < ·)) then 1 else 0) ∧
      (client.turn react turn).Owing
        ((owes || (client.cycle? turn).any (0 < ·)) && !new.contains true) (answers ++ new) := by
  cases heard : client.heard? turn with
  | none =>
    have stays := (owing_mindful owes answers).turn (preserves owes answers) owing heard
    rw [cycle?_unheard heard]
    exact ⟨[], rfl, by simpa using stays⟩
  | some prompt =>
    obtain ⟨ends, commits, noResult⟩ := cycle?_heard heard
    have put := owing_mindful owes answers owing (heard_sameMind heard)
    rw [ends, commits, turn_heard react heard]
    exact put.run preserves noResult prompt.material

/-! ## Whole runs -/

/-- An observer that passes on no reports of the syncer, whatever else it does. -/
theorem owing_preserved {may : Act → Prop}
    (unreported : ∀ report, ¬ may (.call (.syncerReport report)))
    (responds : react.Responds may fun _ => True) (owes : Bool) (answers : List Bool) :
    react.Preserves fun client : Client σ => client.Owing owes answers := by
  have invariant : Invariant may (fun _ : Reaction σ => True)
      fun (i : Bool × List Bool) (client : Client σ) => client.Owing i.1 i.2 := by
    refine ⟨fun _ _ _ owing => ⟨owing.owes, owing.answers⟩, ?_⟩
    intro react _ preserves ⟨owes, answers⟩ client act allowed owing
    obtain ⟨new, once, owed⟩ :=
      Owing.turn (fun owes answers => preserves (owes, answers)) owing (.act act)
    have nothing : client.cycle? (.act act) = none := by
      unfold cycle?
      split
      · rename_i same
        cases same
        exact absurd allowed (unreported _)
      · rfl
    rw [nothing] at once owed
    obtain rfl := List.eq_nil_of_length_eq_zero once
    simpa [Client.turn] using owed
  exact responds.preserves invariant (owes, answers)

/-- What all that happened to a client was to its peers, one thing after the other. -/
def moments (react : Reaction σ) : Client σ → List Turn → List Moment
  | _, [] => []
  | client, turn :: rest =>
    let after := client.turn react turn
    ⟨client.cycle? turn,
      (Effect.deliveries after.effects).drop (Effect.deliveries client.effects).length⟩ ::
        moments react after rest

theorem moments_kept
    (preserves : ∀ owes answers, react.Preserves fun client : Client σ => client.Owing owes answers)
    {past : List Moment} (kept : Moment.Kept past owes) (owing : client.Owing owes answers)
    (turns : List Turn) :
    ∃ owed, Moment.Kept (past ++ moments react client turns) owed ∧
      (client.turns react turns).Owing owed
        (answers ++ (moments react client turns).flatMap (·.answers)) := by
  -- after any past, so that what is owed by then is carried along
  induction turns generalizing past client owes answers with
  | nil =>
    refine ⟨owes, ?_, ?_⟩
    · rwa [moments, List.append_nil]
    · rwa [moments, List.flatMap_nil, List.append_nil]
  | cons turn rest ih =>
    obtain ⟨new, once, after⟩ := owing.turn preserves turn
    have fresh : (Effect.deliveries (client.turn react turn).effects).drop
        (Effect.deliveries client.effects).length = new := by
      rw [after.answers, owing.answers, List.drop_left]
    have next : Moment.Kept (past ++ [⟨client.cycle? turn, new⟩]) _ := kept.next once
    obtain ⟨owed, keptAll, owingAll⟩ := ih next after
    refine ⟨owed, ?_, ?_⟩
    · simpa [moments, fresh] using keptAll
    · simpa [moments, fresh, turns] using owingAll

/-- The end of a cycle, reported to a client that is ready, makes it notify its peers once,
if a cycle committed something since the last delivery; nothing else that happens does. So
after a commit each cycle tries again until one attempt is delivered, nothing more is sent
before the next commit, and there are no more deliveries than commits. -/
theorem peersNotified_while_owed {may : Act → Prop}
    (unreported : ∀ report, ¬ may (.call (.syncerReport report)))
    (responds : react.Responds may fun _ => True) (settings : Settings) (services : Services)
    (embedder : σ) (happened : List Turn) :
    let history := moments react (create settings services embedder) happened
    Effect.deliveries ((create settings services embedder).turns react happened).effects =
        history.flatMap (·.answers) ∧
      (∀ earlier moment later, history = earlier ++ moment :: later →
        moment.answers.length ≤ 1 ∧ (moment.answers ≠ [] ↔
          moment.cycle.isSome = true ∧ (Moment.Owed earlier ∨ moment.commits = true))) ∧
      (∀ earlier commit between moment later,
        history = earlier ++ commit :: (between ++ moment :: later) → commit.commits = true →
        (∀ other ∈ commit :: between, true ∉ other.answers) → moment.cycle.isSome = true →
        ∃ delivered, moment.answers = [delivered]) ∧
      (∀ earlier success between moment later,
        history = earlier ++ success :: (between ++ moment :: later) → true ∈ success.answers →
        (∀ other ∈ between ++ [moment], other.commits = false) → moment.answers = []) ∧
      (history.flatMap (·.answers)).count true ≤ history.countP Moment.commits := by
  intro history
  obtain ⟨owed, kept, owing⟩ := moments_kept (owing_preserved unreported responds) .start
    (⟨rfl, rfl⟩ : (create settings services embedder).Owing false []) happened
  rw [List.nil_append] at kept owing
  refine ⟨owing.answers, fun _ _ _ cut => kept.attempts cut, ?_, ?_, ?_⟩
  · intro earlier commit between moment later cut commits failed ends
    rw [← List.cons_append, ← List.append_assoc] at cut
    obtain ⟨atMost, tried⟩ := kept.attempts cut
    have due := tried.mpr ⟨ends, .inl ⟨earlier, commit, between, rfl, commits, failed⟩⟩
    exact List.length_eq_one_iff.mp (Nat.le_antisymm atMost (List.length_pos_iff.mpr due))
  · intro earlier success between moment later cut delivered uncommitted
    rw [← List.cons_append, ← List.append_assoc] at cut
    by_contra tried
    rcases ((kept.attempts cut).2.mp tried).2 with owed | commits
    · exact Moment.not_owed_delivered delivered
        (fun other member => uncommitted other (List.mem_append_left _ member)) owed
    · exact Bool.false_ne_true ((uncommitted moment (by simp)).symm.trans commits)
  · exact Nat.le_of_add_right_le kept.deliveries_le

/-- The attempt after a commit fails, that of the next cycle is delivered, and the cycle after
that makes none. -/
def retrying : List Turn :=
  [.act (.call (.setObserver "main")), .act (.call (.start none)),
    .act (.call (.skipSignIn "u")), .act (.call (.syncerReport (.cycleEnded true 1 true))),
    .act (.call (.syncerReport (.statusChanged true))),
    .act (.call (.syncerReport (.cycleEnded true 0 true))),
    .act (.call (.syncerReport (.cycleEnded false 0 true)))]

theorem peersNotified_while_owed_retrying :
    (∀ report, ¬ Act.call (.syncerReport report) = .call (.offerLsid "cookie")) ∧
      Reaction.offering.Responds (· = .call (.offerLsid "cookie")) (fun _ => True) ∧
      Effect.deliveries
        ((create {} { failingSends := 1 } ()).turns .offering retrying).effects = [false, true] ∧
      ∃ earlier commit between moment later,
        moments .offering (create {} { failingSends := 1 } ()) retrying =
          earlier ++ commit :: (between ++ moment :: later) ∧
        commit.commits = true ∧ (∀ other ∈ commit :: between, true ∉ other.answers) ∧
        moment.cycle.isSome = true ∧ ∃ delivered, moment.answers = [delivered] := by
  have offers : Reaction.offering.Responds (· = .call (.offerLsid "cookie"))
      Reaction.LeavesRunning := Reaction.offering_responds rfl
  have responds := offers.mono fun _ _ => trivial
  obtain ⟨sent, -, again, -, -⟩ :=
    peersNotified_while_owed nofun responds {} { failingSends := 1 } () retrying
  have history : moments .offering (create {} { failingSends := 1 } ()) retrying =
      [⟨none, []⟩, ⟨none, []⟩, ⟨none, []⟩] ++
        ⟨some 1, [false]⟩ :: ([⟨none, []⟩] ++ ⟨some 0, [true]⟩ :: [⟨some 0, []⟩]) := rfl
  refine ⟨nofun, responds, sent.trans (congrArg _ history), _, _, _, _, _, history, rfl, ?_, rfl,
    again _ _ _ _ _ history rfl ?_ rfl⟩ <;> simp

end Client

end SharedTree
