import SharedTree.Proofs.ClientCalls

/-! What the auth watcher is asked to try. A session wants at most one attempt made in answer
to an event (`attempts`), and the call that puts the event to it has what the attempt needs
(`Prompts.requests`): so each call that is accepted comes to the requests that are due for
it, and no attempt ever goes nowhere. -/
namespace SharedTree

variable {σ : Type}

/-- The actions that make a request of the auth watcher, if what they need is at hand. -/
def SessionAction.isAttempt : SessionAction → Bool
  | .tryPassword | .tryToken | .tryLsid => true
  | _ => false

namespace Session

/-- The attempts that a session wants made in answer to an event. -/
def attempts (s : Session) : SessionEvent → List SessionAction
  | .passwordOffered _ => if s.authenticated then [] else [.tryPassword]
  | .rememberedUserFound _ => [.tryToken]
  | .lsidOffered => [.tryLsid]
  | _ => []

theorem noAttempt_becomeReady (s : Session) : s.becomeReady.2.filter (·.isAttempt) = [] := by
  unfold becomeReady
  split <;> rfl

theorem attempts_onEvent (s : Session) (event : SessionEvent) :
    (s.onEvent event).2.filter (·.isAttempt) = s.attempts event := by
  cases event with
  | passwordOffered passwordEmpty =>
    rw [onEvent, attempts]
    split
    · rfl
    · cases passwordEmpty <;> rfl
  | syncerAccount account =>
    change (s.onAccount account).2.filter _ = []
    unfold onAccount
    split
    · split
      · exact noAttempt_becomeReady _
      · rfl
    · split
      · rw [endCycle, List.filter_append]
        split <;> split <;> rfl
      · rfl
  | signedIn ended => exact noAttempt_becomeReady _
  | signInSkipped => exact noAttempt_becomeReady _
  | rememberedUserFound | lsidOffered | nothingToOffer | attemptStarted | signInFailed
  | otherReport | notificationTried => rfl

end Session

theorem SignInMaterial.request?_eq_none (material : SignInMaterial) {action : SessionAction}
    (other : action.isAttempt = false) : material.request? action = Option.none := by
  cases action with
  | tryPassword | tryToken | tryLsid => cases other
  | _ => cases material <;> rfl

namespace Client
variable {react : Reaction σ} {client : Client σ}

/-- The requests that are due for a call that is accepted: for the last user or else for an
LSID cookie when a client starts, for each LSID cookie, and for each password as long as
nobody is signed in. -/
def due (client : Client σ) : Call → List SignInRequest
  | .start lsid =>
    match client.lastUser?, lsid.filter (· ≠ "") with
    | some remembered, _ => [.token remembered]
    | none, some lsid => [.lsid lsid]
    | none, none => []
  | .offerLsid lsid => [.lsid lsid]
  | .offerPassword credentials =>
    if client.session.authenticated then [] else [.password credentials]
  | .authReport _ | .syncerReport _ | .setObserver _ | .removeObserver | .skipSignIn _
  | .shutDown => []

/-- The requests that are due for one thing that happens to a client; none for a call that is
refused. -/
def requested (react : Reaction σ) (client : Client σ) : Turn → List SignInRequest
  | .act (.call call) =>
    match (client.call react call).1 with
    | .ok () => client.due call
    | .error _ => []
  | _ => []

/-- The requests that are due for all that happened to a client, in order. -/
def requestedOver (react : Reaction σ) : Client σ → List Turn → List SignInRequest
  | _, [] => []
  | client, turn :: rest =>
    client.requested react turn ++ requestedOver react (client.turn react turn) rest

/-- A call that puts an event to the session has what the attempts need that the session then
wants made, and they are what is due for it. -/
theorem Prompts.requests {call : Call} {prompt : Prompt σ} (prompts : client.Prompts call prompt) :
    (prompt.client.session.attempts prompt.event).map prompt.material.request? =
      (client.due call).map some := by
  cases prompts with
  | start lsid =>
    unfold firstPrompt
    rw [due]
    cases client.lastUser? with
    | some remembered => rfl
    | none => cases lsid.filter (· ≠ "") <;> rfl
  | offerPassword credentials =>
    rw [Session.attempts, due]
    split <;> rfl
  | offerLsid | skipSignIn | signedIn | syncerReport => rfl
  | authReport report =>
    rcases report.event_cases with event | ⟨problem, event⟩ | event <;> rw [event] <;> rfl

/-! ## Whole runs -/

theorem requests_mindful (requests : List SignInRequest) :
    Mindful fun client : Client σ => Effect.signInRequests client.effects = requests :=
  fun _ _ asked same => same.signInRequests.trans asked

/-- What a run of the session adds to the requests, if the observer keeps to itself. -/
theorem actions_requests (keeps : react.KeepsToItself) (material : SignInMaterial)
    (client : Client σ) (actions : List SessionAction) :
    Effect.signInRequests (actions.foldl (carryOut react material) client).effects =
      Effect.signInRequests client.effects ++ actions.filterMap material.request? := by
  induction actions generalizing client with
  | nil => exact (List.append_nil _).symm
  | cons action actions ih =>
    rw [List.foldl_cons, ih]
    cases requested : material.request? action with
    | some request =>
      rw [carryOut_request requested, record, Effect.signInRequests_append,
        List.filterMap_cons_some requested, List.append_assoc]
      rfl
    | none =>
      have mindful : Mindful fun after : Client σ => _ :=
        requests_mindful (Effect.signInRequests client.effects)
      have unchanged : Effect.signInRequests (carryOut react material client action).effects =
          Effect.signInRequests client.effects := by
        by_cases notifies : action = .notifyPeers
        · rw [notifies]
          exact (Effect.signInRequests_append _ _).trans (List.append_nil _)
        · exact mindful.carryOut (mindful.preserved keeps) rfl requested notifies
      rw [unchanged, List.filterMap_cons_none requested]

/-- What a call adds to the requests is what is due for it. -/
theorem Prompts.run_requests (keeps : react.KeepsToItself) {call : Call} {prompt : Prompt σ}
    (prompts : client.Prompts call prompt) :
    Effect.signInRequests (run react prompt.client prompt.event prompt.material).effects =
      Effect.signInRequests client.effects ++ client.due call := by
  let actions := (prompt.client.session.onEvent prompt.event).2
  have attempts : actions.filterMap prompt.material.request? = client.due call := by
    calc actions.filterMap prompt.material.request?
        = (actions.filter (·.isAttempt)).filterMap prompt.material.request? := by
          rw [List.filterMap_filter]
          refine congrArg (List.filterMap · actions) (funext fun action => ?_)
          cases attempt : action.isAttempt with
          | true => rfl
          | false => exact prompt.material.request?_eq_none attempt
      _ = ((prompt.client.session.attempts prompt.event).map prompt.material.request?).filterMap
          id := by rw [Session.attempts_onEvent, List.filterMap_map, Function.id_comp]
      _ = client.due call := by rw [prompts.requests, List.filterMap_map]; exact List.filterMap_some
  rw [← prompts.sameMind.signInRequests, ← attempts]
  exact actions_requests keeps prompt.material _ actions

theorem requested_unheard {turn : Turn} (unheard : client.heard? turn = none) :
    client.requested react turn = [] := by
  match turn with
  | .act (.call call) =>
    rw [requested]
    generalize answered : client.call react call = answer
    have called := answered ▸ call_called react client call
    cases called with
    | prompts prompt prompted => cases Eq.trans (Eq.symm unheard) prompted
    | refused => rfl
    | passes _ asks =>
      cases call with
      | start | offerPassword | offerLsid | skipSignIn => exact absurd trivial asks
      | authReport | syncerReport | setObserver | removeObserver | shutDown => rfl
  | .act (.transaction _ _) | .act (.markFirstSyncDone _) | .act (.answers _) | .watchNetwork _
  | .sendNetworkChange | .closeNetworkChannel | .settleNetworkWatch => rfl

theorem turn_requests (keeps : react.KeepsToItself) (client : Client σ) (turn : Turn) :
    Effect.signInRequests (client.turn react turn).effects =
      Effect.signInRequests client.effects ++ client.requested react turn := by
  cases heard : client.heard? turn with
  | none =>
    have mindful : Mindful fun after : Client σ => _ :=
      requests_mindful (Effect.signInRequests client.effects)
    rw [requested_unheard heard, List.append_nil]
    exact mindful.turn (mindful.preserved keeps) rfl heard
  | some prompt =>
    obtain ⟨call, rfl, prompted⟩ := exists_call_of_heard heard
    rw [turn_heard react heard, (prompts_of_prompt? prompted).run_requests keeps, requested,
      call_prompted react prompted]

theorem turns_requests (keeps : react.KeepsToItself) (client : Client σ) (happened : List Turn) :
    Effect.signInRequests (client.turns react happened).effects =
      Effect.signInRequests client.effects ++ requestedOver react client happened := by
  induction happened generalizing client with
  | nil => exact (List.append_nil _).symm
  | cons turn rest ih =>
    rw [turns, List.foldl_cons, requestedOver, ← List.append_assoc, ← turn_requests keeps]
    exact ih _

/-- The auth watcher hears of every credential that is accepted, once and in order, and of
nothing else. For any observer and any client, a call that puts an event to the session has
what each attempt needs that the session then wants made; the results of notifications want
none made. -/
theorem signInRequests_accepted (keeps : react.KeepsToItself) (settings : Settings)
    (services : Services) (embedder : σ) (happened : List Turn) :
    Effect.signInRequests ((create settings services embedder).turns react happened).effects =
        requestedOver react (create settings services embedder) happened ∧
      (∀ (other : Reaction σ) (client : Client σ) (call : Call),
        (∃ refusal, client.call other call = (.error refusal, client)) ∨
          client.call other call = (.ok (), client.aside call) ∨
          ∃ prompt : Prompt σ, client.call other call =
              (.ok (), run other prompt.client prompt.event prompt.material) ∧
            ∀ action ∈ (prompt.client.session.onEvent prompt.event).2, action.isAttempt = true →
              ∃ request, prompt.material.request? action = some request ∧
                ∀ after : Client σ, carryOut other prompt.material after action =
                  after.record (.signInRequested request)) ∧
      ∀ (session : Session) (success : Bool),
        (session.onEvent (.notificationTried success)).2 = [] := by
  refine ⟨turns_requests keeps _ happened, fun other client call => ?_, fun _ _ => rfl⟩
  generalize answered : client.call other call = answer
  have called := answered ▸ call_called other client call
  cases called with
  | refused _ refusal => exact .inl ⟨refusal, rfl⟩
  | passes => exact .inr (.inl rfl)
  | prompts prompt prompted =>
    refine .inr (.inr ⟨prompt, rfl, fun action wanted attempt => ?_⟩)
    have attempted : action ∈ prompt.client.session.attempts prompt.event := by
      rw [← Session.attempts_onEvent]
      exact List.mem_filter.mpr ⟨wanted, attempt⟩
    have supplied := List.mem_map_of_mem (f := prompt.material.request?) attempted
    rw [(prompts_of_prompt? prompted).requests] at supplied
    obtain ⟨request, -, made⟩ := List.mem_map.mp supplied
    exact ⟨request, made.symm, fun _ => carryOut_request made.symm⟩

/-- Credentials before the client is started, while nobody is signed in, and after that. -/
def signingInTwice : List Turn :=
  [.act (.call (.offerLsid "early")), .act (.call (.start (some "cookie"))),
    .act (.call (.offerLsid "")), .act (.call (.offerPassword { username := "u", password := "" })),
    .act (.call (.authReport (.succeeded "u"))),
    .act (.call (.offerPassword { username := "U", password := "p" })),
    .act (.call (.offerPassword { username := "v", password := "p" })),
    .act (.call (.offerLsid "late"))]

theorem signInRequests_accepted_twice :
    (Reaction.quiet : Reaction Unit).KeepsToItself ∧
      Effect.signInRequests
          ((create {} {} () : Client Unit).turns .quiet signingInTwice).effects =
        [.lsid "cookie", .password { username := "u", password := "" }, .lsid "late"] :=
  ⟨Reaction.quiet_keepsToItself,
    (signInRequests_accepted Reaction.quiet_keepsToItself {} {} () signingInTwice).1.trans rfl⟩

end Client

end SharedTree
