import SharedTree.Auth.Report
import SharedTree.SyncerReport
import SharedTree.Wire.Record

/-!
What services report, and what a session is told, as plain data: an object whose kind is a word,
with what belongs to that kind beside it. A flag that is missing is off, a count is zero, and a text
is empty.
-/

namespace SharedTree.Wire

def authReport? (v : Value) : Option AuthReport :=
  match v.textAt "kind" with
  | "AttemptStart" => some .attemptStarted
  | "Succeeded" => some (.succeeded (v.textAt "user_email"))
  | "CaptchaRequired" =>
    let challenge := ⟨v.textAt "token", v.textAt "image_url", v.textAt "unlock_url"⟩
    some (.accountRefused (.captchaRequired challenge))
  | "ConnectionUnavailable" => some (.accountRefused .connectionUnavailable)
  | "BadCredentials" => some (.accountRefused .badCredentials)
  | "ServiceAuthFailed" => some .serviceRefused
  | "ServiceUserNotSignedUp" => some .serviceUserNotSignedUp
  | "ServiceConnectionFailed" => some .serviceUnreachable
  | "Other" => some .other
  | _ => none

def syncerReport? (v : Value) : Option SyncerReport :=
  let isUsable := v.flagAt "is_share_usable"
  match v.textAt "kind" with
  | "SyncCycleEnded" =>
    some (.cycleEnded (v.flagAt "has_more_to_sync") (v.countAt "successful_commits") isUsable)
  | "StatusChanged" => some (.statusChanged isUsable)
  | _ => none

def syncerAccount (v : Value) : SyncerAccount where
  isUsable := v.flagAt "is_share_usable"
  cycleEnded := v.flagAt "cycle_ended"
  hasMore := v.flagAt "has_more_to_sync"
  commits := v.countAt "successful_commits"

def ofSyncerAccount (s : SyncerAccount) : Value :=
  .object [("is_share_usable", .boolean s.isUsable), ("cycle_ended", .boolean s.cycleEnded),
    ("has_more_to_sync", .boolean s.hasMore),
    ("successful_commits", .integer s.commits)]

def sessionEvent? (v : Value) : Option SessionEvent :=
  match v.textAt "kind" with
  | "AuthenticateRequested" => some (.passwordOffered (v.flagAt "password_empty"))
  | "StoredCredentialsLoaded" => some (.rememberedUserFound (v.flagAt "initial_sync_ended"))
  | "LsidSubmitted" => some .lsidOffered
  | "NoCredentials" => some .nothingToOffer
  | "AuthAttemptStarted" => some .attemptStarted
  | "AuthSucceeded" => some (.signedIn (v.flagAt "initial_sync_ended"))
  | "AuthFailed" => (authProblem? (v.get "error")).map .signInFailed
  | "AuthOther" => some .otherReport
  | "TestModeEntered" => some .signInSkipped
  | "SyncerSnapshot" => some (.syncerAccount (syncerAccount v))
  | "NotificationSent" => some (.notificationTried (v.flagAt "success"))
  | _ => none

/-- An action travels as its name, with the error it carries. -/
def ofSessionAction (action : SessionAction) : Value :=
  match action with
  | .tellAuthProblem error => .object [(action.name, ofAuthProblem error)]
  | action => .text action.name

/-- A session travels with the actions that it has just answered. -/
def ofSession (s : Session) (actions : List SessionAction) : Value :=
  .object [("actions", .list (actions.map ofSessionAction)), ("phase", .text s.phase.name),
    ("ready", .boolean s.isReady), ("authenticated", .boolean s.authenticated),
    ("initial_sync_ended", .boolean s.firstSyncDone), ("auth_problem", .text s.authProblem.name),
    ("notification_pending", .boolean s.owesNotification)]

end SharedTree.Wire
