import SharedTree.Auth.Problem

/-!
What the auth watcher reports about an attempt to sign in, and the problem that a failed one amounts
to.
-/

namespace SharedTree

/-- Why the account service refused credentials. -/
inductive AccountRefusal where
  | captchaRequired (challenge : Captcha)
  | connectionUnavailable
  | badCredentials
  deriving DecidableEq, Repr

/-- A report of the auth watcher. -/
inductive AuthReport where
  /-- An attempt began. -/
  | attemptStarted
  /-- The credentials of this account were accepted. -/
  | succeeded (userEmail : String)
  /-- The account service refused. -/
  | accountRefused (refusal : AccountRefusal)
  /-- The sync service refused the token, which has probably expired. -/
  | serviceRefused
  /-- The account has not signed up for sync. -/
  | serviceUserNotSignedUp
  /-- The sync service could not be reached. -/
  | serviceUnreachable
  /-- Anything else. -/
  | other
  deriving DecidableEq, Repr

/-- The problem that a report of failure amounts to; other reports are no failures. -/
def AuthReport.problem? : AuthReport → Option AuthProblem
  | .accountRefused (.captchaRequired challenge) => some (.ofCaptcha challenge)
  | .accountRefused .connectionUnavailable => some (.ofState .connectionFailed)
  | .accountRefused .badCredentials => some (.ofState .credentialsRefused)
  | .serviceRefused => some (.ofState .credentialsRefused)
  | .serviceUserNotSignedUp => some (.ofState .userNotSignedUp)
  | .serviceUnreachable => some (.ofState .connectionFailed)
  | .attemptStarted | .succeeded _ | .other => none

end SharedTree
