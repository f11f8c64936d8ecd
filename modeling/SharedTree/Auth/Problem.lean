import SharedTree.Text.Quoted

/-!
What can be wrong with signing in, as an observer is told. "No problem" is a value like the others,
so that an observer also hears when a problem has gone away.
-/

namespace SharedTree

/-- The state of authentication that an observer sees. -/
inductive AuthState where
  /-- There is no problem. -/
  | none
  /-- There is nothing to sign in with; the embedder has to ask the user. -/
  | credentialsNeeded
  /-- The account service or the sync service refused what it was given. -/
  | credentialsRefused
  /-- The account exists and has not signed up for sync. -/
  | userNotSignedUp
  /-- A service could not be reached. -/
  | connectionFailed
  /-- The account service wants a captcha solved first. -/
  | captchaRequired
  deriving DecidableEq, Repr

def AuthState.name : AuthState → String
  | .none => "None"
  | .credentialsNeeded => "CredentialsNeeded"
  | .credentialsRefused => "InvalidGaiaCredentials"
  | .userNotSignedUp => "UserNotSignedUp"
  | .connectionFailed => "ConnectionFailed"
  | .captchaRequired => "CaptchaRequired"

def AuthState.all : List AuthState :=
  [.none, .credentialsNeeded, .credentialsRefused, .userNotSignedUp, .connectionFailed,
    .captchaRequired]

/-- A captcha to be solved before credentials are looked at. -/
structure Captcha where
  /-- To be sent back with the answer. -/
  token : String
  imageUrl : String
  /-- Where the user can unlock the account instead. -/
  unlockUrl : String
  deriving DecidableEq, Repr

/-- A challenge as descriptions show it. -/
def Captcha.describe (challenge : Captcha) : String :=
  "CaptchaChallenge \x7b token: " ++ Quoted.quote challenge.token ++ ", image_url: " ++
    Quoted.quote challenge.imageUrl ++ ", unlock_url: " ++
    Quoted.quote challenge.unlockUrl ++ " \x7d"

/-- What an observer is told about authentication. -/
structure AuthProblem where
  state : AuthState := .none
  captcha : Option Captcha := Option.none
  deriving DecidableEq, Repr

namespace AuthProblem

/-- There is no problem. -/
def healthy : AuthProblem := {}

/-- A problem without a captcha. -/
def ofState (state : AuthState) : AuthProblem := { state }

/-- A captcha has to be solved. -/
def ofCaptcha (challenge : Captcha) : AuthProblem :=
  { state := .captchaRequired, captcha := some challenge }

def isHealthy (error : AuthProblem) : Bool := error.state = .none

/-- An error as descriptions show it. -/
def describe (error : AuthProblem) : String :=
  "AuthError \x7b state: " ++ error.state.name ++ ", captcha: " ++
    (match error.captcha with
      | Option.none => "None"
      | some challenge => "Some(" ++ challenge.describe ++ ")") ++ " \x7d"

end AuthProblem

end SharedTree
