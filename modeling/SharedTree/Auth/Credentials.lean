import SharedTree.Text.Quoted

/-!
What a user signs in with. Descriptions leave out everything secret.
-/

namespace SharedTree

/-- What descriptions show in place of a secret. -/
def redacted : String := "[REDACTED]"

/-- A user name with its password and the answer to a captcha, empty where there was none. -/
structure Credentials where
  username : String
  password : String
  captcha : String := ""
  deriving DecidableEq, Repr

namespace Credentials

/-- The credentials with every field wiped. -/
def wiped (_ : Credentials) : Credentials := { username := "", password := "", captcha := "" }

def describe (credentials : Credentials) : String :=
  "Credentials \x7b username: " ++ Quoted.quote credentials.username ++ ", password: " ++
    Quoted.quote redacted ++ ", captcha: " ++ Quoted.quote redacted ++ " \x7d"

end Credentials

/-- The last user to sign in, with the token of that sign-in. -/
structure RememberedUser where
  username : String
  token : String
  deriving DecidableEq, Repr

namespace RememberedUser

/-- The credentials with every field wiped. -/
def wiped (_ : RememberedUser) : RememberedUser := { username := "", token := "" }

def describe (remembered : RememberedUser) : String :=
  "StoredCredentials \x7b username: " ++ Quoted.quote remembered.username ++ ", token: " ++
    Quoted.quote redacted ++ " \x7d"

end RememberedUser

end SharedTree
