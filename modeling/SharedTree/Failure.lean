import SharedTree.Node.Edit
import SharedTree.Text.Quoted

/-!
Why a request to the client fails, with the word for each cause and the text that reports it.
-/

namespace SharedTree

/-- Failures that every layer shares. -/
inductive SyncFailure where
  /-- The user's directory is not open. -/
  | directoryNotOpen (username : String)
  /-- The client is not ready yet. -/
  | notInitialized
  /-- No user is known yet. -/
  | notAuthenticated
  | entryNotFound (handle : Handle)
  | invalidData (detail : String)
  | internal (detail : String)
  deriving DecidableEq

def SyncFailure.name : SyncFailure → String
  | .directoryNotOpen _ => "DirectoryNotOpen"
  | .notInitialized => "NotInitialized"
  | .notAuthenticated => "NotAuthenticated"
  | .entryNotFound _ => "EntryNotFound"
  | .invalidData _ => "InvalidData"
  | .internal _ => "Internal"

def SyncFailure.message : SyncFailure → String
  | .directoryNotOpen username => "no directory open for user " ++ Quoted.quote username
  | .notInitialized => "sync manager not initialized"
  | .notAuthenticated => "not authenticated"
  | .entryNotFound h => "entry not found: " ++ h.text
  | .invalidData detail => "invalid data: " ++ detail
  | .internal detail => "internal error: " ++ detail

/-- Failures to load settings. The detail is what the file system or the reader of the format says.
-/
inductive SettingsFailure where
  | unreadable (path detail : String)
  | malformed (path detail : String)
  deriving DecidableEq

def SettingsFailure.name : SettingsFailure → String
  | .unreadable _ _ => "ReadError"
  | .malformed _ _ => "ParseError"

def SettingsFailure.message : SettingsFailure → String
  | .unreadable path detail => "failed to read config file " ++ path ++ ": " ++ detail
  | .malformed path detail => "failed to parse config file " ++ path ++ ": " ++ detail

/-- Why a request to the client fails. -/
inductive ClientFailure where
  | settings (error : SettingsFailure)
  | node (error : EditRefusal)
  | sync (error : SyncFailure)
  | alreadyInitialized
  | shutDown
  /-- Credentials are for another user than the share belongs to. -/
  | usernameChanged (current requested : String)
  deriving DecidableEq

def ClientFailure.name : ClientFailure → String
  | .settings error => error.name
  | .node error => error.name
  | .sync error => error.name
  | .alreadyInitialized => "AlreadyInitialized"
  | .shutDown => "ShutDown"
  | .usernameChanged _ _ => "UsernameChanged"

def ClientFailure.message : ClientFailure → String
  | .settings error => "config error: " ++ error.message
  | .node error => "node error: " ++ error.message
  | .sync error => error.message
  | .alreadyInitialized => "sync manager already initialized"
  | .shutDown => "sync manager has been shut down"
  | .usernameChanged current requested =>
    "share belongs to " ++ Quoted.quote current ++ ", refusing credentials for " ++
      Quoted.quote requested

end SharedTree
