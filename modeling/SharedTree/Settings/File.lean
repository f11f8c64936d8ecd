import SharedTree.Failure
import SharedTree.Settings.Basic
import SharedTree.Settings.Path
import SharedTree.Toml.Document

/-!
Settings read from a file. Each section may be left out, and so may each setting in it; what has no
meaning here is ignored. A section is a table, or an array of its settings in order. A setting of
the wrong kind, or a number out of bounds, spoils the whole file.
-/

namespace SharedTree

open Toml

/-- The settings of a section as they are written: by name, or by place. -/
structure SettingsSection where
  find : (name : String) → (place : Nat) → Option Value

namespace SettingsSection

/-- A section in which nothing is written. -/
def blank : SettingsSection := ⟨fun _ _ => none⟩

/-- The section that a value writes. A point in time passes for a section in which nothing is
written; other single values do not. -/
def ofValue? : Value → Option SettingsSection
  | .table entries => some ⟨fun name _ => entries.lookup name⟩
  | .array items => some ⟨fun _ place => items[place]?⟩
  | .dateTime => some blank
  | _ => none

/-- A setting that is a text. -/
def text? (s : SettingsSection) (name : String) (place : Nat) (default : String) : Option String :=
  match s.find name place with
  | none => some default
  | some (.text written) => some written
  | some _ => none

/-- A setting that is true or false. -/
def flag? (s : SettingsSection) (name : String) (place : Nat) (default : Bool) : Option Bool :=
  match s.find name place with
  | none => some default
  | some (.boolean written) => some written
  | some _ => none

/-- A setting that is a number of at most `bits` bits. -/
def number? (s : SettingsSection) (name : String) (place bits : Nat) (default : Nat) : Option Nat :=
  match s.find name place with
  | none => some default
  | some (.integer written) =>
    if 0 ≤ written ∧ written < Nat.pow 2 bits then some written.toNat else none
  | some _ => none

end SettingsSection

namespace Settings

/-- The section under a name. -/
def section? (document : List (String × Value)) (name : String) : Option SettingsSection :=
  match document.lookup name with
  | none => some SettingsSection.blank
  | some value => SettingsSection.ofValue? value

/-- The settings that a text writes. -/
def ofText? (text : String) : Option Settings := do
  let document ← parse? text
  let directory ← section? document "directory"
  let server ← section? document "server"
  let auth ← section? document "auth"
  let syncer ← section? document "syncer"
  let default : Settings := {}
  return {
    directory := {
      location := ← directory.text? "database_location" 0 default.directory.location }
    server := {
      host := ← server.text? "host" 0 default.server.host
      port := ← server.number? "port" 1 16 default.server.port
      useSsl := ← server.flag? "use_ssl" 2 default.server.useSsl }
    auth := {
      serviceId := ← auth.text? "service_id" 0 default.auth.serviceId
      resumesLastUser :=
        ← auth.flag? "attempt_last_user_authentication" 1 default.auth.resumesLastUser }
    syncer := {
      nudgeDelay := ← syncer.number? "nudge_delay_ms" 0 64 default.syncer.nudgeDelay
      stopTimeout :=
        ← syncer.number? "thread_exit_timeout_ms" 1 64 default.syncer.stopTimeout } }

/-- What the file system gives for a path. -/
inductive FileAnswer where
  | bytes (content : ByteArray)
  | refused (fault : PathFault)

/-- The settings in a file. -/
def load (path : String) : FileAnswer → Except SettingsFailure Settings
  | .refused fault => .error (.unreadable path fault.message)
  | .bytes content =>
    match String.fromUTF8? content with
    | none => .error (.unreadable path "stream did not contain valid UTF-8")
    | some text =>
      match ofText? text with
      | none => .error (.malformed path "not a settings document")
      | some settings => .ok settings

end Settings

end SharedTree
