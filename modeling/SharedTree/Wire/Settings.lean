import SharedTree.Settings.Basic
import SharedTree.Wire.Value

/-!
Settings as plain data. Times travel in milliseconds and, beside that, split into seconds.
-/

namespace SharedTree.Wire

/-- A time in milliseconds, split. -/
def ofMilliseconds (milliseconds : Nat) : Value :=
  let (seconds, rest) := secondsAndMillis milliseconds
  .object [("secs", .integer seconds), ("millis", .integer rest)]

def ofSettings (s : Settings) : Value :=
  .object [
    ("database_location", .text s.directory.location),
    ("host", .text s.server.host),
    ("port", .integer s.server.port),
    ("use_ssl", .boolean s.server.useSsl),
    ("service_id", .text s.auth.serviceId),
    ("attempt_last_user_authentication", .boolean s.auth.resumesLastUser),
    ("nudge_delay_ms", .integer s.syncer.nudgeDelay),
    ("thread_exit_timeout_ms", .integer s.syncer.stopTimeout),
    ("nudge_delay", ofMilliseconds s.syncer.nudgeDelay),
    ("thread_exit_timeout", ofMilliseconds s.syncer.stopTimeout)]

end SharedTree.Wire
