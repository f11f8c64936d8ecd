import SharedTree.Auth.Credentials
import SharedTree.Status

/-!
The services a client works with, as far as they answer: what they answer is set beforehand.
-/

namespace SharedTree

/-- What the services of a client will answer. -/
structure Services where
  /-- The last user to sign in. -/
  remembered : Option RememberedUser := none
  /-- How many of the next notifications will not be delivered. -/
  failingSends : Nat := 0
  /-- The syncer will not stop in time. -/
  failingStop : Bool := false
  syncer : SyncerState := {}
  connection : ServerState := {}
  notifier : NotifierState := {}
  deriving DecidableEq

namespace Services

/-- Sends a notification to the peers; tells whether it was delivered. -/
def notifyPeers (s : Services) : Bool × Services :=
  match s.failingSends with
  | n + 1 => (false, { s with failingSends := n })
  | 0 =>
    (true, { s with
      notifier := { s.notifier with sent := s.notifier.sent + 1 } })

/-- Stops the syncer; tells whether it stopped in time. -/
def stopSyncer (s : Services) : Bool × Services :=
  (!s.failingStop, { s with failingStop := false })

/-- Takes the notifier off the network. -/
def logOutNotifier (s : Services) : Services :=
  { s with notifier := { s.notifier with isEnabled := false } }

end Services

end SharedTree
