/-!
Watching for changes of the network. Where the platform tells of changes, a channel carries them;
where it does not, a fingerprint of the network is taken once per period and compared with the last
one.
-/

namespace SharedTree

/-- The receiving end of a channel of changes. Changes are not counted: it only matters whether
there was one since the last look. -/
structure ChangeChannel where
  /-- Something was sent since the last look. -/
  unseen : Bool := false
  /-- The sending end is gone. -/
  closed : Bool := false
  deriving DecidableEq, Repr

namespace ChangeChannel

/-- What a look at a channel finds. -/
inductive Look where
  | changed
  /-- Nothing will ever be sent again. -/
  | ended
  | pending
  deriving DecidableEq, Repr

def Look.name : Look → String
  | .changed => "changed"
  | .ended => "ended"
  | .pending => "pending"

/-- Sends a change; tells whether the sending end was still there. -/
def send (w : ChangeChannel) : Bool × ChangeChannel :=
  if w.closed then (false, w) else (true, { w with unseen := true })

/-- Drops the sending end. -/
def close (w : ChangeChannel) : ChangeChannel := { w with closed := true }

/-- Looks whether something changed. What was sent before the end is still seen. -/
def look (w : ChangeChannel) : Look × ChangeChannel :=
  if w.unseen then (.changed, { w with unseen := false })
  else if w.closed then (.ended, w)
  else (.pending, w)

end ChangeChannel

/-- A watcher that takes fingerprints. -/
structure NetworkPoll where
  /-- The fingerprints still to be taken; none where the network cannot be told. Once they are used
  up there are no more. -/
  samples : List (Option Nat)
  /-- The last fingerprint that was taken. -/
  last : Option Nat := none
  /-- How often a fingerprint was asked for. -/
  probes : Nat := 0
  deriving DecidableEq, Repr

namespace NetworkPoll

/-- Takes fingerprints until one differs from the one before it, or until there is none to be had;
the watcher ends there. -/
def awaitChange (samples : List (Option Nat)) (last : Option Nat) (probes : Nat) :
    Bool × NetworkPoll :=
  match samples with
  | [] => (false, { samples := [], last, probes := probes + 1 })
  | none :: rest => (false, { samples := rest, last, probes := probes + 1 })
  | some current :: rest =>
    match last with
    | some previous =>
      if previous ≠ current then
        (true, { samples := rest, last := some current, probes := probes + 1 })
      else awaitChange rest (some current) (probes + 1)
    | none => awaitChange rest (some current) (probes + 1)

/-- Waits for the next change; tells whether there was one. -/
def changed (w : NetworkPoll) : Bool × NetworkPoll :=
  awaitChange w.samples w.last w.probes

/-- The shortest time between two fingerprints, in milliseconds. -/
def shortestWait : Nat := 1

/-- The longest time between two fingerprints, in milliseconds: thirty years of 365 days. -/
def longestWait : Nat := 30 * 365 * 24 * 60 * 60 * 1000

/-- The time between two fingerprints, in milliseconds: the period, as far as the bounds allow. -/
def wait (period : Nat) : Nat := max shortestWait (min period longestWait)

/-- The time that has passed, in milliseconds: the first fingerprint is taken at once, each later
one a wait after the one before. -/
def elapsed (w : NetworkPoll) (period : Nat) : Nat := (w.probes - 1) * wait period

/-- How many changes there are before the watcher ends. -/
def countChanges (samples : List (Option Nat)) (last : Option Nat) : Nat :=
  match samples with
  | some current :: rest =>
    countChanges rest (some current) + if last.any (· ≠ current) then 1 else 0
  | _ => 0

end NetworkPoll

/-- A watch on the network, in either way. -/
inductive NetworkWatch where
  | channel (watcher : ChangeChannel)
  | polling (watcher : NetworkPoll)
  deriving DecidableEq, Repr

end SharedTree
