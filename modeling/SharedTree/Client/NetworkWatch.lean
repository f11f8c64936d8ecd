import SharedTree.Client.Basic

/-!
The watch on the network: each change that a client hears of makes it check whether the server can
be reached. A new watch takes the place of the one before. A watch takes note of nothing by itself;
it does so when it is settled. A watch that is called off takes note of nothing any more, and the
listening end of its channel goes when the watch is settled.
-/

namespace SharedTree.Client

variable {σ : Type}

/-- Calls the watch off. -/
def callOffNetworkWatch (client : Client σ) : Client σ :=
  let lingers := match client.networkWatch with
    | some (.channel watcher) => !watcher.closed
    | _ => client.channelLingers
  { client with networkWatch := none, channelLingers := lingers }

/-- Watches in a given way from now on. A new channel is the one that changes are sent on. -/
def watchNetwork (client : Client σ) (watch : NetworkWatch) : Client σ :=
  let client := client.callOffNetworkWatch
  let lingers := match watch with
    | .channel _ => false
    | .polling _ => client.channelLingers
  { client with networkWatch := some watch, channelLingers := lingers }

/-- Sends a change on the channel; tells whether somebody still listens to it. -/
def sendNetworkChange (client : Client σ) : Bool × Client σ :=
  match client.networkWatch with
  | some (.channel watcher) =>
    let (sent, watcher) := watcher.send
    (sent, { client with networkWatch := some (.channel watcher) })
  | _ => (client.channelLingers, client)

/-- Drops the sending end of the channel. -/
def closeNetworkChannel (client : Client σ) : Client σ :=
  match client.networkWatch with
  | some (.channel watcher) => { client with networkWatch := some (.channel watcher.close) }
  | _ => { client with channelLingers := false }

/-- Lets the watch take note of what there is: each change makes it check the connection. A watch
that can see no further change ends. -/
def settleNetworkWatch (client : Client σ) : Client σ :=
  let client := { client with channelLingers := false }
  match client.networkWatch with
  | none => client
  | some (.polling watcher) =>
    let checks := NetworkPoll.countChanges watcher.samples watcher.last
    { client with
      networkWatch := none
      effects := client.effects ++ List.replicate checks .connectionChecked }
  | some (.channel watcher) =>
    match watcher.look with
    | (.changed, watcher) =>
      { client.record .connectionChecked with
        networkWatch := if watcher.closed then none else some (.channel watcher) }
    | (.ended, _) => { client with networkWatch := none }
    | (.pending, _) => client

end SharedTree.Client
