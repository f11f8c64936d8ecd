import SharedTree.Client.Basic
import SharedTree.Delivery

/-!
What a client does when a write transaction closes on a directory it listens to. The differences are
found while nobody else can write; then the observer is told, with the directory open for it to look
at.
-/

namespace SharedTree.Client

variable {σ : Type}

/-- The changes to be told. A transaction of the embedder is not told; if it left something for the
server, the syncer is nudged. -/
def changesToTell (client : Client σ) (t : ClosedTransaction) : List Change × Client σ :=
  match t.writer with
  | .embedder =>
    let client := { client with observations := client.observations.dropStale.2 }
    if t.needsSync then
      ([], client.record (.nudged client.settings.syncer.nudgeDelay .localEdit))
    else ([], client)
  | .syncer | .unittest =>
    let (changes, observations) := client.observations.drain t
    (changes, { client with observations })

/-- Tells the observer about changes, if there are any. -/
def deliver (react : Reaction σ) (client : Client σ) (contents : Contents)
    (changes : List Change) : Client σ :=
  if changes.isEmpty then client else client.tell react (.changesApplied contents changes)

/-- Closes a write transaction on a directory. -/
def commit (react : Reaction σ) (client : Client σ) (id : DirectoryId) (t : Transaction) :
    Client σ :=
  match client.registry.directory? id with
  | none => client
  | some d =>
    let client :=
      let store (d : Directory) : Directory := { d with contents := t.contents }
      { client with registry := client.registry.modify id store }
    if d.hasListener then
      let (changes, client) := client.changesToTell t.closed
      client.deliver react t.contents changes
    else client

end SharedTree.Client
