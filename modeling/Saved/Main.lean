import Saved.Lib.Script
import Saved.Process

/-!
# The program (`main.rs`)

`main` starts the task and holds its only handle. It makes a fixed list of requests, each when the
one before has been answered, and ends at the first that fails, by `?`; then it waits for the task.
In between it sleeps, and prints events for ten seconds.

`fromStr` is `PeerId::from_str`, which reads an id from its text. The texts here are constants, and
each of them is an id.
-/

namespace Saved

open Saved.Lib

/-- The bytes of a text in ASCII. -/
def asciiBytes (text : String) : List Byte := text.toList.map fun c => Fin.ofNat 256 c.toNat

variable (fromStr : String → PeerId)

/-- The peers that are reached by the name of the bootstrap service. -/
def namedBootstraps : List String :=
  ["QmNnooDu7bfjPFoTZYxMNLWUQJyrVwtbZg5gBMjTezGAJN",
    "QmQCU2EcMqAqQPR2i9bChDtGNJchTbq5TbXJJ16u19uLTa",
    "QmbLHAnMoJPWSCR5Zhtx6BHJX9KiKNN6tpvbUcqanj75Nb",
    "QmcZf59bWwK5XFi76CZX8cbJ4BhTzzA3gU1ZjYZcYW3dwt"]

/-- **The addresses to bootstrap from.** -/
def bootstrapAddrs : List Multiaddr :=
  (namedBootstraps.map fun id =>
    ⟨[.dnsaddr (asciiBytes "bootstrap.libp2p.io"), .p2p (fromStr id)]⟩) ++
  [⟨[.ip4 ⟨[104, 131, 131, 82], rfl⟩, .tcp 4001,
    .p2p (fromStr "QmaCpDMGvV2BGHeYERUEnRQAwe3N8SzbUtfsmvsqQLuvuJ")]⟩]

/-- The targets: the ids of the nodes with the seeds 1 and 2. -/
def seedPeers : List PeerId :=
  [fromStr "QmUh4bvMXKXepae9V5pbRwmhd2XqcPHDLrfrAEwpJ6J8os",
    fromStr "QmdoTQGmZi2EZKrXagxvL8Uy76ADpS5d53XLvuVXJxyvN1"]

/-- The requests up to the targets. -/
def searchRequests (id : PeerId) (bootstrap : Bool) : List SavedNetworkRpc :=
  [.setKadEnabled true .client, .setMdnsEnabled true] ++
  (if bootstrap then (bootstrapAddrs fromStr).map .dial ++ [.kadBootstrap] else []) ++
  [.kadFindPeer id]

/-- **The requests of `main`**, in order: `id` is the id of the handle. -/
def mainRequests (id : PeerId) (bootstrap : Bool) : List SavedNetworkRpc :=
  searchRequests fromStr id bootstrap ++ (seedPeers fromStr).map .addTargetPeer

/-- What `main` does: it makes the next request when the one before has succeeded. -/
abbrev Process.Main (id : PeerId) (bootstrap : Bool) (p : Process) (act : ProcessAct) : Prop :=
  Scripted (mainRequests fromStr id bootstrap) Except.isOk p act

end Saved
