import Saved.View

/-!
# The relay manager (`network/relay_manager.rs`)

Which relays the node holds a reservation with (`reserved`, oldest first), which of them carry
traffic (`inUse`, recomputed from the view), and how many spare reservations it keeps.
-/

namespace Saved

open Saved.Lib

/-- The relays of a node. -/
structure RelayManager where
  reserved : List PeerId
  inUse : HashSet PeerId
  maxRelays : Nat

namespace RelayManager

/-- `RelayManager::new`. -/
def new (maxRelays : Nat) : RelayManager := ⟨[], .empty, maxRelays⟩

/-- `can_reserve`. -/
def canReserve (rm : RelayManager) (relayId : PeerId) : Bool :=
  if relayId ∈ rm.reserved then true
  else decide (rm.reserved.length < rm.inUse.len + rm.maxRelays)

/-- `register`. -/
def register (rm : RelayManager) (relayId : PeerId) : RelayManager :=
  if relayId ∈ rm.reserved then rm else { rm with reserved := rm.reserved ++ [relayId] }

/-- `addr_is_relay`. -/
def addrIsRelay (addr : Multiaddr) : Bool := addr.iter.any fun p => decide (p = .p2pCircuit)

/-- The loop of `extract_relay_peer`, from a last peer seen. -/
def extractFrom : Option PeerId → List Protocol → Option PeerId
  | _, [] => none
  | _, .p2p peerId :: rest => extractFrom (some peerId) rest
  | lastP2p, .p2pCircuit :: _ => lastP2p
  | lastP2p, _ :: rest => extractFrom lastP2p rest

/-- `extract_relay_peer`: the last peer before the first circuit. -/
def extractRelayPeer (addr : Multiaddr) : Option PeerId := extractFrom none addr.iter

/-- The relay an address of the view puts in use: the body of the loop of `recompute_in_use`. -/
def usedRelay (m : AddressMetadata) : Option PeerId :=
  if !m.activeConnections.isEmpty && addrIsRelay m.address then extractRelayPeer m.address
  else none

/-- `recompute_in_use`. -/
def recomputeInUse (rm : RelayManager) (view : NetworkView) : RelayManager :=
  { rm with
    inUse := .ofList (view.peers.values.flatMap fun info => info.addresses.filterMap usedRelay) }

/-- `should_prune`. -/
def shouldPrune (rm : RelayManager) : Bool :=
  decide (rm.reserved.length > rm.inUse.len + rm.maxRelays)

/-- The round-trip time a relay is judged by: the view's, or the maximum for an unknown peer. -/
def rttKey (view : NetworkView) (relayId : PeerId) : Duration :=
  ((view.peers.get relayId).map (·.rtt)).getD Duration.max

/-- `get_worst_unused`. -/
def getWorstUnused (rm : RelayManager) (view : NetworkView) : Option PeerId :=
  maxByKey (rttKey view) (rm.reserved.filter fun r => decide (r ∉ rm.inUse))

/-- `remove`: the first occurrence goes. -/
def remove (rm : RelayManager) (relayId : PeerId) : RelayManager :=
  { rm with reserved := rm.reserved.erase relayId }

end RelayManager

end Saved
