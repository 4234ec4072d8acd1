import Mathlib.Data.Prod.Lex
import Saved.Lib.Vec
import Saved.Lib.Collections
import Saved.Lib.Sorter
import Saved.Multiaddr

/-!
# The network view (`view.rs`)

What the node knows of every peer: the addresses it has seen, and for each address the connections
that use it, its class, and its backoff. The vector of a peer is kept sorted, best address first,
and index 0 is what the rest of the program calls the best address.

Each function here is the function of that name in `view.rs`. A method of `NetworkView` that works
on one peer's entry is split in two: the body as a function of the entry (`PeerInfoExt.addAddress`
is the body of `NetworkView::add_address`), and the lookup and write-back around it.

The key that a vector is sorted by reads the clock each time it is evaluated, and `sort_by_key`
evaluates it for both operands of each comparison. So a function that resorts takes the readings of
that resort, in the order they are taken (`Readings`), and they need not be equal: a cooldown may
end between two of them. `mark_failure` takes one more, the time the failure is marked at.
-/

namespace Saved

open Saved.Lib

/-! ## The data -/

/-- A connection's id, unique in the life of a swarm. -/
structure ConnectionId where
  id : Nat
  deriving DecidableEq

/-- The two ends of a connection, by the role of this node in it. -/
inductive ConnectedPoint where
  | dialer (address : Multiaddr)
  | listener (localAddr sendBackAddr : Multiaddr)
  deriving DecidableEq

/-- A protocol name. -/
abbrev StreamProtocol := String

/-- A monotonic clock reading, in nanoseconds. -/
abbrev Instant := Nat

/-- `Instant::duration_since`, in nanoseconds. It is zero for an instant still to come. -/
def Instant.durationSince (now earlier : Instant) : Nat := now - earlier

/-- `Duration::MAX` in nanoseconds: `u64::MAX` seconds and 999 999 999 nanoseconds. -/
def Duration.maxNanos : Nat := (2 ^ 64 - 1) * 1000000000 + 999999999

/-- A duration, in nanoseconds. -/
abbrev Duration := Fin (Duration.maxNanos + 1)

/-- `Duration::ZERO`. -/
def Duration.zero : Duration := 0

/-- `Duration::MAX`. -/
def Duration.max : Duration := Fin.last Duration.maxNanos

/-- `Duration::from_secs`, in nanoseconds. -/
def Duration.fromSecs (secs : Nat) : Nat := secs * 1000000000

/-- The transport classes of the ranking. -/
inductive Transport where
  | quic
  | tcp
  | other
  | relay
  deriving DecidableEq

/-- Smaller is better. -/
def Transport.rank : Transport → Nat
  | quic => 0
  | tcp => 1
  | other => 2
  | relay => 3

/-- The scope classes of the ranking. -/
inductive NetScope where
  | linkLocal
  | privateLan
  | publicNet
  deriving DecidableEq

/-- Smaller is better. -/
def NetScope.rank : NetScope → Nat
  | privateLan => 0
  | linkLocal => 1
  | publicNet => 2

/-- One address of a peer. -/
structure AddressMetadata where
  address : Multiaddr := .empty
  activeConnections : List ConnectionId := []
  transport : Transport := .other
  scope : NetScope := .publicNet
  lastErr : Option Instant := none
  errCount : Nat := 0
  deriving DecidableEq

/-- `u32::MAX`. -/
def u32Max : Nat := 2 ^ 32 - 1

/-- **What a resort reads**: the clock, once for each evaluation of a key, and how the standard
library sorts the slices that are too long for an insertion sort. -/
structure Readings where
  clock : Nat → Instant
  large : Sorter AddressMetadata

/-- Readings of a clock that stands still. -/
def Readings.still (large : Sorter AddressMetadata) (now : Instant) : Readings :=
  ⟨fun _ => now, large⟩

/-- What the node knows of one peer. -/
structure PeerInfoExt where
  addresses : List AddressMetadata := []
  protocols : HashSet StreamProtocol := .empty
  supportsRelayHopV2 : Bool := false
  rtt : Duration := .zero

/-- What the node knows of every peer. -/
structure NetworkView where
  peers : HashMap PeerId PeerInfoExt := ∅

/-! ## Classification -/

/-- The scope of an IPv4 address. -/
def Ipv4Addr.netScope (ip : Ipv4Addr) : NetScope :=
  match ip.octets with
  | a :: b :: _ =>
    if a = 10 then .privateLan
    else if a = 172 ∧ 16 ≤ b ∧ b ≤ 31 then .privateLan
    else if a = 192 ∧ b = 168 then .privateLan
    else if a = 169 ∧ b = 254 then .linkLocal
    else .publicNet
  | _ => .publicNet

/-- The scope of an IPv6 address. -/
def Ipv6Addr.netScope (ip : Ipv6Addr) : NetScope :=
  if ip.seg0 &&& 0xfe00 == 0xfc00 then .privateLan
  else if ip.seg0 &&& 0xffc0 == 0xfe80 then .linkLocal
  else .publicNet

/-- One round of the loop of `classify_addr`. -/
def classifyStep : NetScope × Transport → Protocol → NetScope × Transport
  | (_, transport), .ip4 ip => (ip.netScope, transport)
  | (_, transport), .ip6 ip => (ip.netScope, transport)
  | (scope, _), .quicV1 => (scope, .quic)
  | (scope, _), .quic => (scope, .quic)
  | (scope, transport), .tcp _ =>
    (scope, if transport.rank > Transport.tcp.rank then .tcp else transport)
  | (scope, _), .p2pCircuit => (scope, .relay)
  | (scope, transport), _ => (scope, transport)

/-- `classify_addr`. -/
def classifyAddr (addr : Multiaddr) : NetScope × Transport :=
  addr.iter.foldl classifyStep (.publicNet, .other)

/-! ## One address -/

/-- `AddressMetadata::is_in_cooldown`: one second doubled by each error, up to 64. -/
def AddressMetadata.isInCooldown (now : Instant) (m : AddressMetadata) : Bool :=
  match m.lastErr with
  | some earlier =>
    decide (now.durationSince earlier < Duration.fromSecs (1 <<< min m.errCount 6))
  | none => false

/-- The key `resort` sorts by. -/
def AddressMetadata.sortKey (now : Instant) (m : AddressMetadata) :
    Bool ×ₗ Nat ×ₗ Nat ×ₗ Multiaddr :=
  toLex (m.isInCooldown now, toLex (m.scope.rank, toLex (m.transport.rank, m.address)))

/-- The stable sort of the standard library: an insertion sort for a short slice, and for a longer
one `large`, which is known to sort. -/
def stdSort {α : Type} (large : List α → Asking α (List α)) (l : List α) : Asking α (List α) :=
  if l.length ≤ 20 then insertionSort l else large l

/-- The comparison of `sort_by_key`: the keys of the left and of the right operand, each with a
reading of the clock. The `k`-th comparison takes the readings `2 * k` and `2 * k + 1`. -/
def readLess (r : Nat → Instant) (k : Nat) (x y : AddressMetadata) : Bool :=
  decide (x.sortKey (r (2 * k)) < y.sortKey (r (2 * k + 1)))

/-- **The sort of `resort` with every reading of the clock**: the vector, and the number of
comparisons. -/
def resortReading (large : List AddressMetadata → Asking AddressMetadata (List AddressMetadata))
    (r : Nat → Instant) (l : List AddressMetadata) : List AddressMetadata × Nat :=
  (stdSort large l).run (readLess r) 0

/-- An address just learned. -/
def AddressMetadata.fresh (addr : Multiaddr) : AddressMetadata :=
  { address := addr, transport := (classifyAddr addr).2, scope := (classifyAddr addr).1 }

/-! ## One peer -/

namespace PeerInfoExt

/-- `get_connection_address`. -/
def getConnectionAddress (info : PeerInfoExt) (connectionId : ConnectionId) : Option Multiaddr :=
  (info.addresses.find? fun m => decide (connectionId ∈ m.activeConnections)).map (·.address)

/-- `resort`: best first, an address in cooldown behind every other. -/
def resort (now : Readings) (info : PeerInfoExt) : PeerInfoExt :=
  { info with addresses := (resortReading now.large.program now.clock info.addresses).1 }

/-- `mark_failure`: the failure is dated at `failed`, and the resort that follows reads `now`. -/
def markFailure (failed : Instant) (now : Readings) (info : PeerInfoExt) (addr : Multiaddr) :
    PeerInfoExt :=
  if info.addresses.any (fun m => decide (m.address = addr)) then
    resort now { info with
      addresses := modifyFirst (fun m => decide (m.address = addr))
        (fun m => { m with errCount := min (m.errCount + 1) u32Max, lastErr := some failed })
        info.addresses }
  else info

/-- `clear_backoff_on_success`. -/
def clearBackoffOnSuccess (info : PeerInfoExt) (addr : Multiaddr) : PeerInfoExt :=
  { info with
    addresses := modifyFirst (fun m => decide (m.address = addr))
      (fun m => { m with errCount := 0, lastErr := none }) info.addresses }

/-- The body of `NetworkView::add_address`, with its answer: whether the address is new. -/
def addAddress (now : Readings) (info : PeerInfoExt) (addr : Multiaddr) : Bool × PeerInfoExt :=
  if info.addresses.any (fun m => decide (m.address = addr)) then (false, info.resort now)
  else (true, resort now { info with addresses := info.addresses ++ [.fresh addr] })

/-- The body of `NetworkView::remove_address`. -/
def removeAddress (now : Readings) (info : PeerInfoExt) (addr : Multiaddr) : PeerInfoExt :=
  resort now { info with
    addresses := info.addresses.eraseP fun m => decide (m.address = addr) }

/-- Take a connection off the address that holds it. -/
def releaseConnection (info : PeerInfoExt) (connId : ConnectionId) : PeerInfoExt :=
  { info with
    addresses := modifyFirst (fun m => decide (connId ∈ m.activeConnections))
      (fun m => { m with activeConnections := swapRemoveItem connId m.activeConnections })
      info.addresses }

/-- Have an entry for an address. -/
def ensureAddress (info : PeerInfoExt) (addr : Multiaddr) : PeerInfoExt :=
  if info.addresses.any (fun m => decide (m.address = addr)) then info
  else { info with addresses := info.addresses ++ [.fresh addr] }

/-- Put a connection on an address, once. -/
def attachConnection (info : PeerInfoExt) (connId : ConnectionId) (addr : Multiaddr) :
    PeerInfoExt :=
  { info with
    addresses := modifyFirst (fun m => decide (m.address = addr))
      (fun m =>
        if connId ∈ m.activeConnections then m
        else { m with activeConnections := m.activeConnections ++ [connId] })
      info.addresses }

/-- The second half of `NetworkView::add_connection`: the connection is on no other address. -/
def placeConnection (now : Readings) (info : PeerInfoExt) (connId : ConnectionId)
    (remote : Multiaddr) : PeerInfoExt :=
  ((((info.ensureAddress remote).attachConnection connId remote).clearBackoffOnSuccess
    remote).resort now)

/-- The body of `NetworkView::add_connection`. A connection tracked on another address moves; one
tracked on this address stays, and only the backoff is cleared. -/
def addConnection (now : Readings) (info : PeerInfoExt) (connId : ConnectionId)
    (remote : Multiaddr) : PeerInfoExt :=
  match info.addresses.find? fun m => decide (connId ∈ m.activeConnections) with
  | some old =>
    if old.address ≠ remote then (info.releaseConnection connId).placeConnection now connId remote
    else (info.clearBackoffOnSuccess old.address).resort now
  | none => info.placeConnection now connId remote

/-- The body of `NetworkView::remove_connection`. -/
def removeConnection (now : Readings) (info : PeerInfoExt) (connId : ConnectionId) : PeerInfoExt :=
  (info.releaseConnection connId).resort now

end PeerInfoExt

/-- The remote address of a connection, as the endpoint reports it. -/
def ConnectedPoint.remote : ConnectedPoint → Multiaddr
  | dialer address => address
  | listener _ sendBackAddr => sendBackAddr

/-! ## Every peer -/

namespace NetworkView

/-- `add_address`, with its answer: whether the address is new. -/
def addAddress (now : Readings) (view : NetworkView) (peerId : PeerId) (addr : Multiaddr) :
    Bool × NetworkView :=
  ((((view.peers.get peerId).getD {}).addAddress now addr).1,
    ⟨view.peers.entryOrDefault peerId {} fun info => (info.addAddress now addr).2⟩)

/-- `prune_empty`. -/
def pruneEmpty (view : NetworkView) (peerId : PeerId) : NetworkView :=
  match view.peers.get peerId with
  | some info =>
    if info.addresses.all (fun m => m.activeConnections.isEmpty) && info.addresses.isEmpty then
      ⟨view.peers.remove peerId⟩
    else view
  | none => view

/-- `remove_address`. -/
def removeAddress (now : Readings) (view : NetworkView) (peerId : PeerId) (addr : Multiaddr) :
    NetworkView :=
  match view.peers.get peerId with
  | some _ =>
    pruneEmpty ⟨view.peers.modify peerId fun info => info.removeAddress now addr⟩ peerId
  | none => view

/-- `add_connection`. -/
def addConnection (now : Readings) (view : NetworkView) (peerId : PeerId) (connId : ConnectionId)
    (endpoint : ConnectedPoint) : NetworkView :=
  ⟨view.peers.entryOrDefault peerId {} fun info => info.addConnection now connId endpoint.remote⟩

/-- `remove_connection`. -/
def removeConnection (now : Readings) (view : NetworkView) (peerId : PeerId)
    (connId : ConnectionId) : NetworkView :=
  match view.peers.get peerId with
  | some _ =>
    pruneEmpty ⟨view.peers.modify peerId fun info => info.removeConnection now connId⟩ peerId
  | none => view

/-- `is_connected_over`. -/
def isConnectedOver (view : NetworkView) (peerId : PeerId) (addr : Multiaddr) : Bool :=
  (((view.peers.get peerId).bind fun info =>
    (info.addresses.find? fun m => decide (m.address = addr)).map fun m =>
      !m.activeConnections.isEmpty)).getD false

/-- `is_connected`. -/
def isConnected (view : NetworkView) (peerId : PeerId) : Bool :=
  ((view.peers.get peerId).map fun p =>
    p.addresses.any fun m => !m.activeConnections.isEmpty).getD false

/-- The protocols that mean a peer offers the second relay protocol. -/
def isHopV2 (s : StreamProtocol) : Bool :=
  s == "/libp2p/circuit/relay/0.2.0/hop" || s == "/libp2p/circuit/relay/0.2.0"

/-- `set_protocols`. -/
def setProtocols (view : NetworkView) (peerId : PeerId) (protocols : List StreamProtocol) :
    NetworkView :=
  ⟨view.peers.entryOrDefault peerId {} fun info =>
    { info with
      protocols := .ofList protocols
      supportsRelayHopV2 := (HashSet.ofList protocols).toList.any isHopV2 }⟩

/-- `mark_failure` on a peer's entry, through `get_mut`. -/
def markFailure (failed : Instant) (now : Readings) (view : NetworkView) (peerId : PeerId)
    (addr : Multiaddr) : NetworkView :=
  ⟨view.peers.modify peerId fun info => info.markFailure failed now addr⟩

/-- Store a ping's round-trip time, through `get_mut`. -/
def setRtt (view : NetworkView) (peerId : PeerId) (rtt : Duration) : NetworkView :=
  ⟨view.peers.modify peerId fun info => { info with rtt := rtt }⟩

/-- `get_connection_address` on a peer's entry, through `get`. -/
def getConnectionAddress (view : NetworkView) (peerId : PeerId) (connId : ConnectionId) :
    Option Multiaddr :=
  (view.peers.get peerId).bind fun info => info.getConnectionAddress connId

end NetworkView

end Saved
