import Saved.Lib.Proc
import Saved.Lib.Runs
import Saved.Relay

/-!
# The network task (`network/mod.rs`)

The state of the task, what it asks of the outside world, and its handlers: one for each event of
the swarm, and one for each request of a handle.

The outside world is an `Env`: the readings of the clock and the answers of the calls that can
fail. An answer is given for the number of calls made before it, so an environment can answer
every call of a run differently. Every call is recorded, in order, in `Swarm.calls`.

A method that cannot fail is a function of the state. `reconcile_peer_connections` calls itself,
and may not return: it is a function into `Option`, with the depth `Env.depth` of calls that are
followed. A method that answers a `SavedResult` is a `NetM`; its early return keeps the state
reached, as `?` does. Printing is left out.
-/

namespace Saved

open Saved.Lib

/-! ## What the task sees and asks -/

/-- The Kademlia mode a caller asks for. -/
inductive KadMode where
  | auto
  | client
  | server
  deriving DecidableEq

/-- A mode set on the behaviour. -/
inductive Mode where
  | client
  | server
  deriving DecidableEq

/-- The argument of `set_mode`. -/
def KadMode.toMode : KadMode → Option Mode
  | client => some .client
  | server => some .server
  | auto => none

/-- The NAT status. -/
inductive NatStatus where
  | unknown
  | public_ (addr : Multiaddr)
  | private_
  deriving DecidableEq

/-- What the task broadcasts. -/
inductive SavedNetworkEvent where
  | connected (peerId : PeerId) (connectionId : ConnectionId)
  | disconnected (peerId : PeerId) (connectionId : ConnectionId)
  | kadFoundPeer (target : PeerId) (addresses : List Multiaddr)
  | listeningOn (addr : Multiaddr)
  deriving DecidableEq

/-- The errors the handlers raise. -/
inductive SavedError where
  | io
  | tokioBroadcastNetEvent (event : SavedNetworkEvent)
  | kadNoKnownPeers
  | kadDisabled
  | dialAddrMissingP2p (addr : Multiaddr)
  | dial (addr : Multiaddr)
  deriving DecidableEq

/-- A call to the swarm, to one of its behaviours, or to the broadcast channel. A dial and a
listen are recorded with their answer. -/
inductive Call where
  | dial (addr : Multiaddr) (ok : Bool)
  | closeConnection (connectionId : ConnectionId)
  | disconnectPeerId (peerId : PeerId)
  | listenOn (addr : Multiaddr) (ok : Bool)
  | kadAddAddress (peerId : PeerId) (addr : Multiaddr)
  | kadRemoveAddress (peerId : PeerId) (addr : Multiaddr)
  | getClosestPeers (target : PeerId)
  | bootstrap
  | startMdns
  | send (event : SavedNetworkEvent)
  deriving DecidableEq

/-- **The outside world**: the clock, by the number of times it was turned to before and by the
reading among those of one time; how long slices are sorted; and the answers, by the number of calls
before. `depth` is how deep a recursion of reconcile is followed. -/
structure Env where
  clock : Nat → Nat → Instant
  large : Sorter AddressMetadata
  dialOk : Nat → Bool
  sendOk : Nat → Bool
  listenOk : Nat → Bool
  mdnsOk : Nat → Bool
  bootstrapOk : Nat → Bool
  depth : Nat

/-- What the clock shows to the resort that is the `n`-th to turn to it. -/
def Env.readings (env : Env) (n : Nat) : Readings := ⟨env.clock n, env.large⟩

/-- The Kademlia behaviour: the mode it is in, `none` when it chooses by itself. -/
structure Kad where
  mode : Option Mode
  deriving DecidableEq

/-- The swarm: this node's id, the two behaviours that can be off, and the calls so far. -/
structure Swarm where
  localPeerId : PeerId
  mdns : Bool
  kad : Option Kad
  calls : List Call

/-- **The state of the task.** `clockReads` counts the times the clock was turned to: once for each
resort, and once for the time of a failure. -/
structure SavedNetwork where
  swarm : Swarm
  view : NetworkView
  natStatus : NatStatus
  relayManager : RelayManager
  targetPeers : HashSet PeerId
  activeMode : Bool
  clockReads : Nat

/-- A method that answers a `SavedResult`. -/
abbrev NetM := Proc SavedNetwork SavedError

/-- `should_skip_for_dial`: an IPv6 link-local address with no zone. -/
def shouldSkipForDial (addr : Multiaddr) : Bool :=
  (addr.iter.any fun p => match p with | .ip6 ip => ip.isUnicastLinkLocal | _ => false) &&
    !(addr.iter.any fun p => match p with | .ip6zone _ => true | _ => false)

namespace SavedNetwork

/-- Record calls. -/
def tell (s : SavedNetwork) (calls : List Call) : SavedNetwork :=
  { s with swarm := { s.swarm with calls := s.swarm.calls ++ calls } }

/-- The number of calls so far: the index of the next answer. -/
def asked (s : SavedNetwork) : Nat := s.swarm.calls.length

/-- Record a call to Kademlia, when it is on. -/
def tellKad (s : SavedNetwork) (call : Call) : SavedNetwork :=
  if s.swarm.kad.isSome then s.tell [call] else s

/-- Change the view by an operation that resorts once. -/
def onView (env : Env) (s : SavedNetwork) (f : Readings → NetworkView → NetworkView) :
    SavedNetwork :=
  { s with view := f (env.readings s.clockReads) s.view, clockReads := s.clockReads + 1 }

/-- `mark_failure` on the entry of a peer. -/
def markFailure (env : Env) (s : SavedNetwork) (peerId : PeerId) (addr : Multiaddr) :
    SavedNetwork :=
  { s with
    view := s.view.markFailure (env.clock s.clockReads 0) (env.readings (s.clockReads + 1)) peerId
      addr
    clockReads := s.clockReads + 2 }

/-- `is_prune_leader`. -/
def isPruneLeader (s : SavedNetwork) (remote : PeerId) : Bool :=
  decide (s.swarm.localPeerId.toBytes < remote.toBytes)

/-! ## Reconcile -/

/-- `reconcile_peer_connections`, following at most the given number of calls of itself. -/
def reconcileFrom (env : Env) (peerId : PeerId) : Nat → SavedNetwork → Option SavedNetwork
  | 0, _ => none
  | depth + 1, s =>
    match s.view.peers.get peerId with
    | none => some s
    | some info =>
      match info.addresses with
      | [] => some s
      | best :: rest =>
        let bestAddr := best.address
        let dialed := s.tell [.dial bestAddr (env.dialOk s.asked)]
        if s.view.isConnectedOver peerId bestAddr then
          if !s.isPruneLeader peerId then some s
          else some (s.tell ((rest.flatMap (·.activeConnections)).map .closeConnection))
        else if !s.view.isConnected peerId then
          if env.dialOk s.asked then some dialed
          else reconcileFrom env peerId depth (dialed.markFailure env peerId bestAddr)
        else if ((info.addresses.find? fun m => decide (m.address = bestAddr)).map fun m =>
            !m.activeConnections.isEmpty).getD false then
          some s
        else if s.isPruneLeader peerId then
          if env.dialOk s.asked then some dialed
          else some (dialed.markFailure env peerId bestAddr)
        else some s

/-- `reconcile_peer_connections`. -/
def reconcilePeerConnections (env : Env) (peerId : PeerId) (s : SavedNetwork) :
    Option SavedNetwork :=
  reconcileFrom env peerId env.depth s

/-! ## Addresses -/

/-- `on_add_address`. -/
def onAddAddress (env : Env) (peerId : PeerId) (addr : Multiaddr) (s : SavedNetwork) :
    Option SavedNetwork :=
  if shouldSkipForDial addr then some s
  else
    let isNew := (s.view.addAddress (env.readings s.clockReads) peerId addr).1
    let s := s.onView env fun now view => (view.addAddress now peerId addr).2
    if !isNew then some s
    else reconcilePeerConnections env peerId (s.tellKad (.kadAddAddress peerId addr))

/-- `on_remove_address`. -/
def onRemoveAddress (env : Env) (peerId : PeerId) (addr : Multiaddr) (s : SavedNetwork) :
    Option SavedNetwork :=
  reconcilePeerConnections env peerId
    ((s.onView env fun now view => view.removeAddress now peerId addr).tellKad
      (.kadRemoveAddress peerId addr))

/-! ## Relays -/

/-- The loop of `prune_relays`, for at most the given number of rounds. -/
def pruneLoop : Nat → SavedNetwork → SavedNetwork
  | 0, s => s
  | rounds + 1, s =>
    if s.relayManager.shouldPrune then
      match s.relayManager.getWorstUnused s.view with
      | some toPrune =>
        let pruned := { s with relayManager := s.relayManager.remove toPrune }
        pruneLoop rounds (pruned.tell [.disconnectPeerId toPrune])
      | none => s
    else s

/-- `prune_relays`. Each round removes a reservation, so there are no more rounds than those. -/
def pruneRelays (s : SavedNetwork) : SavedNetwork := s.pruneLoop s.relayManager.reserved.length

/-- `recompute_in_use` on the view of the node. -/
def recomputeInUse (s : SavedNetwork) : SavedNetwork :=
  { s with relayManager := s.relayManager.recomputeInUse s.view }

/-- `update_relay_state`. -/
def updateRelayState (s : SavedNetwork) : SavedNetwork := s.recomputeInUse.pruneRelays

/-- `register` on the relay manager of the node. -/
def register (relayId : PeerId) (s : SavedNetwork) : SavedNetwork :=
  { s with relayManager := s.relayManager.register relayId }

end SavedNetwork

/-! ## Modes -/

/-- Broadcast an event. It fails when nobody listens. -/
def broadcast (env : Env) (event : SavedNetworkEvent) : NetM Unit := do
  let s ← Proc.get
  Proc.update (·.tell [.send event])
  if env.sendOk s.asked then pure () else Proc.throw (.tokioBroadcastNetEvent event)

/-- Switch the mDNS behaviour. -/
def SavedNetwork.withMdns (s : SavedNetwork) (enabled : Bool) : SavedNetwork :=
  { s with swarm := { s.swarm with mdns := enabled } }

/-- Switch the Kademlia behaviour. -/
def SavedNetwork.withKad (s : SavedNetwork) (kad : Option Kad) : SavedNetwork :=
  { s with swarm := { s.swarm with kad := kad } }

/-- `set_mdns_enabled`. -/
def setMdnsEnabled (env : Env) (enabled : Bool) : NetM Unit := do
  let s ← Proc.get
  if enabled then
    if s.swarm.mdns then pure ()
    else do
      Proc.update (·.tell [.startMdns])
      if env.mdnsOk s.asked then Proc.update (·.withMdns true) else Proc.throw .io
  else Proc.update (·.withMdns false)

/-- `set_kad_enabled`: a behaviour that is off is created, and the mode is set either way. -/
def setKadEnabled (enabled : Bool) (mode : KadMode) : NetM Unit :=
  if enabled then Proc.update (·.withKad (some ⟨mode.toMode⟩))
  else Proc.update (·.withKad none)

/-- `kad_find_peer`. -/
def kadFindPeer (target : PeerId) : NetM Unit := do
  let s ← Proc.get
  if s.swarm.kad.isSome then Proc.update (·.tell [.getClosestPeers target])
  else Proc.throw .kadDisabled

/-- `kad_bootstrap`. -/
def kadBootstrap (env : Env) : NetM Unit := do
  let s ← Proc.get
  if s.swarm.kad.isSome then do
    Proc.update (·.tell [.bootstrap])
    if env.bootstrapOk s.asked then pure () else Proc.throw .kadNoKnownPeers
  else Proc.throw .kadDisabled

/-- `dial`, the request of a handle. -/
def dial (env : Env) (addr : Multiaddr) : NetM Unit := do
  let s ← Proc.get
  if addr.iter.any fun p => match p with | .p2p _ => true | _ => false then do
    Proc.update (·.tell [.dial addr (env.dialOk s.asked)])
    if env.dialOk s.asked then pure () else Proc.throw (.dial addr)
  else Proc.throw (.dialAddrMissingP2p addr)

/-- `add_target_peer`, with its answer: whether the target is new. -/
def addTargetPeer (target : PeerId) : NetM Bool :=
  Proc.answer fun s =>
    (decide (target ∉ s.targetPeers), { s with targetPeers := s.targetPeers.insert target })

/-- `remove_target_peer`, with its answer: whether the target was one. -/
def removeTargetPeer (target : PeerId) : NetM Bool :=
  Proc.answer fun s =>
    (decide (target ∈ s.targetPeers), { s with targetPeers := s.targetPeers.remove target })

/-- `set_active_mode`. -/
def setActiveMode (env : Env) (activeMode : Bool) : NetM Unit := do
  Proc.update fun s => { s with activeMode := activeMode }
  if activeMode then do
    setKadEnabled true .client
    setMdnsEnabled env true
    let s ← Proc.get
    s.targetPeers.toList.forM kadFindPeer
  else setKadEnabled false .auto

/-! ## Connections -/

/-- `on_peer_connection_closed`. -/
def onPeerConnectionClosed (env : Env) (peerId : PeerId) (connectionId : ConnectionId) :
    NetM Unit := do
  Proc.update (·.onView env fun now view => view.removeConnection now peerId connectionId)
  broadcast env (.disconnected peerId connectionId)
  let s ← Proc.get
  if peerId ∈ s.targetPeers ∧ s.view.isConnected peerId = false then setActiveMode env true
  else pure ()
  Proc.attempt (SavedNetwork.reconcilePeerConnections env peerId)
  Proc.update SavedNetwork.updateRelayState

/-- `on_peer_connection_opened`. The loop over the targets stops at the first that is not
connected, so what it decides is whether there is one. -/
def onPeerConnectionOpened (env : Env) (peerId : PeerId) (connectionId : ConnectionId)
    (endpoint : ConnectedPoint) : NetM Unit := do
  Proc.update (·.onView env fun now view => view.addConnection now peerId connectionId endpoint)
  broadcast env (.connected peerId connectionId)
  let s ← Proc.get
  if peerId ∈ s.targetPeers then
    if s.targetPeers.toList.any fun t => !s.view.isConnected t then setActiveMode env true
    else setActiveMode env false
  else pure ()
  Proc.attempt (SavedNetwork.reconcilePeerConnections env peerId)
  Proc.update SavedNetwork.updateRelayState

/-! ## Events -/

/-- The events of the swarm that the task handles, and `unhandled` for every other. -/
inductive SwarmEvent where
  | newListenAddr (address : Multiaddr)
  | ping (peer : PeerId) (connection : ConnectionId) (result : Option Duration)
  | mdnsDiscovered (list : List (PeerId × Multiaddr))
  | mdnsExpired (list : List (PeerId × Multiaddr))
  | connectionEstablished (peerId : PeerId) (connectionId : ConnectionId)
      (endpoint : ConnectedPoint)
  | connectionClosed (peerId : PeerId) (connectionId : ConnectionId)
  | newExternalAddrOfPeer (peerId : PeerId) (address : Multiaddr)
  | outgoingConnectionError (peerId : Option PeerId)
  | kadGetClosestPeers (result : Option (List (PeerId × List Multiaddr)))
  | identifyReceived (peerId : PeerId) (protocols : List StreamProtocol)
      (listenAddrs : List Multiaddr)
  | reservationReqAccepted (relayPeerId : PeerId)
  | autonatV2 (testedAddr : Multiaddr) (ok : Bool)
  | autonatStatusChanged (new : NatStatus)
  | externalAddrConfirmed (address : Multiaddr)
  | unhandled
  deriving DecidableEq

/-- The requests of a handle. -/
inductive SavedNetworkRpc where
  | setMdnsEnabled (enabled : Bool)
  | setKadEnabled (enabled : Bool) (mode : KadMode)
  | kadFindPeer (target : PeerId)
  | kadBootstrap
  | dial (addr : Multiaddr)
  | addTargetPeer (target : PeerId)
  | removeTargetPeer (target : PeerId)
  deriving DecidableEq

namespace SavedNetwork

/-- Run `on_add_address` for each pair of a list. -/
def addAddresses (env : Env) (list : List (PeerId × Multiaddr)) (s : SavedNetwork) :
    Option SavedNetwork :=
  list.foldlM (fun s entry => s.onAddAddress env entry.1 entry.2) s

/-- Run `on_remove_address` for each pair of a list. -/
def removeAddresses (env : Env) (list : List (PeerId × Multiaddr)) (s : SavedNetwork) :
    Option SavedNetwork :=
  list.foldlM (fun s entry => s.onRemoveAddress env entry.1 entry.2) s

/-- The ping arm: only a successful ping over a connection the view knows is stored. -/
def onPing (peer : PeerId) (connection : ConnectionId) (result : Option Duration)
    (s : SavedNetwork) : SavedNetwork :=
  match result with
  | some rtt =>
    if (s.view.getConnectionAddress peer connection).isSome then
      { s with view := s.view.setRtt peer rtt }
    else s
  | none => s

/-- The end of the identify arm: ask a relay that offers hops for a reservation, when there is
room for it. -/
def requestReservation (env : Env) (peerId : PeerId) (s : SavedNetwork) : SavedNetwork :=
  if ((s.view.peers.get peerId).map (·.supportsRelayHopV2)).getD false then
    if !s.relayManager.canReserve peerId then s
    else
      match (s.view.peers.get peerId).bind fun p => p.addresses.head? with
      | some firstAddr =>
        s.tell [.listenOn ((firstAddr.address.withProtocol (.p2p peerId)).withProtocol .p2pCircuit)
          (env.listenOk s.asked)]
      | none => s
  else s

/-- The relay a new connection goes over, as the connection arm reads it. -/
def relayUsed (endpoint : ConnectedPoint) : Option PeerId :=
  match endpoint with
  | .dialer address => RelayManager.extractRelayPeer address
  | .listener _ sendBackAddr => RelayManager.extractRelayPeer sendBackAddr

end SavedNetwork

/-- One peer of a Kademlia answer: announce it, then add its addresses. -/
def onKadPeer (env : Env) (peer : PeerId × List Multiaddr) : NetM Unit := do
  broadcast env (.kadFoundPeer peer.1 peer.2)
  Proc.attempt (SavedNetwork.addAddresses env (peer.2.map fun addr => (peer.1, addr)))

/-- `on_swarm_event`. -/
def onSwarmEvent (env : Env) : SwarmEvent → NetM Unit
  | .newListenAddr address => do
    let s ← Proc.get
    broadcast env (.listeningOn (address.withProtocol (.p2p s.swarm.localPeerId)))
  | .ping peer connection result => Proc.update (SavedNetwork.onPing peer connection result)
  | .mdnsDiscovered list => Proc.attempt (SavedNetwork.addAddresses env list)
  | .mdnsExpired list => Proc.attempt (SavedNetwork.removeAddresses env list)
  | .connectionEstablished peerId connectionId endpoint => do
    onPeerConnectionOpened env peerId connectionId endpoint
    match SavedNetwork.relayUsed endpoint with
    | some relayId => Proc.update fun s => (s.register relayId).updateRelayState
    | none => pure ()
  | .connectionClosed peerId connectionId => onPeerConnectionClosed env peerId connectionId
  | .newExternalAddrOfPeer peerId address =>
    Proc.attempt (SavedNetwork.onAddAddress env peerId address)
  | .outgoingConnectionError _ => pure ()
  | .kadGetClosestPeers (some peers) => peers.forM (onKadPeer env)
  | .kadGetClosestPeers none => pure ()
  | .identifyReceived peerId protocols listenAddrs => do
    Proc.update fun s => { s with view := s.view.setProtocols peerId protocols }
    Proc.attempt (SavedNetwork.addAddresses env (listenAddrs.map fun addr => (peerId, addr)))
    Proc.update (SavedNetwork.requestReservation env peerId)
  | .reservationReqAccepted relayPeerId =>
    Proc.update fun s => (s.register relayPeerId).updateRelayState
  | .autonatV2 testedAddr ok =>
    Proc.update fun s => { s with natStatus := if ok then .public_ testedAddr else .private_ }
  | .autonatStatusChanged new => Proc.update fun s => { s with natStatus := new }
  | .externalAddrConfirmed _ => pure ()
  | .unhandled => pure ()

/-- `dispatch_rpc`: the result goes to the caller, whatever it is. -/
def dispatchRpc (env : Env) (rpc : SavedNetworkRpc) (s : SavedNetwork) : Option SavedNetwork :=
  match rpc with
  | .setMdnsEnabled enabled => (setMdnsEnabled env enabled).exec s
  | .setKadEnabled enabled mode => (setKadEnabled enabled mode).exec s
  | .kadFindPeer target => (kadFindPeer target).exec s
  | .kadBootstrap => (kadBootstrap env).exec s
  | .dial addr => (dial env addr).exec s
  | .addTargetPeer target => (addTargetPeer target).exec s
  | .removeTargetPeer target => (removeTargetPeer target).exec s

/-! ## The event loop -/

/-- What the event loop takes in one turn. -/
inductive Input where
  | event (event : SwarmEvent)
  | rpc (rpc : SavedNetworkRpc)
  deriving DecidableEq

namespace SavedNetwork

/-- **One turn of the event loop.** An error of a handler is printed, and the loop goes on with
the state the handler left. -/
def step (env : Env) (s : SavedNetwork) : Input → Option SavedNetwork
  | .event event => (onSwarmEvent env event).exec s
  | .rpc rpc => dispatchRpc env rpc s

/-- One turn in which no event handler returns early with an error. -/
def stepOk (env : Env) (s : SavedNetwork) : Input → Option SavedNetwork
  | .event event => (onSwarmEvent env event).execOk s
  | .rpc rpc => dispatchRpc env rpc s

/-- The struct literal of `SavedNetwork::new`, for a relay capacity. -/
def built (localPeerId : PeerId) (maxRelays : Nat) : SavedNetwork where
  swarm := { localPeerId := localPeerId, mdns := false, kad := none, calls := [] }
  view := {}
  natStatus := .unknown
  relayManager := .new maxRelays
  targetPeers := .empty
  activeMode := true
  clockReads := 0

/-- `SavedNetwork::new`, once the swarm is built: mDNS is started and Kademlia is left off. -/
def new (env : Env) (localPeerId : PeerId) : Option SavedNetwork :=
  Proc.execOk (do setMdnsEnabled env true; setKadEnabled false .auto) (built localPeerId 4)

/-- The state the event loop starts in, for a relay capacity. -/
def start (localPeerId : PeerId) (maxRelays : Nat) : SavedNetwork :=
  ((built localPeerId maxRelays).tell [.startMdns]).withMdns true

/-- `new` answers the start state with four spare relays, or fails with mDNS. -/
theorem new_eq (env : Env) (localPeerId : PeerId) :
    new env localPeerId = if env.mdnsOk 0 then some (start localPeerId 4) else none := by
  cases h : env.mdnsOk 0 with
  | true =>
    simp [new, Proc.execOk, Proc.bind_apply, setMdnsEnabled, setKadEnabled, Proc.get, built,
      Proc.update, asked, h, start, tell, withMdns, withKad]
  | false =>
    simp [new, Proc.execOk, Proc.bind_apply, setMdnsEnabled, setKadEnabled, Proc.get, built,
      Proc.update, Proc.throw, asked, h]

end SavedNetwork

end Saved
