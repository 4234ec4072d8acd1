import Saved.Laws.Methods

/-!
# What a turn does, part by part

The handlers of the swarm's events are made of few parts, and each part is one call of the source: a
change of the view, a broadcast, a switch of modes, a reconcile, an update of the relays. `parts`
lists those of each event, and `onSwarmEvent_parts` says that the handler is the loop over its
list, early exits included: a part that fails ends the loop, and a part that does not return ends
the turn.

So what is true of every part is true of every handler, and the laws of the turns are proved part by
part: what one does to the view, to the settings, to the calls, to what is announced. Only the
handlers of connections have a part that fails on its own (`Part.switches`), and what is left of
them after it closes the turn (`Part.closes`).
-/

namespace Saved

open Saved.Lib SavedNetwork

/-- **A part of a handler**, named after the call it is. The broadcast of a listen address is apart,
since the address is known only when it is made: the node's own id is put behind. -/
inductive Part where
  | onAddAddress (peerId : PeerId) (addr : Multiaddr)
  | onRemoveAddress (peerId : PeerId) (addr : Multiaddr)
  | addConnection (peerId : PeerId) (connectionId : ConnectionId) (endpoint : ConnectedPoint)
  | removeConnection (peerId : PeerId) (connectionId : ConnectionId)
  | setProtocols (peerId : PeerId) (protocols : List StreamProtocol)
  | onPing (peer : PeerId) (connection : ConnectionId) (result : Option Duration)
  | broadcast (news : SavedNetworkEvent)
  | listeningOn (address : Multiaddr)
  | switchOpened (peerId : PeerId)
  | switchClosed (peerId : PeerId)
  | reconcile (peerId : PeerId)
  | updateRelayState
  | register (relayId : PeerId)
  | requestReservation (peerId : PeerId)
  | natStatus (new : NatStatus)

namespace Part

/-- **What a part does.** -/
def run (env : Env) : Part → NetM PUnit
  | onAddAddress p a => Proc.attempt (SavedNetwork.onAddAddress env p a)
  | onRemoveAddress p a => Proc.attempt (SavedNetwork.onRemoveAddress env p a)
  | addConnection p c e => Proc.update (·.onView env fun now view => view.addConnection now p c e)
  | removeConnection p c => Proc.update (·.onView env fun now view => view.removeConnection now p c)
  | setProtocols p protocols =>
    Proc.update fun s => { s with view := s.view.setProtocols p protocols }
  | onPing p c result => Proc.update (SavedNetwork.onPing p c result)
  | broadcast news => Saved.broadcast env news
  | listeningOn a => do
    let s ← Proc.get
    Saved.broadcast env (.listeningOn (a.withProtocol (.p2p s.swarm.localPeerId)))
  | switchOpened p => do
    let s ← Proc.get
    if p ∈ s.targetPeers then
      if s.targetPeers.toList.any fun t => !s.view.isConnected t then setActiveMode env true
      else setActiveMode env false
    else pure ()
  | switchClosed p => do
    let s ← Proc.get
    if p ∈ s.targetPeers ∧ s.view.isConnected p = false then setActiveMode env true else pure ()
  | reconcile p => Proc.attempt (SavedNetwork.reconcilePeerConnections env p)
  | updateRelayState => Proc.update SavedNetwork.updateRelayState
  | register relay => Proc.update (SavedNetwork.register relay)
  | requestReservation p => Proc.update (SavedNetwork.requestReservation env p)
  | natStatus new => Proc.update fun s => { s with natStatus := new }

/-- The part may switch the mode, and fail when mDNS does not start. -/
def switches : Part → Bool
  | switchOpened _ | switchClosed _ => true
  | _ => false

/-- The part is one of those that close a handler of connections. -/
def closes : Part → Bool
  | reconcile _ | updateRelayState | register _ => true
  | _ => false

/-- What the connection arm does with the relay of a new connection. -/
def ofRelay : Option PeerId → List Part
  | some relay => [register relay, updateRelayState]
  | none => []

end Part

/-- **The parts of the handler of an event**, in order. -/
def SwarmEvent.parts : SwarmEvent → List Part
  | newListenAddr address => [.listeningOn address]
  | ping peer connection result => [.onPing peer connection result]
  | mdnsDiscovered list => list.map fun entry => .onAddAddress entry.1 entry.2
  | mdnsExpired list => list.map fun entry => .onRemoveAddress entry.1 entry.2
  | connectionEstablished p c endpoint =>
    [.addConnection p c endpoint, .broadcast (.connected p c), .switchOpened p, .reconcile p,
      .updateRelayState] ++ Part.ofRelay (relayUsed endpoint)
  | connectionClosed p c =>
    [.removeConnection p c, .broadcast (.disconnected p c), .switchClosed p, .reconcile p,
      .updateRelayState]
  | newExternalAddrOfPeer p a => [.onAddAddress p a]
  | kadGetClosestPeers (some peers) => peers.flatMap fun peer =>
    .broadcast (.kadFoundPeer peer.1 peer.2) :: peer.2.map fun addr => .onAddAddress peer.1 addr
  | identifyReceived p protocols listenAddrs =>
    .setProtocols p protocols :: (listenAddrs.map fun addr => .onAddAddress p addr) ++
      [.requestReservation p]
  | reservationReqAccepted relay => [.register relay, .updateRelayState]
  | autonatV2 testedAddr ok => [.natStatus (if ok then .public_ testedAddr else .private_)]
  | autonatStatusChanged new => [.natStatus new]
  | kadGetClosestPeers none | outgoingConnectionError _ | externalAddrConfirmed _ | unhandled => []

variable {env : Env} {s s' : SavedNetwork}

/-! ## The handlers are their parts -/

namespace Part

/-- The loop over a list of parts. -/
abbrev all (env : Env) (parts : List Part) : NetM PUnit := parts.forM (run env)

/-- No part does nothing. -/
theorem all_nil : all env [] = pure ⟨⟩ := rfl

/-- The parts run one after the other, and an early return ends the rest. -/
theorem all_cons (part : Part) (parts : List Part) :
    all env (part :: parts) = part.run env >>= fun _ => all env parts := rfl

/-- A single part needs no sequence around it. -/
theorem all_one (part : Part) : all env [part] = part.run env := bind_pure_unit

/-- The parts of two pieces of a handler are those of the first and then those of the second. -/
theorem all_append (parts parts' : List Part) :
    all env (parts ++ parts') = all env parts >>= fun _ => all env parts' := List.forM_append

/-- A loop over the parts of each element of a list is a loop over all of them. -/
theorem all_flatMap {ι : Type} (list : List ι) (parts : ι → List Part) :
    (list.forM fun i => all env (parts i)) = all env (list.flatMap parts) := by
  induction list with
  | nil => rfl
  | cons i list ih =>
    rw [List.flatMap_cons, all_append, ← ih]
    rfl

end Part

/-- Learning a list of addresses is learning each of them. -/
theorem addAddresses_parts (list : List (PeerId × Multiaddr)) :
    Proc.attempt (SavedNetwork.addAddresses env list) =
      Part.all env (list.map fun entry => .onAddAddress entry.1 entry.2) :=
  (Proc.attempt_foldlM _ list).trans
    (List.forM_map (f := Part.run env)
      (g := fun entry : PeerId × Multiaddr => .onAddAddress entry.1 entry.2)).symm

/-- The loop over the expired records of mDNS. -/
theorem removeAddresses_parts (list : List (PeerId × Multiaddr)) :
    Proc.attempt (SavedNetwork.removeAddresses env list) =
      Part.all env (list.map fun entry => .onRemoveAddress entry.1 entry.2) :=
  (Proc.attempt_foldlM _ list).trans
    (List.forM_map (f := Part.run env)
      (g := fun entry : PeerId × Multiaddr => .onRemoveAddress entry.1 entry.2)).symm

/-- The addresses of one peer. -/
theorem addAddressesOf_parts (p : PeerId) (addrs : List Multiaddr) :
    Proc.attempt (SavedNetwork.addAddresses env (addrs.map fun addr => (p, addr))) =
      Part.all env (addrs.map fun addr => .onAddAddress p addr) := by
  rw [addAddresses_parts, List.map_map]
  rfl

/-- A found peer is announced before its addresses are taken up. -/
theorem onKadPeer_parts (peer : PeerId × List Multiaddr) :
    onKadPeer env peer = Part.all env (.broadcast (.kadFoundPeer peer.1 peer.2) ::
      peer.2.map fun addr => .onAddAddress peer.1 addr) := by
  rw [onKadPeer, addAddressesOf_parts, Part.all_cons]
  rfl

/-- `on_peer_connection_closed`, whose parts are the same for every way a peer may still be
connected: the conditions are inside the parts. -/
theorem onPeerConnectionClosed_parts (p : PeerId) (c : ConnectionId) :
    onPeerConnectionClosed env p c =
      Part.all env (SwarmEvent.parts (.connectionClosed p c)) := by
  simp only [onPeerConnectionClosed, SwarmEvent.parts, Part.all_cons, Part.all_nil, Part.run,
    bind_assoc, Proc.ite_bind, pure_bind, bind_pure_unit]

/-- `on_peer_connection_opened`, which the two events of an open connection share. -/
theorem onPeerConnectionOpened_parts (p : PeerId) (c : ConnectionId) (endpoint : ConnectedPoint) :
    onPeerConnectionOpened env p c endpoint = Part.all env [.addConnection p c endpoint,
      .broadcast (.connected p c), .switchOpened p, .reconcile p, .updateRelayState] := by
  simp only [onPeerConnectionOpened, Part.all_cons, Part.all_nil, Part.run, bind_assoc,
    Proc.ite_bind, pure_bind, bind_pure_unit]

/-- The relay of a new connection is registered, if it has one. -/
theorem ofRelay_parts (relay : Option PeerId) : Part.all env (Part.ofRelay relay) =
    match relay with
    | some relayId => Proc.update fun s => (s.register relayId).updateRelayState
    | none => pure () := by
  cases relay <;> rfl

/-- **A handler is the loop over its parts.** -/
theorem onSwarmEvent_parts (event : SwarmEvent) :
    onSwarmEvent env event = Part.all env event.parts := by
  cases event with
  | mdnsDiscovered list => exact addAddresses_parts list
  | mdnsExpired list => exact removeAddresses_parts list
  | connectionEstablished p c endpoint =>
    rw [SwarmEvent.parts, Part.all_append, ← onPeerConnectionOpened_parts, ofRelay_parts]
    rfl
  | connectionClosed p c => exact onPeerConnectionClosed_parts p c
  | kadGetClosestPeers result =>
    cases result with
    | none => rfl
    | some peers =>
      rw [SwarmEvent.parts, ← Part.all_flatMap]
      exact congrArg (peers.forM ·) (funext onKadPeer_parts)
  | identifyReceived p protocols listenAddrs =>
    rw [SwarmEvent.parts, Part.all_append, Part.all_cons, Part.all_one, ← addAddressesOf_parts]
    rfl
  | reservationReqAccepted relay => rfl
  | newListenAddr | ping | newExternalAddrOfPeer | autonatV2 | autonatStatusChanged =>
    rw [SwarmEvent.parts, Part.all_one]
    rfl
  | outgoingConnectionError | externalAddrConfirmed | unhandled => rfl

/-- A part that switches modes does what a switch of modes does, or nothing. -/
theorem ensures_switches {part : Part} {Q : Except SavedError Unit → SavedNetwork → Prop}
    (switches : part.switches = true) (stays : Q (.ok ()) s)
    (switched : ∀ active, (setActiveMode env active).Ensures s Q) :
    (part.run env).Ensures s Q := by
  cases part with
  | switchOpened p =>
    rw [Part.run, Proc.ensures_bind, Proc.ensures_get, Proc.exits_ok, Proc.ensures_ite,
      Proc.ensures_ite, Proc.ensures_pure]
    exact ⟨fun _ => ⟨fun _ => switched true, fun _ => switched false⟩, fun _ => stays⟩
  | switchClosed p =>
    rw [Part.run, Proc.ensures_bind, Proc.ensures_get, Proc.exits_ok, Proc.ensures_ite,
      Proc.ensures_pure]
    exact ⟨fun _ => switched true, fun _ => stays⟩
  | _ => cases switches

/-- The broadcast of a listen address is a broadcast. -/
theorem ensures_listeningOn {a : Multiaddr} {Q : Except SavedError Unit → SavedNetwork → Prop}
    (announced : (broadcast env (.listeningOn
      (a.withProtocol (.p2p s.swarm.localPeerId)))).Ensures s Q) :
    ((Part.listeningOn a).run env).Ensures s Q := by
  rw [Part.run, Proc.ensures_bind, Proc.ensures_get, Proc.exits_ok]
  exact announced

/-! ## What an input calls for -/

/-- The addresses an input passes to `on_add_address`, each with its peer. -/
def Input.offers : Input → List (PeerId × Multiaddr)
  | .event (.mdnsDiscovered list) => list
  | .event (.newExternalAddrOfPeer p a) => [(p, a)]
  | .event (.kadGetClosestPeers (some peers)) =>
    peers.flatMap fun peer => peer.2.map fun addr => (peer.1, addr)
  | .event (.identifyReceived p _ listenAddrs) => listenAddrs.map fun addr => (p, addr)
  | _ => []

/-- The addresses an input reports as expired. -/
def Input.forgets : Input → List (PeerId × Multiaddr)
  | .event (.mdnsExpired list) => list
  | _ => []

/-- **The peers an input is about.** -/
def Input.names : Input → List PeerId
  | .event (.connectionEstablished p _ _) => [p]
  | .event (.connectionClosed p _) => [p]
  | .event (.identifyReceived p _ _) => [p]
  | .event (.ping p _ _) => [p]
  | i => (i.offers ++ i.forgets).map Prod.fst

/-- The peer of an address that an input offers. -/
theorem mem_names_of_offered {i : Input} {entry : PeerId × Multiaddr} (offered : entry ∈ i.offers) :
    entry.1 ∈ i.names := by
  cases i with
  | rpc rpc => cases offered
  | event event =>
    cases event with
    | identifyReceived p protocols listenAddrs =>
      obtain ⟨a, _, rfl⟩ := List.mem_map.mp offered
      exact List.mem_cons_self
    | connectionEstablished | connectionClosed | ping => cases offered
    | _ => exact List.mem_map_of_mem (List.mem_append_left _ offered)

/-- The peer of an address that an input reports as expired. -/
theorem mem_names_of_expired {i : Input} {entry : PeerId × Multiaddr}
    (expired : entry ∈ i.forgets) : entry.1 ∈ i.names := by
  cases i with
  | rpc rpc => cases expired
  | event event =>
    cases event with
    | mdnsExpired list => exact List.mem_map_of_mem expired
    | _ => cases expired

/-- A connection is opened or closed. -/
def Input.movesConnections : Input → Bool
  | .event (.connectionEstablished _ _ _) => true
  | .event (.connectionClosed _ _) => true
  | _ => false

/-- A connection is opened or closed, or a reservation accepted. -/
def Input.movesRelays : Input → Bool
  | .event (.reservationReqAccepted _) => true
  | i => i.movesConnections

/-- **What is announced of an input**, by a node of a given id. -/
def Input.announces (me : PeerId) : Input → List SavedNetworkEvent
  | .event (.newListenAddr address) => [.listeningOn (address.withProtocol (.p2p me))]
  | .event (.connectionEstablished p c _) => [.connected p c]
  | .event (.connectionClosed p c) => [.disconnected p c]
  | .event (.kadGetClosestPeers (some peers)) =>
    peers.map fun peer => .kadFoundPeer peer.1 peer.2
  | _ => []

/-- **Which inputs ask for a part.** -/
def Part.AskedBy (i : Input) : Part → Prop
  | onAddAddress p a => (p, a) ∈ i.offers
  | onRemoveAddress p a => (p, a) ∈ i.forgets
  | addConnection p c endpoint => i = .event (.connectionEstablished p c endpoint)
  | removeConnection p c => i = .event (.connectionClosed p c)
  | setProtocols p protocols => ∃ addrs, i = .event (.identifyReceived p protocols addrs)
  | onPing p c result => i = .event (.ping p c result)
  | broadcast news => ∀ me, news ∈ i.announces me
  | listeningOn a => i = .event (.newListenAddr a)
  | switchOpened p | switchClosed p | reconcile p => i.movesConnections = true ∧ p ∈ i.names
  | updateRelayState | register _ => i.movesRelays = true
  | requestReservation p => ∃ protocols addrs, i = .event (.identifyReceived p protocols addrs)
  | natStatus new => (∃ a ok, i = .event (.autonatV2 a ok)) ∨ i = .event (.autonatStatusChanged new)

/-- A relay event asks for what its own relay needs: registering it and updating the state, no
more. -/
theorem Part.askedBy_ofRelay {i : Input} {relay : Option PeerId} {part : Part}
    (moves : i.movesRelays = true) (mem : part ∈ Part.ofRelay relay) : part.AskedBy i := by
  cases relay with
  | none => cases mem
  | some relay =>
    rcases List.mem_pair.mp mem with rfl | rfl
    · exact moves
    · exact moves

/-- **Every part of a handler is asked for by its event.** -/
theorem askedBy_of_mem {event : SwarmEvent} {part : Part} (mem : part ∈ event.parts) :
    part.AskedBy (.event event) := by
  cases event with
  | newListenAddr | ping | newExternalAddrOfPeer | autonatV2 | autonatStatusChanged =>
    obtain rfl := List.mem_singleton.mp mem
    simp [Part.AskedBy, Input.offers]
  | mdnsDiscovered list =>
    obtain ⟨entry, listed, rfl⟩ := List.mem_map.mp mem
    exact listed
  | mdnsExpired list =>
    obtain ⟨entry, listed, rfl⟩ := List.mem_map.mp mem
    exact listed
  | connectionEstablished p c endpoint =>
    rcases List.mem_append.mp mem with first | relay
    · simp only [List.mem_cons, List.not_mem_nil, or_false] at first
      rcases first with rfl | rfl | rfl | rfl | rfl <;>
        simp [Part.AskedBy, Input.announces, Input.movesConnections, Input.movesRelays, Input.names]
    · exact Part.askedBy_ofRelay rfl relay
  | connectionClosed p c =>
    simp only [SwarmEvent.parts, List.mem_cons, List.not_mem_nil, or_false] at mem
    rcases mem with rfl | rfl | rfl | rfl | rfl <;>
      simp [Part.AskedBy, Input.announces, Input.movesConnections, Input.movesRelays, Input.names]
  | kadGetClosestPeers result =>
    cases result with
    | none => cases mem
    | some peers =>
      obtain ⟨peer, listed, mem⟩ := List.mem_flatMap.mp mem
      rcases List.mem_cons.mp mem with rfl | learned
      · exact fun me => List.mem_map_of_mem listed
      · obtain ⟨addr, here, rfl⟩ := List.mem_map.mp learned
        exact List.mem_flatMap.mpr ⟨peer, listed, List.mem_map_of_mem here⟩
  | identifyReceived p protocols listenAddrs =>
    rcases List.mem_append.mp mem with first | last
    · rcases List.mem_cons.mp first with rfl | learned
      · exact ⟨listenAddrs, rfl⟩
      · obtain ⟨addr, here, rfl⟩ := List.mem_map.mp learned
        exact List.mem_map_of_mem here
    · obtain rfl := List.mem_singleton.mp last
      exact ⟨protocols, listenAddrs, rfl⟩
  | reservationReqAccepted relay =>
    have updated : part ∈ Part.ofRelay (some relay) := mem
    exact Part.askedBy_ofRelay rfl updated
  | outgoingConnectionError | externalAddrConfirmed | unhandled => cases mem

/-- What the connection arm does with a relay closes the turn. -/
theorem closes_of_ofRelay {relay : Option PeerId} {part : Part} (mem : part ∈ Part.ofRelay relay) :
    part.closes = true := by
  cases relay with
  | none => cases mem
  | some relay => rcases List.mem_pair.mp mem with rfl | rfl <;> rfl

/-- **After a switch of modes come only the parts that close the handler.** -/
theorem parts_order (event : SwarmEvent) :
    event.parts.Pairwise fun part later => part.switches = true → later.closes = true := by
  have none : (Input.event event).movesConnections = false →
      event.parts.Pairwise fun part later => part.switches = true → later.closes = true := by
    intro still
    refine List.pairwise_of_forall_mem_list fun part mem later _ switches => ?_
    have asked := askedBy_of_mem mem
    cases part with
    | switchOpened | switchClosed => exact absurd (still.symm.trans asked.1) Bool.false_ne_true
    | _ => cases switches
  cases event with
  | connectionEstablished p c endpoint =>
    refine List.pairwise_append.mpr ⟨?_, ?_, fun _ _ _ later _ => closes_of_ofRelay later⟩
    · simp [Part.switches, Part.closes]
    · exact List.pairwise_of_forall_mem_list fun _ _ _ later _ => closes_of_ofRelay later
  | connectionClosed p c => simp [SwarmEvent.parts, Part.switches, Part.closes]
  | _ => exact none rfl

/-- **Where the broadcasts are heard only a switch of modes fails**, when mDNS does not start. -/
theorem part_fails (heard : ∀ n, env.sendOk n = true) (part : Part) (s : SavedNetwork) :
    (part.run env).Ensures s (Proc.Exits (fun _ _ => True) fun _ _ => part.switches = true) := by
  have sends : ∀ news, (broadcast env news).Ensures s
      (Proc.Exits (fun _ _ => True) fun _ _ => part.switches = true) := fun news =>
    ensures_broadcast.mpr ⟨fun _ => trivial, fun lost => absurd (heard _) lost⟩
  cases part with
  | broadcast news => exact sends news
  | listeningOn a => exact ensures_listeningOn (sends _)
  | switchOpened p | switchClosed p =>
    intro r t _
    cases r with
    | error e => exact rfl
    | ok _ => trivial
  | onAddAddress | onRemoveAddress | reconcile => exact Proc.ensures_attempt.mpr fun _ _ => trivial
  | addConnection | removeConnection | setProtocols | onPing | updateRelayState | register
  | requestReservation | natStatus => exact Proc.ensures_update.mpr trivial

/-- **What the parts of a handler put out, the handler does**, also one that exits early: what
closes a turn puts out nothing. -/
theorem onSwarmEvent_collects (heard : ∀ n, env.sendOk n = true) {ω : Type}
    {K : List ω → SavedNetwork → SavedNetwork → Prop} (refl : ∀ s, K [] s s)
    (trans : ∀ {l l' s t u}, K l s t → K l' t u → K (l ++ l') s u) {out : Part → List ω}
    (silent : ∀ part, part.closes = true → out part = [])
    (round : ∀ part s, (Part.run env part).Ensures s fun _ t => K (out part) s t)
    (event : SwarmEvent) :
    (onSwarmEvent env event).Ensures s fun _ t => K (event.parts.flatMap out) s t := by
  rw [onSwarmEvent_parts]
  refine .collects refl trans (fun part => part.switches = true) ?_ (part_fails heard) round
  exact (parts_order event).imp fun closes switches => silent _ (closes switches)

/-- What the parts that learn addresses put out. -/
theorem flatMap_learned {ω : Type} (out : Part → List ω) (p : PeerId) (addrs : List Multiaddr) :
    (addrs.map fun addr => Part.onAddAddress p addr).flatMap out =
      (addrs.map fun addr => (p, addr)).flatMap fun entry =>
        out (.onAddAddress entry.1 entry.2) := by
  rw [List.flatMap_map, List.flatMap_map]

end Saved
