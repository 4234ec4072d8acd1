import Saved.Lib.Trace
import Saved.Laws.Resort

/-!
# What happens in a turn

A turn of the event loop is one step of the model, and some laws are about what goes on inside it:
which operations of the view the handlers make, and in which states `reconcile_peer_connections`
reads the best address. `moments` lists both for a turn, in order, whether or not the turn returns:
a reconcile that dials for ever is followed up to the depth of the environment.

`Happens` says what each moment does to the state. Between the moments nothing happens to an address
vector or to the clock, and no call dials (`Aside`); most methods only talk, and leave the whole
view (`Talk`). `Traces` says that a list of moments is what is visible of a trace of `Happens`, and
`Saved.Laws.TurnTraces` proves it of the moments of every turn.
-/

namespace Saved

open Saved.Lib SavedNetwork

/-- How often an operation turns to the clock. -/
def ViewOp.readings : ViewOp → Nat
  | addAddress _ _ _ | removeAddress _ _ _ | addConnection _ _ _ _ | removeConnection _ _ _ => 1
  | markFailure _ _ _ _ => 2
  | setProtocols _ _ | setRtt _ _ => 0

/-- The readings of an operation are the next ones of the clock. -/
def ViewOp.Timed (env : Env) (n : Nat) : ViewOp → Prop
  | addAddress now _ _ | removeAddress now _ _ | addConnection now _ _ _
  | removeConnection now _ _ => now = env.readings n
  | markFailure failed now _ _ => failed = env.clock n 0 ∧ now = env.readings (n + 1)
  | setProtocols _ _ | setRtt _ _ => True

namespace SavedNetwork

/-- The node after an operation of its view. -/
def after (s : SavedNetwork) (op : ViewOp) : SavedNetwork :=
  { s with view := s.view.apply op, clockReads := s.clockReads + op.readings }

/-- **The address that a reconcile of a peer dials**, when it dials one. -/
def dialTarget (s : SavedNetwork) (p : PeerId) : Option Multiaddr :=
  match s.view.addressesOf p with
  | [] => none
  | best :: _ =>
    if s.view.isConnectedOver p best.address then none
    else if s.view.isConnected p && !s.isPruneLeader p then none
    else some best.address

/-- The node once a reconcile has dialed what it dials, and marked the failure if it failed. -/
def afterRead (env : Env) (s : SavedNetwork) (p : PeerId) : SavedNetwork :=
  match s.dialTarget p with
  | none => s
  | some a => if env.dialOk s.asked then s.tell [.dial a true] else s.dialFailed env p

end SavedNetwork

/-- **What can be seen of a run**: an operation of the view; a reconcile that reads the best address
of a peer in a state, and dials it when it has to; a dial that a handle requests; and a report of
how the dial of a given number ended. -/
inductive Moment where
  | op (op : ViewOp)
  | read (peerId : PeerId) (s : SavedNetwork)
  | request (addr : Multiaddr)
  | settled (dial : Nat) (established : Bool)

/-! ## The moments of a turn -/

/-- The moments of a reconcile. It reads the best address again when a dial has failed and the peer
has no connection. -/
def reads (env : Env) (p : PeerId) : Nat → SavedNetwork → List Moment
  | 0, _ => []
  | depth + 1, s =>
    .read p s ::
      if (s.dialTarget p).isNone || env.dialOk s.asked || s.view.isConnected p then []
      else reads env p depth (s.afterRead env p)

/-- The moments of `on_add_address`. -/
def addMoments (env : Env) (s : SavedNetwork) (entry : PeerId × Multiaddr) : List Moment :=
  if shouldSkipForDial entry.2 then []
  else
    let op := .addAddress (env.readings s.clockReads) entry.1 entry.2
    .op op ::
      if (s.view.addAddress (env.readings s.clockReads) entry.1 entry.2).1 then
        reads env entry.1 env.depth ((s.after op).tellKad (.kadAddAddress entry.1 entry.2))
      else []

/-- The moments of `on_remove_address`. -/
def removeMoments (env : Env) (s : SavedNetwork) (entry : PeerId × Multiaddr) : List Moment :=
  let op := .removeAddress (env.readings s.clockReads) entry.1 entry.2
  .op op :: reads env entry.1 env.depth ((s.after op).tellKad (.kadRemoveAddress entry.1 entry.2))

/-- The moments of a loop: those of each round, up to the first round that does not return. -/
def loopMoments {ι : Type} (round : SavedNetwork → ι → Option SavedNetwork)
    (moments : SavedNetwork → ι → List Moment) : List ι → SavedNetwork → List Moment
  | [], _ => []
  | i :: is, s => moments s i ++ ((round s i).map (loopMoments round moments is)).getD []

/-- The moments of `on_add_address` over a list. -/
def addAllMoments (env : Env) (list : List (PeerId × Multiaddr)) (s : SavedNetwork) :
    List Moment :=
  loopMoments (fun s entry => s.onAddAddress env entry.1 entry.2) (addMoments env) list s

/-- The moments of one peer of a Kademlia answer. -/
def kadMoments (env : Env) (s : SavedNetwork) (peer : PeerId × List Multiaddr) : List Moment :=
  (((broadcast env (.kadFoundPeer peer.1 peer.2)).execOk s).map
    (addAllMoments env (peer.2.map fun addr => (peer.1, addr)))).getD []

/-- `on_peer_connection_closed`, up to its reconcile. -/
def closedPrefix (env : Env) (peerId : PeerId) (connectionId : ConnectionId) : NetM Unit := do
  Proc.update (·.onView env fun now view => view.removeConnection now peerId connectionId)
  broadcast env (.disconnected peerId connectionId)
  let s ← Proc.get
  if peerId ∈ s.targetPeers ∧ s.view.isConnected peerId = false then setActiveMode env true
  else pure ()

/-- `on_peer_connection_opened`, up to its reconcile. -/
def openedPrefix (env : Env) (peerId : PeerId) (connectionId : ConnectionId)
    (endpoint : ConnectedPoint) : NetM Unit := do
  Proc.update (·.onView env fun now view => view.addConnection now peerId connectionId endpoint)
  broadcast env (.connected peerId connectionId)
  let s ← Proc.get
  if peerId ∈ s.targetPeers then
    if s.targetPeers.toList.any fun t => !s.view.isConnected t then setActiveMode env true
    else setActiveMode env false
  else pure ()

/-- The moments of a handler of connections: an operation of the view, and the reconcile of its
peer when the handler gets there. -/
def handlerMoments (env : Env) (op : ViewOp) (prefix' : NetM Unit) (s : SavedNetwork) :
    List Moment :=
  .op op :: ((prefix'.execOk s).map (reads env op.peer env.depth)).getD []

namespace SavedNetwork

/-- **The moments of a turn.** -/
def moments (env : Env) (s : SavedNetwork) : Input → List Moment
  | .event (.mdnsDiscovered list) => addAllMoments env list s
  | .event (.mdnsExpired list) =>
    loopMoments (fun s entry => s.onRemoveAddress env entry.1 entry.2) (removeMoments env) list s
  | .event (.connectionEstablished p c endpoint) =>
    handlerMoments env (.addConnection (env.readings s.clockReads) p c endpoint)
      (openedPrefix env p c endpoint) s
  | .event (.connectionClosed p c) =>
    handlerMoments env (.removeConnection (env.readings s.clockReads) p c) (closedPrefix env p c) s
  | .event (.newExternalAddrOfPeer p a) => addMoments env s (p, a)
  | .event (.kadGetClosestPeers (some peers)) =>
    loopMoments (fun s peer => (onKadPeer env peer).execOk s) (kadMoments env) peers s
  | .event (.identifyReceived p protocols listenAddrs) =>
    addAllMoments env (listenAddrs.map fun addr => (p, addr))
      { s with view := s.view.setProtocols p protocols }
  | .rpc (.dial addr) =>
    if addr.iter.any fun p => match p with | .p2p _ => true | _ => false then [.request addr]
    else []
  | _ => []

end SavedNetwork

/-! ## What each moment does -/

/-- **Nothing that a dial depends on changes**: no address vector, no reading of the clock, and no
call is a dial. -/
structure Aside (s s' : SavedNetwork) : Prop where
  addresses : s'.view.addressesOf = s.view.addressesOf
  clockReads : s'.clockReads = s.clockReads
  localPeerId : s'.swarm.localPeerId = s.swarm.localPeerId
  dials : dialed s'.swarm.calls = dialed s.swarm.calls

/-- **A fresh vector**: the last to turn to the clock was its own resort, and it did so since a
given number of times. -/
def Fresh (env : Env) (since : Nat) (p : PeerId) (s : SavedNetwork) : Prop :=
  ∃ n, since ≤ n ∧ s.clockReads = n + 1 ∧ Resorted (env.readings n) (s.view.addressesOf p)

/-- **What a moment does to the state.** A read is made of a fresh vector. -/
inductive Happens (env : Env) (since : Nat) : SavedNetwork → Option Moment → SavedNetwork → Prop
  | aside {s t} : Aside s t → Happens env since s none t
  | op {s op} : op.Timed env s.clockReads → Happens env since s (some (.op op)) (s.after op)
  | read {s p} : Fresh env since p s → Happens env since s (some (.read p s)) (s.afterRead env p)
  | request {s a} : Happens env since s (some (.request a)) (s.tell [.dial a (env.dialOk s.asked)])
  | settled {s dial ok} : Happens env since s (some (.settled dial ok)) s

/-- **The moments lead from a state to the one a computation leaves**, or to some state when it
does not return. -/
def Traces (env : Env) (since : Nat) (s : SavedNetwork) (l : List Moment)
    (left : Option SavedNetwork) : Prop :=
  ∃ t, Trace (Happens env since) s l t ∧ ∀ s', left = some s' → s' = t

variable {env : Env} {s s' t u : SavedNetwork}

/-- The dials of two stretches of calls, one after the other. -/
theorem dialed_append (calls calls' : List Call) :
    dialed (calls ++ calls') = dialed calls ++ dialed calls' := List.filterMap_append

namespace Aside

/-- Nothing done is aside. -/
theorem refl (s : SavedNetwork) : Aside s s := ⟨rfl, rfl, rfl, rfl⟩

/-- Steps that stand aside compose. -/
theorem trans (h : Aside s t) (h' : Aside t u) : Aside s u :=
  ⟨h'.addresses.trans h.addresses, h'.clockReads.trans h.clockReads,
    h'.localPeerId.trans h.localPeerId, h'.dials.trans h.dials⟩

/-- Calls that are no dials. -/
theorem tell {calls : List Call} (silent : dialed calls = []) : Aside s (s.tell calls) :=
  ⟨rfl, rfl, rfl, by rw [SavedNetwork.tell, dialed_append, silent, List.append_nil]⟩

/-- A word to Kademlia is no dial. -/
theorem tellKad {call : Call} (silent : dialed [call] = []) : Aside s (s.tellKad call) := by
  unfold SavedNetwork.tellKad
  split
  · exact tell silent
  · exact refl s

/-- The relay update disconnects and dials nobody. -/
theorem updateRelayState (s : SavedNetwork) : Aside s s.updateRelayState := by
  obtain ⟨gone, left, pruned⟩ := updateRelayState_pruned s
  have silent : dialed (gone.map Call.disconnectPeerId) = [] := by
    unfold dialed
    rw [List.filterMap_map]
    exact List.filterMap_eq_nil_iff.mpr fun _ _ => rfl
  rw [pruned.eq]
  exact ⟨rfl, rfl, rfl, (dialed_append _ _).trans (by rw [silent, List.append_nil]; rfl)⟩

end Aside

/-- **What a method does that only talks**: it turns modes and behaviours, and makes calls that are
no dials. -/
structure Talk (s s' : SavedNetwork) : Prop extends Aside s s' where
  view : s'.view = s.view

namespace Talk

/-- Talk is recognised by the four things it leaves alone. -/
theorem of_view (view : s'.view = s.view) (clockReads : s'.clockReads = s.clockReads)
    (localPeerId : s'.swarm.localPeerId = s.swarm.localPeerId)
    (dials : dialed s'.swarm.calls = dialed s.swarm.calls) : Talk s s' :=
  ⟨⟨by rw [view], clockReads, localPeerId, dials⟩, view⟩

/-- Saying nothing is talk. -/
theorem refl (s : SavedNetwork) : Talk s s := ⟨.refl s, rfl⟩

/-- Talk composes, which carries the methods below to the handlers' prefixes. -/
theorem trans (h : Talk s t) (h' : Talk t u) : Talk s u :=
  ⟨h.toAside.trans h'.toAside, h'.view.trans h.view⟩

/-- Calls that are no dials are talk. -/
theorem tell {calls : List Call} (silent : dialed calls = []) : Talk s (s.tell calls) :=
  ⟨.tell silent, rfl⟩

/-- An announcement, heard or not. -/
theorem broadcast {event : SavedNetworkEvent} :
    (Saved.broadcast env event).Ensures s fun _ t => Talk s t := by
  rw [ensures_broadcast]
  exact ⟨fun _ => tell rfl, fun _ => tell rfl⟩

/-- A search, or its refusal. -/
theorem kadFindPeer {target : PeerId} :
    (Saved.kadFindPeer target).Ensures s fun _ t => Talk s t := by
  rw [ensures_kadFindPeer]
  exact ⟨fun _ => tell rfl, fun _ => refl s⟩

/-- The bootstrap: what Kademlia dials for it is not the node's own dial. -/
theorem kadBootstrap : (Saved.kadBootstrap env).Ensures s fun _ t => Talk s t := by
  rw [ensures_kadBootstrap]
  exact ⟨fun _ => ⟨fun _ => tell rfl, fun _ => tell rfl⟩, fun _ => refl s⟩

/-- mDNS on or off. -/
theorem setMdnsEnabled {enabled : Bool} :
    (Saved.setMdnsEnabled env enabled).Ensures s fun _ t => Talk s t := by
  cases enabled with
  | false => exact ensures_stopMdns.mpr (of_view rfl rfl rfl rfl)
  | true =>
    have started : Talk s (s.tell [.startMdns]) := tell rfl
    rw [ensures_startMdns]
    exact ⟨fun _ => refl s, fun _ =>
      ⟨fun _ => started.trans (of_view rfl rfl rfl rfl), fun _ => started⟩⟩

/-- Kademlia on or off. -/
theorem setKadEnabled {enabled : Bool} {mode : KadMode} :
    (Saved.setKadEnabled enabled mode).Ensures s fun _ t => Talk s t := by
  rw [ensures_setKadEnabled]
  exact ⟨fun _ => of_view rfl rfl rfl rfl, fun _ => of_view rfl rfl rfl rfl⟩

/-- The switch of the mode is made of the three above. -/
theorem setActiveMode {active : Bool} :
    (Saved.setActiveMode env active).Ensures s fun _ t => Talk s t := by
  unfold Saved.setActiveMode
  refine .seq (K := Talk) trans (Proc.ensures_update.mpr (of_view rfl rfl rfl rfl)) fun _ t => ?_
  rw [Proc.ensures_ite]
  refine ⟨fun _ => ?_, fun _ => setKadEnabled⟩
  refine .seq (K := Talk) trans setKadEnabled fun _ t => ?_
  refine .seq (K := Talk) trans setMdnsEnabled fun _ t => ?_
  refine .seq (K := Talk) trans (Proc.ensures_get.mpr (refl _)) fun _ _ => ?_
  exact .loop (K := Talk) trans refl fun _ _ _ => kadFindPeer

end Talk

end Saved
