import Saved.Lib.Calls
import Saved.Network

/-!
# Handles and the task (`rpc_macros.rs`, `api.rs`, `handle.rs`)

`saved_rpc!` makes three things of each method of the network: a variant of `SavedNetworkRpc`, a
method of the handle, and an arm of `dispatch_rpc`. The handle's method puts the variant into a
bounded `mpsc` channel, together with the sending end of a new `oneshot` channel, and waits at the
receiving end. The task takes the variants out one by one, runs the method and sends what it
answers; that the receiver may be gone is ignored.

The process is a `Server`: its requests are the variants, an identity stands for each call and its
`oneshot` channel, and its other work are the events of the swarm. It stops when the loop ends or
the task is aborted; then both ends that the task held are dropped. Any number of calls may be under
way at once, since the methods of a handle take it by reference.

The channels are tokio's, so they are a parameter (`Channels`) of whatever is said of a process, and
what tokio documents of them are its hypotheses (`Channels.Lawful`).
-/

namespace Saved

open Saved.Lib

/-- What a method answers when it does not fail. -/
inductive RpcValue where
  | unit
  | bool (value : Bool)
  deriving DecidableEq

/-- What is sent back: the `SavedResult` of the method. -/
abbrev RpcAnswer := Except SavedError RpcValue

/-- Run a method, and keep what it answers. -/
def answering {α : Type} (value : α → RpcValue) (method : NetM α) (s : SavedNetwork) :
    Option (RpcAnswer × SavedNetwork) :=
  (method s).map fun exit => (exit.1.map value, exit.2)

/-- **`dispatch_rpc`**, with the answer that it sends to the caller. -/
def answerRpc (env : Env) (rpc : SavedNetworkRpc) (s : SavedNetwork) :
    Option (RpcAnswer × SavedNetwork) :=
  match rpc with
  | .setMdnsEnabled enabled => answering (fun _ => .unit) (setMdnsEnabled env enabled) s
  | .setKadEnabled enabled mode => answering (fun _ => .unit) (setKadEnabled enabled mode) s
  | .kadFindPeer target => answering (fun _ => .unit) (kadFindPeer target) s
  | .kadBootstrap => answering (fun _ => .unit) (kadBootstrap env) s
  | .dial addr => answering (fun _ => .unit) (dial env addr) s
  | .addTargetPeer target => answering .bool (addTargetPeer target) s
  | .removeTargetPeer target => answering .bool (removeTargetPeer target) s

/-- The name of a method, as `stringify!` gives it. -/
def SavedNetworkRpc.fnName : SavedNetworkRpc → String
  | setMdnsEnabled _ => "set_mdns_enabled"
  | setKadEnabled _ _ => "set_kad_enabled"
  | kadFindPeer _ => "kad_find_peer"
  | kadBootstrap => "kad_bootstrap"
  | dial _ => "dial"
  | addTargetPeer _ => "add_target_peer"
  | removeTargetPeer _ => "remove_target_peer"

/-- The errors of a handle's method: those of the network's, and two of the channels. -/
inductive HandleError where
  | network (error : SavedError)
  | tokioMpscSendNetRpc (rpc : SavedNetworkRpc)
  | oneshotCanceled (rpc : String)
  deriving DecidableEq

/-- The errors that the channels make. -/
def HandleError.ofChannel : HandleError → Bool
  | network _ => false
  | tokioMpscSendNetRpc _ | oneshotCanceled _ => true

/-- **What a handle's method returns**, by how its call ended. -/
def handleResult (rpc : SavedNetworkRpc) : Except Fault RpcAnswer → Except HandleError RpcValue
  | .ok answer => answer.mapError .network
  | .error .unsent => .error (.tokioMpscSendNetRpc rpc)
  | .error .dropped => .error (.oneshotCanceled rpc.fnName)

/-- The capacity of the channel of requests, and of the channel of events. -/
def channelCapacity : Nat := 64

/-- A channel of requests with that capacity, and a cell for each answer. -/
abbrev boundedChannels : Channels SavedNetworkRpc RpcAnswer SwarmEvent := fun h act =>
  Channels.bounded channelCapacity h act = true

/-- **The task as a service**: it answers requests, and handles the events of the swarm. -/
def networkService (env : Env) (localPeerId : PeerId) (maxRelays : Nat) :
    Service SavedNetwork SavedNetworkRpc RpcAnswer SwarmEvent where
  start := .start localPeerId maxRelays
  serve s rpc := answerRpc env rpc s
  turn s event := (onSwarmEvent env event).exec s

/-- The task, its channel of requests, and the calls of its handle. -/
abbrev Process := Server SavedNetwork SavedNetworkRpc RpcAnswer

/-- What is done in the process. -/
abbrev ProcessAct := Act SavedNetworkRpc RpcAnswer SwarmEvent

namespace Process

/-- One act. -/
abbrev step (env : Env) (localPeerId : PeerId) (maxRelays : Nat) :
    Process → ProcessAct → Option Process :=
  Server.step (networkService env localPeerId maxRelays)

/-- The process when the task has been spawned. -/
abbrev start (env : Env) (localPeerId : PeerId) (maxRelays : Nat) : Process :=
  Server.start (networkService env localPeerId maxRelays)

/-- What the handle's method has returned to a call. -/
def result (p : Process) (id : Nat) : Option (Except HandleError RpcValue) :=
  match p.callers id with
  | .returned request result => some (handleResult request result)
  | _ => none

end Process

/-- What the task takes in one turn, as the event loop sees it. -/
def Input.ofWork : SavedNetworkRpc ⊕ SwarmEvent → Input
  | .inl request => .rpc request
  | .inr other => .event other

/-- **The inputs of the task**, in the order in which it handled them. -/
def inputs (h : List ProcessAct) : List Input := (h.filterMap Act.work).map Input.ofWork

end Saved
