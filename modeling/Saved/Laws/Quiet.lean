import Saved.Laws.Parts
import Saved.Laws.Reconcile

/-!
# Quiet inputs

Most inputs open no connection and close none, and leave relays, targets and mode alone: addresses
learned by mDNS, Kademlia or identify, pings, NAT reports, most requests of a handle. `Quiet s s'`
is what is true of all of them: of an event because its parts are quiet (`onSwarmEvent_quiet`), of a
request by itself (`dispatchRpc_quiet`). A quiet step may change the known addresses, their order
and their backoff; every connection stays on its address.

What is left is five inputs, each with a law of its own: an mDNS expiry (`removeAddresses_spec`), a
connection opened or closed (`Saved.Laws.Handlers`), a reservation accepted, and a target added or
removed.
-/

namespace Saved

open Saved.Lib SavedNetwork

/-- **A quiet change**: a frame in which every connection stays on its address. -/
structure Quiet (s s' : SavedNetwork) : Prop extends Frame s s' where
  wf : s.view.WellFormed → s'.view.WellFormed
  tracked : s.view.WellFormed → s'.view.tracked = s.view.tracked

namespace Quiet

variable {env : Env} {p : PeerId} {a : Multiaddr} {s s' t u : SavedNetwork}

/-- A step that does nothing is quiet. -/
theorem refl (s : SavedNetwork) : Quiet s s := ⟨.refl s, id, fun _ => rfl⟩

/-- Quiet steps compose, which is all that a handler of several parts needs. -/
theorem trans (h : Quiet s t) (h' : Quiet t u) : Quiet s u :=
  ⟨h.toFrame.trans h'.toFrame, fun wf => h'.wf (h.wf wf), fun wf =>
    (h'.tracked (h.wf wf)).trans (h.tracked wf)⟩

/-- A frame that keeps the records of every vector. -/
theorem of_records (frame : Frame s s')
    (records : ∀ q, SameRecords (s.view.addressesOf q) (s'.view.addressesOf q)) : Quiet s s' := by
  refine ⟨frame, fun wf => (NetworkView.registers_of_records wf records).1, fun wf => ?_⟩
  funext q
  rw [NetworkView.tracked_eq, NetworkView.tracked_eq,
    (NetworkView.registers_of_records wf records).2]

/-- A frame that keeps every vector. -/
theorem of_addresses (frame : Frame s s')
    (same : ∀ q, s'.view.addressesOf q = s.view.addressesOf q) : Quiet s s' :=
  of_records frame fun q => .of_eq (by rw [same q])

/-- A framed step that leaves the view is quiet. -/
theorem of_view (frame : Frame s s') (same : s'.view = s.view) : Quiet s s' :=
  of_addresses frame fun q => by rw [same]

/-- Calls that dial and close nothing are quiet. -/
theorem tell {calls : List Call} (quiet : ∀ call ∈ calls, call.spares) :
    Quiet s (s.tell calls) := of_view (.tell quiet) rfl

/-- A word to Kademlia is quiet. -/
theorem tellKad {call : Call} (quiet : call.spares) :
    Quiet s (s.tellKad call) :=
  of_view (.tellKad quiet) (by unfold SavedNetwork.tellKad; split <;> rfl)

/-- The reconciliation dials, closes and counts failures, and none of it moves a tracked
connection. -/
theorem reconcile (returned : s.reconcilePeerConnections env p = some s') : Quiet s s' :=
  have reconciled := reconciled_of_returned returned
  of_records reconciled.frame reconciled.records

/-- Learning an address moves no connection. -/
theorem addAddress {now : Readings → NetworkView → NetworkView}
    (op : now = fun t view => (view.addAddress t p a).2) : Quiet s (s.onView env now) := by
  subst op
  exact ⟨.onView, fun wf => (NetworkView.addAddress_registers wf).1, NetworkView.tracked_addAddress⟩

/-- A new address is added without a connection, so whatever `on_add_address` does after it, no
connection moves. -/
theorem onAddAddress (returned : s.onAddAddress env p a = some s') : Quiet s s' := by
  unfold SavedNetwork.onAddAddress at returned
  split at returned
  · cases returned
    exact .refl s
  · dsimp only at returned
    have added : Quiet s (s.onView env fun now view => (view.addAddress now p a).2) :=
      addAddress rfl
    split at returned
    · cases returned
      exact added
    · have told : ∀ t : SavedNetwork, Quiet t (t.tellKad (.kadAddAddress p a)) :=
        fun t => tellKad fun q => nofun
      exact (added.trans (told _)).trans (reconcile returned)

/-- The loop over discovered addresses, by the rule of loops. -/
theorem addAddresses {list : List (PeerId × Multiaddr)}
    (returned : s.addAddresses env list = some s') : Quiet s s' :=
  Proc.foldlM_keeps (K := Quiet) .trans .refl (fun _ _ _ _ round => onAddAddress round) returned

/-- An announcement is quiet, whether it is heard or not. -/
theorem broadcast {event : SavedNetworkEvent} :
    (Saved.broadcast env event).Ensures s fun _ s' => Quiet s s' := by
  rw [ensures_broadcast]
  exact ⟨fun _ => tell (by simp [Call.spares]), fun _ => tell (by simp [Call.spares])⟩

end Quiet

/-- The inputs that are quiet. -/
def Input.isQuiet : Input → Bool
  | .event (.mdnsExpired _) => false
  | .event (.connectionEstablished _ _ _) => false
  | .event (.connectionClosed _ _) => false
  | .event (.reservationReqAccepted _) => false
  | .rpc (.addTargetPeer _) => false
  | .rpc (.removeTargetPeer _) => false
  | _ => true

namespace SavedNetwork

variable {env : Env} {s s' : SavedNetwork}

/-- A reservation is asked for with calls to the swarm. The relay book changes only when the answer
comes. -/
theorem requestReservation_quiet {p : PeerId} : Quiet s (s.requestReservation env p) := by
  unfold requestReservation
  split
  · split
    · exact .refl s
    · split
      · exact .tell (by simp [Call.spares])
      · exact .refl s
  · exact .refl s

/-- A ping stores a round-trip time in the view, of which the relation does not speak. -/
theorem onPing_quiet {p : PeerId} {c : ConnectionId} {result : Option Duration} :
    Quiet s (s.onPing p c result) := by
  unfold onPing
  split
  · split
    · refine .of_addresses ⟨rfl, rfl, rfl, rfl, .of_eq rfl⟩ fun q => ?_
      exact NetworkView.setRtt_addresses s.view _ q
    · exact .refl s
  · exact .refl s

/-- Which behaviours are on is no part of what the relation keeps still. -/
theorem withMdns_quiet {enabled : Bool} : Quiet s (s.withMdns enabled) :=
  .of_view ⟨rfl, rfl, rfl, rfl, .of_eq rfl⟩ rfl

/-- Which behaviours are on is no part of what the relation keeps still. -/
theorem withKad_quiet {kad : Option Kad} : Quiet s (s.withKad kad) :=
  .of_view ⟨rfl, rfl, rfl, rfl, .of_eq rfl⟩ rfl

end SavedNetwork

/-- The parts that are quiet. -/
def Part.isQuiet : Part → Bool
  | onAddAddress _ _ | setProtocols _ _ | onPing _ _ _ | broadcast _ | listeningOn _
  | requestReservation _ | natStatus _ => true
  | onRemoveAddress _ _ | addConnection _ _ _ | removeConnection _ _ | switchOpened _
  | switchClosed _ | reconcile _ | updateRelayState | register _ => false

/-- A quiet input has quiet parts only: each other part is asked for by an input that is not. -/
theorem isQuiet_of_mem {event : SwarmEvent} {part : Part}
    (quiet : (Input.event event).isQuiet = true) (mem : part ∈ event.parts) :
    part.isQuiet = true := by
  have asked := askedBy_of_mem mem
  cases event with
  | mdnsExpired | connectionEstablished | connectionClosed | reservationReqAccepted => cases quiet
  | _ =>
    cases part with
    | onRemoveAddress => cases asked
    | addConnection | removeConnection => cases asked
    | switchOpened | switchClosed | reconcile => cases asked.1
    | updateRelayState | register => cases asked
    | _ => rfl

namespace SavedNetwork

variable {env : Env} {s s' : SavedNetwork}

/-- A quiet part is a quiet change. -/
theorem part_quiet {part : Part} (quiet : part.isQuiet = true) :
    (part.run env).Ensures s fun _ s' => Quiet s s' := by
  cases part with
  | onAddAddress p a => exact Proc.ensures_attempt.mpr fun _ returned => .onAddAddress returned
  | setProtocols p protocols =>
    refine Proc.ensures_update.mpr (.of_addresses ⟨rfl, rfl, rfl, rfl, .of_eq rfl⟩ fun q => ?_)
    exact NetworkView.setProtocols_addresses s.view protocols q
  | onPing p c result => exact Proc.ensures_update.mpr onPing_quiet
  | broadcast news => exact .broadcast
  | listeningOn a => exact ensures_listeningOn .broadcast
  | requestReservation p => exact Proc.ensures_update.mpr requestReservation_quiet
  | natStatus new => exact Proc.ensures_update.mpr (.of_view ⟨rfl, rfl, rfl, rfl, .of_eq rfl⟩ rfl)
  | onRemoveAddress | addConnection | removeConnection | switchOpened | switchClosed | reconcile
  | updateRelayState | register => cases quiet

/-- A quiet event is a quiet change, whether or not a broadcast in it went through. -/
theorem onSwarmEvent_quiet {event : SwarmEvent} (quiet : (Input.event event).isQuiet = true) :
    (onSwarmEvent env event).Ensures s fun _ s' => Quiet s s' := by
  rw [onSwarmEvent_parts]
  refine .loop (K := Quiet) .trans .refl fun part mem t => ?_
  exact part_quiet (isQuiet_of_mem quiet mem)

/-- The switch of mDNS, on its good path and on its failing one. -/
theorem setMdnsEnabled_quiet {enabled : Bool} :
    (setMdnsEnabled env enabled).Ensures s fun _ s' => Quiet s s' := by
  cases enabled with
  | false => exact ensures_stopMdns.mpr withMdns_quiet
  | true =>
    have started : Quiet s (s.tell [.startMdns]) := .tell (by simp [Call.spares])
    rw [ensures_startMdns]
    exact ⟨fun _ => .refl s, fun _ => ⟨fun _ => started.trans withMdns_quiet, fun _ => started⟩⟩

/-- The switch of Kademlia. -/
theorem setKadEnabled_quiet {enabled : Bool} {mode : KadMode} :
    (setKadEnabled enabled mode).Ensures s fun _ s' => Quiet s s' :=
  ensures_setKadEnabled.mpr ⟨fun _ => withKad_quiet, fun _ => withKad_quiet⟩

/-- The same of a request. The two that are left out change the targets. -/
theorem dispatchRpc_quiet {rpc : SavedNetworkRpc} (quiet : (Input.rpc rpc).isQuiet = true)
    (returned : dispatchRpc env rpc s = some s') : Quiet s s' := by
  cases rpc with
  | addTargetPeer _ | removeTargetPeer _ => cases quiet
  | setMdnsEnabled enabled => exact setMdnsEnabled_quiet.of_exec returned
  | setKadEnabled enabled mode => exact setKadEnabled_quiet.of_exec returned
  | kadFindPeer target =>
    refine Proc.Ensures.of_exec (m := kadFindPeer target) ?_ returned
    rw [ensures_kadFindPeer]
    exact ⟨fun _ => .tell (by simp [Call.spares]), fun _ => .refl s⟩
  | kadBootstrap =>
    refine Proc.Ensures.of_exec (m := kadBootstrap env) ?_ returned
    rw [ensures_kadBootstrap]
    have told : Quiet s (s.tell [.bootstrap]) := .tell (by simp [Call.spares])
    exact ⟨fun _ => ⟨fun _ => told, fun _ => told⟩, fun _ => .refl s⟩
  | dial addr =>
    refine Proc.Ensures.of_exec (m := dial env addr) ?_ returned
    rw [ensures_dial]
    have told : Quiet s (s.tell [.dial addr (env.dialOk s.asked)]) := .tell (by simp [Call.spares])
    exact ⟨fun _ => ⟨fun _ => told, fun _ => told⟩, fun _ => .refl s⟩

/-! ## Expiry -/

/-- **An expiry takes every connection off the addresses it lists**, and moves no other. -/
theorem removeAddresses_spec {list : List (PeerId × Multiaddr)} {s : SavedNetwork}
    (wf : s.view.WellFormed) (returned : s.removeAddresses env list = some s') :
    s'.view.WellFormed ∧ Frame s s' ∧ s'.view.tracked = s.view.tracked.expire list := by
  induction list generalizing s with
  | nil =>
    cases returned
    exact ⟨wf, .refl _, (Tracked.expire_nil _).symm⟩
  | cons entry list ih =>
    obtain ⟨t, first, rest⟩ := Option.bind_eq_some_iff.mp returned
    obtain ⟨q, b⟩ := entry
    let erased := s.onView env fun now view => view.removeAddress now q b
    have wf' : erased.view.WellFormed := (NetworkView.removeAddress_registers wf).1
    have tail : Quiet erased t := (Quiet.tellKad (by simp [Call.spares])).trans (.reconcile first)
    have here : erased.view.tracked = s.view.tracked.expire [(q, b)] :=
      NetworkView.tracked_removeAddress wf
    obtain ⟨wf'', frame, expired⟩ := ih (tail.wf wf') rest
    refine ⟨wf'', (Frame.onView.trans tail.toFrame).trans frame, ?_⟩
    rw [expired, tail.tracked wf', here]
    exact (Tracked.expire_cons _ _ _).symm

end SavedNetwork

end Saved
