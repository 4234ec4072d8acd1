import Saved.Network
import Saved.Laws.View

/-!
# What a reconcile does

`Reconciled env p s s'` is the meaning of `reconcile_peer_connections` without the depth: one rule
for each way through it. What one call does is said by the peer's vector (`reconcileFrom_unknown`,
`reconcileFrom_known`), and no other proof unfolds it. `reconcileFrom_reconciled` reads a returning
call as a derivation, and a fact about a reconcile is an induction over that.

The two facts most handlers need are here. A reconcile changes the view by marked failures only,
so it keeps every register (`Reconciled.records`), and outside the view and the record of calls it
changes nothing (`Reconciled.frame`).
-/

namespace Saved

open Saved.Lib

/-- **One call of reconcile**, for a peer with the vector `best :: rest`, or with none. -/
inductive Reconciled (env : Env) (p : PeerId) : SavedNetwork → SavedNetwork → Prop
  | unknown {s} : s.view.addressesOf p = [] → Reconciled env p s s
  | keep {s best rest} : s.view.addressesOf p = best :: rest →
      s.view.isConnectedOver p best.address = true → s.isPruneLeader p = false →
      Reconciled env p s s
  | prune {s best rest} : s.view.addressesOf p = best :: rest →
      s.view.isConnectedOver p best.address = true → s.isPruneLeader p = true →
      Reconciled env p s (s.tell ((rest.flatMap (·.activeConnections)).map .closeConnection))
  | dialed {s best rest} : s.view.addressesOf p = best :: rest → s.view.isConnected p = false →
      env.dialOk s.asked = true → Reconciled env p s (s.tell [.dial best.address true])
  | redial {s s' best rest} : s.view.addressesOf p = best :: rest →
      s.view.isConnected p = false → env.dialOk s.asked = false →
      Reconciled env p ((s.tell [.dial best.address false]).markFailure env p best.address) s' →
      Reconciled env p s s'
  | migrate {s best rest} : s.view.addressesOf p = best :: rest →
      s.view.isConnectedOver p best.address = false → s.view.isConnected p = true →
      s.isPruneLeader p = true → env.dialOk s.asked = true →
      Reconciled env p s (s.tell [.dial best.address true])
  | migrateFailed {s best rest} : s.view.addressesOf p = best :: rest →
      s.view.isConnectedOver p best.address = false → s.view.isConnected p = true →
      s.isPruneLeader p = true → env.dialOk s.asked = false →
      Reconciled env p s ((s.tell [.dial best.address false]).markFailure env p best.address)
  | wait {s best rest} : s.view.addressesOf p = best :: rest →
      s.view.isConnectedOver p best.address = false → s.view.isConnected p = true →
      s.isPruneLeader p = false → Reconciled env p s s

variable {env : Env} {p : PeerId} {s s' : SavedNetwork}

namespace SavedNetwork

/-- A peer with no address, be it for want of an entry or of records in it, is left alone. -/
theorem reconcileFrom_unknown {depth : Nat} (unknown : s.view.addressesOf p = []) :
    s.reconcileFrom env p (depth + 1) = some s := by
  rw [reconcileFrom]
  cases found : s.view.peers.get p with
  | none => rfl
  | some info =>
    rw [NetworkView.addressesOf_of_get found] at unknown
    simp only [unknown]

/-- **One call for a peer with addresses**, by what the view says of the peer and its best address.
The source asks the vector at hand once more for a connection on the best address, after it was told
by `is_connected_over` that there is none; so that branch is never taken. -/
theorem reconcileFrom_known {depth : Nat} {best : AddressMetadata} {rest : List AddressMetadata}
    (vector : s.view.addressesOf p = best :: rest) : s.reconcileFrom env p (depth + 1) =
      if s.view.isConnectedOver p best.address then
        if s.isPruneLeader p then
          some (s.tell ((rest.flatMap (·.activeConnections)).map .closeConnection))
        else some s
      else if s.view.isConnected p then
        if s.isPruneLeader p then
          if env.dialOk s.asked then some (s.tell [.dial best.address true])
          else some ((s.tell [.dial best.address false]).markFailure env p best.address)
        else some s
      else if env.dialOk s.asked then some (s.tell [.dial best.address true])
      else ((s.tell [.dial best.address false]).markFailure env p best.address).reconcileFrom env p
        depth := by
  rw [reconcileFrom]
  cases found : s.view.peers.get p with
  | none =>
    rw [NetworkView.addressesOf, found] at vector
    cases vector
  | some info =>
    have shape : info.addresses = best :: rest :=
      (NetworkView.addressesOf_of_get found).symm.trans vector
    have status : ((info.addresses.find? fun m => decide (m.address = best.address)).map
        fun m => !m.activeConnections.isEmpty).getD false =
          s.view.isConnectedOver p best.address := by
      rw [NetworkView.isConnectedOver_eq, vector, shape]
    rw [shape] at status
    simp only [shape, status]
    cases s.view.isConnectedOver p best.address <;> cases s.view.isConnected p <;>
      cases s.isPruneLeader p <;> cases env.dialOk s.asked <;> rfl

end SavedNetwork

/-- **A call that returns is a derivation.** The induction is on the depth: only the branch of a
failed dial to a peer without a connection calls itself. -/
theorem reconcileFrom_reconciled {depth : Nat} {s : SavedNetwork}
    (returned : s.reconcileFrom env p depth = some s') : Reconciled env p s s' := by
  induction depth generalizing s with
  | zero => cases returned
  | succ depth ih =>
    cases vector : s.view.addressesOf p with
    | nil =>
      rw [SavedNetwork.reconcileFrom_unknown vector] at returned
      cases returned
      exact .unknown vector
    | cons best rest =>
      rw [SavedNetwork.reconcileFrom_known vector] at returned
      cases up : s.view.isConnectedOver p best.address with
      | true =>
        rw [if_pos up] at returned
        cases leads : s.isPruneLeader p with
        | true =>
          rw [if_pos leads] at returned
          cases returned
          exact .prune vector up leads
        | false =>
          rw [if_neg (Bool.eq_false_iff.mp leads)] at returned
          cases returned
          exact .keep vector up leads
      | false =>
        rw [if_neg (Bool.eq_false_iff.mp up)] at returned
        cases connected : s.view.isConnected p with
        | false =>
          rw [if_neg (Bool.eq_false_iff.mp connected)] at returned
          cases answer : env.dialOk s.asked with
          | true =>
            rw [if_pos answer] at returned
            cases returned
            exact .dialed vector connected answer
          | false =>
            rw [if_neg (Bool.eq_false_iff.mp answer)] at returned
            exact .redial vector connected answer (ih returned)
        | true =>
          rw [if_pos connected] at returned
          cases leads : s.isPruneLeader p with
          | false =>
            rw [if_neg (Bool.eq_false_iff.mp leads)] at returned
            cases returned
            exact .wait vector up connected leads
          | true =>
            rw [if_pos leads] at returned
            cases answer : env.dialOk s.asked with
            | true =>
              rw [if_pos answer] at returned
              cases returned
              exact .migrate vector up connected leads answer
            | false =>
              rw [if_neg (Bool.eq_false_iff.mp answer)] at returned
              cases returned
              exact .migrateFailed vector up connected leads answer

/-- The law of the method itself: where it returns, it did nothing but the steps above. -/
theorem reconciled_of_returned (returned : s.reconcilePeerConnections env p = some s') :
    Reconciled env p s s' := reconcileFrom_reconciled returned

/-- A call that disconnects no peer. -/
def Call.spares (call : Call) : Prop := ∀ q, call ≠ .disconnectPeerId q

namespace SavedNetwork

/-- **From `s` to `s'` only calls that satisfy `P` are made.** -/
def Makes (P : Call → Prop) (s s' : SavedNetwork) : Prop :=
  ∃ new, s'.swarm.calls = s.swarm.calls ++ new ∧ ∀ call ∈ new, P call

namespace Makes

variable {P Q : Call → Prop} {s s' t u : SavedNetwork}

/-- Where no call is appended, every promise about the appended calls holds. -/
theorem of_eq (same : s'.swarm.calls = s.swarm.calls) : Makes P s s' :=
  ⟨[], by rw [same, List.append_nil], fun _ h => absurd h List.not_mem_nil⟩

/-- The calls that are told are exactly the ones appended. -/
theorem tell {calls : List Call} (all : ∀ call ∈ calls, P call) : Makes P s (s.tell calls) :=
  ⟨calls, rfl, all⟩

/-- The calls of two steps after each other are those of the first and then those of the second. -/
theorem trans (first : Makes P s t) (second : Makes P t u) : Makes P s u := by
  obtain ⟨new, calls, all⟩ := first
  obtain ⟨new', calls', all'⟩ := second
  refine ⟨new ++ new', by rw [calls', calls, List.append_assoc], fun call made => ?_⟩
  rcases List.mem_append.mp made with before | after
  · exact all call before
  · exact all' call after

/-- A promise about the calls may be weakened, as when one kind of call is replaced by a larger
one. -/
theorem mono (makes : Makes P s s') (weaker : ∀ call, P call → Q call) : Makes Q s s' := by
  obtain ⟨new, calls, all⟩ := makes
  exact ⟨new, calls, fun call made => weaker call (all call made)⟩

/-- The calls made are the ones behind those made before. -/
theorem of_append {new : List Call} (makes : Makes P s s')
    (calls : s'.swarm.calls = s.swarm.calls ++ new) : ∀ call ∈ new, P call := by
  obtain ⟨new', calls', all⟩ := makes
  obtain rfl := List.append_cancel_left (calls'.symm.trans calls)
  exact all

end Makes

/-- The parts of the state that only the handlers of connections, of reservations and of targets
change. -/
structure Frame (s s' : SavedNetwork) : Prop where
  localPeerId : s'.swarm.localPeerId = s.swarm.localPeerId
  relayManager : s'.relayManager = s.relayManager
  targetPeers : s'.targetPeers = s.targetPeers
  activeMode : s'.activeMode = s.activeMode
  calls : Makes Call.spares s s'

namespace Frame

/-- Nothing done is framed. -/
theorem refl (s : SavedNetwork) : Frame s s := ⟨rfl, rfl, rfl, rfl, .of_eq rfl⟩

/-- Frames compose, so a handler is framed when its steps are. -/
theorem trans {s t u : SavedNetwork} (h : Frame s t) (h' : Frame t u) : Frame s u :=
  ⟨h'.localPeerId.trans h.localPeerId, h'.relayManager.trans h.relayManager,
    h'.targetPeers.trans h.targetPeers, h'.activeMode.trans h.activeMode, h.calls.trans h'.calls⟩

/-- Calls that disconnect no peer. -/
theorem tell {s : SavedNetwork} {calls : List Call} (quiet : ∀ call ∈ calls, call.spares) :
    Frame s (s.tell calls) := ⟨rfl, rfl, rfl, rfl, .tell quiet⟩

/-- The Kademlia behaviour is asked only where there is one. Either way the call is a quiet one. -/
theorem tellKad {s : SavedNetwork} {call : Call} (quiet : call.spares) :
    Frame s (s.tellKad call) := by
  unfold SavedNetwork.tellKad
  split
  · exact .tell fun c made => List.mem_singleton.mp made ▸ quiet
  · exact .refl s

/-- An operation of the view. -/
theorem onView {s : SavedNetwork} {env : Env} {f : Readings → NetworkView → NetworkView} :
    Frame s (s.onView env f) := ⟨rfl, rfl, rfl, rfl, .of_eq rfl⟩

/-- A dial that fails at once changes the view and nothing outside it. -/
theorem markFailure {s : SavedNetwork} {env : Env} {p : PeerId} {a : Multiaddr} :
    Frame s (s.markFailure env p a) := ⟨rfl, rfl, rfl, rfl, .of_eq rfl⟩

end Frame

end SavedNetwork

open SavedNetwork

/-- **A reconcile changes only the view and the record of calls.** -/
theorem Reconciled.frame (h : Reconciled env p s s') : Frame s s' := by
  have dial : ∀ {s : SavedNetwork} {a : Multiaddr} {ok : Bool}, Frame s (s.tell [.dial a ok]) := by
    intro s a ok
    exact .tell (by simp [Call.spares])
  induction h with
  | unknown | keep | wait => exact .refl _
  | prune =>
    refine .tell fun call made => ?_
    obtain ⟨c, _, rfl⟩ := List.mem_map.mp made
    exact fun q => nofun
  | dialed | migrate => exact dial
  | redial _ _ _ _ ih => exact (dial.trans .markFailure).trans ih
  | migrateFailed => exact dial.trans .markFailure

/-- **A reconcile keeps the records of every vector**: it marks failures, and that is all. -/
theorem Reconciled.records (h : Reconciled env p s s') (q : PeerId) :
    SameRecords (s.view.addressesOf q) (s'.view.addressesOf q) := by
  induction h with
  | unknown | keep | wait | prune | dialed | migrate => exact .refl _
  | redial _ _ _ _ ih => exact SameRecords.trans (NetworkView.markFailure_records _ q) ih
  | migrateFailed => exact NetworkView.markFailure_records _ q

end Saved
