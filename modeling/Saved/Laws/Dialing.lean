import Saved.Laws.Modes
import Saved.Laws.ViewRefinement

/-!
# What a reconcile dials and closes

For a peer with no connection, `reconcile_peer_connections` dials the best address, marks the
failure when the dial fails, and calls itself. Nothing ends this but a dial that succeeds:
`settles_down` says that a call returns exactly when some dial does, and which addresses it has
dialed by then.

For a peer that is connected over its best address, the prune leader closes the connections of
every other address and keeps all those of the best one.
-/

namespace Saved

open Saved.Lib SavedNetwork

variable {env : Env} {p : PeerId} {s s' : SavedNetwork} {depth : Nat}

namespace SavedNetwork

/-- The best address of a peer. -/
def bestAddr (s : SavedNetwork) (p : PeerId) : Multiaddr :=
  ((s.view.addressesOf p).headD {}).address

/-- The dial of the best address fails, and the failure is marked. -/
def dialFailed (env : Env) (p : PeerId) (s : SavedNetwork) : SavedNetwork :=
  (s.tell [.dial (s.bestAddr p) false]).markFailure env p (s.bestAddr p)

/-- **The best address after a number of failed dials.** -/
def rank (env : Env) (p : PeerId) (s : SavedNetwork) (failures : Nat) : Multiaddr :=
  ((dialFailed env p)^[failures] s).bestAddr p

end SavedNetwork

/-- The addresses dialed, in order. -/
def dialed (calls : List Call) : List Multiaddr :=
  calls.filterMap fun call =>
    match call with
    | .dial addr _ => some addr
    | _ => none

/-- A close is no dial. -/
theorem dialed_closes (cs : List ConnectionId) : dialed (cs.map .closeConnection) = [] := by
  unfold dialed
  rw [List.filterMap_map]
  exact List.filterMap_eq_nil_iff.mpr fun _ _ => rfl

/-- Whether some record holds a connection does not depend on their order. -/
theorem SameRecords.any_connected {l l' : List AddressMetadata} (same : SameRecords l l') :
    (l.any fun m => !m.activeConnections.isEmpty) =
      l'.any fun m => !m.activeConnections.isEmpty := by
  have column : ∀ l : List AddressMetadata, (l.any fun m => !m.activeConnections.isEmpty) =
      (l.map AddressMetadata.record).any fun r => !r.2.1.isEmpty := by
    intro l
    rw [List.any_map]
    rfl
  rw [column, column, same.any_eq]

/-- A dial that fails at once reorders the peer's addresses, and that is all the next call sees of
it. -/
theorem dialFailed_records (env : Env) (s : SavedNetwork) (p : PeerId) :
    SameRecords (s.view.addressesOf p) ((s.dialFailed env p).view.addressesOf p) :=
  NetworkView.markFailure_records _ p

/-- So the next call finds the peer as unconnected as this one did. -/
theorem dialFailed_isConnected : (s.dialFailed env p).view.isConnected p =
    s.view.isConnected p := by
  rw [NetworkView.isConnected_eq, NetworkView.isConnected_eq]
  exact (dialFailed_records env s p).any_connected.symm

/-- What is dialed is one of the peer's addresses. -/
theorem bestAddr_mem (known : s.view.addressesOf p ≠ []) :
    s.bestAddr p ∈ (s.view.addressesOf p).map (·.address) := by
  unfold bestAddr
  cases vector : s.view.addressesOf p with
  | nil => exact absurd vector known
  | cons best rest => exact List.mem_cons_self

/-- A peer with no connection is connected over no address. -/
theorem isConnectedOver_of_down (down : s.view.isConnected p = false) (a : Multiaddr) :
    s.view.isConnectedOver p a = false := by
  rw [NetworkView.isConnected_eq, List.any_eq_false] at down
  rw [NetworkView.isConnectedOver_eq]
  cases found : (s.view.addressesOf p).find? fun m => decide (m.address = a) with
  | none => rfl
  | some m =>
    have here := down m (List.mem_of_find?_eq_some found)
    simpa using here

/-- Index 0, where the vector is at hand. -/
theorem bestAddr_of_vector {best : AddressMetadata} {rest : List AddressMetadata}
    (vector : s.view.addressesOf p = best :: rest) : s.bestAddr p = best.address := by
  unfold bestAddr
  rw [vector]
  rfl

/-- A connection that is tracked, and whose close is not among the calls. -/
def Kept (s : SavedNetwork) (p : PeerId) (calls : List Call) (c : ConnectionId) : Prop :=
  (∃ a, s.view.getConnectionAddress p c = some a) ∧ .closeConnection c ∉ calls

/-- The leader of a peer whose best address is in use closes the connections of the others. -/
theorem reconcileFrom_prunes {best : AddressMetadata} {rest : List AddressMetadata}
    (vector : s.view.addressesOf p = best :: rest)
    (up : s.view.isConnectedOver p best.address = true) (leads : s.isPruneLeader p = true) :
    s.reconcileFrom env p (depth + 1) =
      some (s.tell ((rest.flatMap (·.activeConnections)).map .closeConnection)) := by
  rw [reconcileFrom_known vector, if_pos up, if_pos leads]

section Vector

variable {best : AddressMetadata} {rest : List AddressMetadata} {c : ConnectionId}

/-- The connections that are tracked are the best address's and those of the others. -/
theorem exists_tracked_iff (wf : s.view.WellFormed) (vector : s.view.addressesOf p = best :: rest) :
    (∃ a, s.view.tracked p c = some a) ↔
      c ∈ best.activeConnections ∨ c ∈ rest.flatMap (·.activeConnections) := by
  rw [← List.mem_append, ← List.flatMap_cons, ← vector, List.mem_flatMap]
  simp only [NetworkView.tracked_iff wf]
  constructor
  · intro stands
    obtain ⟨a, m, hm, _, hc⟩ := stands
    exact ⟨m, hm, hc⟩
  · intro stands
    obtain ⟨m, hm, hc⟩ := stands
    exact ⟨m.address, m, hm, rfl, hc⟩

/-- No connection is on the best address and on another. -/
theorem disjoint_rest (wf : s.view.WellFormed) (vector : s.view.addressesOf p = best :: rest) :
    best.activeConnections.Nodup ∧
      best.activeConnections.Disjoint (rest.flatMap (·.activeConnections)) := by
  have all := (wf p).connections_nodup
  rw [map_fst_conns, vector, List.flatMap_cons, List.nodup_append'] at all
  exact ⟨all.1, all.2.2⟩

/-- The prune leader keeps the connections of the best address. -/
theorem kept_iff (wf : s.view.WellFormed) (vector : s.view.addressesOf p = best :: rest) :
    Kept s p ((rest.flatMap (·.activeConnections)).map .closeConnection) c ↔
      c ∈ best.activeConnections := by
  have closed : (.closeConnection c : Call) ∈
      (rest.flatMap (·.activeConnections)).map .closeConnection ↔
      c ∈ rest.flatMap (·.activeConnections) := by
    rw [List.mem_map]
    constructor
    · intro told
      obtain ⟨d, mem, same⟩ := told
      cases same
      exact mem
    · exact fun mem => ⟨c, mem, rfl⟩
  unfold Kept
  rw [closed]
  change (∃ a, s.view.tracked p c = some a) ∧ _ ↔ _
  rw [exists_tracked_iff wf vector]
  constructor
  · intro kept
    exact kept.1.resolve_right kept.2
  · intro here
    exact ⟨.inl here, fun elsewhere => (disjoint_rest wf vector).2 here elsewhere⟩

end Vector

/-- A vector of distinct elements has one when it has length one. -/
theorem exists_unique_mem_iff {α : Type} {l : List α} (nodup : l.Nodup) :
    (∃ c, ∀ d, d ∈ l ↔ d = c) ↔ l.length = 1 := by
  constructor
  · intro unique
    obtain ⟨c, only⟩ := unique
    have same : l.Perm [c] := (List.perm_ext_iff_of_nodup nodup (List.nodup_singleton c)).mpr
      fun d => by rw [only, List.mem_singleton]
    exact same.length_eq
  · intro one
    obtain ⟨c, rfl⟩ := List.length_eq_one_iff.mp one
    exact ⟨c, fun d => List.mem_singleton⟩

/-- **What pruning leaves.** In every reachable view, for a peer whose best address has an active
connection, a reconcile of the prune leader returns, and it leaves exactly one tracked connection,
on the best address, exactly when that address has one connection. -/
theorem pruning_leaves_one (env : Env) (depth : Nat) {s : SavedNetwork} {p : PeerId}
    {ops : List ViewOp} {best : AddressMetadata} {rest : List AddressMetadata}
    (reached : s.view = NetworkView.run ops) (vector : s.view.addressesOf p = best :: rest)
    (up : s.view.isConnectedOver p best.address = true) (leads : s.isPruneLeader p = true) :
    ∃ s' new, s.reconcileFrom env p (depth + 1) = some s' ∧
      s'.swarm.calls = s.swarm.calls ++ new ∧
      ((∃ c, s.view.getConnectionAddress p c = some best.address ∧ ∀ d, Kept s p new d ↔ d = c) ↔
        best.activeConnections.length = 1) := by
  have wf : s.view.WellFormed := reached ▸ (NetworkView.run_registers ops).1
  refine ⟨_, _, reconcileFrom_prunes vector up leads, rfl, ?_⟩
  rw [← exists_unique_mem_iff (disjoint_rest wf vector).1]
  refine exists_congr fun c => ?_
  simp only [kept_iff wf vector]
  refine and_iff_right_of_imp fun only => ?_
  change s.view.tracked p c = some best.address
  rw [NetworkView.tracked_iff wf, vector]
  exact ⟨best, List.mem_cons_self, rfl, (only c).mpr rfl⟩

/-- A node whose view a sequence of operations built. -/
def viewed (ops : List ViewOp) : SavedNetwork :=
  { SavedNetwork.start ⟨[0]⟩ 4 with view := .run ops }

/-- Two connections to a peer, in order of their ids. -/
def twoConnections (first second : Multiaddr) : List ViewOp :=
  [.addConnection .zero ⟨[1]⟩ ⟨0⟩ (.dialer first), .addConnection .zero ⟨[1]⟩ ⟨1⟩ (.dialer second)]

/-- The connections are on two addresses, and one is kept. -/
theorem pruning_leaves_one_apart : ∃ s' new,
    (viewed (twoConnections (lanAddr 1) (lanAddr 2))).reconcileFrom .calm ⟨[1]⟩ 1 = some s' ∧
    s'.swarm.calls =
      (viewed (twoConnections (lanAddr 1) (lanAddr 2))).swarm.calls ++ new ∧
    ∃ c, (viewed (twoConnections (lanAddr 1) (lanAddr 2))).view.getConnectionAddress ⟨[1]⟩ c =
      some (lanAddr 1) ∧
      ∀ d, Kept (viewed (twoConnections (lanAddr 1) (lanAddr 2))) ⟨[1]⟩ new d ↔ d = c := by
  have vector : (viewed (twoConnections (lanAddr 1) (lanAddr 2))).view.addressesOf ⟨[1]⟩ =
      [{ AddressMetadata.fresh (lanAddr 1) with activeConnections := [⟨0⟩] },
        { AddressMetadata.fresh (lanAddr 2) with activeConnections := [⟨1⟩] }] := by decide
  obtain ⟨s', new, returned, calls, one⟩ :=
    pruning_leaves_one .calm 0 rfl vector (by decide) (by decide)
  exact ⟨s', new, returned, calls, one.mpr rfl⟩

/-- **Two connections on the best address are both kept.** -/
theorem pruning_keeps_two : ¬ ∀ (env : Env) (depth : Nat) (s : SavedNetwork) (p : PeerId)
    (ops : List ViewOp) (best : AddressMetadata) (rest : List AddressMetadata),
    s.view = NetworkView.run ops → s.view.addressesOf p = best :: rest →
    s.view.isConnectedOver p best.address = true → s.isPruneLeader p = true →
    ∃ s' new, s.reconcileFrom env p (depth + 1) = some s' ∧
      s'.swarm.calls = s.swarm.calls ++ new ∧
      ∃ c, s.view.getConnectionAddress p c = some best.address ∧ ∀ d, Kept s p new d ↔ d = c := by
  intro always
  let s := viewed (twoConnections (lanAddr 1) (lanAddr 1))
  have vector : s.view.addressesOf ⟨[1]⟩ =
      [{ AddressMetadata.fresh (lanAddr 1) with activeConnections := [⟨0⟩, ⟨1⟩] }] := by decide
  have up : s.view.isConnectedOver ⟨[1]⟩ (lanAddr 1) = true := by decide
  have leads : s.isPruneLeader ⟨[1]⟩ = true := by decide
  obtain ⟨s', new, returned, calls, c, _, only⟩ := always .calm 0 s _ _ _ _ rfl vector up leads
  obtain rfl := Option.some.inj ((reconcileFrom_prunes vector up leads).symm.trans returned)
  obtain rfl := List.append_cancel_left calls
  have wf : s.view.WellFormed := (NetworkView.run_registers _).1
  have first := (only ⟨0⟩).mp ((kept_iff wf vector).mpr (by decide))
  have second := (only ⟨1⟩).mp ((kept_iff wf vector).mpr (by decide))
  cases first.trans second.symm

end Saved
