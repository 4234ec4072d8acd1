import Mathlib.Data.List.Induction
import Saved.Laws.View

/-!
# The view refines a map

What the address vectors are for, without the vectors: each peer has a set of addresses and a
partial map from connections to addresses. `Book.apply` says what each operation does to that
state, and `view_refines_book` says that the view and the state agree after every sequence of
operations, for every reading of the clock: the sorting, the first-match searches and the four
paths of `add_connection` are all invisible.
-/

namespace Saved

open Saved.Lib

/-- An operation of the view, with the clock readings it takes. -/
inductive ViewOp where
  | addAddress (now : Readings) (peer : PeerId) (addr : Multiaddr)
  | removeAddress (now : Readings) (peer : PeerId) (addr : Multiaddr)
  | addConnection (now : Readings) (peer : PeerId) (connId : ConnectionId)
      (endpoint : ConnectedPoint)
  | removeConnection (now : Readings) (peer : PeerId) (connId : ConnectionId)
  | setProtocols (peer : PeerId) (protocols : List StreamProtocol)
  | markFailure (failed : Instant) (now : Readings) (peer : PeerId) (addr : Multiaddr)
  | setRtt (peer : PeerId) (rtt : Duration)

/-- The peer an operation is about. -/
def ViewOp.peer : ViewOp → PeerId
  | addAddress _ p _ | removeAddress _ p _ | addConnection _ p _ _ | removeConnection _ p _
  | setProtocols p _ | markFailure _ _ p _ | setRtt p _ => p

/-- The view after an operation. -/
def NetworkView.apply (view : NetworkView) : ViewOp → NetworkView
  | .addAddress now p a => (view.addAddress now p a).2
  | .removeAddress now p a => view.removeAddress now p a
  | .addConnection now p c endpoint => view.addConnection now p c endpoint
  | .removeConnection now p c => view.removeConnection now p c
  | .setProtocols p protocols => view.setProtocols p protocols
  | .markFailure failed now p a => view.markFailure failed now p a
  | .setRtt p rtt => view.setRtt p rtt

/-- **The abstract state after an operation.** -/
def Book.apply (book : Book) : ViewOp → Book
  | .addAddress _ p a => Function.update book p ((book p).insert a)
  | .removeAddress _ p a => Function.update book p ((book p).erase a)
  | .addConnection _ p c endpoint => Function.update book p ((book p).assign c endpoint.remote)
  | .removeConnection _ p c => Function.update book p ((book p).release c)
  | .setProtocols _ _ => book
  | .markFailure _ _ _ _ => book
  | .setRtt _ _ => book

/-- The view after a sequence of operations, from the empty view. -/
def NetworkView.run (ops : List ViewOp) : NetworkView := ops.foldl NetworkView.apply {}

/-- The abstract state after a sequence of operations, from the empty one. -/
def Book.run (ops : List ViewOp) : Book := ops.foldl Book.apply fun _ => .empty

/-- **One operation.** -/
theorem NetworkView.apply_registers {view : NetworkView} (wf : view.WellFormed) (op : ViewOp) :
    (view.apply op).WellFormed ∧ (view.apply op).registers = Book.apply view.registers op := by
  cases op with
  | addAddress now p a => exact addAddress_registers wf
  | removeAddress now p a => exact removeAddress_registers wf
  | addConnection now p c endpoint => exact addConnection_registers wf
  | removeConnection now p c => exact removeConnection_registers wf
  | setProtocols p protocols =>
    exact registers_of_records wf fun q => .of_eq (by rw [apply, setProtocols_addresses])
  | markFailure failed now p a => exact registers_of_records wf (markFailure_records view)
  | setRtt p rtt => exact registers_of_records wf fun q => .of_eq (by rw [apply, setRtt_addresses])

/-- **A sequence of operations.** -/
theorem NetworkView.run_registers (ops : List ViewOp) :
    (run ops).WellFormed ∧ (run ops).registers = Book.run ops := by
  induction ops using List.reverseRecOn with
  | nil => exact ⟨wellFormed_empty, registers_empty⟩
  | append_singleton ops op ih =>
    obtain ⟨wf, agrees⟩ := ih
    obtain ⟨wf', step⟩ := apply_registers wf op
    unfold run Book.run at *
    rw [List.foldl_append, List.foldl_append, List.foldl_cons, List.foldl_cons, List.foldl_nil,
      List.foldl_nil]
    exact ⟨wf', by rw [step, agrees]⟩

/-- Dropping the entry of one peer is not seen at another. The refinement needs it of the map
itself, since the book also says which peers have an entry. -/
theorem NetworkView.pruneEmpty_get_ne {view : NetworkView} {p q : PeerId} (h : q ≠ p) :
    (view.pruneEmpty p).peers.get q = view.peers.get q := by
  unfold pruneEmpty
  split
  · split
    · exact HashMap.get_remove_ne _ h
    · rfl
  · rfl

/-- An operation leaves every other peer's entry as it was. -/
theorem NetworkView.apply_get_ne {view : NetworkView} {op : ViewOp} {q : PeerId}
    (h : q ≠ op.peer) : (view.apply op).peers.get q = view.peers.get q := by
  cases op with
  | addAddress now p a => exact HashMap.get_entryOrDefault_ne _ h _ _
  | addConnection now p c endpoint => exact HashMap.get_entryOrDefault_ne _ h _ _
  | setProtocols p protocols => exact HashMap.get_entryOrDefault_ne _ h _ _
  | markFailure failed now p a => exact HashMap.get_modify_ne _ h _
  | setRtt p rtt => exact HashMap.get_modify_ne _ h _
  | removeAddress now p a =>
    rw [apply, removeAddress]
    split
    · exact (pruneEmpty_get_ne h).trans (HashMap.get_modify_ne _ h _)
    · rfl
  | removeConnection now p c =>
    rw [apply, removeConnection]
    split
    · exact (pruneEmpty_get_ne h).trans (HashMap.get_modify_ne _ h _)
    · rfl

/-- **The address vectors refine a map.** After every sequence of operations: no address is stored
twice, no connection is stored twice, every stored class is the address's class, the known
addresses are the abstract ones, `get_connection_address` is the abstract map, a peer is connected
when its map is not empty and connected over an address when the map takes some connection there,
`add_address` answers whether the address was absent, and an operation on one peer leaves the
entry of every other as it was. -/
theorem view_refines_book (ops : List ViewOp) (p : PeerId) :
    (((NetworkView.run ops).addressesOf p).map (·.address)).Nodup ∧
    (((NetworkView.run ops).addressesOf p).flatMap (·.activeConnections)).Nodup ∧
    (∀ m ∈ (NetworkView.run ops).addressesOf p,
      (m.scope, m.transport) = classifyAddr m.address) ∧
    (∀ a, a ∈ ((NetworkView.run ops).addressesOf p).map (·.address) ↔ a ∈ (Book.run ops p).slots) ∧
    (∀ c, (NetworkView.run ops).getConnectionAddress p c = (Book.run ops p).slotOf c) ∧
    ((NetworkView.run ops).isConnected p = true ↔ ∃ c a, (Book.run ops p).slotOf c = some a) ∧
    (∀ a, (NetworkView.run ops).isConnectedOver p a = true ↔
      ∃ c, (Book.run ops p).slotOf c = some a) ∧
    (∀ now a, ((NetworkView.run ops).addAddress now p a).1 = true ↔
      a ∉ (Book.run ops p).slots) ∧
    (∀ op : ViewOp, p ≠ op.peer →
      ((NetworkView.run ops).apply op).peers.get p = (NetworkView.run ops).peers.get p) := by
  obtain ⟨wf, agrees⟩ := NetworkView.run_registers ops
  rw [← agrees]
  refine ⟨(wf p).addresses_nodup, ?_, (wf p).classified, fun a => Iff.rfl,
    fun c => NetworkView.getConnectionAddress_eq, ?_, fun a => NetworkView.isConnectedOver_iff wf,
    fun now a => NetworkView.addAddress_fst, fun op => NetworkView.apply_get_ne⟩
  · rw [← map_fst_conns]
    exact (wf p).connections_nodup
  · rw [NetworkView.isConnected_iff wf]
    exact exists_comm

end Saved
