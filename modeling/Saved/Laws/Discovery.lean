import Mathlib.Data.List.Forall2
import Saved.Laws.Backoff
import Saved.Laws.Ranking

/-!
# Order of discovery

What a peer's vector holds is its register and its backoffs, and the key of the sort tells the
addresses apart: two well-formed vectors with the same register and the same backoffs, sorted at
the same reading of the clock, are the same vector up to the order of the connections of an address
(`sameEntries_of_sorted`).

Calls of `add_address` and `add_connection` act on register and backoffs, where those with
different connection ids commute. So the order in which addresses and connections are discovered
leaves no trace.
-/

namespace Saved

open Saved.Lib

variable {now : Instant} {readings : Readings} {p : PeerId} {l l' : List AddressMetadata}
  {view view' : NetworkView}

/-- Two entries that differ in the order of their connections at most. -/
structure SameEntry (m n : AddressMetadata) : Prop where
  address : m.address = n.address
  transport : m.transport = n.transport
  scope : m.scope = n.scope
  errCount : m.errCount = n.errCount
  lastErr : m.lastErr = n.lastErr
  activeConnections : m.activeConnections.Perm n.activeConnections

/-! ## A vector is determined by what it holds -/

/-- The connections of a record are read off the register. -/
theorem mem_activeConnections_iff (wf : Wf l) {m : AddressMetadata} (hm : m ∈ l)
    {c : ConnectionId} : c ∈ m.activeConnections ↔ (register l).slotOf c = some m.address := by
  rw [wf.slotOf_iff, mem_conns]
  constructor
  · exact fun hc => ⟨m, hm, rfl, hc⟩
  · rintro ⟨n, hn, same, hc⟩
    exact wf.eq_of_address hn hm same ▸ hc

/-- No record lists a connection twice, since the whole vector does not. -/
theorem activeConnections_nodup (wf : Wf l) {m : AddressMetadata} (hm : m ∈ l) :
    m.activeConnections.Nodup := by
  have all := wf.connections_nodup
  rw [map_fst_conns] at all
  exact (List.nodup_flatMap.mp all).1 m hm

/-- The key of an entry, from its address and its backoff. -/
def addressKey (now : Instant) (f : Multiaddr → Option Backoff) (a : Multiaddr) :
    Bool ×ₗ Nat ×ₗ Nat ×ₗ Multiaddr :=
  toLex ((({ lastErr := (f a).bind (·.lastErr), errCount := ((f a).map (·.errCount)).getD 0 } :
    AddressMetadata).isInCooldown now), a.rankKey)

/-- The sort key of a record is a function of its address and of the cooldown of that address. This
is where the vector's order gets to depend on the register and the cooldowns alone. -/
theorem sortKey_eq (wf : Wf l) {m : AddressMetadata} (hm : m ∈ l) :
    m.sortKey now = addressKey now (backoffsOf l) m.address := by
  have stored : backoffsOf l m.address = some m.backoff :=
    (backoffsOf_eq_some wf).mpr ⟨m, hm, rfl, rfl⟩
  rw [sortKey_rank wf hm, addressKey, stored]
  rfl

/-- Addresses that differ have keys that differ, so the sort has one outcome. -/
theorem addressKey_injective (f : Multiaddr → Option Backoff) :
    Function.Injective (addressKey now f) := fun _ _ same =>
  Multiaddr.rankKey_injective (congrArg (fun k => (ofLex k).2) same)

/-- The addresses of a sorted vector are sorted by a key that the backoffs determine. -/
theorem addresses_sorted (wf : Wf l)
    (sorted : SortedAt now l) :
    (l.map (·.address)).Pairwise fun a b =>
      addressKey now (backoffsOf l) a ≤ addressKey now (backoffsOf l) b := by
  rw [List.pairwise_map]
  refine sorted.imp_of_mem fun hm hn le => ?_
  rwa [sortKey_eq wf hm, sortKey_eq wf hn] at le

/-- **A sorted vector is determined by its register and its backoffs**, up to the order of the
connections of an address. -/
theorem sameEntries_of_sorted (wf : Wf l) (wf' : Wf l')
    (sorted : SortedAt now l) (sorted' : SortedAt now l')
    (registers : register l = register l') (backoffs : backoffsOf l = backoffsOf l') :
    List.Forall₂ SameEntry l l' := by
  have perm : (l.map (·.address)).Perm (l'.map (·.address)) :=
    (List.perm_ext_iff_of_nodup wf.addresses_nodup wf'.addresses_nodup).mpr fun a => by
      rw [← mem_slots, ← mem_slots, registers]
  -- The addresses are the same set, and the keys order them in one way only.
  have column : l.map (·.address) = l'.map (·.address) := by
    refine List.Perm.eq_of_pairwise (fun a b _ _ le ge => ?_) (addresses_sorted wf sorted)
      (backoffs ▸ addresses_sorted wf' sorted') perm
    exact addressKey_injective _ (le_antisymm le ge)
  have aligned : List.Forall₂ (fun m n : AddressMetadata => m.address = n.address) l l' := by
    rw [← List.forall₂_eq_eq_eq, List.forall₂_map_left_iff, List.forall₂_map_right_iff] at column
    exact column
  rw [List.forall₂_iff_zip] at aligned ⊢
  refine ⟨aligned.1, fun {m n} both => ?_⟩
  obtain ⟨hm, hn⟩ := List.of_mem_zip both
  have same := aligned.2 both
  -- Position by position the rest of the record is read off the address.
  have backoff : m.backoff = n.backoff := by
    have here := (backoffsOf_eq_some wf).mpr ⟨m, hm, rfl, rfl⟩
    have there := (backoffsOf_eq_some wf').mpr ⟨n, hn, same.symm, rfl⟩
    exact Option.some.inj (here.symm.trans ((congrFun backoffs _).trans there))
  have classes := (wf.classified m hm).trans ((congrArg classifyAddr same).trans
    (wf'.classified n hn).symm)
  rw [Prod.mk.injEq] at classes
  simp only [AddressMetadata.backoff, Backoff.mk.injEq] at backoff
  refine ⟨same, classes.2, classes.1, backoff.1, backoff.2, ?_⟩
  refine (List.perm_ext_iff_of_nodup (activeConnections_nodup wf hm)
    (activeConnections_nodup wf' hn)).mpr fun c => ?_
  rw [mem_activeConnections_iff wf hm, mem_activeConnections_iff wf' hn, registers, same]

/-! ## The calls commute -/

/-- A call that adds to what is known of a peer. -/
inductive Discovery where
  | address (addr : Multiaddr)
  | connection (connId : ConnectionId) (endpoint : ConnectedPoint)

namespace Discovery

/-- The operation of the view. -/
def op (now : Readings) (p : PeerId) : Discovery → ViewOp
  | address addr => .addAddress now p addr
  | connection connId endpoint => .addConnection now p connId endpoint

/-- The connection a call is about. -/
def connId : Discovery → Option ConnectionId
  | address _ => none
  | connection connId _ => some connId

/-- Two calls that are about different connections, if they are about connections. -/
def Apart (x y : Discovery) : Prop := ∀ c, x.connId = some c → y.connId ≠ some c

/-- Being apart does not name a first and a second call. -/
theorem Apart.symm : Std.Symm Apart := ⟨fun _ _ apart c hy hx => apart c hx hy⟩

/-- In a list with distinct connection ids, different calls are about different connections. -/
theorem apart_of_mem {calls : List Discovery} (distinct : (calls.filterMap connId).Nodup)
    {x y : Discovery} (hx : x ∈ calls) (hy : y ∈ calls) (ne : x ≠ y) : Apart x y := by
  have pairs : calls.Pairwise Apart := (List.pairwise_filterMap.mp distinct).imp
    fun {x y} apart c hx hy => apart c hx c hy rfl
  have := Apart.symm
  exact pairs.forall hx hy ne

/-- **The registers do not see the order.** -/
theorem apply_registers_comm {x y : Discovery} (apart : Apart x y) (book : Book) :
    Book.apply (Book.apply book (x.op readings p)) (y.op readings p) =
      Book.apply (Book.apply book (y.op readings p)) (x.op readings p) := by
  cases x with
  | address a =>
    cases y with
    | address b =>
      simp only [op, Book.apply, Function.update_self, Function.update_idem, Register.insert_comm]
    | connection d e =>
      simp only [op, Book.apply, Function.update_self, Function.update_idem,
        Register.assign_insert_comm]
  | connection c e =>
    cases y with
    | address b =>
      simp only [op, Book.apply, Function.update_self, Function.update_idem,
        Register.assign_insert_comm]
    | connection d e' =>
      have ne : c ≠ d := fun same => apart c rfl (congrArg some same.symm)
      simp only [op, Book.apply, Function.update_self, Function.update_idem,
        Register.assign_comm ne]

/-- What a call does to the backoffs of its peer. -/
def clears : Discovery → (Multiaddr → Option Backoff) → Multiaddr → Option Backoff
  | address a, f => Function.update f a (some ((f a).getD .clear))
  | connection _ endpoint, f => Function.update f endpoint.remote (some .clear)

/-- What a discovery call does to the cooldowns of its peer. -/
theorem apply_op_backoffs (x : Discovery) (t : Backoffs) :
    Backoffs.apply t (x.op readings p) = Function.update t p (x.clears (t p)) := by
  cases x <;> rfl

/-- An address is inserted without a failure, and a connection leaves it without one, so the last
of two calls for one address says nothing new. -/
theorem clears_comm (x y : Discovery) (f : Multiaddr → Option Backoff) :
    y.clears (x.clears f) = x.clears (y.clears f) := by
  have other : ∀ {a b : Multiaddr} {u v : Option Backoff}, a ≠ b →
      Function.update (Function.update f a u) b v = Function.update (Function.update f b v) a u :=
    fun apart => Function.update_comm apart _ _ f
  -- They can disagree on one address only, and there a connection clears it first or last.
  cases x with
  | address a =>
    cases y with
    | address b =>
      by_cases same : a = b
      · subst same; rfl
      · simp only [clears, Function.update_of_ne same, Function.update_of_ne (Ne.symm same)]
        exact other same
    | connection d e =>
      by_cases same : a = e.remote
      · subst same
        simp only [clears, Function.update_self, Function.update_idem, Option.getD_some]
      · simp only [clears, Function.update_of_ne same]
        exact other same
  | connection c e =>
    cases y with
    | address b =>
      by_cases same : e.remote = b
      · subst same
        simp only [clears, Function.update_self, Function.update_idem, Option.getD_some]
      · simp only [clears, Function.update_of_ne (Ne.symm same)]
        exact other same
    | connection d e' =>
      by_cases same : e.remote = e'.remote
      · simp only [clears, same]
      · exact other same

/-- **The backoffs do not see the order.** -/
theorem apply_backoffs_comm (x y : Discovery) (t : Backoffs) :
    Backoffs.apply (Backoffs.apply t (x.op readings p)) (y.op readings p) =
      Backoffs.apply (Backoffs.apply t (y.op readings p)) (x.op readings p) := by
  simp only [apply_op_backoffs, Function.update_self, Function.update_idem, clears_comm x y]

/-- A call in which the clock stands still leaves the vector of its peer sorted. -/
theorem sorted_op (large : Sorter AddressMetadata) (x : Discovery) (view : NetworkView) :
    SortedAt now ((view.apply (x.op (.still large now) p)).addressesOf p) := by
  have still : (Readings.still large now).Still := fun _ => rfl
  cases x with
  | address a => exact NetworkView.addAddress_resorted.sorted still.steady
  | connection c e => exact NetworkView.addConnection_resorted.sorted still.steady

end Discovery

/-- **The order of discovery does not matter.** From every reachable view, at one reading of the
clock, calls of `add_address` and `add_connection` for a peer with distinct connection ids leave
the same vector in any two orders, position by position, with the connections of each address up
to their order. -/
theorem discovery_order (ops : List ViewOp) (large : Sorter AddressMetadata) (now : Instant)
    (p : PeerId) {calls calls' : List Discovery} (perm : calls.Perm calls')
    (distinct : (calls.filterMap Discovery.connId).Nodup) :
    List.Forall₂ SameEntry
      ((NetworkView.run (ops ++ calls.map (Discovery.op (.still large now) p))).addressesOf p)
      ((NetworkView.run (ops ++ calls'.map (Discovery.op (.still large now) p))).addressesOf
        p) := by
  let op : Discovery → ViewOp := Discovery.op (.still large now) p
  obtain ⟨wf, registers⟩ := NetworkView.run_registers (ops ++ calls.map op)
  obtain ⟨wf', registers'⟩ := NetworkView.run_registers (ops ++ calls'.map op)
  -- Neither the registers nor the backoffs depend on the order, and they decide a sorted vector.
  have commute : ∀ x ∈ calls, ∀ y ∈ calls, ∀ book : Book,
      Book.apply (Book.apply book (op x)) (op y) = Book.apply (Book.apply book (op y)) (op x) := by
    intro x hx y hy book
    by_cases same : x = y
    · rw [same]
    · exact Discovery.apply_registers_comm (Discovery.apart_of_mem distinct hx hy same) book
  have sameBook : Book.run (ops ++ calls.map op) = Book.run (ops ++ calls'.map op) := by
    unfold Book.run
    rw [List.foldl_append, List.foldl_append, List.foldl_map, List.foldl_map]
    exact perm.foldl_eq' commute _
  have sameBackoffs : (NetworkView.run (ops ++ calls.map op)).backoffs =
      (NetworkView.run (ops ++ calls'.map op)).backoffs := by
    rw [NetworkView.run_backoffs, NetworkView.run_backoffs, List.foldl_append, List.foldl_append,
      List.foldl_map, List.foldl_map]
    exact perm.foldl_eq' (fun x _ y _ t => Discovery.apply_backoffs_comm x y t) _
  have sorted : ∀ {calls : List Discovery}, calls ≠ [] →
      SortedAt now ((NetworkView.run (ops ++ calls.map op)).addressesOf p) := by
    intro calls some
    obtain ⟨before, last, rfl⟩ := List.eq_nil_or_concat calls |>.resolve_left some
    unfold NetworkView.run
    rw [List.concat_eq_append, List.map_append, ← List.append_assoc, List.foldl_append]
    exact Discovery.sorted_op large last _
  by_cases none : calls = []
  · subst none
    rw [List.nil_perm.mp perm]
    exact List.forall₂_same.mpr fun m _ => ⟨rfl, rfl, rfl, rfl, rfl, .refl _⟩
  · have none' : calls' ≠ [] := fun empty => none (List.perm_nil.mp (empty ▸ perm))
    refine sameEntries_of_sorted (wf p) (wf' p) (sorted none) (sorted none') ?_
      (congrFun sameBackoffs p)
    exact congrFun (registers.trans (sameBook.trans registers'.symm)) p

/-- An address and a connection over another, in both orders. -/
theorem discovery_order_two : List.Forall₂ SameEntry
    ((NetworkView.run [.addAddress .zero ⟨[1]⟩ (lanAddr 2),
      .addConnection .zero ⟨[1]⟩ ⟨0⟩ (.dialer (lanAddr 1))]).addressesOf ⟨[1]⟩)
    ((NetworkView.run [.addConnection .zero ⟨[1]⟩ ⟨0⟩ (.dialer (lanAddr 1)),
      .addAddress .zero ⟨[1]⟩ (lanAddr 2)]).addressesOf ⟨[1]⟩) := by
  have perm : [Discovery.address (lanAddr 2), .connection ⟨0⟩ (.dialer (lanAddr 1))].Perm
      [.connection ⟨0⟩ (.dialer (lanAddr 1)), .address (lanAddr 2)] := .swap _ _ []
  exact discovery_order [] .insertion 0 ⟨[1]⟩ perm (by decide)

end Saved
