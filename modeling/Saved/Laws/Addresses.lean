import Mathlib.Data.List.Flatten
import Saved.Lib.Register
import Saved.Laws.Readings

/-!
# One peer's addresses are a register

What the vector of a peer records about connections is a register: its slots are the known
addresses, and a connection stands on the address that lists it. Backoff and order are not part
of it, so a resort and a change of backoff leave the register alone (`register_of_records`).

`Wf` is what makes the first-match lookups and removals of `view.rs` right: no address twice, no
connection twice, and the class of each address the one `classify_addr` gives. Each operation
keeps it and acts on the register as the operation its name says.
-/

namespace Saved

open Saved.Lib

/-! ## Records -/

/-- What an entry records, backoff aside. -/
def AddressMetadata.record (m : AddressMetadata) :
    Multiaddr × List ConnectionId × NetScope × Transport :=
  (m.address, m.activeConnections, m.scope, m.transport)

/-- The connections of a vector, each with the address that lists it. -/
def conns (l : List AddressMetadata) : List (ConnectionId × Multiaddr) :=
  l.flatMap fun m => m.activeConnections.map fun c => (c, m.address)

/-- **A well-formed vector.** -/
structure Wf (l : List AddressMetadata) : Prop where
  addresses_nodup : (l.map (·.address)).Nodup
  connections_nodup : ((conns l).map Prod.fst).Nodup
  classified : ∀ m ∈ l, (m.scope, m.transport) = classifyAddr m.address

/-- Two vectors with the same records, in any order. -/
def SameRecords (l l' : List AddressMetadata) : Prop :=
  (l.map AddressMetadata.record).Perm (l'.map AddressMetadata.record)

/-- The pairs of a vector are its connections, each with the address of the record that holds it. -/
theorem mem_conns {l : List AddressMetadata} {c : ConnectionId} {a : Multiaddr} :
    (c, a) ∈ conns l ↔ ∃ m ∈ l, m.address = a ∧ c ∈ m.activeConnections := by
  simp only [conns, List.mem_flatMap, List.mem_map, Prod.mk.injEq]
  constructor
  · rintro ⟨m, hm, d, hd, rfl, rfl⟩
    exact ⟨m, hm, rfl, hd⟩
  · rintro ⟨m, hm, rfl, hc⟩
    exact ⟨m, hm, c, hc, rfl, rfl⟩

/-- Without the addresses, the pairs are the connection lists of the records one after the other.
The uniqueness of connections in `Wf` is stated over this list. -/
theorem map_fst_conns (l : List AddressMetadata) :
    (conns l).map Prod.fst = l.flatMap (·.activeConnections) := by
  rw [conns, List.map_flatMap]
  congr 1
  funext m
  rw [List.map_map]
  exact List.map_id _

/-- The empty vector is well formed. -/
theorem wf_nil : Wf [] := ⟨List.nodup_nil, List.nodup_nil, fun _ h => absurd h List.not_mem_nil⟩

/-- In a well-formed vector the address tells the entry. -/
theorem Wf.eq_of_address {l : List AddressMetadata} (wf : Wf l) {m n : AddressMetadata}
    (hm : m ∈ l) (hn : n ∈ l) (same : m.address = n.address) : m = n :=
  List.inj_on_of_nodup_map wf.addresses_nodup hm hn same

/-- In a well-formed vector a connection stands on one address. -/
theorem Wf.conn_unique {l : List AddressMetadata} (wf : Wf l) {c : ConnectionId}
    {a b : Multiaddr} (ha : (c, a) ∈ conns l) (hb : (c, b) ∈ conns l) : a = b :=
  congrArg Prod.snd (List.inj_on_of_nodup_map wf.connections_nodup ha hb rfl)

namespace SameRecords

variable {l l' : List AddressMetadata}

/-- Sorting is a permutation, so it keeps the records as a whole. -/
theorem of_perm (h : l.Perm l') : SameRecords l l' := h.map _

/-- The operations compose several steps on one vector, each of which keeps its records. -/
theorem trans {l'' : List AddressMetadata} (h : SameRecords l l') (h' : SameRecords l' l'') :
    SameRecords l l'' := List.Perm.trans h h'

/-- The addresses are part of what the records keep, up to their order. -/
theorem addresses (h : SameRecords l l') : (l.map (·.address)).Perm (l'.map (·.address)) := by
  have := h.map Prod.fst
  rwa [List.map_map, List.map_map] at this

theorem conns (h : SameRecords l l') : (conns l).Perm (conns l') := by
  have := List.Perm.flatMap_right
    (fun r : Multiaddr × List ConnectionId × NetScope × Transport => r.2.1.map fun c => (c, r.1)) h
  rwa [List.flatMap_map, List.flatMap_map] at this

/-- Well-formedness speaks of addresses and connections only, so it does not see counters, deadlines
or the order. -/
theorem wf (h : SameRecords l l') (wf : Wf l) : Wf l' := by
  refine ⟨h.addresses.nodup_iff.mp wf.addresses_nodup,
    (h.conns.map Prod.fst).nodup_iff.mp wf.connections_nodup, fun m hm => ?_⟩
  obtain ⟨n, hn, same⟩ := List.mem_map.mp (h.mem_iff.mpr (List.mem_map_of_mem hm))
  have classified := wf.classified n hn
  simp only [AddressMetadata.record, Prod.mk.injEq] at same
  obtain ⟨address, -, scope, transport⟩ := same
  rwa [address, scope, transport] at classified

end SameRecords

/-! ## The register -/

/-- **The register of a vector.** -/
def register (l : List AddressMetadata) : Register Multiaddr ConnectionId where
  slots := {a | a ∈ l.map (·.address)}
  slotOf c := (l.find? fun m => decide (c ∈ m.activeConnections)).map (·.address)
  slotOf_mem h := by
    obtain ⟨m, hm, rfl⟩ := Option.map_eq_some_iff.mp h
    exact List.mem_map_of_mem (List.mem_of_find?_eq_some hm)

/-- An address has a slot exactly when some record carries it. -/
theorem mem_slots {l : List AddressMetadata} {a : Multiaddr} :
    a ∈ (register l).slots ↔ a ∈ l.map (·.address) := Iff.rfl

/-- The address of a connection is the one that lists it. -/
theorem Wf.slotOf_iff {l : List AddressMetadata} (wf : Wf l) {c : ConnectionId} {a : Multiaddr} :
    (register l).slotOf c = some a ↔ (c, a) ∈ conns l := by
  constructor
  · intro h
    obtain ⟨m, hm, rfl⟩ := Option.map_eq_some_iff.mp h
    exact mem_conns.mpr ⟨m, List.mem_of_find?_eq_some hm, rfl,
      by simpa using List.find?_some hm⟩
  · intro h
    obtain ⟨m, hm, -, hc⟩ := mem_conns.mp h
    cases found : l.find? fun m => decide (c ∈ m.activeConnections) with
    | none => exact absurd hc (by simpa using List.find?_eq_none.mp found m hm)
    | some n =>
      have listed : (c, n.address) ∈ conns l := mem_conns.mpr
        ⟨n, List.mem_of_find?_eq_some found, rfl, by simpa using List.find?_some found⟩
      simp only [register, found, Option.map_some, Option.some.injEq]
      exact wf.conn_unique listed h

/-- No slot is left exactly when the vector is empty. `prune_empty` drops the entry then. -/
theorem register_slots_eq_empty {l : List AddressMetadata} : (register l).slots = ∅ ↔ l = [] := by
  rw [Set.eq_empty_iff_forall_notMem, ← List.map_eq_nil_iff (f := (·.address)),
    List.eq_nil_iff_forall_not_mem]
  rfl

/-- Vectors with the same slots and the same connections have the same register. -/
theorem register_ext {l l' : List AddressMetadata} (wf : Wf l) (wf' : Wf l')
    (slots : ∀ a, a ∈ l.map (·.address) ↔ a ∈ l'.map (·.address))
    (same : ∀ x, x ∈ conns l ↔ x ∈ conns l') : register l = register l' :=
  Register.ext' slots fun c a => by rw [wf.slotOf_iff, wf'.slotOf_iff, same (c, a)]

/-- **The register does not see order and backoff.** -/
theorem register_of_records {l l' : List AddressMetadata} (wf : Wf l) (h : SameRecords l l') :
    register l' = register l :=
  register_ext (h.wf wf) wf (fun _ => h.addresses.mem_iff.symm) fun _ => h.conns.mem_iff.symm

/-- A slot holds something exactly when its record lists a connection: this is what
`is_connected_over` asks. -/
theorem holds_iff {l : List AddressMetadata} (wf : Wf l) {a : Multiaddr} :
    (register l).Holds a ↔ ∃ m ∈ l, m.address = a ∧ m.activeConnections ≠ [] := by
  simp only [Register.Holds, wf.slotOf_iff, mem_conns]
  constructor
  · rintro ⟨c, m, hm, ha, hc⟩
    exact ⟨m, hm, ha, List.ne_nil_of_mem hc⟩
  · rintro ⟨m, hm, ha, hne⟩
    obtain ⟨c, hc⟩ := List.exists_mem_of_ne_nil _ hne
    exact ⟨c, m, hm, ha, hc⟩

/-! ## The operations on one vector -/

namespace PeerInfoExt

variable {info : PeerInfoExt} {now : Readings} {failed : Instant} {a b : Multiaddr}
  {c : ConnectionId}

/-- The test `any(|m| m.address == *addr)`, read as membership. -/
theorem any_address {l : List AddressMetadata} :
    (l.any fun m => decide (m.address = a)) = true ↔ a ∈ l.map (·.address) := by
  simp only [List.any_eq_true, decide_eq_true_eq, List.mem_map]

/-- `resort` permutes the records, whatever the clock says during the sort. -/
theorem resort_records (info : PeerInfoExt) (now : Readings) :
    SameRecords info.addresses (info.resort now).addresses :=
  .of_perm (resort_perm now info).symm

/-- A success resets one record's counter and deadline. -/
theorem clearBackoff_records (info : PeerInfoExt) (a : Multiaddr) :
    SameRecords info.addresses (info.clearBackoffOnSuccess a).addresses := by
  have same : (info.clearBackoffOnSuccess a).addresses.map AddressMetadata.record =
      info.addresses.map AddressMetadata.record := map_modifyFirst fun _ _ _ => rfl
  exact .of_eq same.symm

/-- A failure raises one record's counter and deadline, and then sorts. -/
theorem markFailure_records (info : PeerInfoExt) (failed : Instant) (now : Readings)
    (a : Multiaddr) :
    SameRecords info.addresses (info.markFailure failed now a).addresses := by
  unfold markFailure
  split
  · refine SameRecords.trans (.of_eq (Eq.symm ?_)) (resort_records _ now)
    exact map_modifyFirst fun _ _ _ => rfl
  · exact .refl _

/-- Opening an address that is not known. -/
theorem register_append_fresh {l : List AddressMetadata} (wf : Wf l)
    (absent : a ∉ l.map (·.address)) :
    Wf (l ++ [.fresh a]) ∧ register (l ++ [.fresh a]) = (register l).insert a := by
  have noConns : conns (l ++ [.fresh a]) = conns l := by
    rw [conns, List.flatMap_append]
    exact List.append_nil _
  have wf' : Wf (l ++ [.fresh a]) := by
    refine ⟨?_, noConns ▸ wf.connections_nodup, fun m hm => ?_⟩
    · rw [List.map_append, List.map_cons, List.map_nil]
      exact List.nodup_append'.mpr ⟨wf.addresses_nodup, List.nodup_singleton _,
        List.disjoint_singleton.mpr absent⟩
    · rcases List.mem_append.mp hm with old | new
      · exact wf.classified m old
      · obtain rfl := List.mem_singleton.mp new
        rfl
  refine ⟨wf', Register.ext' (fun b => ?_) fun c b => ?_⟩
  · rw [mem_slots, List.map_append, List.mem_append, or_comm]
    exact or_congr List.mem_singleton Iff.rfl
  · rw [wf'.slotOf_iff, noConns, Register.slotOf_insert, wf.slotOf_iff]

/-- The push happens, and `true` is answered, exactly when no record has the address. -/
theorem addAddress_fst :
    (info.addAddress now a).1 = true ↔ a ∉ (register info.addresses).slots := by
  rw [mem_slots, ← any_address]
  unfold addAddress
  split <;> simp_all

/-- **`add_address` opens a slot.** -/
theorem addAddress_register (now : Readings) (wf : Wf info.addresses) :
    Wf (info.addAddress now a).2.addresses ∧
      register (info.addAddress now a).2.addresses = (register info.addresses).insert a := by
  unfold addAddress
  split
  · next known =>
    have records := resort_records info now
    refine ⟨records.wf wf, ?_⟩
    rw [register_of_records wf records]
    exact (Register.insert_of_mem (mem_slots.mpr (any_address.mp known))).symm
  · next absent =>
    obtain ⟨wf', opened⟩ := register_append_fresh wf fun known => absent (any_address.mpr known)
    have records := resort_records { info with addresses := info.addresses ++ [.fresh a] } now
    exact ⟨records.wf wf', (register_of_records wf' records).trans opened⟩

/-- **`remove_address` erases a slot.** -/
theorem removeAddress_register (now : Readings) (wf : Wf info.addresses) :
    Wf (info.removeAddress now a).addresses ∧
      register (info.removeAddress now a).addresses = (register info.addresses).erase a := by
  -- The records without the address; in which order is for the sort to say.
  let left := info.addresses.eraseP fun m => decide (m.address = a)
  have leftEq : left = info.addresses.filter fun m => decide (m.address ≠ a) :=
    eraseP_key wf.addresses_nodup
  have sub : left.Sublist info.addresses := List.eraseP_sublist
  have connsEq : ∀ c b, (c, b) ∈ conns left ↔ b ≠ a ∧ (c, b) ∈ conns info.addresses := by
    intro c b
    rw [mem_conns, mem_conns, leftEq]
    simp only [List.mem_filter, decide_eq_true_eq]
    constructor
    · rintro ⟨m, ⟨hm, hne⟩, rfl, hc⟩
      exact ⟨hne, m, hm, rfl, hc⟩
    · rintro ⟨hne, m, hm, rfl, hc⟩
      exact ⟨m, ⟨hm, hne⟩, rfl, hc⟩
  have wf' : Wf left := by
    refine ⟨(sub.map _).nodup wf.addresses_nodup, ?_, fun m hm => wf.classified m (sub.subset hm)⟩
    have := wf.connections_nodup
    rw [map_fst_conns] at this ⊢
    exact (sub.flatMap _).nodup this
  have records := resort_records { info with addresses := left } now
  refine ⟨records.wf wf', (register_of_records wf' records).trans (Register.ext' (fun b => ?_) ?_)⟩
  · rw [mem_slots, leftEq]
    show _ ↔ b ≠ a ∧ b ∈ info.addresses.map (·.address)
    simp only [List.mem_map, List.mem_filter, decide_eq_true_eq]
    constructor
    · rintro ⟨m, ⟨hm, hne⟩, rfl⟩
      exact ⟨hne, m, hm, rfl⟩
    · rintro ⟨hne, m, hm, rfl⟩
      exact ⟨m, ⟨hm, hne⟩, rfl⟩
  · intro c b
    rw [wf'.slotOf_iff, connsEq, Register.slotOf_erase, wf.slotOf_iff]

/-- **Taking a connection off its address releases it.** -/
theorem releaseConnection_register (wf : Wf info.addresses) :
    Wf (info.releaseConnection c).addresses ∧
      register (info.releaseConnection c).addresses = (register info.addresses).release c := by
  have addresses : (info.releaseConnection c).addresses.map (·.address) =
      info.addresses.map (·.address) := map_modifyFirst fun _ _ _ => rfl
  -- A connection is listed once, so the first record that has it is the only one.
  have connsPerm : (conns (info.releaseConnection c).addresses).Perm
      ((conns info.addresses).filter fun x => decide (x.1 ≠ c)) := by
    rw [← eraseP_key wf.connections_nodup]
    refine flatMap_modifyFirst_erase (fun m _ => ?_) fun m _ _ => ?_
    · rw [List.any_map]
      exact Bool.eq_iff_iff.mpr (by simp)
    · refine ((swapRemoveItem_perm c m.activeConnections).map _).trans (.of_eq ?_)
      rw [List.eraseP_map, List.erase_eq_eraseP]
      congr 2
      funext d
      exact Bool.eq_iff_iff.mpr (by rw [beq_iff_eq, eq_comm]; simp)
  have wf' : Wf (info.releaseConnection c).addresses := by
    refine ⟨addresses ▸ wf.addresses_nodup, ?_, fun m hm => ?_⟩
    · exact (connsPerm.map _).nodup_iff.mpr ((List.filter_sublist.map _).nodup wf.connections_nodup)
    · rcases mem_modifyFirst hm with old | ⟨n, hn, -, rfl⟩
      · exact wf.classified m old
      · exact wf.classified n hn
  refine ⟨wf', Register.ext' (fun b => by rw [mem_slots, addresses]; exact Iff.rfl) fun d b => ?_⟩
  rw [wf'.slotOf_iff, connsPerm.mem_iff, List.mem_filter, Register.slotOf_release, wf.slotOf_iff,
    decide_eq_true_eq, and_comm]

/-- `add_connection` first makes sure of a record for the address. It is the register's insertion,
also when the record exists and nothing is pushed. -/
theorem ensureAddress_register (wf : Wf info.addresses) :
    Wf (info.ensureAddress a).addresses ∧
      register (info.ensureAddress a).addresses = (register info.addresses).insert a := by
  unfold ensureAddress
  split
  · next known => exact ⟨wf, (Register.insert_of_mem (any_address.mp known)).symm⟩
  · next absent => exact register_append_fresh wf fun known => absent (any_address.mpr known)

/-- Putting a connection that is on no address on a known one. -/
theorem attachConnection_register (wf : Wf info.addresses)
    (known : a ∈ (register info.addresses).slots)
    (untracked : (register info.addresses).slotOf c = none) :
    Wf (info.attachConnection c a).addresses ∧
      register (info.attachConnection c a).addresses = (register info.addresses).assign c a := by
  have absent : ∀ b, (c, b) ∉ conns info.addresses := fun b h => by
    rw [wf.slotOf_iff.mpr h] at untracked
    cases untracked
  have unlisted : ∀ m ∈ info.addresses, c ∉ m.activeConnections := fun m hm hc =>
    absent m.address (mem_conns.mpr ⟨m, hm, rfl, hc⟩)
  have addresses : (info.attachConnection c a).addresses.map (·.address) =
      info.addresses.map (·.address) := map_modifyFirst fun m _ _ => by split <;> rfl
  -- The record exists and does not list the connection, so the push happens.
  have connsPerm : (conns (info.attachConnection c a).addresses).Perm
      ([(c, a)] ++ conns info.addresses) := by
    refine flatMap_modifyFirst_add ?_ fun m hm isA => ?_
    · obtain ⟨m, hm, rfl⟩ := List.mem_map.mp (mem_slots.mp known)
      exact ⟨m, hm, decide_eq_true rfl⟩
    · obtain rfl := of_decide_eq_true isA
      rw [if_neg (unlisted m hm), List.map_append]
      exact List.perm_append_comm
  have wf' : Wf (info.attachConnection c a).addresses := by
    refine ⟨addresses ▸ wf.addresses_nodup, ?_, fun m hm => ?_⟩
    · refine (connsPerm.map Prod.fst).nodup_iff.mpr (List.nodup_cons.mpr ⟨?_, wf.connections_nodup⟩)
      intro listed
      obtain ⟨⟨d, b⟩, hb, rfl⟩ := List.mem_map.mp listed
      exact absent b hb
    · rcases mem_modifyFirst hm with old | ⟨n, hn, -, rfl⟩
      · exact wf.classified m old
      · split <;> exact wf.classified n hn
  refine ⟨wf', Register.ext' (fun b => ?_) fun d b => ?_⟩
  · rw [mem_slots, addresses]
    exact ⟨.inr, fun h => h.elim (fun e => e ▸ known) id⟩
  · rw [wf'.slotOf_iff, connsPerm.mem_iff, List.singleton_append, List.mem_cons,
      Register.slotOf_assign, wf.slotOf_iff, Prod.mk.injEq]
    constructor
    · rintro (here | old)
      · exact .inl here
      · exact .inr ⟨fun e => absent b (e ▸ old), old⟩
    · rintro (here | ⟨-, old⟩)
      · exact .inl here
      · exact .inr old

/-- The second half of `add_connection`, after the connection was taken out of the record it was in.
The hypothesis says that it was, and without it the connection would be listed twice. -/
theorem placeConnection_register (now : Readings) (wf : Wf info.addresses)
    (untracked : (register info.addresses).slotOf c = none) :
    Wf (info.placeConnection now c a).addresses ∧
      register (info.placeConnection now c a).addresses = (register info.addresses).assign c a := by
  obtain ⟨wf₁, opened⟩ := ensureAddress_register (a := a) wf
  obtain ⟨wf₂, put⟩ := attachConnection_register (c := c) (a := a) wf₁
    (by rw [opened]; exact .inl rfl) (by rw [opened]; exact untracked)
  have records := (clearBackoff_records ((info.ensureAddress a).attachConnection c a) a).trans
    (resort_records _ now)
  refine ⟨records.wf wf₂, (register_of_records wf₂ records).trans ?_⟩
  rw [put, opened, Register.assign_insert]

/-- **`add_connection` assigns an address to a connection**, wherever the connection was. -/
theorem addConnection_register (now : Readings) (wf : Wf info.addresses) :
    Wf (info.addConnection now c a).addresses ∧
      register (info.addConnection now c a).addresses = (register info.addresses).assign c a := by
  unfold addConnection
  split
  · next old found =>
    have stands : (register info.addresses).slotOf c = some old.address := by
      simp only [register, found, Option.map_some]
    split
    · -- the connection moves
      obtain ⟨wf₁, out⟩ := releaseConnection_register (c := c) wf
      obtain ⟨wf₂, put⟩ := placeConnection_register (c := c) (a := a) now wf₁
        (by rw [out]; exact Function.update_self ..)
      exact ⟨wf₂, by rw [put, out, Register.assign_release]⟩
    · next same =>
      -- it stays, and only the backoff is cleared
      obtain rfl : old.address = a := not_not.mp same
      have records := (clearBackoff_records info old.address).trans (resort_records _ now)
      exact ⟨records.wf wf,
        (register_of_records wf records).trans (Register.assign_of_slotOf stands).symm⟩
  · next absent =>
    exact placeConnection_register now wf (by simp only [register, absent, Option.map_none])

/-- **`remove_connection` releases a connection.** -/
theorem removeConnection_register (now : Readings) (wf : Wf info.addresses) :
    Wf (info.removeConnection now c).addresses ∧
      register (info.removeConnection now c).addresses = (register info.addresses).release c := by
  obtain ⟨wf₁, out⟩ := releaseConnection_register (c := c) wf
  have records := resort_records (info.releaseConnection c) now
  exact ⟨records.wf wf₁, (register_of_records wf₁ records).trans out⟩

end PeerInfoExt

end Saved
