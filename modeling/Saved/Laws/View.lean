import Saved.Laws.Addresses

/-!
# The view is a book of registers

`NetworkView.registers` gives each peer the register of its vector. Each operation of the view
acts on the register of the one peer it is about, as the operation its name says, and keeps every
vector well formed. The questions the program asks of the view are questions about the registers:
whether a peer is connected, over which address, and where a connection stands.
-/

namespace Saved

open Saved.Lib

/-- A register for each peer. -/
abbrev Book := PeerId → Register Multiaddr ConnectionId

/-- Where every connection of every peer stands, if it does. -/
abbrev Tracked := PeerId → ConnectionId → Option Multiaddr

namespace Tracked

/-- Put a connection of a peer on an address, or nowhere. -/
def set (t : Tracked) (p : PeerId) (c : ConnectionId) (a : Option Multiaddr) : Tracked :=
  fun q d => if q = p ∧ d = c then a else t q d

/-- Some connection of the peer stands somewhere. -/
def Up (t : Tracked) (p : PeerId) : Prop := ∃ c a, t p c = some a

/-- Take every connection off the listed addresses. -/
def expire (t : Tracked) (list : List (PeerId × Multiaddr)) : Tracked :=
  fun p c => (t p c).filter fun a => decide ((p, a) ∉ list)

/-- After one entry is set, a connection is at `b` either because it is the one that was set or
because it was at `b` before. -/
theorem set_eq_some {t : Tracked} {p q : PeerId} {c d : ConnectionId} {o : Option Multiaddr}
    {b : Multiaddr} : t.set p c o q d = some b ↔
      (q = p ∧ d = c) ∧ o = some b ∨ ¬ (q = p ∧ d = c) ∧ t q d = some b := by
  unfold set
  split
  · next h => simp [h]
  · next h => simp [h]

/-- An expiry list only takes addresses away: what is left are the connections whose peer and
address the list does not name. -/
theorem expire_eq_some {t : Tracked} {list : List (PeerId × Multiaddr)} {p : PeerId}
    {c : ConnectionId} {a : Multiaddr} :
    t.expire list p c = some a ↔ t p c = some a ∧ (p, a) ∉ list := by
  unfold expire
  rw [Option.filter_eq_some_iff, decide_eq_true_eq]

/-- Two answers agree when they put every connection on the same addresses. -/
theorem ext_some {t t' : Tracked} (same : ∀ p c a, t p c = some a ↔ t' p c = some a) : t = t' :=
  funext fun p => funext fun c => Option.ext fun a => same p c a

/-- An empty list leaves every connection where it is. -/
theorem expire_nil (t : Tracked) : t.expire [] = t := by
  refine ext_some fun p c a => ?_
  rw [expire_eq_some]
  exact and_iff_left List.not_mem_nil

/-- A list expires one entry after the other, as the handler's loop over the discovered records
does. -/
theorem expire_cons (t : Tracked) (entry : PeerId × Multiaddr) (list : List (PeerId × Multiaddr)) :
    t.expire (entry :: list) = (t.expire [entry]).expire list := by
  refine ext_some fun p c a => ?_
  rw [expire_eq_some, expire_eq_some, expire_eq_some, List.mem_singleton, List.mem_cons, not_or,
    and_assoc]

end Tracked

namespace NetworkView

variable {view : NetworkView} {now : Readings} {failed : Instant} {p q : PeerId} {a : Multiaddr}
  {c : ConnectionId}

/-- The vector of a peer: empty for a peer the view does not know. -/
def addressesOf (view : NetworkView) (p : PeerId) : List AddressMetadata :=
  ((view.peers.get p).getD {}).addresses

/-- **The registers of a view.** -/
def registers (view : NetworkView) : Book := fun p => register (view.addressesOf p)

/-- Every vector is well formed. -/
def WellFormed (view : NetworkView) : Prop := ∀ p, Wf (view.addressesOf p)

/-- The vector of a peer that has an entry is the entry's own. Handlers that have just looked the
entry up use it to speak of `addressesOf`. -/
theorem addressesOf_of_get {info : PeerInfoExt} (h : view.peers.get p = some info) :
    view.addressesOf p = info.addresses := by rw [addressesOf, h]; rfl

/-- The view a node starts with is well formed, for it has no vector to break the rules. -/
theorem wellFormed_empty : WellFormed {} := fun _ => wf_nil

/-- A new view tracks nothing, which is where every comparison with the register starts. -/
theorem registers_empty : registers {} = fun _ => .empty :=
  funext fun _ => Register.ext'
    (fun _ => ⟨fun h => absurd h List.not_mem_nil, fun h => absurd h id⟩) fun _ _ => Iff.rfl

/-! ## The operations -/

/-- Two peers are told apart before an operation on one of them. -/
theorem registers_eq_update {view' : NetworkView} {r : Register Multiaddr ConnectionId}
    (here : register (view'.addressesOf p) = r)
    (other : ∀ q, q ≠ p → view'.addressesOf q = view.addressesOf q) :
    view'.registers = Function.update view.registers p r := by
  funext q
  by_cases h : q = p
  · subst h
    rw [Function.update_self]
    exact here
  · rw [Function.update_of_ne h, registers, registers, other q h]

/-- An operation on one peer keeps the view well formed when it leaves that peer's vector well
formed and the others alone. Each operation below discharges the first part by its law of one
vector. -/
theorem wellFormed_of {view' : NetworkView} (wf : view.WellFormed)
    (here : Wf (view'.addressesOf p))
    (other : ∀ q, q ≠ p → view'.addressesOf q = view.addressesOf q) : view'.WellFormed := by
  intro q
  by_cases h : q = p
  · exact h ▸ here
  · rw [other q h]
    exact wf q

/-- What an operation through `entry(p).or_default()` leaves. -/
theorem addressesOf_entryOrDefault (view : NetworkView) (f : PeerInfoExt → PeerInfoExt) :
    addressesOf ⟨view.peers.entryOrDefault p {} f⟩ p =
        (f ((view.peers.get p).getD {})).addresses ∧
      ∀ q, q ≠ p → addressesOf ⟨view.peers.entryOrDefault p {} f⟩ q = view.addressesOf q := by
  constructor
  · rw [addressesOf, HashMap.get_entryOrDefault_self]
    rfl
  · intro q h
    rw [addressesOf, HashMap.get_entryOrDefault_ne _ h, addressesOf]

/-- What an operation through `get_mut(p)` leaves, when it leaves no address where there is
none. -/
theorem addressesOf_modify (view : NetworkView) {f : PeerInfoExt → PeerInfoExt}
    (absent : (f {}).addresses = []) :
    addressesOf ⟨view.peers.modify p f⟩ p = (f ((view.peers.get p).getD {})).addresses ∧
      ∀ q, q ≠ p → addressesOf ⟨view.peers.modify p f⟩ q = view.addressesOf q := by
  constructor
  · rw [addressesOf, HashMap.get_modify_self]
    cases view.peers.get p with
    | none => exact absent.symm
    | some info => rfl
  · intro q h
    rw [addressesOf, HashMap.get_modify_ne _ h, addressesOf]

/-- Pruning an entry with no address changes no vector. -/
theorem addressesOf_pruneEmpty (view : NetworkView) (q : PeerId) :
    (view.pruneEmpty p).addressesOf q = view.addressesOf q := by
  unfold pruneEmpty
  split
  · next info known =>
    split
    · next empty =>
      by_cases h : q = p
      · subst h
        rw [addressesOf_of_get known, addressesOf, HashMap.get_remove_self]
        rw [Bool.and_eq_true, List.isEmpty_iff] at empty
        exact empty.2.symm
      · rw [addressesOf, HashMap.get_remove_ne _ h, addressesOf]
    · rfl
  · rfl

/-- What an operation through `get_mut(p)`, followed by `prune_empty`, leaves. -/
theorem addressesOf_modify_prune (view : NetworkView) {f : PeerInfoExt → PeerInfoExt}
    {view' : NetworkView}
    (op : view' = match view.peers.get p with
      | some _ => pruneEmpty ⟨view.peers.modify p f⟩ p
      | none => view)
    (absent : (f {}).addresses = []) :
    view'.addressesOf p = (f ((view.peers.get p).getD {})).addresses ∧
      ∀ q, q ≠ p → view'.addressesOf q = view.addressesOf q := by
  obtain ⟨here, other⟩ := addressesOf_modify (p := p) view absent
  subst op
  split
  · exact ⟨(addressesOf_pruneEmpty _ p).trans here,
      fun q h => (addressesOf_pruneEmpty _ q).trans (other q h)⟩
  · next unknown =>
    refine ⟨?_, fun q _ => rfl⟩
    rw [addressesOf, unknown]
    exact absent.symm

/-- `add_address` is the register's insertion at one peer. The entry that `or_default` may create on
the way does not show in the registers. -/
theorem addAddress_registers (wf : view.WellFormed) :
    (view.addAddress now p a).2.WellFormed ∧
      (view.addAddress now p a).2.registers =
        Function.update view.registers p ((view.registers p).insert a) := by
  obtain ⟨here, other⟩ := addressesOf_entryOrDefault (p := p) view
    fun info => (info.addAddress now a).2
  obtain ⟨wf', opened⟩ := PeerInfoExt.addAddress_register (a := a) now (wf p)
  exact ⟨wellFormed_of wf (here ▸ wf') other, registers_eq_update (here ▸ opened) other⟩

/-- The answer says whether the address is new, and not whether the peer is. -/
theorem addAddress_fst : (view.addAddress now p a).1 = true ↔ a ∉ (view.registers p).slots :=
  PeerInfoExt.addAddress_fst

/-- `remove_address` is the register's erasure at one peer: the slot goes with every connection in
it, which is the loss that the source's comment on `active_connections` does not mention. -/
theorem removeAddress_registers (wf : view.WellFormed) :
    (view.removeAddress now p a).WellFormed ∧
      (view.removeAddress now p a).registers =
        Function.update view.registers p ((view.registers p).erase a) := by
  obtain ⟨here, other⟩ := addressesOf_modify_prune (p := p) view
    (f := fun info => info.removeAddress now a) rfl rfl
  obtain ⟨wf', erased⟩ := PeerInfoExt.removeAddress_register (a := a) now (wf p)
  exact ⟨wellFormed_of wf (here ▸ wf') other, registers_eq_update (here ▸ erased) other⟩

/-- `add_connection` moves the connection to the remote address, whether it was tracked at another
address before, at this one, or nowhere. -/
theorem addConnection_registers {endpoint : ConnectedPoint} (wf : view.WellFormed) :
    (view.addConnection now p c endpoint).WellFormed ∧
      (view.addConnection now p c endpoint).registers =
        Function.update view.registers p ((view.registers p).assign c endpoint.remote) := by
  obtain ⟨here, other⟩ := addressesOf_entryOrDefault (p := p) view
    fun info => info.addConnection now c endpoint.remote
  obtain ⟨wf', put⟩ := PeerInfoExt.addConnection_register (c := c) (a := endpoint.remote) now (wf p)
  exact ⟨wellFormed_of wf (here ▸ wf') other, registers_eq_update (here ▸ put) other⟩

/-- `remove_connection` frees the slot that holds the connection and keeps the address. -/
theorem removeConnection_registers (wf : view.WellFormed) :
    (view.removeConnection now p c).WellFormed ∧
      (view.removeConnection now p c).registers =
        Function.update view.registers p ((view.registers p).release c) := by
  obtain ⟨here, other⟩ := addressesOf_modify_prune (p := p) view
    (f := fun info => info.removeConnection now c) rfl rfl
  obtain ⟨wf', out⟩ := PeerInfoExt.removeConnection_register (c := c) now (wf p)
  exact ⟨wellFormed_of wf (here ▸ wf') other, registers_eq_update (here ▸ out) other⟩

/-- An operation that keeps the records of every vector keeps every register. -/
theorem registers_of_records {view' : NetworkView} (wf : view.WellFormed)
    (same : ∀ q, SameRecords (view.addressesOf q) (view'.addressesOf q)) :
    view'.WellFormed ∧ view'.registers = view.registers :=
  ⟨fun q => (same q).wf (wf q), funext fun q => register_of_records (wf q) (same q)⟩

/-- A failure touches counters and order only. No address appears or goes, and no connection
moves. -/
theorem markFailure_records (view : NetworkView) (q : PeerId) :
    SameRecords (view.addressesOf q) ((view.markFailure failed now p a).addressesOf q) := by
  obtain ⟨here, other⟩ := addressesOf_modify (p := p) view
    (f := fun info => info.markFailure failed now a) rfl
  by_cases h : q = p
  · subst h
    rw [markFailure, here]
    exact PeerInfoExt.markFailure_records _ _ _ _
  · rw [markFailure, other q h]
    exact .refl _

/-- The identify answer is stored beside the vectors: none of them changes. -/
theorem setProtocols_addresses (view : NetworkView) (protocols : List StreamProtocol)
    (q : PeerId) : (view.setProtocols p protocols).addressesOf q = view.addressesOf q := by
  obtain ⟨here, other⟩ := addressesOf_entryOrDefault (p := p) view fun info =>
    { info with
      protocols := .ofList protocols
      supportsRelayHopV2 := (HashSet.ofList protocols).toList.any isHopV2 }
  by_cases h : q = p
  · subst h
    exact here
  · exact other q h

/-- A ping answer is stored beside the vectors: none of them changes, and neither does their
order. -/
theorem setRtt_addresses (view : NetworkView) (rtt : Duration) (q : PeerId) :
    (view.setRtt p rtt).addressesOf q = view.addressesOf q := by
  obtain ⟨here, other⟩ := addressesOf_modify (p := p) view
    (f := fun info => { info with rtt := rtt }) rfl
  by_cases h : q = p
  · subst h
    exact here
  · exact other q h

/-! ## The questions -/

/-- What the view answers for every connection. -/
def tracked (view : NetworkView) : Tracked := view.getConnectionAddress

/-- `get_connection_address` searches the peer's vector, and what it finds is the register's slot.
No well-formedness is needed, for both take the first record that holds the connection. -/
theorem getConnectionAddress_eq : view.getConnectionAddress p c = (view.registers p).slotOf c := by
  rw [getConnectionAddress, registers, addressesOf]
  cases view.peers.get p <;> rfl

/-- The tracked connections of a peer are its register's slots, read as a function of the
connection. -/
theorem tracked_eq : view.tracked p = (view.registers p).slotOf :=
  funext fun _ => getConnectionAddress_eq

/-- **A connection stands on the address that lists it.** -/
theorem tracked_iff (wf : view.WellFormed) : view.tracked p c = some a ↔
    ∃ m ∈ view.addressesOf p, m.address = a ∧ c ∈ m.activeConnections := by
  rw [tracked_eq, registers, (wf p).slotOf_iff, mem_conns]

/-- A new address carries no connection, so nothing is tracked that was not before. -/
theorem tracked_addAddress (wf : view.WellFormed) :
    (view.addAddress now p a).2.tracked = view.tracked := by
  funext q
  rw [tracked_eq, tracked_eq, (addAddress_registers wf).2]
  by_cases h : q = p
  · subst h
    rw [Function.update_self, Register.slotOf_insert]
  · rw [Function.update_of_ne h]

/-- The view's side of `ConnectionEstablished` and of `AddressChange`: one connection is set, and
every other entry keeps its address. -/
theorem tracked_addConnection {endpoint : ConnectedPoint} (wf : view.WellFormed) :
    (view.addConnection now p c endpoint).tracked =
      view.tracked.set p c (some endpoint.remote) := by
  refine Tracked.ext_some fun q d b => ?_
  rw [tracked_eq, (addConnection_registers wf).2, Tracked.set_eq_some, tracked_eq]
  by_cases h : q = p
  · subst h
    rw [Function.update_self, Register.slotOf_assign]
    simp [eq_comm]
  · rw [Function.update_of_ne h]
    simp [h]

/-- The view's side of `ConnectionClosed`. -/
theorem tracked_removeConnection (wf : view.WellFormed) :
    (view.removeConnection now p c).tracked = view.tracked.set p c none := by
  refine Tracked.ext_some fun q d b => ?_
  rw [tracked_eq, (removeConnection_registers wf).2, Tracked.set_eq_some, tracked_eq]
  by_cases h : q = p
  · subst h
    rw [Function.update_self, Register.slotOf_release]
    simp
  · rw [Function.update_of_ne h]
    simp [h]

/-- The view's side of one expired record: every connection of the peer at that address is lost,
open or not. -/
theorem tracked_removeAddress (wf : view.WellFormed) :
    (view.removeAddress now p a).tracked = view.tracked.expire [(p, a)] := by
  refine Tracked.ext_some fun q d b => ?_
  rw [tracked_eq, (removeAddress_registers wf).2, Tracked.expire_eq_some, tracked_eq,
    List.mem_singleton, Prod.mk.injEq]
  by_cases h : q = p
  · subst h
    rw [Function.update_self, Register.slotOf_erase]
    tauto
  · rw [Function.update_of_ne h]
    tauto

/-- The answer of `is_connected` without the lookup: a peer with no entry has an empty vector, where
the source returns `false` from the missing entry. -/
theorem isConnected_eq : view.isConnected p =
    (view.addressesOf p).any fun m => !m.activeConnections.isEmpty := by
  rw [isConnected, addressesOf]
  cases view.peers.get p <;> rfl

/-- **A peer is connected when some connection stands in its register.** -/
theorem isConnected_iff (wf : view.WellFormed) :
    view.isConnected p = true ↔ (view.registers p).Occupied := by
  rw [isConnected_eq, List.any_eq_true]
  unfold Register.Occupied registers
  simp only [holds_iff (wf p), Bool.not_eq_true', List.isEmpty_eq_false_iff]
  constructor
  · rintro ⟨m, hm, hne⟩
    exact ⟨m.address, m, hm, rfl, hne⟩
  · rintro ⟨-, m, hm, -, hne⟩
    exact ⟨m, hm, hne⟩

/-- On a well-formed view `is_connected` is right about the tracked connections. About the open ones
it can be wrong, since an expiry drops tracked ones. -/
theorem isConnected_iff_tracked (wf : view.WellFormed) :
    view.isConnected p = true ↔ view.tracked.Up p := by
  unfold Tracked.Up
  rw [isConnected_iff wf, tracked_eq]
  exact exists_comm

/-- The answer of `is_connected_over` without the lookup. Only the first record with the address
counts, as `find` has it. -/
theorem isConnectedOver_eq : view.isConnectedOver p a =
    (((view.addressesOf p).find? fun m => decide (m.address = a)).map fun m =>
      !m.activeConnections.isEmpty).getD false := by
  rw [isConnectedOver, addressesOf]
  cases view.peers.get p <;> rfl

/-- In a well-formed vector the entry of an address is the one the lookup finds. -/
theorem find_address {l : List AddressMetadata} (wf : Wf l) {m : AddressMetadata} (hm : m ∈ l) :
    (l.find? fun n => decide (n.address = m.address)) = some m := by
  cases found : l.find? fun n => decide (n.address = m.address) with
  | none => exact absurd (decide_eq_true rfl) (List.find?_eq_none.mp found m hm)
  | some n =>
    have same : n.address = m.address := by simpa using List.find?_some found
    rw [wf.eq_of_address (List.mem_of_find?_eq_some found) hm same]

/-- **A peer is connected over an address when some connection stands there.** -/
theorem isConnectedOver_iff (wf : view.WellFormed) :
    view.isConnectedOver p a = true ↔ (view.registers p).Holds a := by
  rw [isConnectedOver_eq, registers, holds_iff (wf p)]
  constructor
  · intro h
    cases found : (view.addressesOf p).find? fun m => decide (m.address = a) with
    | none => rw [found] at h; cases h
    | some m =>
      rw [found] at h
      refine ⟨m, List.mem_of_find?_eq_some found, by simpa using List.find?_some found, ?_⟩
      simpa using h
  · rintro ⟨m, hm, rfl, hne⟩
    rw [find_address (wf p) hm]
    simpa using hne

/-- On a well-formed view there is at most one record of an address, so the first record decides for
all of them. -/
theorem isConnectedOver_iff_tracked (wf : view.WellFormed) :
    view.isConnectedOver p a = true ↔ ∃ c, view.tracked p c = some a := by
  rw [isConnectedOver_iff wf, tracked_eq]
  exact Iff.rfl

/-! ## What was just resorted

The vector of the peer that an operation is about was just resorted: by each of the four operations
of the handlers, on whichever way through, and by a failure of a known address. -/

/-- `add_address` sorts last, also when the address was there already and nothing was pushed. -/
theorem addAddress_resorted : Resorted now ((view.addAddress now p a).2.addressesOf p) := by
  have here := (addressesOf_entryOrDefault (p := p) view fun info => (info.addAddress now a).2).1
  rw [addAddress, here, PeerInfoExt.addAddress]
  split <;> exact PeerInfoExt.resort_resorted _ _

/-- A removal filters and then sorts. A vector that becomes empty is sorted as any other, and its
entry is dropped. -/
theorem removeAddress_resorted : Resorted now ((view.removeAddress now p a).addressesOf p) := by
  have here : (view.removeAddress now p a).addressesOf p = _ := (addressesOf_modify_prune view
    (f := fun info => info.removeAddress now a) rfl rfl).1
  rw [here]
  exact PeerInfoExt.resort_resorted _ _

/-- On each of its three ways: the connection moves, stays where it is, or is new. -/
theorem addConnection_resorted {endpoint : ConnectedPoint} :
    Resorted now ((view.addConnection now p c endpoint).addressesOf p) := by
  have here := (addressesOf_entryOrDefault (p := p) view fun info =>
    info.addConnection now c endpoint.remote).1
  rw [addConnection, here, PeerInfoExt.addConnection]
  split
  · split
    · exact PeerInfoExt.resort_resorted _ _
    · exact PeerInfoExt.resort_resorted _ _
  · exact PeerInfoExt.resort_resorted _ _

/-- `remove_connection` sorts before it drops the entry, so what is left is in order. -/
theorem removeConnection_resorted :
    Resorted now ((view.removeConnection now p c).addressesOf p) := by
  have here : (view.removeConnection now p c).addressesOf p = _ := (addressesOf_modify_prune view
    (f := fun info => info.removeConnection now c) rfl rfl).1
  rw [here]
  exact PeerInfoExt.resort_resorted _ _

/-- A failure of a known address. -/
theorem markFailure_resorted (known : a ∈ (view.addressesOf p).map (·.address)) :
    Resorted now ((view.markFailure failed now p a).addressesOf p) := by
  have here := (addressesOf_modify (p := p) view
    (f := fun info => info.markFailure failed now a) rfl).1
  rw [addressesOf] at known
  rw [markFailure, here, PeerInfoExt.markFailure, if_pos (PeerInfoExt.any_address.mpr known)]
  exact PeerInfoExt.resort_resorted _ _

end NetworkView

end Saved
