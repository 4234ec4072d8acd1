import Saved.Laws.Readings

/-!
# Names stand behind addresses

The third priority of `resort` is the resolution of an address, and no part of the sort key is
about it. It holds by the last part, the address itself: the encoding of an address begins with the
code of its first component, and the codes of the IP protocols are smaller than those of the names
(`resolution_priority`).
-/

namespace Saved

open Saved.Lib

/-- An IP address. -/
def Protocol.isIp : Protocol → Bool
  | .ip4 _ => true
  | .ip6 _ => true
  | _ => false

/-- A name to be resolved. -/
def Protocol.isName : Protocol → Bool
  | .dns _ => true
  | .dns4 _ => true
  | .dns6 _ => true
  | .dnsaddr _ => true
  | _ => false

namespace Multiaddr

/-- The address begins with an IP address. -/
def beginsWithIp (a : Multiaddr) : Bool := a.iter.head?.any Protocol.isIp

/-- The address begins with a name. -/
def beginsWithName (a : Multiaddr) : Bool := a.iter.head?.any Protocol.isName

/-- Addresses are ordered by their encoding, as the derived order of the source's type is. -/
theorem lt_iff_toBytes {a b : Multiaddr} : a < b ↔ a.toBytes < b.toBytes := Iff.rfl

/-- The bytes of an address whose first code has seven bits begin with that code. -/
theorem toBytes_cons {a : Multiaddr} {p : Protocol} (first : a.iter.head? = some p)
    (small : p.code < 128) : ∃ rest, a.toBytes = Fin.ofNat 256 p.code :: rest := by
  obtain ⟨tail, shape⟩ := List.head?_eq_some_iff.mp first
  have components : a.components = p :: tail := shape
  refine ⟨p.body ++ tail.flatMap Protocol.toBytes, ?_⟩
  rw [toBytes, components, List.flatMap_cons, Protocol.toBytes, varint_of_lt small]
  rfl

/-- **The first codes decide the order of two addresses**, when they differ and have seven bits. -/
theorem lt_of_code_lt {a b : Multiaddr} {p q : Protocol} (first : a.iter.head? = some p)
    (second : b.iter.head? = some q) (small : q.code < 128) (less : p.code < q.code) : a < b := by
  obtain ⟨rest, bytes⟩ := toBytes_cons first (less.trans small)
  obtain ⟨rest', bytes'⟩ := toBytes_cons second small
  rw [lt_iff_toBytes, bytes, bytes']
  refine List.Lex.rel ?_
  rw [Fin.lt_def, Fin.val_ofNat, Fin.val_ofNat]
  omega

end Multiaddr

/-- The two IP components have the smaller codes. -/
theorem Protocol.code_of_isIp {p : Protocol} (ip : p.isIp = true) : p.code ≤ 41 := by
  cases p with
  | ip4 _ | ip6 _ => simp [Protocol.code]
  | _ => cases ip

/-- The four name components have the larger ones. -/
theorem Protocol.code_of_isName {p : Protocol} (name : p.isName = true) :
    53 ≤ p.code ∧ p.code ≤ 56 := by
  cases p with
  | dns _ | dns4 _ | dns6 _ | dnsaddr _ => simp [Protocol.code]
  | _ => cases name

/-- The first components decide, since their codes differ and are written first. -/
theorem Multiaddr.lt_of_resolution {a b : Multiaddr} (ip : a.beginsWithIp = true)
    (name : b.beginsWithName = true) : a < b := by
  obtain ⟨p, first, ip⟩ := (Option.any_eq_true _ _).mp ip
  obtain ⟨q, second, name⟩ := (Option.any_eq_true _ _).mp name
  have below := Protocol.code_of_isIp ip
  have range := Protocol.code_of_isName name
  exact Multiaddr.lt_of_code_lt first second (by omega) (by omega)

/-- **IP stands before DNS** in every vector that was just resorted at one value of the clock: of
two addresses with the same cooldown status, scope and transport, the one that begins with an IP
address stands before the one that begins with a name. -/
theorem resolution_priority (large : Sorter AddressMetadata) (now : Instant) (info : PeerInfoExt)
    {i j : Nat} {m n : AddressMetadata}
    (first : (info.resort (.still large now)).addresses[i]? = some m)
    (second : (info.resort (.still large now)).addresses[j]? = some n)
    (cooldown : m.isInCooldown now = n.isInCooldown now) (scope : m.scope = n.scope)
    (transport : m.transport = n.transport) (ip : m.address.beginsWithIp = true)
    (name : n.address.beginsWithName = true) : i < j := by
  have still : (Readings.still large now).Still := fun _ => rfl
  have sorted : SortedAt now (info.resort (.still large now)).addresses :=
    (PeerInfoExt.resort_resorted _ info).sorted still.steady
  refine sorted.lt_of_key_lt first second ?_
  rw [AddressMetadata.sortKey, AddressMetadata.sortKey, cooldown, scope, transport]
  simp only [Prod.Lex.toLex_lt_toLex, lt_irrefl, false_or, true_and]
  exact Multiaddr.lt_of_resolution ip name

/-- A peer known by a name and by a public address, the name first. -/
def namedPeer : PeerInfoExt where
  addresses := [.fresh ⟨[.dns4 [97, 46, 110, 101, 116], .tcp 4001]⟩,
    .fresh ⟨[.ip4 ⟨[8, 8, 8, 8], rfl⟩, .tcp 4001]⟩]

/-- A resort puts the public address before the name. -/
theorem resolution_priority_named : ∃ (i j : Nat) (m n : AddressMetadata),
    (namedPeer.resort .zero).addresses[i]? = some m ∧
    (namedPeer.resort .zero).addresses[j]? = some n ∧ m.address.beginsWithIp = true ∧
    n.address.beginsWithName = true ∧ i < j := by
  have first : (namedPeer.resort .zero).addresses[0]? =
      some (.fresh ⟨[.ip4 ⟨[8, 8, 8, 8], rfl⟩, .tcp 4001]⟩) := by decide
  have second : (namedPeer.resort .zero).addresses[1]? =
      some (.fresh ⟨[.dns4 [97, 46, 110, 101, 116], .tcp 4001]⟩) := by decide
  exact ⟨0, 1, _, _, first, second, rfl, rfl,
    resolution_priority .insertion 0 namedPeer first second rfl rfl rfl rfl rfl⟩

end Saved
