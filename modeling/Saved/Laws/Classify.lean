import Mathlib.Data.List.DropRight
import Saved.Lib.Blocks
import Saved.Relay

/-!
# What an address is classified as

`classify_addr` is a fold, and its answer in closed form does not mention order but for two things:
the scope is the class of the last IP component (`classify_scope`), and the transport is decided by
the components behind the last circuit (`classify_transport`).

From the second come the two ways in which the class is not what the rest of the program takes it
for. A circuit is overwritten by a transport that stands behind it, so `addr_is_relay` and the
ranking disagree there (`relay_agrees_iff`). A websocket component is ignored, so an address that
stacks one on TCP is ranked as TCP (`direct_class_iff`).
-/

namespace Saved

open Saved.Lib

/-! ## The scope of an IP address -/

/-- RFC1918. -/
def Ipv4Addr.IsPrivate (ip : Ipv4Addr) : Prop :=
  InBlock [10, 0, 0, 0] 8 ip.octets ∨ InBlock [172, 16, 0, 0] 12 ip.octets ∨
    InBlock [192, 168, 0, 0] 16 ip.octets

/-- 169.254/16. -/
def Ipv4Addr.IsLinkLocal (ip : Ipv4Addr) : Prop := InBlock [169, 254, 0, 0] 16 ip.octets

/-- fc00::/7. -/
def Ipv6Addr.IsUniqueLocal (ip : Ipv6Addr) : Prop :=
  InBlock ([0xfc, 0] ++ List.replicate 14 0) 7 ip.octets

/-- fe80::/10. -/
def Ipv6Addr.IsLinkLocal (ip : Ipv6Addr) : Prop :=
  InBlock ([0xfe, 0x80] ++ List.replicate 14 0) 10 ip.octets

instance (ip : Ipv4Addr) : Decidable ip.IsPrivate := inferInstanceAs (Decidable (_ ∨ _ ∨ _))
instance (ip : Ipv4Addr) : Decidable ip.IsLinkLocal := inferInstanceAs (Decidable (InBlock _ _ _))
instance (ip : Ipv6Addr) : Decidable ip.IsUniqueLocal := inferInstanceAs (Decidable (InBlock _ _ _))
instance (ip : Ipv6Addr) : Decidable ip.IsLinkLocal := inferInstanceAs (Decidable (InBlock _ _ _))

/-- The class of an IP component, by the blocks of the standards; other components have none. -/
def Protocol.scopeClass : Protocol → Option NetScope
  | .ip4 ip =>
    some (if ip.IsPrivate then .privateLan else if ip.IsLinkLocal then .linkLocal else .publicNet)
  | .ip6 ip =>
    some (if ip.IsUniqueLocal then .privateLan else if ip.IsLinkLocal then .linkLocal
      else .publicNet)
  | _ => none

/-- The octets of an IPv4 address, one by one. -/
theorem Ipv4Addr.exists_octets (ip : Ipv4Addr) : ∃ a b c d, ip.octets = [a, b, c, d] := by
  obtain ⟨octets, size⟩ := ip
  match octets, size with
  | [a, b, c, d], _ => exact ⟨a, b, c, d, rfl⟩

/-- The first segment of an IPv6 address, and the rest. -/
theorem Ipv6Addr.exists_octets (ip : Ipv6Addr) :
    ∃ hi lo rest, ip.octets = [hi, lo] ++ rest ∧ rest.length = 14 := by
  obtain ⟨octets, size⟩ := ip
  match octets, size with
  | hi :: lo :: rest, size => exact ⟨hi, lo, rest, rfl, by simpa using size⟩

/-- A block of at most sixteen bits is decided by the first two octets. -/
theorem inBlock_pair {a b x y : Byte} {rest baseRest : List Byte} {len : Nat} (within : len ≤ 16)
    (length : rest.length = baseRest.length) :
    InBlock ([x, y] ++ baseRest) len ([a, b] ++ rest) ↔
      (a.val * 256 + b.val) / 2 ^ (16 - len) = (x.val * 256 + y.val) / 2 ^ (16 - len) := by
  have value : ∀ u v : Byte, octetsValue [u, v] = u.val * 256 + v.val := by
    intro u v
    show v.val + 256 * (u.val + 256 * 0) = _
    omega
  rw [inBlock_append within length]
  unfold InBlock
  rw [value, value]
  exact Iff.rfl

/-- The tests of the source, made with masks, are the blocks of the abstract layer. The order of the
tests does not matter, since the blocks are disjoint. -/
theorem Ipv4Addr.netScope_eq (ip : Ipv4Addr) : some ip.netScope = (Protocol.ip4 ip).scopeClass := by
  obtain ⟨a, b, c, d, octets⟩ := ip.exists_octets
  have ha := a.isLt
  have hb := b.isLt
  have pair : ∀ x y : Byte, ∀ len ≤ 16, InBlock [x, y, 0, 0] len ip.octets ↔
      (a.val * 256 + b.val) / 2 ^ (16 - len) = (x.val * 256 + y.val) / 2 ^ (16 - len) := by
    intro x y len within
    rw [octets]
    exact @inBlock_pair a b x y [c, d] [0, 0] len within rfl
  have isPrivate : ip.IsPrivate ↔
      a = 10 ∨ (a = 172 ∧ 16 ≤ b ∧ b ≤ 31) ∨ a = 192 ∧ b = 168 := by
    unfold IsPrivate
    rw [pair _ _ 8 (by decide), pair _ _ 12 (by decide), pair _ _ 16 (by decide)]
    simp only [Fin.ext_iff, Fin.le_def]
    norm_num
    omega
  have isLinkLocal : ip.IsLinkLocal ↔ a = 169 ∧ b = 254 := by
    unfold IsLinkLocal
    rw [pair _ _ 16 (by decide)]
    simp only [Fin.ext_iff]
    norm_num
    omega
  simp only [netScope, octets, Protocol.scopeClass, isPrivate, isLinkLocal, ite_or]

/-- The same of the sixteen octets. -/
theorem Ipv6Addr.netScope_eq (ip : Ipv6Addr) : some ip.netScope = (Protocol.ip6 ip).scopeClass := by
  obtain ⟨hi, lo, rest, octets, length⟩ := ip.exists_octets
  have hhi := hi.isLt
  have hlo := lo.isLt
  have seg : ip.seg0 = hi.val * 256 + lo.val := by
    rw [seg0, octets]
    rfl
  have bound : hi.val * 256 + lo.val < 2 ^ 16 := by omega
  have unique : ip.IsUniqueLocal ↔ (ip.seg0 &&& 0xfe00 == 0xfc00) = true := by
    have mask : (hi.val * 256 + lo.val) &&& 0xfe00 = (hi.val * 256 + lo.val) / 512 * 512 :=
      land_mask 9 7 bound
    rw [IsUniqueLocal, octets, inBlock_pair (by decide) length, seg, beq_iff_eq, mask]
    show (hi.val * 256 + lo.val) / 512 = 126 ↔ _
    omega
  have linkLocal : ip.IsLinkLocal ↔ (ip.seg0 &&& 0xffc0 == 0xfe80) = true := by
    have mask : (hi.val * 256 + lo.val) &&& 0xffc0 = (hi.val * 256 + lo.val) / 64 * 64 :=
      land_mask 6 10 bound
    rw [IsLinkLocal, octets, inBlock_pair (by decide) length, seg, beq_iff_eq, mask]
    show (hi.val * 256 + lo.val) / 64 = 1018 ↔ _
    omega
  simp only [netScope, Protocol.scopeClass, unique, linkLocal]

/-! ## The scope of an address -/

/-- **The scope is the class of the last IP component**, wherever it stands. -/
theorem classify_scope (a : Multiaddr) :
    (classifyAddr a).1 = ((a.iter.filterMap Protocol.scopeClass).getLast?).getD .publicNet := by
  obtain ⟨components⟩ := a
  show (components.foldl classifyStep (.publicNet, .other)).1 = _
  simp only [Multiaddr.iter]
  induction components using List.reverseRecOn with
  | nil => rfl
  | append_singleton before p ih =>
    rw [List.foldl_append, List.foldl_cons, List.foldl_nil, List.filterMap_append]
    cases p with
    | ip4 ip =>
      rw [List.filterMap_cons_some ip.netScope_eq.symm, List.filterMap_nil, List.getLast?_concat]
      rfl
    | ip6 ip =>
      rw [List.filterMap_cons_some ip.netScope_eq.symm, List.filterMap_nil, List.getLast?_concat]
      rfl
    | _ =>
      rw [List.filterMap_cons_none rfl, List.filterMap_nil, List.append_nil, ← ih]
      rfl

/-! ## The transport of an address -/

/-- QUIC, in either version. -/
def Protocol.isQuic : Protocol → Bool
  | .quic | .quicV1 => true
  | _ => false

/-- TCP, on any port. -/
def Protocol.isTcp : Protocol → Bool
  | .tcp _ => true
  | _ => false

/-- A websocket, secure or not. -/
def Protocol.isWebsocket : Protocol → Bool
  | .ws _ | .wss _ => true
  | _ => false

/-- The components behind the last circuit: all of them when there is none. -/
def Multiaddr.behindCircuit (a : Multiaddr) : List Protocol :=
  a.iter.rtakeWhile fun p => !decide (p = .p2pCircuit)

/-- One round of the loop, for the transport: TCP takes the place of a circuit or of nothing, and
gives way to QUIC. -/
theorem classifyStep_transport (class' : NetScope × Transport) (p : Protocol) :
    (classifyStep class' p).2 =
      if p = .p2pCircuit then .relay
      else if p.isQuic then .quic
      else if p.isTcp then if class'.2.rank > Transport.tcp.rank then .tcp else class'.2
      else class'.2 := by
  cases p <;> rfl

/-- The transport of a fold over components. The induction adds the last component. -/
theorem foldl_transport (components : List Protocol) :
    (components.foldl classifyStep (.publicNet, .other)).2 =
      if (components.rtakeWhile fun p => !decide (p = .p2pCircuit)).any Protocol.isQuic then .quic
      else if (components.rtakeWhile fun p => !decide (p = .p2pCircuit)).any Protocol.isTcp then
        .tcp
      else if components.any fun p => decide (p = .p2pCircuit) then .relay
      else .other := by
  induction components using List.reverseRecOn with
  | nil => rfl
  | append_singleton before p ih =>
    rw [List.foldl_append, List.foldl_cons, List.foldl_nil, classifyStep_transport, ih]
    by_cases circuit : p = .p2pCircuit
    · rw [List.rtakeWhile_concat_neg _ _ _ (by simp [circuit]), if_pos circuit, List.any_append]
      simp [circuit]
    · rw [List.rtakeWhile_concat_pos _ _ _ (by simp [circuit]), if_neg circuit]
      simp only [List.any_append, List.any_cons, List.any_nil, circuit, decide_false, Bool.or_false]
      cases (before.rtakeWhile _).any Protocol.isQuic <;>
        cases (before.rtakeWhile _).any Protocol.isTcp <;>
        cases before.any _ <;> cases p.isQuic <;> cases p.isTcp <;> rfl

/-- **The transport is decided behind the last circuit**: QUIC comes before TCP there, and where
neither occurs it is the circuit, or nothing that is ranked. -/
theorem classify_transport (a : Multiaddr) : (classifyAddr a).2 =
    if a.behindCircuit.any Protocol.isQuic then .quic
    else if a.behindCircuit.any Protocol.isTcp then .tcp
    else if RelayManager.addrIsRelay a then .relay
    else .other :=
  foldl_transport a.components

/-! ## Circuits -/

/-- **Ranking and relay tracking agree** on an address exactly when it has no circuit, or neither
QUIC nor TCP stands behind its last one. -/
theorem relay_agrees_iff (a : Multiaddr) :
    ((classifyAddr a).2 = .relay ↔ RelayManager.addrIsRelay a = true) ↔
      RelayManager.addrIsRelay a = false ∨
        ∀ p ∈ a.behindCircuit, p.isQuic = false ∧ p.isTcp = false := by
  have behind : (∀ p ∈ a.behindCircuit, p.isQuic = false ∧ p.isTcp = false) ↔
      a.behindCircuit.any Protocol.isQuic = false ∧ a.behindCircuit.any Protocol.isTcp = false := by
    simp only [List.any_eq_false, Bool.not_eq_true, forall_and]
  rw [behind, classify_transport]
  cases RelayManager.addrIsRelay a <;> cases a.behindCircuit.any Protocol.isQuic <;>
    cases a.behindCircuit.any Protocol.isTcp <;> decide

/-- **A circuit with TCP behind it is ranked as TCP.** -/
theorem circuit_ranked_as_tcp :
    ¬ ∀ a : Multiaddr, (classifyAddr a).2 = .relay ↔ RelayManager.addrIsRelay a = true := by
  intro always
  have agrees := always ((Multiaddr.empty.withProtocol .p2pCircuit).withProtocol (.tcp 4001))
  exact absurd (agrees.mpr (by decide)) (by decide)

/-! ## Direct addresses -/

/-- The transport of a direct address, by what occurs in it. A websocket is not ranked. -/
def Multiaddr.directTransport (a : Multiaddr) : Transport :=
  if a.iter.any Protocol.isWebsocket then .other
  else if a.iter.any Protocol.isQuic then .quic
  else if a.iter.any Protocol.isTcp then .tcp
  else .other

/-- The class of a direct address. -/
def Multiaddr.directClass (a : Multiaddr) : NetScope × Transport :=
  (((a.iter.filterMap Protocol.scopeClass).getLast?).getD .publicNet, a.directTransport)

/-- Every component of a direct address stands behind its last circuit. -/
theorem behindCircuit_direct {a : Multiaddr} (direct : RelayManager.addrIsRelay a = false) :
    a.behindCircuit = a.iter := by
  refine List.rtakeWhile_eq_self_iff.mpr fun p hp => ?_
  simpa using List.any_eq_false.mp direct p hp

/-- **The class of a direct address** is the one its components give it in any order, exactly when
no websocket is stacked on QUIC or TCP. -/
theorem direct_class_iff {a : Multiaddr} (direct : RelayManager.addrIsRelay a = false) :
    classifyAddr a = a.directClass ↔
      ¬ (a.iter.any Protocol.isWebsocket = true ∧
        ∃ p ∈ a.iter, p.isQuic = true ∨ p.isTcp = true) := by
  have ranked : (∃ p ∈ a.iter, p.isQuic = true ∨ p.isTcp = true) ↔
      a.iter.any Protocol.isQuic = true ∨ a.iter.any Protocol.isTcp = true := by
    simp only [List.any_eq_true, ← exists_or, and_or_left]
  have scope : classifyAddr a = a.directClass ↔ (classifyAddr a).2 = a.directTransport :=
    ⟨congrArg Prod.snd, fun same => Prod.ext (classify_scope a) same⟩
  rw [scope, classify_transport, behindCircuit_direct direct, direct, ranked,
    Multiaddr.directTransport]
  cases a.iter.any Protocol.isWebsocket <;> cases a.iter.any Protocol.isQuic <;>
    cases a.iter.any Protocol.isTcp <;> decide

/-- An address with TCP and no websocket. -/
theorem direct_class_iff_tcp :
    classifyAddr (Multiaddr.empty.withProtocol (.tcp 4001)) =
      (Multiaddr.empty.withProtocol (.tcp 4001)).directClass :=
  (direct_class_iff (by decide)).mpr (by decide)

/-- **A websocket over TCP is ranked as TCP.** -/
theorem websocket_ranked_as_tcp :
    ¬ ∀ a : Multiaddr, RelayManager.addrIsRelay a = false → classifyAddr a = a.directClass := by
  intro always
  have same := always
    ((Multiaddr.empty.withProtocol (.tcp 443)).withProtocol (.wss Protocol.rootPath)) (by decide)
  exact absurd same (by decide)

end Saved
