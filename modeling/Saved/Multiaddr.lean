import Saved.Lib.PrefixCode

/-!
# Peer ids and multiaddresses

A `PeerId` is its bytes. A `Multiaddr` is a list of protocol components; the program reads the
components (`iter`), appends one (`with`), compares addresses for equality, and orders them. The
order is the lexicographic order of the binary encoding: each component is the varint of its
protocol code, then its payload, behind its length where the protocol has no fixed size.

The components the program names have constructors of their own. Every other protocol is an
`OtherProtocol`, which carries its code and its bytes.

`Multiaddr.toBytes_injective` is what makes the order a total order of addresses: two addresses
with the same bytes are the same address.
-/

namespace Saved

open Saved.Lib

/-- A peer's identity. -/
structure PeerId where
  bytes : List Byte
  deriving DecidableEq

/-- `PeerId::to_bytes`. -/
def PeerId.toBytes (p : PeerId) : List Byte := p.bytes

/-- Four octets. -/
structure Ipv4Addr where
  octets : List Byte
  size : octets.length = 4
  deriving DecidableEq

/-- Sixteen octets. -/
structure Ipv6Addr where
  octets : List Byte
  size : octets.length = 16
  deriving DecidableEq

/-- The first segment, big-endian. -/
def Ipv6Addr.seg0 (ip : Ipv6Addr) : Nat :=
  match ip.octets with
  | hi :: lo :: _ => hi.val * 256 + lo.val
  | _ => 0

/-- `Ipv6Addr::is_unicast_link_local`: the prefix fe80::/10. -/
def Ipv6Addr.isUnicastLinkLocal (ip : Ipv6Addr) : Bool := ip.seg0 &&& 0xffc0 == 0xfe80

/-- A port. -/
abbrev Port := Fin 65536

instance Port.neZero : NeZero 65536 := ⟨by decide⟩

/-- The codes of the protocols that have a constructor of their own in `Protocol`. -/
def namedCodes : List Nat :=
  [4, 6, 41, 42, 53, 54, 55, 56, 273, 290, 421, 460, 461, 477, 478, 4770, 4780]

/-- The payload size of a protocol code, where the format fixes one. Names, paths and hashes have
none: they stand behind their length. -/
def fixedSize : Nat → Option Nat
  | 4 => some 4
  | 6 | 33 | 132 | 273 => some 2
  | 41 => some 16
  | 43 => some 1
  | 275 | 276 | 277 | 280 | 290 | 301 | 302 | 443 | 448 | 454 | 460 | 461 | 465 => some 0
  | 477 | 478 | 479 | 480 => some 0
  | 444 => some 12
  | 445 => some 37
  | 777 => some 8
  | _ => none

/-- A protocol the program does not name. -/
structure OtherProtocol where
  code : Nat
  payload : List Byte
  unnamed : code ∉ namedCodes
  sized : ∀ n, fixedSize code = some n → payload.length = n
  deriving DecidableEq

/-- One component of an address. -/
inductive Protocol where
  | ip4 (ip : Ipv4Addr)
  | ip6 (ip : Ipv6Addr)
  | ip6zone (zone : List Byte)
  | dns (name : List Byte)
  | dns4 (name : List Byte)
  | dns6 (name : List Byte)
  | dnsaddr (name : List Byte)
  | tcp (port : Port)
  | udp (port : Port)
  | quic
  | quicV1
  | ws (path : List Byte)
  | wss (path : List Byte)
  | p2p (peer : PeerId)
  | p2pCircuit
  | other (protocol : OtherProtocol)
  deriving DecidableEq

namespace Protocol

/-- The path a websocket has when none is written. -/
def rootPath : List Byte := [47]

/-- The protocol code. A websocket with a path of its own has a second code. -/
def code : Protocol → Nat
  | ip4 _ => 4
  | tcp _ => 6
  | ip6 _ => 41
  | ip6zone _ => 42
  | dns _ => 53
  | dns4 _ => 54
  | dns6 _ => 55
  | dnsaddr _ => 56
  | udp _ => 273
  | p2pCircuit => 290
  | p2p _ => 421
  | quic => 460
  | quicV1 => 461
  | ws path => if path = rootPath then 477 else 4770
  | wss path => if path = rootPath then 478 else 4780
  | other protocol => protocol.code

/-- The two bytes of a port, big-endian. -/
def portBytes (port : Port) : List Byte :=
  [Fin.ofNat 256 (port.val / 256), Fin.ofNat 256 port.val]

/-- The payload. -/
def payload : Protocol → List Byte
  | ip4 ip => ip.octets
  | ip6 ip => ip.octets
  | ip6zone zone => zone
  | dns name | dns4 name | dns6 name | dnsaddr name => name
  | tcp port | udp port => portBytes port
  | quic | quicV1 | p2pCircuit => []
  | ws path | wss path => if path = rootPath then [] else path
  | p2p peer => peer.toBytes
  | other protocol => protocol.payload

/-- What stands after the code. -/
def body (p : Protocol) : List Byte :=
  if (fixedSize p.code).isSome then p.payload else frame p.payload

/-- **The bytes of one component.** -/
def toBytes (p : Protocol) : List Byte := varint p.code ++ p.body

/-! ## A component is its code and its payload -/

/-- The port two bytes stand for. -/
def readPort : List Byte → Port
  | [hi, lo] => Fin.ofNat 65536 (hi.val * 256 + lo.val)
  | _ => 0

/-- A port is two bytes and reads back, so the reader of a component loses none. -/
theorem readPort_portBytes (port : Port) : readPort (portBytes port) = port := by
  apply Fin.ext
  simp only [portBytes, readPort, Fin.ofNat]
  omega

/-- Read a component back from its code and its payload. -/
def read (code : Nat) (payload : List Byte) : Option Protocol :=
  match code with
  | 4 => if h : payload.length = 4 then some (.ip4 ⟨payload, h⟩) else none
  | 6 => some (.tcp (readPort payload))
  | 41 => if h : payload.length = 16 then some (.ip6 ⟨payload, h⟩) else none
  | 42 => some (.ip6zone payload)
  | 53 => some (.dns payload)
  | 54 => some (.dns4 payload)
  | 55 => some (.dns6 payload)
  | 56 => some (.dnsaddr payload)
  | 273 => some (.udp (readPort payload))
  | 290 => some .p2pCircuit
  | 421 => some (.p2p ⟨payload⟩)
  | 460 => some .quic
  | 461 => some .quicV1
  | 477 => some (.ws rootPath)
  | 478 => some (.wss rootPath)
  | 4770 => some (.ws payload)
  | 4780 => some (.wss payload)
  | code =>
    if h : code ∉ namedCodes ∧ ∀ n ∈ fixedSize code, payload.length = n then
      some (.other ⟨code, payload, h.1, h.2⟩)
    else none

/-- A code with no constructor of its own reads as another protocol. -/
theorem read_other (p : OtherProtocol) : read p.code p.payload = some (.other p) := by
  obtain ⟨code, payload, unnamed, sized⟩ := p
  have names := unnamed
  simp only [namedCodes, List.mem_cons, List.not_mem_nil, or_false, not_or] at names
  change read code payload = some (.other ⟨code, payload, unnamed, sized⟩)
  unfold read
  split
  all_goals first
    | (exfalso; omega)
    | exact dif_pos ⟨unnamed, sized⟩

/-- **A component reads back from its code and its payload.** The named ones are read by their
codes; every other keeps the two as they are. -/
theorem read_payload (p : Protocol) : read p.code p.payload = some p := by
  cases p with
  | ip4 ip => exact dif_pos ip.size
  | ip6 ip => exact dif_pos ip.size
  | tcp port => exact congrArg (fun q => some (tcp q)) (readPort_portBytes port)
  | udp port => exact congrArg (fun q => some (udp q)) (readPort_portBytes port)
  | ws path =>
    by_cases h : path = rootPath
    · subst h; rfl
    · simp only [code, payload, if_neg h]; rfl
  | wss path =>
    by_cases h : path = rootPath
    · subst h; rfl
    · simp only [code, payload, if_neg h]; rfl
  | other p => exact read_other p
  | _ => rfl

/-- The payload of a code with a fixed size has that size. -/
theorem payload_length {p : Protocol} {n : Nat} (h : fixedSize p.code = some n) :
    p.payload.length = n := by
  cases p with
  | ip4 ip => cases h; exact ip.size
  | ip6 ip => cases h; exact ip.size
  | ws path =>
    by_cases hp : path = rootPath <;> simp only [code, hp, if_true, if_false] at h
    · cases h; rw [payload, if_pos hp]; rfl
    · cases h
  | wss path =>
    by_cases hp : path = rootPath <;> simp only [code, hp, if_true, if_false] at h
    · cases h; rw [payload, if_pos hp]; rfl
    · cases h
  | other p => exact p.sized n h
  | _ => cases h <;> rfl

/-- **Components are self-delimiting.** -/
theorem toBytes_selfDelimiting : SelfDelimiting toBytes := by
  refine varint_selfDelimiting.tagged ?_
  intro p q r s (sameCode : p.code = q.code) h
  have parts : p.payload = q.payload ∧ r = s := by
    unfold body at h
    rw [← sameCode] at h
    cases size : fixedSize p.code with
    | none =>
      simp only [size, Option.isSome_none, Bool.false_eq_true, if_false] at h
      exact frame_selfDelimiting h
    | some n =>
      simp only [size, Option.isSome_some, if_true] at h
      exact fixed_cancel ((payload_length size).trans (payload_length (sameCode ▸ size)).symm) h
  refine ⟨?_, parts.2⟩
  have := read_payload p
  rw [sameCode, parts.1, read_payload q] at this
  exact (Option.some.inj this).symm

/-- A component has at least its code. So an address that continues another is longer. -/
theorem toBytes_ne_nil (p : Protocol) : p.toBytes ≠ [] :=
  List.append_ne_nil_of_left_ne_nil (varint_ne_nil _) _

end Protocol

/-- **A multiaddress**: its components, in order. -/
structure Multiaddr where
  components : List Protocol
  deriving DecidableEq

namespace Multiaddr

/-- `Multiaddr::empty`. -/
def empty : Multiaddr := ⟨[]⟩

/-- `Multiaddr::iter`. -/
def iter (a : Multiaddr) : List Protocol := a.components

/-- `Multiaddr::with`. -/
def withProtocol (a : Multiaddr) (p : Protocol) : Multiaddr := ⟨a.components ++ [p]⟩

/-- The binary encoding. -/
def toBytes (a : Multiaddr) : List Byte := a.components.flatMap Protocol.toBytes

/-- **Two addresses with one encoding are one address**, since each component says where it ends.
`Ord` of `Multiaddr` is the order of the encoding, so it is a total order on addresses. -/
theorem toBytes_injective : Function.Injective toBytes := by
  rintro ⟨as⟩ ⟨bs⟩ h
  exact congrArg mk (Protocol.toBytes_selfDelimiting.flatMap_injective Protocol.toBytes_ne_nil h)

/-- **The order of addresses** is the order of their bytes. -/
instance : LinearOrder Multiaddr := LinearOrder.lift' toBytes toBytes_injective

end Multiaddr

end Saved
