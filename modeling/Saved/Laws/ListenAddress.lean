import Saved.Laws.Destination
import Saved.Laws.RelayPolicy

/-!
# The listen address of a reservation

A reservation with a relay is asked for by listening on an address that goes through it: the way to
the relay, the relay, and the circuit. The identify arm puts the last two behind the first address
stored for the relay, whatever it is, so the listen address is well formed exactly when that address
is the way alone (`listen_address_iff`).
-/

namespace Saved

open Saved.Lib SavedNetwork

variable {env : Env} {s u : SavedNetwork} {r : PeerId} {a : Multiaddr}

/-- The components that name a peer or a circuit. -/
def Protocol.isHop : Protocol → Bool
  | .p2p _ => true
  | .p2pCircuit => true
  | _ => false

/-- An address with no peer and no circuit in it. -/
def Multiaddr.isBare (addr : Multiaddr) : Bool := addr.iter.all fun p => !p.isHop

/-- **A well formed listen address**: one circuit, in last position, and one peer, the relay, right
before it. -/
def Multiaddr.ListensThrough (addr : Multiaddr) (relay : PeerId) : Prop :=
  ∃ way, addr.iter = way ++ [.p2p relay, .p2pCircuit] ∧ ∀ p ∈ way, p.isHop = false

/-- The listen address that the identify arm builds on an address of the relay. -/
def listenAddr (first : Multiaddr) (relay : PeerId) : Multiaddr :=
  (first.withProtocol (.p2p relay)).withProtocol .p2pCircuit

/-- The address the relay client listens on, in components. -/
theorem listenAddr_iter : (listenAddr a r).iter = a.iter ++ [.p2p r, .p2pCircuit] :=
  List.append_assoc _ _ _

/-- The listen address names the relay once, and as the last peer, exactly when what it was built
from names no peer and no circuit. -/
theorem listensThrough_iff : (listenAddr a r).ListensThrough r ↔ a.isBare = true := by
  unfold Multiaddr.ListensThrough Multiaddr.isBare
  rw [listenAddr_iter, List.all_eq_true]
  constructor
  · intro listens
    obtain ⟨way, shape, plain⟩ := listens
    obtain rfl := List.append_cancel_right shape
    intro p mem
    rw [plain p mem]
    rfl
  · intro bare
    refine ⟨a.iter, rfl, fun p mem => ?_⟩
    simpa using bare p mem

/-- A way without peers and circuits does not mislead the parser, whatever peer it saw before. -/
theorem extractFrom_way {way : List Protocol} (plain : ∀ p ∈ way, p.isHop = false)
    (last : Option PeerId) :
    RelayManager.extractFrom last (way ++ [.p2p r, .p2pCircuit]) = some r := by
  induction way generalizing last with
  | nil => rfl
  | cons p way ih =>
    have here := plain p List.mem_cons_self
    have rest := ih fun q mem => plain q (List.mem_cons_of_mem _ mem)
    cases p with
    | p2p _ | p2pCircuit => cases here
    | _ => exact rest _

/-- The relay is read off a well formed listen address. -/
theorem extract_of_listensThrough (listens : a.ListensThrough r) :
    RelayManager.extractRelayPeer a = some r := by
  obtain ⟨way, shape, plain⟩ := listens
  unfold RelayManager.extractRelayPeer
  rw [shape]
  exact extractFrom_way plain none

namespace SavedNetwork

/-- The node in an identify turn, once the protocols and the listen addresses of the peer are
stored. -/
def identified (env : Env) (r : PeerId) (protocols : List StreamProtocol)
    (listenAddrs : List Multiaddr) (s : SavedNetwork) : Option SavedNetwork :=
  ({ s with view := s.view.setProtocols r protocols } : SavedNetwork).addAddresses env
    (listenAddrs.map fun addr => (r, addr))

/-- The peer offers hops, as far as the view knows. -/
def offersHops (s : SavedNetwork) (r : PeerId) : Bool :=
  ((s.view.peers.get r).map (·.supportsRelayHopV2)).getD false

/-- The turn of an identify answer ends with the request for a reservation, in the state that the
earlier parts left. -/
theorem step_identified {protocols : List StreamProtocol} {listenAddrs : List Multiaddr}
    (identified : s.identified env r protocols listenAddrs = some u) :
    s.step env (.event (.identifyReceived r protocols listenAddrs)) =
      some (u.requestReservation env r) := by
  have turn : s.step env (.event (.identifyReceived r protocols listenAddrs)) =
      (s.identified env r protocols listenAddrs).map (requestReservation env r) :=
    Proc.exec_attempt_update _ _ ({ s with view := s.view.setProtocols r protocols } : SavedNetwork)
  rw [turn, identified]
  rfl

/-- With room for a relay that offers hops, the request listens on its first address. -/
theorem requestReservation_eq {m : AddressMetadata} {rest : List AddressMetadata}
    (hops : u.offersHops r = true) (room : u.relayManager.canReserve r = true)
    (first : u.view.addressesOf r = m :: rest) : u.requestReservation env r =
      u.tell [.listenOn (listenAddr m.address r) (env.listenOk u.asked)] := by
  have known : (u.view.peers.get r).bind (fun p => p.addresses.head?) = some m := by
    unfold NetworkView.addressesOf at first
    cases found : u.view.peers.get r with
    | none =>
      rw [found] at first
      cases first
    | some info =>
      rw [found] at first
      exact congrArg List.head? first
  unfold offersHops at hops
  unfold requestReservation
  simp only [hops, room, known, if_true, Bool.not_true, Bool.false_eq_true, if_false]
  rfl

end SavedNetwork

/-- **The listen address is well formed exactly when the first stored address is bare**: in every
state, for every relay that offers hops and may be reserved, whatever its addresses. The turn makes
one listen call, and the relay is read off a well formed address. -/
theorem listen_address_iff (env : Env) {s u : SavedNetwork} {r : PeerId}
    {protocols : List StreamProtocol} {listenAddrs : List Multiaddr} {m : AddressMetadata}
    {rest : List AddressMetadata} (identified : s.identified env r protocols listenAddrs = some u)
    (hops : u.offersHops r = true) (room : u.relayManager.canReserve r = true)
    (first : u.view.addressesOf r = m :: rest) :
    ∃ addr, s.step env (.event (.identifyReceived r protocols listenAddrs)) =
        some (u.tell [.listenOn addr (env.listenOk u.asked)]) ∧
      (addr.ListensThrough r ∧ RelayManager.extractRelayPeer addr = some r ↔
        m.address.isBare = true) := by
  refine ⟨listenAddr m.address r, ?_, ?_⟩
  · rw [step_identified identified, requestReservation_eq hops room first]
  · rw [← listensThrough_iff, and_iff_left_of_imp extract_of_listensThrough]

/-- A relay introduces itself with an address in the private network. -/
theorem listen_address_bare : ∃ (u : SavedNetwork) (addr : Multiaddr),
    (SavedNetwork.start ⟨[0]⟩ 4).step .calm (identifyRelay 1) =
      some (u.tell [.listenOn addr true]) ∧ addr.ListensThrough ⟨[1]⟩ := by
  have computed : (((SavedNetwork.start ⟨[0]⟩ 4).identified .calm ⟨[1]⟩
      ["/libp2p/circuit/relay/0.2.0/hop"] [lanAddr 1]).any fun u => u.offersHops ⟨[1]⟩ &&
        u.relayManager.canReserve ⟨[1]⟩ &&
        (u.view.addressesOf ⟨[1]⟩).head?.any fun m => m.address.isBare) = true := by decide
  obtain ⟨u, identified, shape⟩ := (Option.any_eq_true _ _).mp computed
  simp only [Bool.and_eq_true, Option.any_eq_true] at shape
  obtain ⟨⟨hops, room⟩, m, first, bare⟩ := shape
  obtain ⟨rest, vector⟩ := List.head?_eq_some_iff.mp first
  obtain ⟨addr, turn, formed⟩ := listen_address_iff .calm identified hops room vector
  exact ⟨u, addr, turn, (formed.mpr bare).1⟩

/-- **An address that carries its peer names it twice**: as mDNS reports it, it ends with
`/p2p/<relay>` already. -/
theorem relay_named_twice : ¬ ∀ (env : Env) (me : PeerId) (max : Nat) (h : List Input)
    (s s' : SavedNetwork) (r : PeerId) (protocols : List StreamProtocol)
    (listenAddrs : List Multiaddr) (new : List Call) (addr : Multiaddr) (ok : Bool),
    Run (SavedNetwork.step env) (fun h _ i => i.genuine h = true) (.start me max) h s →
    s.step env (.event (.identifyReceived r protocols listenAddrs)) = some s' →
    s'.swarm.calls = s.swarm.calls ++ new → .listenOn addr ok ∈ new → addr.ListensThrough r := by
  intro always
  obtain ⟨s, run, shape⟩ : ∃ s, Run (SavedNetwork.step .calm) (fun h _ i => i.genuine h = true)
      (.start ⟨[0]⟩ 4) [Input.event (.mdnsDiscovered [(⟨[1]⟩, boundAddr 1 ⟨[1]⟩)])] s ∧
      ((s.step .calm (.event
        (.identifyReceived ⟨[1]⟩ ["/libp2p/circuit/relay/0.2.0/hop"] []))).any fun s' =>
          decide (s'.swarm.calls = s.swarm.calls ++
            [Call.listenOn (listenAddr (boundAddr 1 ⟨[1]⟩) ⟨[1]⟩) true])) = true :=
    Run.exists_of_replay (by decide)
  obtain ⟨s', returned, calls⟩ := (Option.any_eq_true _ _).mp shape
  have listens := always _ _ _ _ s s' ⟨[1]⟩ _ _ _ _ true run returned (of_decide_eq_true calls)
    List.mem_cons_self
  exact Bool.false_ne_true (listensThrough_iff.mp listens)

end Saved
