import Saved.Network

/-!
# What the methods ensure

One rule for each method that the handlers call: the exits it has, when it takes them, and the state
it leaves at each. They are rules of `Proc.Ensures`, so a proof about a handler rewrites with them
where the handler calls the method, and looks into no method twice.
-/

namespace Saved

open Saved.Lib SavedNetwork

variable {env : Env} {s : SavedNetwork} {Q : Except SavedError Unit → SavedNetwork → Prop}

/-- `broadcast` with `?`: the call is recorded in both cases, and without a receiver it ends the
caller with the event as the error. -/
theorem ensures_broadcast {event : SavedNetworkEvent} : (broadcast env event).Ensures s Q ↔
    (env.sendOk s.asked = true → Q (.ok ()) (s.tell [.send event])) ∧
    (¬ env.sendOk s.asked = true →
      Q (.error (.tokioBroadcastNetEvent event)) (s.tell [.send event])) := by
  unfold broadcast
  simp only [Proc.ensures_bind, Proc.exits_ok, Proc.ensures_get, Proc.ensures_update,
    Proc.ensures_ite, Proc.ensures_pure, Proc.ensures_throw]

/-- mDNS is on, or starts, or does not start. -/
theorem ensures_startMdns : (setMdnsEnabled env true).Ensures s Q ↔
    (s.swarm.mdns = true → Q (.ok ()) s) ∧
    (¬ s.swarm.mdns = true →
      (env.mdnsOk s.asked = true → Q (.ok ()) ((s.tell [.startMdns]).withMdns true)) ∧
      (¬ env.mdnsOk s.asked = true → Q (.error .io) (s.tell [.startMdns]))) := by
  unfold setMdnsEnabled
  simp only [Proc.ensures_bind, Proc.exits_ok, Proc.ensures_get, Proc.ensures_update,
    Proc.ensures_ite, Proc.ensures_pure, Proc.ensures_throw, if_true]

/-- Switching mDNS off drops the behaviour and cannot fail. -/
theorem ensures_stopMdns : (setMdnsEnabled env false).Ensures s Q ↔
    Q (.ok ()) (s.withMdns false) := by
  unfold setMdnsEnabled
  simp only [Proc.ensures_bind, Proc.exits_ok, Proc.ensures_get, Proc.ensures_update,
    Bool.false_eq_true, if_false]

/-- Enabling makes a new behaviour in the mode that is given, also where there was one. -/
theorem ensures_setKadEnabled {enabled : Bool} {mode : KadMode} :
    (setKadEnabled enabled mode).Ensures s Q ↔
      (enabled = true → Q (.ok ()) (s.withKad (some ⟨mode.toMode⟩))) ∧
      (¬ enabled = true → Q (.ok ()) (s.withKad none)) := by
  unfold setKadEnabled
  simp only [Proc.ensures_ite, Proc.ensures_update]

/-- The query is started where Kademlia is on, and is an error otherwise. -/
theorem ensures_kadFindPeer {target : PeerId} : (kadFindPeer target).Ensures s Q ↔
    (s.swarm.kad.isSome = true → Q (.ok ()) (s.tell [.getClosestPeers target])) ∧
    (¬ s.swarm.kad.isSome = true → Q (.error .kadDisabled) s) := by
  unfold kadFindPeer
  simp only [Proc.ensures_bind, Proc.exits_ok, Proc.ensures_get, Proc.ensures_update,
    Proc.ensures_ite, Proc.ensures_throw]

/-- `bootstrap` fails without Kademlia and without known peers. In the second case libp2p was
asked. -/
theorem ensures_kadBootstrap : (kadBootstrap env).Ensures s Q ↔
    (s.swarm.kad.isSome = true →
      (env.bootstrapOk s.asked = true → Q (.ok ()) (s.tell [.bootstrap])) ∧
      (¬ env.bootstrapOk s.asked = true → Q (.error .kadNoKnownPeers) (s.tell [.bootstrap]))) ∧
    (¬ s.swarm.kad.isSome = true → Q (.error .kadDisabled) s) := by
  unfold kadBootstrap
  simp only [Proc.ensures_bind, Proc.exits_ok, Proc.ensures_get, Proc.ensures_update,
    Proc.ensures_ite, Proc.ensures_pure, Proc.ensures_throw]

/-- The address names a peer somewhere: what `dial` asks of it. -/
def Multiaddr.namesPeer (addr : Multiaddr) : Bool :=
  addr.iter.any fun p => match p with | .p2p _ => true | _ => false

/-- A dial without `/p2p` is refused before libp2p hears of it, and the swarm's own refusal comes
after the call. -/
theorem ensures_dial {addr : Multiaddr} : (dial env addr).Ensures s Q ↔
    (addr.namesPeer = true →
      (env.dialOk s.asked = true → Q (.ok ()) (s.tell [.dial addr (env.dialOk s.asked)])) ∧
      (¬ env.dialOk s.asked = true →
        Q (.error (.dial addr)) (s.tell [.dial addr (env.dialOk s.asked)]))) ∧
    (¬ addr.namesPeer = true → Q (.error (.dialAddrMissingP2p addr)) s) := by
  unfold dial
  simp only [Proc.ensures_bind, Proc.exits_ok, Proc.ensures_get, Proc.ensures_update,
    Proc.ensures_ite, Proc.ensures_pure, Proc.ensures_throw]
  exact Iff.rfl

end Saved
