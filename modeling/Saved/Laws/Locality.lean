import Saved.Laws.Deeds

/-!
# A turn is about the peers its input names

What a turn may do, told by the state before it: the entries of peers that the input does not name
stay as they are, and every call is one that the input calls for (`turn_is_local`). A dial goes to
an address that was known of a named peer or is brought by the input, unless a handle asked for it;
a connection that is closed was a named peer's, or is the one just opened; and only a change of the
connections or of the reservations disconnects a relay.
-/

namespace Saved

open Saved.Lib SavedNetwork

variable {env : Env} {i : Input} {s s' t : SavedNetwork} {p q : PeerId} {a : Multiaddr}
  {c : ConnectionId} {op : ViewOp} {call : Call}

/-- **The calls that an input calls for**, by the state before the turn. -/
def Input.callsFor (i : Input) (s : SavedNetwork) : Call → Prop
  | .dial a _ => i = .rpc (.dial a) ∧ a.namesPeer = true ∨
    ∃ p ∈ i.names, a ∈ (s.view.addressesOf p).map (·.address) ∨ (p, a) ∈ i.brings
  | .closeConnection c => ∃ p ∈ i.names, s.isPruneLeader p = true ∧
    ((s.view.getConnectionAddress p c).isSome = true ∨
      ∃ endpoint, i = .event (.connectionEstablished p c endpoint))
  | .disconnectPeerId _ => i.movesRelays = true
  | .listenOn _ _ =>
    ∃ p protocols listenAddrs, i = .event (.identifyReceived p protocols listenAddrs)
  | .kadAddAddress p a => (p, a) ∈ i.brings
  | .kadRemoveAddress p a => (p, a) ∈ i.forgets
  | .getClosestPeers target => i = .rpc (.kadFindPeer target) ∨ i.movesConnections = true
  | .bootstrap => i = .rpc .kadBootstrap
  | .startMdns => i = .rpc (.setMdnsEnabled true) ∨ i.movesConnections = true
  | .send news => news ∈ i.announces s.swarm.localPeerId

/-! ## What the operations of a turn bring -/

/-- An address that is offered and not skipped is brought. -/
theorem mem_brings_of_offered {entry : PeerId × Multiaddr} (offered : entry ∈ i.offers)
    (kept : shouldSkipForDial entry.2 = false) : entry ∈ i.brings := by
  cases i with
  | rpc rpc => cases offered
  | event event =>
    cases event with
    | connectionEstablished => cases offered
    | _ => exact List.mem_filter.mpr ⟨offered, by rw [kept]; rfl⟩

/-- The entry that an allowed operation opens is brought. -/
theorem opens_allowed {entry : PeerId × Multiaddr} (allowed : i.allows env s (.op op))
    (opens : op.opens = some entry) : entry ∈ i.brings := by
  cases op with
  | addAddress now p a =>
    cases opens
    exact mem_brings_of_offered allowed.1 allowed.2
  | addConnection now p c endpoint =>
    cases opens
    obtain rfl : i = _ := allowed
    exact List.mem_cons_self
  | _ => cases opens

/-- The peer of an allowed operation is named. -/
theorem peer_mem_names (allowed : i.allows env s (.op op)) : op.peer ∈ i.names := by
  cases op with
  | addAddress now p a =>
    have offered : (p, a) ∈ i.offers := allowed.1
    exact mem_names_of_offered offered
  | removeAddress now p a =>
    have expired : (p, a) ∈ i.forgets := allowed
    exact mem_names_of_expired expired
  | addConnection | removeConnection =>
    obtain rfl : i = _ := allowed
    exact List.mem_cons_self
  | setProtocols =>
    obtain ⟨_, rfl⟩ := allowed
    exact List.mem_cons_self
  | markFailure => exact allowed.1
  | setRtt =>
    obtain ⟨_, rfl, _⟩ := allowed
    exact List.mem_cons_self

/-! ## What a turn touches -/

/-- **What a turn has touched so far.** -/
structure Touches (i : Input) (s t : SavedNetwork) : Prop where
  wf : t.view.WellFormed
  localPeerId : t.swarm.localPeerId = s.swarm.localPeerId
  others : ∀ q, q ∉ i.names → t.view.peers.get q = s.view.peers.get q
  known : ∀ p, ∀ a ∈ (t.view.registers p).slots,
    a ∈ (s.view.registers p).slots ∨ (p, a) ∈ i.brings
  tracked : ∀ p c a, (t.view.registers p).slotOf c = some a →
    (∃ b, (s.view.registers p).slotOf c = some b) ∨
      ∃ endpoint, i = .event (.connectionEstablished p c endpoint)
  calls : Makes (i.callsFor s) s t

namespace Touches

/-- Before its first deed a turn has touched nothing. -/
theorem start (wf : s.view.WellFormed) : Touches i s s where
  wf := wf
  localPeerId := rfl
  others _ _ := rfl
  known _ _ := .inl
  tracked _ _ a stands := .inl ⟨a, stands⟩
  calls := .of_eq rfl

/-- Changes that are no deeds do not count. -/
theorem idle (touches : Touches i s t) {u : SavedNetwork} (idle : Idle t u) : Touches i s u where
  wf := idle.view ▸ touches.wf
  localPeerId := idle.localPeerId.trans touches.localPeerId
  others := idle.view ▸ touches.others
  known := idle.view ▸ touches.known
  tracked := idle.view ▸ touches.tracked
  calls := touches.calls.trans (.of_eq idle.calls)

/-- One operation on the view, of the kinds that the input allows. -/
theorem after (touches : Touches i s t) (allowed : i.allows env t (.op op)) :
    Touches i s (t.after op) := by
  obtain ⟨wf, registers⟩ := NetworkView.apply_registers touches.wf op
  refine ⟨wf, touches.localPeerId, fun q other => ?_, fun p a here => ?_, fun p c a stands => ?_,
    touches.calls.trans (.of_eq rfl)⟩
  · have apart : q ≠ op.peer := fun same => other (same ▸ peer_mem_names allowed)
    exact (NetworkView.apply_get_ne apart).trans (touches.others q other)
  · rcases mem_slots_apply touches.wf here with old | opened
    · exact touches.known p a old
    · exact .inr (opens_allowed allowed opened)
  · change ((t.view.apply op).registers p).slotOf c = some a at stands
    rw [registers] at stands
    rcases Book.slotOf_apply stands with old | ⟨now, endpoint, rfl, _⟩
    · exact touches.tracked p c a old
    · exact .inr ⟨endpoint, allowed⟩

/-- A connection that is spare was known, or is the one just opened. -/
theorem of_spare (touches : Touches i s t) (spare : c ∈ t.spare p) :
    (s.view.getConnectionAddress p c).isSome = true ∨
      ∃ endpoint, i = .event (.connectionEstablished p c endpoint) := by
  unfold SavedNetwork.spare at spare
  split at spare
  · cases spare
  · next best rest vector =>
    split at spare
    · obtain ⟨m, later, holds⟩ := List.mem_flatMap.mp spare
      have stands : (t.view.registers p).slotOf c = some m.address := by
        refine (touches.wf p).slotOf_iff.mpr (mem_conns.mpr ⟨m, ?_, rfl, holds⟩)
        exact vector ▸ List.mem_cons_of_mem _ later
      rw [NetworkView.getConnectionAddress_eq]
      exact (touches.tracked p c _ stands).imp_left fun old => Option.isSome_iff_exists.mpr old
    · cases spare

/-- One call to the swarm, of the kinds that the input allows. The permissions name the peer of each
call. -/
theorem tell (touches : Touches i s t) (allowed : i.allows env t (.call call)) :
    Touches i s (t.tell [call]) := by
  refine { touches with calls := touches.calls.trans (.tell fun made here => ?_) }
  obtain rfl := List.mem_singleton.mp here
  have leads : ∀ q, t.isPruneLeader q = s.isPruneLeader q := fun q => by
    rw [isPruneLeader, touches.localPeerId]
    rfl
  cases made with
  | dial a ok =>
    obtain ⟨_, asked | ⟨p, named, target⟩⟩ := allowed
    · exact .inl asked
    -- the address dialed is stored, so it was stored before or was brought
    · obtain ⟨stored, best, _⟩ := dialTarget_eq_some.mp target
      exact .inr ⟨p, named, touches.known p a (best ▸ bestAddr_mem stored)⟩
  | closeConnection c =>
    obtain ⟨p, named, leader, spare⟩ := allowed
    exact ⟨p, named, (leads p).symm.trans leader, touches.of_spare spare⟩
  | disconnectPeerId relay => exact allowed.1
  | listenOn a ok =>
    obtain ⟨p, protocols, listenAddrs, here, _⟩ := allowed
    exact ⟨p, protocols, listenAddrs, here⟩
  | kadAddAddress p a => exact mem_brings_of_offered allowed.1 allowed.2.1
  | kadRemoveAddress p a => exact allowed.1
  | getClosestPeers target => exact allowed.2.imp_right And.left
  | bootstrap => exact allowed.2
  | startMdns => exact allowed.2
  | send news =>
    have announced : news ∈ i.announces t.swarm.localPeerId := allowed
    rwa [touches.localPeerId] at announced

end Touches

/-- **A turn is about the peers its input names.** In every run, a turn leaves the entry of every
other peer as it was, and makes only calls that its input calls for. -/
theorem turn_is_local (env : Env) (me : PeerId) (max : Nat)
    {ok : List Input → SavedNetwork → Input → Prop} {h : List Input} {s s' : SavedNetwork}
    {i : Input} (run : Run (SavedNetwork.step env) ok (.start me max) h s)
    (returned : s.step env i = some s') :
    (∀ q, q ∉ i.names → s'.view.peers.get q = s.view.peers.get q) ∧
    ∃ new, s'.swarm.calls = s.swarm.calls ++ new ∧ ∀ call ∈ new, i.callsFor s call := by
  have touches : Touches i s s' := (step_within returned).invariant
    (fun _ _ idle touches => touches.idle idle) (fun _ _ allowed touches => touches.after allowed)
    (fun _ _ allowed touches => touches.tell allowed) (.start (wellFormed_run run))
  exact ⟨touches.others, touches.calls⟩

/-- Two peers are found, and a connection to one of them opens. -/
theorem turn_is_local_opened : ∃ s s', Run (SavedNetwork.step .calm) (fun _ _ _ => True)
    (.start ⟨[0]⟩ 4) [.event (.mdnsDiscovered [(⟨[1]⟩, lanAddr 1), (⟨[2]⟩, lanAddr 2)])] s ∧
    s.step .calm (.event (.connectionEstablished ⟨[1]⟩ ⟨0⟩ (.dialer (lanAddr 1)))) = some s' ∧
    s'.view.peers.get ⟨[2]⟩ = s.view.peers.get ⟨[2]⟩ := by
  obtain ⟨s, run, returns⟩ : ∃ s, Run (SavedNetwork.step .calm) (fun _ _ _ => True)
      (.start ⟨[0]⟩ 4) [.event (.mdnsDiscovered [(⟨[1]⟩, lanAddr 1), (⟨[2]⟩, lanAddr 2)])] s ∧
      (s.step .calm
        (.event (.connectionEstablished ⟨[1]⟩ ⟨0⟩ (.dialer (lanAddr 1))))).isSome = true :=
    Run.exists_of_replay (by decide)
  obtain ⟨s', returned⟩ := Option.isSome_iff_exists.mp returns
  have others := (turn_is_local .calm ⟨[0]⟩ 4 run returned).1
  exact ⟨s, s', run, returned, others ⟨[2]⟩ (by decide)⟩

end Saved
