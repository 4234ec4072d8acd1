import Saved.Laws.Relays

/-!
# What one turn of the loop does

`Stepped env s i r s'` is one turn, with one rule for each kind of input, and `r` the exit of its
handler. Every invariant of the node is a case analysis on it.

The two handlers of connections share what they do once the view has changed, and `Settled` says it
with one rule for each exit: the broadcast fails, mDNS does not start, or the handler runs to its
end and updates the relays.
-/

namespace Saved

open Saved.Lib SavedNetwork

variable {env : Env} {p : PeerId} {c : ConnectionId} {s s' t u : SavedNetwork}

/-! ## Modes -/

/-- A switch to active mode has to start mDNS, and cannot. -/
def MdnsFails (env : Env) (switch : Option Bool) (t : SavedNetwork) : Prop :=
  switch = some true ∧ t.swarm.mdns = false ∧ env.mdnsOk t.asked = false

instance (env : Env) (switch : Option Bool) (t : SavedNetwork) :
    Decidable (MdnsFails env switch t) := inferInstanceAs (Decidable (_ ∧ _ ∧ _))

/-- What a switch of modes leaves, by its exit. With no switch nothing changes. -/
def ModeSwitched (env : Env) (switch : Option Bool) (t : SavedNetwork) :
    Except SavedError Unit → SavedNetwork → Prop :=
  Proc.Exits
    (fun _ u => ¬ MdnsFails env switch t ∧
      Quiet { t with activeMode := switch.getD t.activeMode } u)
    (fun _ u => MdnsFails env switch t ∧ Quiet { t with activeMode := true } u)

/-- A loop of searches, with Kademlia on, fails in no round. -/
theorem kadFindPeers_quiet {targets : List PeerId} (on : t.swarm.kad.isSome = true) :
    (targets.forM kadFindPeer).Ensures t
      (Proc.Exits (fun _ u => Quiet t u ∧ u.swarm.kad.isSome = true) fun _ _ => False) := by
  refine Proc.ensures_forM (I := fun u => Quiet t u ∧ u.swarm.kad.isSome = true) ⟨.refl t, on⟩ ?_
  intro target _ u before
  rw [ensures_kadFindPeer]
  exact ⟨fun _ => ⟨before.1.trans (.tell (by simp [Call.spares])), before.2⟩,
    fun off => absurd before.2 off⟩

/-- mDNS is started, or was on, or does not start. -/
theorem setMdnsEnabled_armed {on : SavedNetwork} :
    (setMdnsEnabled env true).Ensures on (Proc.Exits
      (fun _ u => (on.swarm.mdns = true ∨ env.mdnsOk on.asked = true) ∧ Quiet on u ∧
        u.swarm.kad = on.swarm.kad)
      fun _ u => (on.swarm.mdns = false ∧ env.mdnsOk on.asked = false) ∧ Quiet on u) := by
  have started : Quiet on (on.tell [.startMdns]) := .tell (by simp [Call.spares])
  rw [ensures_startMdns]
  refine ⟨fun isOn => ?_, fun isOff => ⟨fun answer => ?_, fun answer => ?_⟩⟩
  · exact ⟨.inl isOn, .refl on, rfl⟩
  · exact ⟨.inr answer, started.trans withMdns_quiet, rfl⟩
  · exact ⟨⟨Bool.eq_false_iff.mpr isOff, Bool.eq_false_iff.mpr answer⟩, started⟩

/-- Every way `set_active_mode` can go: nothing to do, mDNS failing on the way up, the mode going
down, and the mode going up with its searches. The clauses keep what each leaves behind. -/
theorem setActiveMode_switched {active : Bool} :
    (setActiveMode env active).Ensures t (ModeSwitched env (some active) t) := by
  unfold setActiveMode
  rw [Proc.ensures_bind, Proc.ensures_update]
  cases active with
  | false =>
    show (Proc.update (·.withKad none) : NetM Unit).Ensures _ _
    rw [Proc.ensures_update]
    exact ⟨not_and_of_not_left _ (by simp), withKad_quiet⟩
  | true =>
    let on : SavedNetwork := { t with activeMode := true }.withKad (some ⟨some .client⟩)
    have kad : Quiet { t with activeMode := true } on := withKad_quiet
    show (do
      Proc.update (·.withKad (some ⟨some .client⟩))
      setMdnsEnabled env true
      let s ← Proc.get
      s.targetPeers.toList.forM kadFindPeer : NetM Unit).Ensures _ _
    rw [Proc.ensures_bind, Proc.ensures_update, Proc.exits_ok, Proc.ensures_bind]
    refine setMdnsEnabled_armed.mono ?_
    intro r u exits
    cases r with
    | error e =>
      obtain ⟨fails, quiet⟩ := exits
      exact ⟨⟨rfl, fails⟩, kad.trans quiet⟩
    | ok _ =>
      obtain ⟨armed, quiet, same⟩ := exits
      -- mDNS was on or has started, so this is not the failing branch.
      have works : ¬ MdnsFails env (some true) t := by
        intro fails
        rcases armed with isOn | answer
        · exact Bool.false_ne_true (fails.2.1.symm.trans isOn)
        · exact Bool.false_ne_true (fails.2.2.symm.trans answer)
      -- Kademlia was switched on two lines before, so no search can fail.
      have isOn : u.swarm.kad.isSome = true := same ▸ rfl
      show (do let s ← Proc.get; s.targetPeers.toList.forM kadFindPeer : NetM Unit).Ensures u _
      rw [Proc.ensures_bind, Proc.ensures_get]
      refine (kadFindPeers_quiet isOn).mono ?_
      intro r v searched
      cases r with
      | error e => exact absurd searched id
      | ok _ => exact ⟨works, (kad.trans quiet).trans searched.1⟩

/-- The branch of a handler that does not touch the mode. -/
theorem pure_switched : (pure () : NetM Unit).Ensures t (ModeSwitched env none t) := by
  rw [Proc.ensures_pure]
  exact ⟨not_and_of_not_left _ (by simp), Quiet.refl t⟩

/-! ## The handlers of connections -/

/-- The mode a closed connection asks for, read after it is gone. -/
def closeSwitch (t : SavedNetwork) (p : PeerId) : Option Bool :=
  if p ∈ t.targetPeers ∧ t.view.isConnected p = false then some true else none

/-- The mode an opened connection asks for, read once it is there. -/
def openSwitch (t : SavedNetwork) (p : PeerId) : Option Bool :=
  if p ∈ t.targetPeers then some (t.targetPeers.toList.any fun q => !t.view.isConnected q) else none

/-- The handler of a connection exits early: nobody hears the broadcast, or mDNS has to start and
cannot. -/
def ExitsEarly (env : Env) (switch : Option Bool) (t : SavedNetwork) : Prop :=
  env.sendOk t.asked = false ∨
    switch = some true ∧ t.swarm.mdns = false ∧ env.mdnsOk (t.asked + 1) = false

/-- **What both handlers do after the change of the view**, by the way they exit. -/
inductive Settled (env : Env) (switch : Option Bool) (t : SavedNetwork) :
    Except SavedError Unit → SavedNetwork → Prop
  | unheard {e : SavedError} {u : SavedNetwork} : env.sendOk t.asked = false → Quiet t u →
      Settled env switch t (.error e) u
  | unarmed {e : SavedError} {u : SavedNetwork} : env.sendOk t.asked = true →
      ExitsEarly env switch t → Quiet { t with activeMode := true } u →
      Settled env switch t (.error e) u
  | settled {u : SavedNetwork} : ¬ ExitsEarly env switch t →
      Quiet { t with activeMode := switch.getD t.activeMode } u →
      Settled env switch t (.ok ()) u.updateRelayState

/-- **After the switch.** A failed switch is the exit; any other goes on to the end. -/
theorem settled_of_switched {event : SavedNetworkEvent} {switch : Option Bool}
    (heard : env.sendOk t.asked = true) {r : Except SavedError Unit}
    (switched : ModeSwitched env switch (t.tell [.send event]) r u) :
    Proc.Exits
      (fun _ u => ∀ v, u.reconcilePeerConnections env p = some v →
        Settled env switch t (.ok ()) v.updateRelayState)
      (fun e u => Settled env switch t (.error e) u) r u := by
  have sent : ∀ active, Quiet { t with activeMode := active }
      { t.tell [.send event] with activeMode := active } := fun active =>
    Quiet.tell (s := { t with activeMode := active }) (by simp [Call.spares])
  have count : (t.tell [.send event]).asked = t.asked + 1 := List.length_append
  cases r with
  | error e =>
    obtain ⟨fails, quiet⟩ := switched
    refine .unarmed heard (.inr ⟨fails.1, fails.2.1, ?_⟩) ((sent true).trans quiet)
    rw [← count]
    exact fails.2.2
  | ok _ =>
    obtain ⟨works, quiet⟩ := switched
    intro v returned
    -- The handler goes on to its end, which rules out both ways of leaving early.
    refine .settled ?_ (((sent _).trans quiet).trans (.reconcile returned))
    intro early
    rcases early with lost | ⟨active, off, fails⟩
    · exact Bool.false_ne_true (lost.symm.trans heard)
    · exact works ⟨active, off, count ▸ fails⟩

/-- From the mode on, the two connection handlers go the same way: reconcile, then bring the relays
up to date. An error on the way leaves before both. -/
theorem setActiveMode_settled {event : SavedNetworkEvent} {active : Bool}
    (heard : env.sendOk t.asked = true) :
    (setActiveMode env active).Ensures (t.tell [.send event]) (Proc.Exits
      (fun _ u => ∀ v, u.reconcilePeerConnections env p = some v →
        Settled env (some active) t (.ok ()) v.updateRelayState)
      (fun e u => Settled env (some active) t (.error e) u)) :=
  setActiveMode_switched.mono fun _ _ switched => settled_of_switched heard switched

/-- A broadcast that nobody hears is the exit. -/
theorem settled_of_unheard {event : SavedNetworkEvent} {switch : Option Bool} {e : SavedError}
    (lost : ¬ env.sendOk t.asked = true) : Settled env switch t (.error e) (t.tell [.send event]) :=
  .unheard (Bool.eq_false_iff.mpr lost) (.tell (by simp [Call.spares]))

/-- **A connection closed.** -/
theorem onPeerConnectionClosed_settled {t : SavedNetwork}
    (gone : t = s.onView env fun now view => view.removeConnection now p c) :
    (onPeerConnectionClosed env p c).Ensures s (Settled env (closeSwitch t p) t) := by
  unfold onPeerConnectionClosed
  simp only [Proc.ensures_bind, Proc.exits_ok, Proc.ensures_update, ensures_broadcast,
    Proc.ensures_get, Proc.ensures_ite, Proc.ensures_attempt]
  rw [← gone]
  refine ⟨fun heard => ⟨fun missing => ?_, fun present => ?_⟩, settled_of_unheard⟩
  · have switch : closeSwitch t p = some true := if_pos missing
    rw [switch]
    exact setActiveMode_settled heard
  · have switch : closeSwitch t p = none := if_neg present
    rw [switch]
    exact settled_of_switched (r := .ok ()) heard (pure_switched _ _ rfl)

/-- **A connection opened.** -/
theorem onPeerConnectionOpened_settled {e : ConnectedPoint} {t : SavedNetwork}
    (added : t = s.onView env fun now view => view.addConnection now p c e) :
    (onPeerConnectionOpened env p c e).Ensures s (Settled env (openSwitch t p) t) := by
  unfold onPeerConnectionOpened
  simp only [Proc.ensures_bind, Proc.exits_ok, Proc.ensures_update, ensures_broadcast,
    Proc.ensures_get, Proc.ensures_ite, Proc.ensures_attempt]
  rw [← added]
  refine ⟨fun heard => ⟨fun target => ⟨fun missing => ?_, fun all => ?_⟩, fun other => ?_⟩,
    settled_of_unheard⟩
  · have switch : openSwitch t p = some true := (if_pos target).trans (congrArg some missing)
    rw [switch]
    exact setActiveMode_settled heard
  · have switch : openSwitch t p = some false :=
      (if_pos target).trans (congrArg some (Bool.eq_false_iff.mpr all))
    rw [switch]
    exact setActiveMode_settled heard
  · have switch : openSwitch t p = none := if_neg other
    rw [switch]
    exact settled_of_switched (r := .ok ()) heard (pure_switched _ _ rfl)

/-- A change of the view that puts the connections where `tracked` says, and nothing else. -/
structure Changed (s t : SavedNetwork) (tracked : Tracked) : Prop extends Frame s t where
  wf : t.view.WellFormed
  tracked : t.view.tracked = tracked
  asked : t.asked = s.asked
  mdns : t.swarm.mdns = s.swarm.mdns

/-- The first line of `on_peer_connection_closed`, as a change of the tracked connections. -/
theorem changed_of_closed (gone : t = s.onView env fun now view => view.removeConnection now p c)
    (wf : s.view.WellFormed) : Changed s t (s.view.tracked.set p c none) := by
  subst gone
  exact ⟨.onView, (NetworkView.removeConnection_registers wf).1,
    NetworkView.tracked_removeConnection wf, rfl, rfl⟩

/-- The first line of `on_peer_connection_opened`, as a change of the tracked connections. -/
theorem changed_of_opened {e : ConnectedPoint}
    (added : t = s.onView env fun now view => view.addConnection now p c e)
    (wf : s.view.WellFormed) : Changed s t (s.view.tracked.set p c (some e.remote)) := by
  subst added
  exact ⟨.onView, (NetworkView.addConnection_registers wf).1,
    NetworkView.tracked_addConnection wf, rfl, rfl⟩

namespace Settled

variable {switch : Option Bool} {r : Except SavedError Unit}

/-- The rest of a handler keeps every connection where the change of the view put it. -/
theorem tracked (settled : Settled env switch t r u) (wf : t.view.WellFormed) :
    u.view.WellFormed ∧ u.view.tracked = t.view.tracked := by
  cases settled with
  | unheard _ quiet => exact ⟨quiet.wf wf, quiet.tracked wf⟩
  | unarmed _ _ quiet => exact ⟨quiet.wf wf, quiet.tracked wf⟩
  | settled _ quiet =>
    rw [(updateRelayState_spec _).view]
    exact ⟨quiet.wf wf, quiet.tracked wf⟩

end Settled

/-! ## A turn -/

/-- **One turn of the event loop**, with the exit of its handler. -/
inductive Stepped (env : Env) (s : SavedNetwork) :
    Input → Except SavedError Unit → SavedNetwork → Prop
  | quiet {i : Input} {r} {u : SavedNetwork} : i.isQuiet = true → Quiet s u → Stepped env s i r u
  | expired {list} {u : SavedNetwork} : s.removeAddresses env list = some u →
      Stepped env s (.event (.mdnsExpired list)) (.ok ()) u
  | targetAdded {q : PeerId} : Stepped env s (.rpc (.addTargetPeer q)) (.ok ())
      { s with targetPeers := s.targetPeers.insert q }
  | targetRemoved {q : PeerId} : Stepped env s (.rpc (.removeTargetPeer q)) (.ok ())
      { s with targetPeers := s.targetPeers.remove q }
  | accepted {relay : PeerId} : Stepped env s (.event (.reservationReqAccepted relay)) (.ok ())
      (s.register relay).updateRelayState
  | closed {q : PeerId} {d : ConnectionId} {t : SavedNetwork} {r} {u : SavedNetwork} :
      t = (s.onView env fun now view => view.removeConnection now q d) →
      Settled env (closeSwitch t q) t r u → Stepped env s (.event (.connectionClosed q d)) r u
  | openFailed {q : PeerId} {d : ConnectionId} {e} {t : SavedNetwork} {error}
      {u : SavedNetwork} : t = (s.onView env fun now view => view.addConnection now q d e) →
      Settled env (openSwitch t q) t (.error error) u →
      Stepped env s (.event (.connectionEstablished q d e)) (.error error) u
  | opened {q : PeerId} {d : ConnectionId} {e} {t : SavedNetwork} {u : SavedNetwork} :
      t = (s.onView env fun now view => view.addConnection now q d e) →
      Settled env (openSwitch t q) t (.ok ()) u → relayUsed e = none →
      Stepped env s (.event (.connectionEstablished q d e)) (.ok ()) u
  | openedOver {q : PeerId} {d : ConnectionId} {e} {t : SavedNetwork} {u : SavedNetwork}
      {relay} : t = (s.onView env fun now view => view.addConnection now q d e) →
      Settled env (openSwitch t q) t (.ok ()) u → relayUsed e = some relay →
      Stepped env s (.event (.connectionEstablished q d e)) (.ok ())
        (u.register relay).updateRelayState

/-- **What an input does to the tracked connections.** -/
def Input.track : Input → Tracked → Tracked
  | .event (.mdnsExpired list), tracked => tracked.expire list
  | .event (.connectionEstablished p c e), tracked => tracked.set p c (some e.remote)
  | .event (.connectionClosed p c), tracked => tracked.set p c none
  | _, tracked => tracked

/-- A quiet input reports no connection, so what is tracked does not move on its account. -/
theorem Input.track_of_quiet {i : Input} (quiet : i.isQuiet = true) (tracked : Tracked) :
    i.track tracked = tracked := by
  cases i with
  | rpc _ => rfl
  | event event =>
    cases event with
    | mdnsExpired _ | connectionEstablished _ _ _ | connectionClosed _ _ => cases quiet
    | _ => rfl

/-- **A turn moves the tracked connections as its input says**, whichever way it exits. -/
theorem Stepped.tracked {i : Input} {r : Except SavedError Unit} (stepped : Stepped env s i r s')
    (wf : s.view.WellFormed) :
    s'.view.WellFormed ∧ s'.view.tracked = i.track s.view.tracked := by
  cases stepped with
  | quiet isQuiet quiet =>
    rw [Input.track_of_quiet isQuiet]
    exact ⟨quiet.wf wf, quiet.tracked wf⟩
  | expired returned =>
    obtain ⟨wf', _, expired⟩ := removeAddresses_spec wf returned
    exact ⟨wf', expired⟩
  | targetAdded | targetRemoved => exact ⟨wf, rfl⟩
  | accepted =>
    rw [(updateRelayState_spec _).view]
    exact ⟨wf, rfl⟩
  | closed gone settled =>
    have changed := changed_of_closed gone wf
    obtain ⟨wf', same⟩ := settled.tracked changed.wf
    exact ⟨wf', same.trans changed.tracked⟩
  | openFailed added settled | opened added settled _ =>
    have changed := changed_of_opened added wf
    obtain ⟨wf', same⟩ := settled.tracked changed.wf
    exact ⟨wf', same.trans changed.tracked⟩
  -- the relay is registered after the handler, and that update reads the view only
  | openedOver added settled _ =>
    have changed := changed_of_opened added wf
    obtain ⟨wf', same⟩ := settled.tracked changed.wf
    rw [(updateRelayState_spec _).view]
    exact ⟨wf', same.trans changed.tracked⟩

/-- One case for each event that moves a connection, a relay or an address. The rest are quiet, and
their parts say so. -/
theorem onSwarmEvent_stepped (event : SwarmEvent) :
    (onSwarmEvent env event).Ensures s (Stepped env s (.event event)) := by
  cases event with
  | mdnsExpired list =>
    simp only [onSwarmEvent, Proc.ensures_attempt]
    exact fun _ returned => .expired returned
  | reservationReqAccepted r =>
    simp only [onSwarmEvent, Proc.ensures_update]
    exact .accepted
  | connectionClosed p c =>
    exact (onPeerConnectionClosed_settled rfl).mono fun r s' settled => .closed rfl settled
  | connectionEstablished p c e =>
    simp only [onSwarmEvent, Proc.ensures_bind]
    refine (onPeerConnectionOpened_settled rfl).mono ?_
    intro r s' settled
    cases r with
    | error error => exact .openFailed rfl settled
    | ok _ =>
      cases used : relayUsed e with
      | none => exact Proc.ensures_pure.mpr (.opened rfl settled used)
      | some relay => exact Proc.ensures_update.mpr (.openedOver rfl settled used)
  | _ => exact (onSwarmEvent_quiet rfl).mono fun r s' quiet => .quiet rfl quiet

/-- One case for each request that is not quiet. -/
theorem dispatchRpc_stepped {rpc : SavedNetworkRpc} (returned : dispatchRpc env rpc s = some s') :
    Stepped env s (.rpc rpc) (.ok ()) s' := by
  cases rpc with
  | addTargetPeer p =>
    cases returned
    exact .targetAdded
  | removeTargetPeer p =>
    cases returned
    exact .targetRemoved
  | _ => exact .quiet rfl (dispatchRpc_quiet rfl returned)

/-- **Every turn that returns is a step.** -/
theorem step_stepped {i : Input} (returned : s.step env i = some s') :
    ∃ r, Stepped env s i r s' := by
  cases i with
  | event event =>
    obtain ⟨⟨r, t⟩, ran, rfl⟩ := Option.map_eq_some_iff.mp returned
    exact ⟨r, onSwarmEvent_stepped event r t ran⟩
  | rpc rpc => exact ⟨_, dispatchRpc_stepped returned⟩

/-- A turn without an early exit is a step whose handler ran to its end. -/
theorem stepOk_stepped {i : Input} (returned : s.stepOk env i = some s') :
    Stepped env s i (.ok ()) s' := by
  cases i with
  | event event =>
    change (onSwarmEvent env event).execOk s = some s' at returned
    unfold Proc.execOk at returned
    split at returned
    · next t ran =>
      cases returned
      exact onSwarmEvent_stepped event _ _ ran
    · cases returned
  | rpc rpc => exact dispatchRpc_stepped returned

end Saved
