import Saved.Laws.Edits
import Saved.Laws.RelayTurns
import Saved.Laws.TargetRelays

/-!
# The settings of a node

The two behaviours that can be off, the mode, the targets and the NAT status are the settings of a
node. A request or a report sets the one it is about, and a connection of a target switches the
mode, and with it Kademlia and mDNS (`Settings.turn`). No other input touches any of them, whatever
it does to the view on its way.

`step_settings` says this of every turn. The exception is a handler that exits early, when a
broadcast is not heard or mDNS does not start; then it has done nothing to the settings, or has
armed Kademlia only (`Falters`).
-/

namespace Saved

open Saved.Lib SavedNetwork

/-- **The settings**: everything but what is known of peers and relays. -/
structure Settings where
  mdns : Bool
  kad : Option Kad
  activeMode : Bool
  targetPeers : HashSet PeerId
  natStatus : NatStatus

def SavedNetwork.settings (s : SavedNetwork) : Settings :=
  ⟨s.swarm.mdns, s.swarm.kad, s.activeMode, s.targetPeers, s.natStatus⟩

namespace Settings

variable (settings : Settings)

/-- The beginning of a switch to active mode. -/
def armed : Settings := { settings with activeMode := true, kad := some ⟨some .client⟩ }

/-- **A switch of modes.** -/
def switched (active : Bool) : Settings :=
  if active then { settings.armed with mdns := true }
  else { settings with activeMode := false, kad := none }

/-- **What an input does to the settings**, by the mode it asks for. -/
def turn (switch : Option Bool) : Input → Settings
  | .rpc (.setMdnsEnabled enabled) => { settings with mdns := enabled }
  | .rpc (.setKadEnabled enabled mode) =>
    { settings with kad := if enabled then some ⟨mode.toMode⟩ else none }
  | .rpc (.addTargetPeer target) =>
    { settings with targetPeers := settings.targetPeers.insert target }
  | .rpc (.removeTargetPeer target) =>
    { settings with targetPeers := settings.targetPeers.remove target }
  | .event (.autonatV2 testedAddr ok) =>
    { settings with natStatus := if ok then .public_ testedAddr else .private_ }
  | .event (.autonatStatusChanged new) => { settings with natStatus := new }
  | .event (.connectionEstablished _ _ _) | .event (.connectionClosed _ _) =>
    switch.elim settings settings.switched
  | _ => settings

end Settings

/-- **Surroundings in which no handler exits early**: broadcasts are heard, and mDNS starts. -/
structure Env.Favourable (env : Env) : Prop where
  heard : ∀ n, env.sendOk n = true
  starts : ∀ n, env.mdnsOk n = true

variable {env : Env} {s s' t u : SavedNetwork} {i : Input} {p : PeerId} {a : Multiaddr}
  {c : ConnectionId} {switch : Option Bool}

/-! ## What leaves the settings -/

/-- A word to Kademlia leaves it switched as it is. -/
theorem tellKad_settings (s : SavedNetwork) (call : Call) :
    (s.tellKad call).settings = s.settings := by
  unfold SavedNetwork.tellKad
  split <;> rfl

/-- The reconciliation has no part in the settings. -/
theorem Reconciled.settings (reconciled : Reconciled env p s s') : s'.settings = s.settings := by
  induction reconciled with
  | redial _ _ _ _ ih => exact ih
  | _ => rfl

/-- The method itself. -/
theorem reconcile_settings (returned : s.reconcilePeerConnections env p = some s') :
    s'.settings = s.settings := (reconciled_of_returned returned).settings

/-- An offered address, taken up or skipped. -/
theorem onAddAddress_settings (returned : s.onAddAddress env p a = some s') :
    s'.settings = s.settings := by
  unfold SavedNetwork.onAddAddress at returned
  split at returned
  · cases returned
    rfl
  · dsimp only at returned
    split at returned
    · cases returned
      rfl
    · exact (reconcile_settings returned).trans (tellKad_settings _ _)

/-- An expired address. -/
theorem onRemoveAddress_settings (returned : s.onRemoveAddress env p a = some s') :
    s'.settings = s.settings := (reconcile_settings returned).trans (tellKad_settings _ _)

/-- The relay update has no part in the settings. -/
theorem updateRelayState_settings (s : SavedNetwork) :
    s.updateRelayState.settings = s.settings := by
  unfold updateRelayState
  rw [pruneRelays_eq]
  rfl

/-- What an opened connection does after its handler: it may register a relay. -/
theorem openedRest_settings (endpoint : ConnectedPoint) (s : SavedNetwork) :
    (openedRest endpoint s).settings = s.settings := by
  unfold openedRest
  split
  · rw [updateRelayState_settings]
    exact updateRelayState_settings s
  · exact updateRelayState_settings s

/-- A request for a reservation. -/
theorem requestReservation_settings (s : SavedNetwork) :
    (s.requestReservation env p).settings = s.settings := by
  unfold requestReservation
  split
  · split
    · rfl
    · split <;> rfl
  · rfl

/-- A ping. -/
theorem onPing_settings {result : Option Duration} :
    (s.onPing p c result).settings = s.settings := by
  unfold onPing
  split
  · split <;> rfl
  · rfl

/-- An announcement, heard or not. -/
theorem broadcast_settings {news : SavedNetworkEvent} :
    (broadcast env news).Ensures s fun _ t => t.settings = s.settings :=
  ensures_broadcast.mpr ⟨fun _ => rfl, fun _ => rfl⟩

/-- The parts that touch no setting. -/
def Part.keepsSettings : Part → Bool
  | switchOpened _ | switchClosed _ | natStatus _ => false
  | onAddAddress _ _ | onRemoveAddress _ _ | addConnection _ _ _ | removeConnection _ _
  | setProtocols _ _ | onPing _ _ _ | broadcast _ | listeningOn _ | reconcile _
  | updateRelayState | register _ | requestReservation _ => true

/-- Such a part leaves the settings, also where it fails: only a broadcast can. -/
theorem part_settings {part : Part} (keeps : part.keepsSettings = true) :
    (part.run env).Ensures s fun _ t => t.settings = s.settings := by
  cases part with
  | onAddAddress p a =>
    exact Proc.ensures_attempt.mpr fun _ returned => onAddAddress_settings returned
  | onRemoveAddress p a =>
    exact Proc.ensures_attempt.mpr fun _ returned => onRemoveAddress_settings returned
  | reconcile p => exact Proc.ensures_attempt.mpr fun _ returned => reconcile_settings returned
  | onPing p c result => exact Proc.ensures_update.mpr onPing_settings
  | broadcast news => exact broadcast_settings
  | listeningOn a => exact ensures_listeningOn broadcast_settings
  | updateRelayState => exact Proc.ensures_update.mpr (updateRelayState_settings s)
  | requestReservation p => exact Proc.ensures_update.mpr (requestReservation_settings s)
  | addConnection | removeConnection | setProtocols | register => exact Proc.ensures_update.mpr rfl
  | switchOpened | switchClosed | natStatus => cases keeps

/-- So an event whose handler has no other part leaves them. -/
theorem event_settings {event : SwarmEvent} (still : (Input.event event).movesConnections = false)
    (unset : ∀ new, .natStatus new ∉ event.parts) :
    (onSwarmEvent env event).Ensures s fun _ t => t.settings = s.settings := by
  rw [onSwarmEvent_parts]
  refine .loop (K := fun s t : SavedNetwork => t.settings = s.settings)
    (fun first second => second.trans first) (fun _ => rfl) fun part mem _ => part_settings ?_
  have asked := askedBy_of_mem mem
  cases part with
  | switchOpened | switchClosed => exact absurd (still.symm.trans asked.1) Bool.false_ne_true
  | natStatus new => exact absurd mem (unset new)
  | _ => rfl

/-! ## The switch of modes -/

/-- What a handler that exits early has done to the settings. -/
def Falters (env : Env) (settings settings' : Settings) : Prop :=
  ¬ env.Favourable ∧ (settings' = settings ∨
    settings.mdns = false ∧ (∃ q, q ∈ settings.targetPeers) ∧ settings' = settings.armed)

/-- mDNS is started, or does not start and cannot. -/
theorem startMdns_settings : (setMdnsEnabled env true).Ensures s (Proc.Exits
    (fun _ t => t.settings = { s.settings with mdns := true })
    fun _ t => ¬ env.Favourable ∧ s.settings.mdns = false ∧ t.settings = s.settings) := by
  rw [ensures_startMdns]
  refine ⟨fun on => ?_, fun off => ⟨fun _ => rfl, fun fails => ⟨fun favourable => ?_, ?_, rfl⟩⟩⟩
  · show s.settings = { s.settings with mdns := true }
    rw [← on]
    rfl
  · exact fails (favourable.starts _)
  · exact Bool.eq_false_iff.mpr off

/-- With Kademlia on, the searches cannot fail, and they change no setting. -/
theorem searchTargets_settings {targets : List PeerId} (on : s.swarm.kad.isSome = true) :
    (targets.forM kadFindPeer).Ensures s (Proc.Exits
      (fun _ t => t.settings = s.settings) fun _ _ => False) := by
  refine Proc.ensures_forM (I := fun t : SavedNetwork => t.settings = s.settings) rfl
    fun target _ t same => ?_
  rw [ensures_kadFindPeer]
  refine ⟨fun _ => same, fun off => absurd ?_ off⟩
  have kad : t.swarm.kad = s.swarm.kad := congrArg Settings.kad same
  rw [kad]
  exact on

/-- **A switch of modes**, by the way it exits. -/
theorem setActiveMode_settings {active : Bool} : (setActiveMode env active).Ensures s (Proc.Exits
    (fun _ t => t.settings = s.settings.switched active)
    fun _ t => ¬ env.Favourable ∧ s.settings.mdns = false ∧ t.settings = s.settings.armed) := by
  unfold setActiveMode
  rw [Proc.ensures_bind, Proc.ensures_update]
  cases active with
  | false =>
    show (Proc.update (·.withKad none) : NetM Unit).Ensures _ _
    rw [Proc.ensures_update]
    rfl
  | true =>
    let on : SavedNetwork := { s with activeMode := true }.withKad (some ⟨some .client⟩)
    show (do
      Proc.update (·.withKad (some ⟨some .client⟩))
      setMdnsEnabled env true
      let s ← Proc.get
      s.targetPeers.toList.forM kadFindPeer : NetM Unit).Ensures _ _
    rw [Proc.ensures_bind, Proc.ensures_update, Proc.exits_ok, Proc.ensures_bind]
    refine startMdns_settings.mono fun r t started => ?_
    cases r with
    | error e => exact started
    | ok _ =>
      have armed : t.settings = { on.settings with mdns := true } := started
      -- Kademlia is on by now, so the searches cannot fail.
      have kad : t.swarm.kad = some ⟨some .client⟩ := congrArg Settings.kad armed
      rw [Proc.exits_ok, Proc.ensures_bind, Proc.ensures_get, Proc.exits_ok]
      refine (searchTargets_settings (by rw [kad]; rfl)).mono fun r u searched => ?_
      cases r with
      | error e => exact absurd searched id
      | ok _ => exact searched.trans armed

/-! ## The handlers of connections -/

/-- The beginning of a handler, once the view has changed: an announcement, and the switch of modes
that the handler asks for. -/
theorem modeSwitch_settings {news : SavedNetworkEvent} {mode : SavedNetwork → NetM Unit}
    (asks : mode (s.tell [.send news]) = switch.elim (pure ()) (setActiveMode env))
    (target : switch ≠ none → ∃ q, q ∈ s.targetPeers) : (do
      broadcast env news
      let s ← Proc.get
      mode s : NetM Unit).Ensures s (Proc.Exits
        (fun _ t => t.settings = switch.elim s.settings s.settings.switched)
        fun _ t => Falters env s.settings t.settings) := by
  rw [Proc.ensures_bind, ensures_broadcast]
  refine ⟨fun _ => ?_, fun lost => ⟨fun favourable => lost (favourable.heard _), .inl rfl⟩⟩
  rw [Proc.exits_ok, Proc.ensures_bind, Proc.ensures_get, Proc.exits_ok, asks]
  cases switch with
  | none => exact Proc.ensures_pure.mpr rfl
  | some active =>
    refine setActiveMode_settings.mono fun r t exits => ?_
    cases r with
    | error e =>
      obtain ⟨fails, off, same⟩ := exits
      exact ⟨fails, .inr ⟨off, target nofun, same⟩⟩
    | ok _ => exact exits

/-- A close asks for a switch only on account of a target. -/
theorem target_of_closeSwitch (asks : closeSwitch s p ≠ none) : ∃ q, q ∈ s.targetPeers := by
  unfold closeSwitch at asks
  split at asks
  · next missing => exact ⟨p, missing.1⟩
  · exact absurd rfl asks

/-- An opened connection asks for a switch only on account of a target. -/
theorem target_of_openSwitch (asks : openSwitch s p ≠ none) : ∃ q, q ∈ s.targetPeers := by
  unfold openSwitch at asks
  split at asks
  · next target => exact ⟨p, target⟩
  · exact absurd rfl asks

/-- Up to its reconcile the handler has switched the mode it was asked to, or it failed and the
settings faltered. -/
theorem closedPrefix_settings
    (gone : t = s.onView env fun now view => view.removeConnection now p c) :
    (closedPrefix env p c).Ensures s (Proc.Exits
      (fun _ u => u.settings = (closeSwitch t p).elim s.settings s.settings.switched)
      fun _ u => Falters env s.settings u.settings) := by
  unfold closedPrefix
  rw [Proc.ensures_bind, Proc.ensures_update, Proc.exits_ok, ← gone]
  have same : t.settings = s.settings := gone ▸ rfl
  rw [← same]
  refine modeSwitch_settings ?_ target_of_closeSwitch
  show (if p ∈ t.targetPeers ∧ t.view.isConnected p = false then setActiveMode env true
    else pure ()) = _
  unfold closeSwitch
  split <;> rfl

/-- The same of an opened connection. -/
theorem openedPrefix_settings {endpoint : ConnectedPoint}
    (added : t = s.onView env fun now view => view.addConnection now p c endpoint) :
    (openedPrefix env p c endpoint).Ensures s (Proc.Exits
      (fun _ u => u.settings = (openSwitch t p).elim s.settings s.settings.switched)
      fun _ u => Falters env s.settings u.settings) := by
  unfold openedPrefix
  rw [Proc.ensures_bind, Proc.ensures_update, Proc.exits_ok, ← added]
  have same : t.settings = s.settings := added ▸ rfl
  rw [← same]
  refine modeSwitch_settings ?_ target_of_openSwitch
  show (if p ∈ t.targetPeers then
    if t.targetPeers.toList.any fun q => !t.view.isConnected q then setActiveMode env true
    else setActiveMode env false
    else pure ()) = _
  unfold openSwitch
  split
  · cases t.targetPeers.toList.any fun q => !t.view.isConnected q <;> rfl
  · rfl

/-- The rest of a handler of connections. -/
theorem handler_settings {prefix' : NetM Unit} {g : SavedNetwork → SavedNetwork}
    {settings : Settings} (first : prefix'.Ensures s (Proc.Exits (fun _ t => t.settings = settings)
      fun _ t => Falters env s.settings t.settings))
    (rest : ∀ t, (g t).settings = t.settings) :
    (do prefix'; Proc.attempt (SavedNetwork.reconcilePeerConnections env p); Proc.update g :
      NetM Unit).Ensures s fun _ t =>
        t.settings = settings ∨ Falters env s.settings t.settings := by
  rw [Proc.ensures_bind]
  refine first.mono fun r t exits => ?_
  cases r with
  | error e => exact .inr exits
  | ok _ =>
    simp only [Proc.exits_ok, Proc.ensures_bind, Proc.ensures_attempt, Proc.ensures_update]
    intro u returned
    exact .inl ((rest u).trans ((reconcile_settings returned).trans exits))

/-! ## Turns -/

namespace SavedNetwork

/-- The mode that a handler of connections asks for, in the state that the change of the view
leaves. -/
def switchAfter (s : SavedNetwork) : Input → Option Bool
  | .event (.connectionEstablished p _ _) => openSwitch s p
  | .event (.connectionClosed p _) => closeSwitch s p
  | _ => none

/-- Which switch an input asks for depends on the targets and on who is connected, not on the order
of the addresses. -/
theorem switchAfter_congr (targets : t.targetPeers = s.targetPeers)
    (connected : ∀ p, t.view.isConnected p = s.view.isConnected p) :
    t.switchAfter i = s.switchAfter i := by
  have opens : ∀ p, openSwitch t p = openSwitch s p := fun p => by
    unfold openSwitch
    simp only [targets, connected]
  have closes : ∀ p, closeSwitch t p = closeSwitch s p := fun p => by
    unfold closeSwitch
    simp only [targets, connected]
  cases i with
  | rpc _ => rfl
  | event event =>
    cases event with
    | connectionEstablished p c endpoint => exact opens p
    | connectionClosed p c => exact closes p
    | _ => rfl

end SavedNetwork

/-- The two events of a connection may switch the mode, the two of the NAT status set it, and every
other event leaves the settings. -/
theorem onSwarmEvent_settings (event : SwarmEvent)
    (after : t = { s with view := s.viewAfter env (.event event) }) :
    (onSwarmEvent env event).Ensures s fun _ u =>
      u.settings = s.settings.turn (t.switchAfter (.event event)) (.event event) ∨
        Falters env s.settings u.settings := by
  cases event with
  | connectionEstablished p c endpoint =>
    rw [onSwarmEvent_opened]
    have same : ∀ q, openSwitch t q =
        openSwitch (s.onView env fun now view => view.addConnection now p c endpoint) q :=
      fun q => after ▸ rfl
    show Proc.Ensures _ s fun _ u => u.settings = (openSwitch t p).elim _ _ ∨ _
    rw [same]
    exact handler_settings (openedPrefix_settings rfl) (openedRest_settings endpoint)
  | connectionClosed p c =>
    simp only [onSwarmEvent, onPeerConnectionClosed_eq]
    have same : ∀ q, closeSwitch t q =
        closeSwitch (s.onView env fun now view => view.removeConnection now p c) q :=
      fun q => after ▸ rfl
    show Proc.Ensures _ s fun _ u => u.settings = (closeSwitch t p).elim _ _ ∨ _
    rw [same]
    exact handler_settings (closedPrefix_settings rfl) updateRelayState_settings
  | autonatV2 addr ok => exact Proc.ensures_update.mpr (.inl rfl)
  | autonatStatusChanged new => exact Proc.ensures_update.mpr (.inl rfl)
  | _ =>
    refine (event_settings rfl fun new mem => ?_).mono fun _ _ => .inl
    -- a change of the NAT status is asked for by the two events above and no other
    rcases askedBy_of_mem mem with ⟨_, _, other⟩ | other <;> cases other

/-- A request has set what it is about, or mDNS did not start and it has set nothing. -/
def Obeyed (env : Env) (s : SavedNetwork) (rpc : SavedNetworkRpc) (t : SavedNetwork) : Prop :=
  t.settings = s.settings.turn none (.rpc rpc) ∨ ¬ env.Favourable ∧ t.settings = s.settings

/-- One case for each request: a toggle sets what it names, the targets are a set, and the failing
ones leave the settings. -/
theorem dispatchRpc_settings {rpc : SavedNetworkRpc} (returned : dispatchRpc env rpc s = some s') :
    Obeyed env s rpc s' := by
  cases rpc with
  | setMdnsEnabled enabled =>
    refine Proc.Ensures.of_exec (m := setMdnsEnabled env enabled) ?_ returned
    cases enabled with
    | false => exact ensures_stopMdns.mpr (.inl rfl)
    | true =>
      refine startMdns_settings.mono fun r t started => ?_
      cases r with
      | error e => exact .inr ⟨started.1, started.2.2⟩
      | ok _ => exact .inl started
  | setKadEnabled enabled mode =>
    refine Proc.Ensures.of_exec (m := setKadEnabled enabled mode) ?_ returned
    refine ensures_setKadEnabled.mpr ⟨fun on => .inl ?_, fun off => .inl ?_⟩
    · rw [on]
      rfl
    · rw [Bool.eq_false_iff.mpr off]
      rfl
  | kadFindPeer target =>
    refine Proc.Ensures.of_exec (m := kadFindPeer target) ?_ returned
    exact ensures_kadFindPeer.mpr ⟨fun _ => .inl rfl, fun _ => .inl rfl⟩
  | kadBootstrap =>
    refine Proc.Ensures.of_exec (m := kadBootstrap env) ?_ returned
    exact ensures_kadBootstrap.mpr
      ⟨fun _ => ⟨fun _ => .inl rfl, fun _ => .inl rfl⟩, fun _ => .inl rfl⟩
  | dial addr =>
    refine Proc.Ensures.of_exec (m := dial env addr) ?_ returned
    exact ensures_dial.mpr ⟨fun _ => ⟨fun _ => .inl rfl, fun _ => .inl rfl⟩, fun _ => .inl rfl⟩
  | addTargetPeer target | removeTargetPeer target =>
    cases returned
    exact .inl rfl

/-- What an input does to the targets. -/
def Input.retarget : Input → HashSet PeerId → HashSet PeerId
  | .rpc (.addTargetPeer q), targets => targets.insert q
  | .rpc (.removeTargetPeer q), targets => targets.remove q
  | _, targets => targets

/-- The targets are those asked for, whatever is switched. -/
theorem Settings.turn_targetPeers (settings : Settings) :
    (settings.turn switch i).targetPeers = i.retarget settings.targetPeers := by
  have switched : ∀ active, (settings.switched active).targetPeers = settings.targetPeers := by
    intro active
    cases active <;> rfl
  cases i with
  | rpc rpc => cases rpc <;> rfl
  | event event =>
    cases event with
    | connectionEstablished | connectionClosed =>
      cases switch with
      | none => rfl
      | some active => exact switched active
    | _ => rfl

/-- A turn that falters has done nothing to the targets. -/
theorem Falters.targetPeers {settings settings' : Settings}
    (falters : Falters env settings settings') :
    settings'.targetPeers = settings.targetPeers := by
  obtain ⟨_, rfl | ⟨_, _, rfl⟩⟩ := falters <;> rfl

/-- **Only the two requests change the targets.** -/
theorem step_targetPeers (returned : s.step env i = some s') :
    s'.targetPeers = i.retarget s.targetPeers := by
  have same : s'.settings.targetPeers = i.retarget s.settings.targetPeers := by
    cases i with
    | event event =>
      rcases (onSwarmEvent_settings event rfl).of_exec returned with set | falters
      · rw [set, Settings.turn_targetPeers]
      · exact falters.targetPeers
    | rpc rpc =>
      have dispatched : dispatchRpc env rpc s = some s' := returned
      cases rpc with
      | addTargetPeer | removeTargetPeer =>
        cases dispatched
        rfl
      | _ =>
        rcases dispatchRpc_settings dispatched with set | ⟨_, set⟩
        · rw [set, Settings.turn_targetPeers]
        · rw [set]
          rfl
  exact same

/-- **A turn does to the settings what its input says**, by the mode that the state it leaves asks
for; or its handler exits early. -/
theorem step_settings (wf : s.view.WellFormed) (returned : s.step env i = some s') :
    s'.settings = s.settings.turn (s'.switchAfter i) i ∨ Falters env s.settings s'.settings := by
  cases i with
  | rpc rpc =>
    rcases dispatchRpc_settings returned with same | ⟨fails, same⟩
    · exact .inl same
    · exact .inr ⟨fails, .inl same⟩
  | event event =>
    let t : SavedNetwork := { s with view := s.viewAfter env (.event event) }
    have targets : s'.targetPeers = t.targetPeers := step_targetPeers returned
    -- Read at the end of the turn the switch is the same: what follows it only reorders addresses.
    have connected : t.view.WellFormed → t.view.tracked = s'.view.tracked →
        s'.switchAfter (.event event) = t.switchAfter (.event event) := fun after same => by
      obtain ⟨_, stepped⟩ := step_stepped returned
      have after' := (stepped.tracked wf).1
      refine switchAfter_congr targets fun q => ?_
      rw [Bool.eq_iff_iff, NetworkView.isConnected_iff_tracked after',
        NetworkView.isConnected_iff_tracked after, same]
    have switch : s'.switchAfter (.event event) = t.switchAfter (.event event) := by
      obtain ⟨_, stepped⟩ := step_stepped returned
      have tracked := (stepped.tracked wf).2
      cases event with
      | connectionEstablished p c endpoint =>
        exact connected (NetworkView.addConnection_registers wf).1
          ((NetworkView.tracked_addConnection wf).trans tracked.symm)
      | connectionClosed p c =>
        exact connected (NetworkView.removeConnection_registers wf).1
          ((NetworkView.tracked_removeConnection wf).trans tracked.symm)
      | _ => rfl
    rw [switch]
    exact (onSwarmEvent_settings event rfl).of_exec returned

end Saved
