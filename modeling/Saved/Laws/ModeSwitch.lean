import Saved.Laws.Dialing
import Saved.Laws.Edits
import Saved.Laws.Pruning

/-!
# When the mode is switched

The handlers of connections switch the mode before they reconcile, and nothing after the switch
touches it: a reconcile and an update of the relays leave mode, Kademlia and searches alone
(`Still`). So what a handler that succeeds leaves is what its switch leaves, and the switch follows
the view as the event changed it. A connection of a peer that is no target switches nothing
(`mode_transitions`).
-/

namespace Saved

open Saved.Lib SavedNetwork

variable {env : Env} {s s' t u : SavedNetwork} {p : PeerId} {c : ConnectionId} {e : ConnectedPoint}
  {calls : List Call}

/-- The peers that a list of calls searches for. -/
def searches (calls : List Call) : List PeerId :=
  calls.filterMap fun call => match call with | .getClosestPeers target => some target | _ => none

/-- The searches of two stretches of calls, one after the other. -/
theorem searches_append (calls calls' : List Call) :
    searches (calls ++ calls') = searches calls ++ searches calls' := List.filterMap_append

/-- Calls of other kinds search for nobody. -/
theorem searches_eq_nil (other : ∀ call ∈ calls, ∀ target, call ≠ .getClosestPeers target) :
    searches calls = [] := by
  refine List.filterMap_eq_nil_iff.mpr fun call mem => ?_
  cases call with
  | getClosestPeers target => exact absurd rfl (other _ mem target)
  | _ => rfl

/-- **Mode, Kademlia and searches are left alone.** -/
structure Still (s s' : SavedNetwork) : Prop where
  targetPeers : s'.targetPeers = s.targetPeers
  activeMode : s'.activeMode = s.activeMode
  kad : s'.swarm.kad = s.swarm.kad
  searches : searches s'.swarm.calls = searches s.swarm.calls

/-- **The node is active**: Kademlia is on, and every target was searched for once. -/
structure Searching (s s' : SavedNetwork) : Prop where
  targetPeers : s'.targetPeers = s.targetPeers
  activeMode : s'.activeMode = true
  kad : s'.swarm.kad.isSome = true
  searches : searches s'.swarm.calls = searches s.swarm.calls ++ s.targetPeers.toList

/-- **The node is passive**: Kademlia is off. -/
structure Resting (s s' : SavedNetwork) : Prop where
  targetPeers : s'.targetPeers = s.targetPeers
  activeMode : s'.activeMode = false
  kad : s'.swarm.kad = none
  searches : searches s'.swarm.calls = searches s.swarm.calls

namespace Still

/-- Nothing done leaves the modes still. -/
theorem refl (s : SavedNetwork) : Still s s := ⟨rfl, rfl, rfl, rfl⟩

/-- Still steps compose. -/
theorem trans (first : Still s t) (second : Still t u) : Still s u :=
  ⟨second.targetPeers.trans first.targetPeers, second.activeMode.trans first.activeMode,
    second.kad.trans first.kad, second.searches.trans first.searches⟩

/-- The node was still, and then went active: it went active. -/
theorem searching (first : Still s t) (second : Searching t u) : Searching s u :=
  ⟨second.targetPeers.trans first.targetPeers, second.activeMode, second.kad,
    by rw [second.searches, first.searches, first.targetPeers]⟩

/-- The node was still, and then went passive: it went passive. -/
theorem resting (first : Still s t) (second : Resting t u) : Resting s u :=
  ⟨second.targetPeers.trans first.targetPeers, second.activeMode, second.kad,
    second.searches.trans first.searches⟩

/-- Calls that search for nobody. -/
theorem tell (other : ∀ call ∈ calls, ∀ target, call ≠ .getClosestPeers target) :
    Still s (s.tell calls) := by
  refine ⟨rfl, rfl, rfl, ?_⟩
  show Saved.searches (s.swarm.calls ++ calls) = _
  rw [searches_append, searches_eq_nil other, List.append_nil]

/-- No operation of the view touches the modes. -/
theorem onView {f : Readings → NetworkView → NetworkView} : Still s (s.onView env f) :=
  ⟨rfl, rfl, rfl, rfl⟩

/-- A failed dial is an operation of the view. -/
theorem markFailure {a : Multiaddr} : Still s (s.markFailure env p a) := ⟨rfl, rfl, rfl, rfl⟩

/-- The view changes and an event is sent: what both handlers do before they switch. -/
theorem changed {f : Readings → NetworkView → NetworkView} {event : SavedNetworkEvent} :
    Still s ((s.onView env f).tell [.send event]) := onView.trans (.tell (by simp))

end Still

/-- What comes after the switch leaves it as it is. -/
theorem Searching.still (first : Searching s t) (second : Still t u) : Searching s u :=
  ⟨second.targetPeers.trans first.targetPeers, second.activeMode.trans first.activeMode,
    (congrArg Option.isSome second.kad).trans first.kad, second.searches.trans first.searches⟩

/-! ## After the switch -/

/-- The reconciliation dials and closes, and neither is a search. -/
theorem Reconciled.still (h : Reconciled env p s s') : Still s s' := by
  have dial : ∀ {s : SavedNetwork} {a : Multiaddr} {ok : Bool}, Still s (s.tell [.dial a ok]) :=
    .tell (by simp)
  induction h with
  | unknown | keep | wait => exact .refl _
  | prune =>
    refine .tell fun call made target => ?_
    obtain ⟨d, _, rfl⟩ := List.mem_map.mp made
    exact nofun
  | dialed | migrate => exact dial
  | redial _ _ _ _ ih => exact (dial.trans .markFailure).trans ih
  | migrateFailed => exact dial.trans .markFailure

/-- The relay update disconnects, which is no search. -/
theorem updateRelayState_still (s : SavedNetwork) : Still s s.updateRelayState := by
  have gaveUp : ∀ (t : SavedNetwork) (gone : List PeerId), Still t (t.giveUp gone) := by
    intro t gone
    have told : Still t (t.tell (gone.map .disconnectPeerId)) := .tell (by simp)
    exact ⟨rfl, rfl, rfl, told.searches⟩
  have recomputed : Still s s.recomputeInUse := ⟨rfl, rfl, rfl, rfl⟩
  unfold updateRelayState
  rw [pruneRelays_eq]
  exact recomputed.trans (gaveUp _ _)

/-! ## The switch -/

/-- With Kademlia on a search cannot fail. -/
theorem kadFindPeer_search {target : PeerId} (on : t.swarm.kad.isSome = true) :
    (kadFindPeer target).Ensures t
      (Proc.Exits (fun _ u => u = t.tell [.getClosestPeers target]) fun _ _ => False) := by
  rw [ensures_kadFindPeer]
  exact ⟨fun _ => rfl, fun off => absurd on off⟩

/-- The searches for a list of targets, with Kademlia on. The induction is on the list. -/
theorem kadFindPeers_searches {targets : List PeerId} {t : SavedNetwork}
    (on : t.swarm.kad.isSome = true) : (targets.forM kadFindPeer).Ensures t fun _ u =>
      u.targetPeers = t.targetPeers ∧ u.activeMode = t.activeMode ∧ u.swarm.kad = t.swarm.kad ∧
        searches u.swarm.calls = searches t.swarm.calls ++ targets := by
  induction targets generalizing t with
  | nil => exact Proc.ensures_pure.mpr ⟨rfl, rfl, rfl, (List.append_nil _).symm⟩
  | cons target targets ih =>
    show (kadFindPeer target >>= fun _ => targets.forM kadFindPeer).Ensures t _
    rw [Proc.ensures_bind]
    refine (kadFindPeer_search on).mono fun r u asked => ?_
    cases r with
    | error e => exact absurd asked id
    | ok _ =>
      obtain rfl := asked
      have rest := ih (t := t.tell [.getClosestPeers target]) on
      refine rest.mono fun _ u found => ?_
      obtain ⟨same, mode, kad, found⟩ := found
      refine ⟨same, mode, kad, ?_⟩
      rw [found]
      show searches (t.swarm.calls ++ [.getClosestPeers target]) ++ _ = _
      rw [searches_append, List.append_assoc]
      rfl

/-- mDNS is no part of what the modes are compared by, whether it starts or not. -/
theorem startMdns_still :
    (setMdnsEnabled env true).Ensures s fun _ t => Still s t := by
  have started : Still s (s.tell [.startMdns]) := .tell (by simp)
  rw [ensures_startMdns]
  exact ⟨fun _ => .refl s, fun _ =>
    ⟨fun _ => ⟨rfl, rfl, rfl, started.searches⟩, fun _ => started⟩⟩

/-- **A switch to active mode** that succeeds. -/
theorem setActiveMode_searching : (setActiveMode env true).Ensures s
    (Proc.Exits (fun _ t => Searching s t) fun _ _ => True) := by
  show (do
    Proc.update fun s => { s with activeMode := true }
    Proc.update (·.withKad (some ⟨some .client⟩))
    setMdnsEnabled env true
    let s ← Proc.get
    s.targetPeers.toList.forM kadFindPeer : NetM Unit).Ensures s _
  simp only [Proc.ensures_bind, Proc.ensures_update, Proc.exits_ok]
  refine startMdns_still.mono fun r t still => ?_
  cases r with
  | error e => trivial
  | ok _ =>
    rw [Proc.exits_ok, Proc.ensures_get, Proc.exits_ok]
    -- mDNS does not touch Kademlia, so it is still on after mDNS has started
    have on : t.swarm.kad.isSome = true := congrArg Option.isSome still.kad
    refine (kadFindPeers_searches on).mono fun r u found => ?_
    obtain ⟨targets, mode, kad, found⟩ := found
    cases r with
    | error e => trivial
    | ok _ =>
      refine ⟨targets.trans still.targetPeers, mode.trans still.activeMode,
        (congrArg Option.isSome kad).trans on, ?_⟩
      rw [found, still.searches, still.targetPeers]
      rfl

/-- **A switch to passive mode.** -/
theorem setActiveMode_resting : (setActiveMode env false).Ensures s fun _ t => Resting s t := by
  show (do
    Proc.update fun s => { s with activeMode := false }
    Proc.update (·.withKad none) : NetM Unit).Ensures s _
  simp only [Proc.ensures_bind, Proc.ensures_update, Proc.exits_ok]
  exact ⟨rfl, rfl, rfl, rfl⟩

/-! ## The handlers -/

/-- Who is connected is who is connected in a view. -/
def ConnectedAs (view : NetworkView) (s : SavedNetwork) : Prop :=
  ∀ q, s.view.isConnected q = view.isConnected q

/-- **What is left alone after the switch**: mode, Kademlia and searches, and who is connected. -/
structure Unswitched (s s' : SavedNetwork) : Prop extends Still s s' where
  connected : ConnectedAs s.view s'

/-- The end of a handler. -/
theorem unswitched_of_rest (h : Reconciled env p t u) : Unswitched t u.updateRelayState := by
  refine ⟨h.still.trans (updateRelayState_still u), fun q => ?_⟩
  rw [updateRelayState_view, NetworkView.isConnected_eq, NetworkView.isConnected_eq]
  exact (h.records q).any_connected.symm

/-- **What holds when the switch is made holds when the handler ends**, unless the rest of the
handler could undo it. -/
theorem ensures_handler {first : NetM Unit} {view : NetworkView} {I E : SavedNetwork → Prop}
    (keeps : ∀ t u, Unswitched t u → I t → I u)
    (switched : first.Ensures s (Proc.Exits (fun _ => I) fun _ => E))
    (changed : first.Ensures s fun _ t => t.view = view) :
    (do first; Proc.attempt (SavedNetwork.reconcilePeerConnections env p);
        Proc.update SavedNetwork.updateRelayState : NetM Unit).Ensures s
      (Proc.Exits (fun _ t => I t ∧ ConnectedAs view t) fun _ => E) := by
  rw [Proc.ensures_bind]
  refine (switched.and changed).mono fun r t both => ?_
  obtain ⟨holds, same⟩ := both
  cases r with
  | error e => exact holds
  | ok _ =>
    simp only [Proc.exits_ok, Proc.ensures_bind, Proc.ensures_attempt, Proc.ensures_update]
    intro u returned
    have rest := unswitched_of_rest (reconciled_of_returned returned)
    exact ⟨keeps _ _ rest holds, same ▸ rest.connected⟩

/-- **The mode after an opened connection** of a target follows the view: the node is active when
some target is not connected, Kademlia is on when it is active, and then every target was searched
for once. -/
structure OpenedModes (s s' : SavedNetwork) : Prop where
  active : s'.activeMode = true ↔ ∃ q ∈ s.targetPeers, s'.view.isConnected q = false
  kad : s'.swarm.kad.isSome = true ↔ s'.activeMode = true
  searches : s'.activeMode = true →
    searches s'.swarm.calls = searches s.swarm.calls ++ s.targetPeers.toList

/-- **The mode after a closed connection** of a target: the node is active and searches when none
is left, and nothing changes while one is. -/
structure ClosedModes (p : PeerId) (s s' : SavedNetwork) : Prop where
  down : s'.view.isConnected p = false → Searching s s'
  up : s'.view.isConnected p = true → Still s s'

/-- The branch of a missing target. -/
theorem OpenedModes.of_searching (searching : Searching s t)
    (missing : ∃ q ∈ s.targetPeers, t.view.isConnected q = false) : OpenedModes s t :=
  ⟨⟨fun _ => missing, fun _ => searching.activeMode⟩,
    ⟨fun _ => searching.activeMode, fun _ => searching.kad⟩, fun _ => searching.searches⟩

/-- The branch of no missing target. Nothing is searched for there. -/
theorem OpenedModes.of_resting (resting : Resting s t)
    (all : ¬ ∃ q ∈ s.targetPeers, t.view.isConnected q = false) : OpenedModes s t := by
  have off : ¬ t.activeMode = true := by simp [resting.activeMode]
  have kadOff : ¬ t.swarm.kad.isSome = true := by simp [resting.kad]
  exact ⟨iff_of_false off all, iff_of_false kadOff off, fun active => absurd active off⟩

/-- The reconciliation and the relay update come after the branch was chosen. They change neither
the mode nor who is connected, so the answer of the branch still stands at the end. -/
theorem OpenedModes.kept (opened : OpenedModes s t) (rest : Unswitched t u) : OpenedModes s u := by
  refine ⟨?_, ?_, fun active => ?_⟩
  · have connected : ∀ q, u.view.isConnected q = t.view.isConnected q := rest.connected
    rw [rest.activeMode, opened.active]
    simp only [connected]
  · rw [rest.activeMode, rest.kad, opened.kad]
  · rw [rest.activeMode] at active
    rw [rest.searches, opened.searches active]

/-- The same for a connection that closed. -/
theorem ClosedModes.kept (closed : ClosedModes p s t) (rest : Unswitched t u) :
    ClosedModes p s u := by
  refine ⟨fun down => ?_, fun up => ?_⟩
  · exact (closed.down ((rest.connected p).symm.trans down)).still rest.toStill
  · exact (closed.up ((rest.connected p).symm.trans up)).trans rest.toStill

/-- Up to its reconcile the handler of a closed connection has decided the mode. Where mDNS or the
broadcast fails it ends there, and nothing is said. -/
theorem closedPrefix_modes (target : p ∈ s.targetPeers) : (closedPrefix env p c).Ensures s
    (Proc.Exits (fun _ => ClosedModes p s) fun _ _ => True) := by
  unfold closedPrefix
  simp only [Proc.ensures_bind, Proc.exits_ok, Proc.ensures_update, ensures_broadcast,
    Proc.ensures_get, Proc.ensures_ite, Proc.ensures_pure]
  refine ⟨fun _ => ⟨fun missing => ?_, fun present => ?_⟩, fun _ => trivial⟩
  · refine (setActiveMode_searching.and Talk.setActiveMode).mono fun r t switched => ?_
    obtain ⟨searching, talk⟩ := switched
    cases r with
    | error e => trivial
    | ok _ =>
      refine ⟨fun _ => Still.changed.searching searching, fun up => ?_⟩
      rw [talk.view] at up
      exact absurd (missing.2.symm.trans up) Bool.false_ne_true
  · exact ⟨fun down => absurd ⟨target, down⟩ present, fun _ => .changed⟩

/-- The same of an opened connection, whose two branches are the two clauses of `OpenedModes`. -/
theorem openedPrefix_modes (target : p ∈ s.targetPeers) : (openedPrefix env p c e).Ensures s
    (Proc.Exits (fun _ => OpenedModes s) fun _ _ => True) := by
  unfold openedPrefix
  simp only [Proc.ensures_bind, Proc.exits_ok, Proc.ensures_update, ensures_broadcast,
    Proc.ensures_get, Proc.ensures_ite, Proc.ensures_pure]
  refine ⟨fun _ => ⟨fun _ => ⟨fun missing => ?_, fun all => ?_⟩, fun other => ?_⟩, fun _ => trivial⟩
  · refine (setActiveMode_searching.and Talk.setActiveMode).mono fun r t switched => ?_
    obtain ⟨searching, talk⟩ := switched
    cases r with
    | error e => trivial
    | ok _ =>
      obtain ⟨q, member, down⟩ := List.any_eq_true.mp missing
      refine .of_searching (Still.changed.searching searching) ⟨q, member, ?_⟩
      rw [talk.view]
      simpa using down
  · refine (setActiveMode_resting.and Talk.setActiveMode).mono fun r t switched => ?_
    obtain ⟨resting, talk⟩ := switched
    cases r with
    | error e => trivial
    | ok _ =>
      refine .of_resting (Still.changed.resting resting) fun some => all ?_
      obtain ⟨q, member, down⟩ := some
      rw [talk.view] at down
      refine List.any_eq_true.mpr ⟨q, member, ?_⟩
      rw [down]
      rfl
  · exact absurd target other

/-- For a peer that is no target the handler does not look at the mode. -/
theorem closedPrefix_still (other : p ∉ s.targetPeers) :
    (closedPrefix env p c).Ensures s (Proc.Exits (fun _ => Still s) fun _ => Still s) := by
  unfold closedPrefix
  simp only [Proc.ensures_bind, Proc.exits_ok, Proc.ensures_update, ensures_broadcast,
    Proc.ensures_get, Proc.ensures_ite, Proc.ensures_pure]
  exact ⟨fun _ => ⟨fun missing => absurd missing.1 other, fun _ => .changed⟩, fun _ => .changed⟩

/-- The same of an opened connection. -/
theorem openedPrefix_still (other : p ∉ s.targetPeers) :
    (openedPrefix env p c e).Ensures s (Proc.Exits (fun _ => Still s) fun _ => Still s) := by
  unfold openedPrefix
  simp only [Proc.ensures_bind, Proc.exits_ok, Proc.ensures_update, ensures_broadcast,
    Proc.ensures_get, Proc.ensures_ite, Proc.ensures_pure]
  exact ⟨fun _ => ⟨fun target => absurd target other, fun _ => .changed⟩, fun _ => .changed⟩

/-- Whichever way a handler exits. -/
theorem still_of_exec {handler : NetM Unit} {view : NetworkView}
    (stays : handler.Ensures s
      (Proc.Exits (fun _ t => Still s t ∧ ConnectedAs view t) fun _ => Still s))
    (ran : handler.exec s = some s') : Still s s' := by
  refine Proc.Ensures.of_exec (stays.mono fun r t exits => ?_) ran
  cases r with
  | error e => exact exits
  | ok _ => exact exits.1

/-- **The switches of mode are exact**, in every state and for every peer. A handler that succeeds
for a target leaves the mode that the view asks for, as the event changed it; a handler for any
other peer leaves mode, Kademlia and searches alone, whichever way it exits. -/
theorem mode_transitions (env : Env) (s : SavedNetwork) (p : PeerId) (c : ConnectionId)
    (e : ConnectedPoint) :
    (p ∈ s.targetPeers → ∀ s', (onPeerConnectionOpened env p c e).execOk s = some s' →
      OpenedModes s s' ∧
        ConnectedAs (s.view.addConnection (env.readings s.clockReads) p c e) s') ∧
    (p ∈ s.targetPeers → ∀ s', (onPeerConnectionClosed env p c).execOk s = some s' →
      ClosedModes p s s' ∧
        ConnectedAs (s.view.removeConnection (env.readings s.clockReads) p c) s') ∧
    (p ∉ s.targetPeers → ∀ s', (onPeerConnectionOpened env p c e).exec s = some s' ∨
      (onPeerConnectionClosed env p c).exec s = some s' → Still s s') := by
  rw [onPeerConnectionOpened_eq, onPeerConnectionClosed_eq]
  refine ⟨fun target s' returned => ?_, fun target s' returned => ?_, fun other s' returned => ?_⟩
  · exact (ensures_handler (fun _ _ rest opened => opened.kept rest) (openedPrefix_modes target)
      openedPrefix_view).of_execOk returned
  · exact (ensures_handler (fun _ _ rest closed => closed.kept rest) (closedPrefix_modes target)
      closedPrefix_view).of_execOk returned
  · rcases returned with opened | closed
    · exact still_of_exec (ensures_handler (fun _ _ rest still => still.trans rest.toStill)
        (openedPrefix_still other) openedPrefix_view) opened
    · exact still_of_exec (ensures_handler (fun _ _ rest still => still.trans rest.toStill)
        (closedPrefix_still other) closedPrefix_view) closed

/-- Two targets, and no connection. -/
def twoTargets : SavedNetwork :=
  { SavedNetwork.start ⟨[0]⟩ 4 with targetPeers := (HashSet.ofList [⟨[1]⟩, ⟨[2]⟩]) }

/-- One of them connects: the node is active, and searches for both. -/
theorem mode_transitions_two : ∃ s',
    (onPeerConnectionOpened .calm ⟨[1]⟩ ⟨0⟩ (.dialer (lanAddr 1))).execOk twoTargets = some s' ∧
    OpenedModes twoTargets s' ∧ s'.activeMode = true := by
  have computed : (((onPeerConnectionOpened .calm ⟨[1]⟩ ⟨0⟩ (.dialer (lanAddr 1))).execOk
      twoTargets).any fun s' => s'.activeMode) = true := by decide
  obtain ⟨s', returned, active⟩ := (Option.any_eq_true _ _).mp computed
  have opened := (mode_transitions .calm twoTargets ⟨[1]⟩ ⟨0⟩ (.dialer (lanAddr 1))).1
    (by decide) s' returned
  exact ⟨s', returned, opened.1, active⟩

end Saved
