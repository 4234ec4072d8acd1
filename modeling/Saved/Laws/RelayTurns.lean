import Saved.Laws.Modes

/-!
# What a turn does to the relays

A turn either leaves the relay manager alone, or it ends with an update of the relay state, and
then it is `Refreshed`. The second kind is a connection opened or closed, whose handler did not
exit early, and a reservation accepted.
-/

namespace Saved

open Saved.Lib SavedNetwork

variable {env : Env} {s s' t u v : SavedNetwork} {i : Input} {r : Except SavedError Unit}

/-- The relay an input adds to the reserved ones. -/
def Input.joins : Input → Option PeerId
  | .event (.reservationReqAccepted relay) => some relay
  | .event (.connectionEstablished _ _ e) => relayUsed e
  | _ => none

/-- The inputs whose turn updates the relay state, unless its handler exits early. -/
def Input.refreshes : Input → Bool
  | .event (.reservationReqAccepted _) => true
  | .event (.connectionEstablished _ _ _) => true
  | .event (.connectionClosed _ _) => true
  | _ => false

/-- A quiet input does not end in an update of the relay state. -/
theorem Input.refreshes_of_quiet (quiet : i.isQuiet = true) : i.refreshes = false := by
  cases i with
  | rpc _ => rfl
  | event event =>
    cases event with
    | connectionEstablished _ _ _ | connectionClosed _ _ | reservationReqAccepted _ => cases quiet
    | _ => rfl

/-- **A turn that ends with an update of the relay state.** The relays in use are the ones that
carry a connection; a relay that does, and was reserved or joined, stays reserved; the reserved
ones fit the capacity; and no relay that carries a connection is disconnected. -/
structure Refreshed (s s' : SavedNetwork) (joined : Option PeerId) : Prop where
  maxRelays : s'.relayManager.maxRelays = s.relayManager.maxRelays
  inUse : ∀ q, q ∈ s'.relayManager.inUse ↔ Carries s'.view.tracked q
  reserved : ∀ q ∈ s'.relayManager.reserved, q ∈ s.relayManager.reserved ∨ joined = some q
  kept : ∀ q, q ∈ s.relayManager.reserved ∨ joined = some q → Carries s'.view.tracked q →
    q ∈ s'.relayManager.reserved
  nodup : s.relayManager.reserved.Nodup → s'.relayManager.reserved.Nodup
  fits : s.relayManager.reserved.Nodup →
    s'.relayManager.reserved.length ≤ s'.relayManager.inUse.len + s'.relayManager.maxRelays
  calls : Makes (fun call => ∀ q, call = .disconnectPeerId q → ¬ Carries s'.view.tracked q) s s'

/-- A turn that leaves the relay manager alone, and disconnects no peer. -/
structure Unrefreshed (s s' : SavedNetwork) : Prop where
  relayManager : s'.relayManager = s.relayManager
  calls : Makes Call.spares s s'

/-- A framed step leaves the relays to themselves. -/
theorem Unrefreshed.of_frame (frame : Frame s s') : Unrefreshed s s' :=
  ⟨frame.relayManager, frame.calls⟩

/-- Steps that leave them to themselves compose. -/
theorem Unrefreshed.trans (first : Unrefreshed s t) (second : Unrefreshed t u) :
    Unrefreshed s u :=
  ⟨second.relayManager.trans first.relayManager, first.calls.trans second.calls⟩

/-- An update of the relay state alone. -/
theorem refreshed_update (wf : s.view.WellFormed) : Refreshed s s.updateRelayState none := by
  have updated := updateRelayState_spec s
  have inUse : ∀ q, q ∈ s.updateRelayState.relayManager.inUse ↔
      Carries s.updateRelayState.view.tracked q := by
    intro q
    rw [updated.inUse, updated.view]
    exact RelayManager.mem_recomputeInUse wf
  obtain ⟨gone, calls, unused, _⟩ := updated.calls
  refine ⟨updated.maxRelays, inUse, fun q held => .inl (updated.reserved q held), ?_,
    updated.nodup, updated.fits, _, calls, ?_⟩
  · intro q held carried
    rcases held with held | joined
    · exact updated.kept q held ((inUse q).mpr carried)
    · cases joined
  · intro call made q told carried
    obtain ⟨relay, mem, rfl⟩ := List.mem_map.mp made
    cases told
    exact unused q mem ((inUse q).mpr carried)

/-- What comes before an update may change the view, and may add calls that disconnect no peer. -/
theorem Refreshed.after {joined : Option PeerId} (frame : Unrefreshed s t)
    (refreshed : Refreshed t s' joined) : Refreshed s s' joined := by
  have same := frame.relayManager
  exact ⟨by rw [refreshed.maxRelays, same], refreshed.inUse, same ▸ refreshed.reserved,
    same ▸ refreshed.kept, same ▸ refreshed.nodup, same ▸ refreshed.fits,
    (frame.calls.mono fun call spares q told => absurd told (spares q)).trans refreshed.calls⟩

/-- **A relay registered, and the relay state updated.** -/
theorem refreshed_register {relay : PeerId} (wf : s.view.WellFormed) :
    Refreshed s (s.register relay).updateRelayState (some relay) := by
  have wf' : (s.register relay).view.WellFormed := wf
  have refreshed := refreshed_update wf'
  refine ⟨refreshed.maxRelays.trans RelayManager.register_maxRelays, refreshed.inUse, ?_, ?_,
    fun nodup => refreshed.nodup (RelayManager.register_nodup nodup),
    fun nodup => refreshed.fits (RelayManager.register_nodup nodup), refreshed.calls⟩
  · intro q held
    rcases refreshed.reserved q held with held' | none
    · rcases RelayManager.mem_register.mp held' with rfl | old
      · exact .inr rfl
      · exact .inl old
    · cases none
  · intro q held carried
    refine refreshed.kept q (.inl (RelayManager.mem_register.mpr ?_)) carried
    rcases held with old | joined
    · exact .inr old
    · exact .inl (Option.some.inj joined).symm

/-- Two updates, the second with a relay that joined. -/
theorem Refreshed.trans {relay : PeerId} (first : Refreshed s t none)
    (second : Refreshed t s' (some relay)) (same : s'.view.tracked = t.view.tracked) :
    Refreshed s s' (some relay) := by
  refine ⟨second.maxRelays.trans first.maxRelays, second.inUse, ?_, ?_,
    fun nodup => second.nodup (first.nodup nodup), fun nodup => second.fits (first.nodup nodup),
    .trans ?_ second.calls⟩
  · intro q held
    rcases second.reserved q held with before | joined
    · rcases first.reserved q before with old | none
      · exact .inl old
      · cases none
    · exact .inr joined
  · intro q held carried
    refine second.kept q ?_ carried
    rcases held with old | joined
    · exact .inl (first.kept q (.inl old) (same ▸ carried))
    · exact .inr joined
  · rw [same]
    exact first.calls

/-- A handler of connections that runs to its end refreshes the relays. -/
theorem Settled.refreshed {switch : Option Bool} (settled : Settled env switch t (.ok ()) u)
    (wf : t.view.WellFormed) : Refreshed t u none := by
  cases settled with
  | @settled v _ quiet =>
    have frame : Unrefreshed t v := ⟨quiet.relayManager, quiet.calls⟩
    exact (refreshed_update (quiet.wf wf)).after frame

/-- A handler that exits early leaves them alone. -/
theorem Settled.unrefreshed {switch : Option Bool} {e : SavedError}
    (settled : Settled env switch t (.error e) u) : Unrefreshed t u := by
  cases settled with
  | unheard _ quiet => exact .of_frame quiet.toFrame
  | unarmed _ _ quiet => exact ⟨quiet.relayManager, quiet.calls⟩

/-- **A turn that runs to its end refreshes the relays**, when its input asks for it. -/
theorem Stepped.refreshed (stepped : Stepped env s i (.ok ()) s') (asks : i.refreshes = true)
    (wf : s.view.WellFormed) : Refreshed s s' i.joins := by
  cases stepped with
  | quiet isQuiet _ =>
    rw [Input.refreshes_of_quiet isQuiet] at asks
    cases asks
  | expired _ => cases asks
  | targetAdded | targetRemoved => cases asks
  | accepted => exact refreshed_register wf
  | closed gone settled =>
    have changed := changed_of_closed gone wf
    exact (settled.refreshed changed.wf).after (.of_frame changed.toFrame)
  | opened added settled direct =>
    have changed := changed_of_opened added wf
    show Refreshed s s' (relayUsed _)
    rw [direct]
    exact (settled.refreshed changed.wf).after (.of_frame changed.toFrame)
  | openedOver added settled used =>
    have changed := changed_of_opened added wf
    show Refreshed s _ (relayUsed _)
    rw [used]
    -- The state is updated twice: by the handler, and once more when the relay is registered.
    have first := (settled.refreshed changed.wf).after (.of_frame changed.toFrame)
    have wf' := (settled.tracked changed.wf).1
    refine first.trans (refreshed_register wf') ?_
    rw [(updateRelayState_spec _).view]
    rfl

/-- **Any other turn leaves the relay manager alone.** -/
theorem Stepped.unrefreshed (stepped : Stepped env s i r s') (wf : s.view.WellFormed)
    (other : i.refreshes = false ∨ r ≠ .ok ()) : Unrefreshed s s' := by
  cases stepped with
  | quiet _ quiet => exact .of_frame quiet.toFrame
  | expired returned => exact .of_frame (removeAddresses_spec wf returned).2.1
  | targetAdded | targetRemoved => exact ⟨rfl, .of_eq rfl⟩
  | accepted =>
    rcases other with asks | early
    · cases asks
    · exact absurd rfl early
  | closed gone settled =>
    rcases other with asks | early
    · cases asks
    · cases r with
      | ok _ => exact absurd rfl early
      | error e => exact .trans (.of_frame (changed_of_closed gone wf).toFrame) settled.unrefreshed
  | openFailed added settled =>
    exact .trans (.of_frame (changed_of_opened added wf).toFrame) settled.unrefreshed
  | opened | openedOver =>
    rcases other with asks | early
    · cases asks
    · exact absurd rfl early

/-! ## Early exits -/

/-- **When the handler of a connection exits early**: nobody hears the broadcast, or a target is
missing, mDNS is off, and it does not start. -/
def SavedNetwork.exitsEarly (env : Env) (s : SavedNetwork) : Input → Bool
  | .event (.connectionEstablished p _ _) => !env.sendOk s.asked ||
    decide (p ∈ s.targetPeers) &&
      (s.targetPeers.toList.any fun q => decide (q ≠ p) && !s.view.isConnected q) &&
      !s.swarm.mdns && !env.mdnsOk (s.asked + 1)
  | .event (.connectionClosed p c) => !env.sendOk s.asked ||
    decide (p ∈ s.targetPeers) && !s.view.survivesClose c p && !s.swarm.mdns &&
      !env.mdnsOk (s.asked + 1)
  | _ => false

/-- The exit of a handler of connections says whether it exits early. -/
theorem Settled.exits {switch : Option Bool} (settled : Settled env switch t r u) :
    r ≠ .ok () ↔ ExitsEarly env switch t := by
  cases settled with
  | unheard lost _ => exact ⟨fun _ => .inl lost, fun _ => nofun⟩
  | unarmed _ early _ => exact ⟨fun _ => early, fun _ => nofun⟩
  | settled runs _ => exact ⟨fun ne => absurd rfl ne, fun early => absurd early runs⟩

/-- The test on the state before the close says whether the handler, which looks after it, exits. -/
theorem exitsEarly_closed {p : PeerId} {c : ConnectionId}
    (gone : t = s.onView env fun now view => view.removeConnection now p c)
    (wf : s.view.WellFormed) : ExitsEarly env (closeSwitch t p) t ↔
      s.exitsEarly env (.event (.connectionClosed p c)) = true := by
  have changed := changed_of_closed gone wf
  have down : t.view.isConnected p = false ↔ s.view.survivesClose c p = false := by
    rw [← Bool.not_eq_true, ← Bool.not_eq_true, NetworkView.survivesClose_iff wf,
      NetworkView.isConnected_iff_tracked changed.wf, changed.tracked]
  have switch : closeSwitch t p = some true ↔
      p ∈ s.targetPeers ∧ s.view.survivesClose c p = false := by
    unfold closeSwitch
    simp only [down, changed.targetPeers]
    split <;> simp [*]
  unfold ExitsEarly SavedNetwork.exitsEarly
  rw [switch, changed.asked, changed.mdns]
  simp only [Bool.or_eq_true, Bool.and_eq_true, Bool.not_eq_true', decide_eq_true_eq, and_assoc]

/-- The same of an opened connection. The test leaves out the peer itself, which is connected by
then, where the handler looks at every target. -/
theorem exitsEarly_opened {p : PeerId} {c : ConnectionId} {e : ConnectedPoint}
    (added : t = s.onView env fun now view => view.addConnection now p c e)
    (wf : s.view.WellFormed) : ExitsEarly env (openSwitch t p) t ↔
      s.exitsEarly env (.event (.connectionEstablished p c e)) = true := by
  have changed := changed_of_opened added wf
  -- only the peer itself is connected now and may not have been before
  have missing : ∀ q, (!t.view.isConnected q) = (decide (q ≠ p) && !s.view.isConnected q) := by
    intro q
    have here : t.view.isConnected q = true ↔ q = p ∨ s.view.isConnected q = true := by
      rw [NetworkView.isConnected_iff_tracked changed.wf, NetworkView.isConnected_iff_tracked wf,
        changed.tracked]
      constructor
      · intro up
        obtain ⟨d, a, stands⟩ := up
        rcases Tracked.set_eq_some.mp stands with ⟨⟨same, _⟩, _⟩ | ⟨_, old⟩
        · exact .inl same
        · exact .inr ⟨d, a, old⟩
      · intro up
        rcases up with rfl | ⟨d, a, old⟩
        · exact ⟨c, e.remote, Tracked.set_eq_some.mpr (.inl ⟨⟨rfl, rfl⟩, rfl⟩)⟩
        · by_cases same : q = p ∧ d = c
          · exact ⟨d, e.remote, Tracked.set_eq_some.mpr (.inl ⟨same, rfl⟩)⟩
          · exact ⟨d, a, Tracked.set_eq_some.mpr (.inr ⟨same, old⟩)⟩
    rw [Bool.eq_iff_iff, Bool.and_eq_true, Bool.not_eq_true', Bool.not_eq_true', decide_eq_true_eq,
      ← Bool.not_eq_true, ← Bool.not_eq_true, here, not_or]
  have switch : openSwitch t p = some true ↔ p ∈ s.targetPeers ∧
      (s.targetPeers.toList.any fun q => decide (q ≠ p) && !s.view.isConnected q) = true := by
    unfold openSwitch
    rw [changed.targetPeers]
    simp only [missing]
    split <;> simp [*]
  unfold ExitsEarly SavedNetwork.exitsEarly
  rw [switch, changed.asked, changed.mdns]
  simp only [Bool.or_eq_true, Bool.and_eq_true, Bool.not_eq_true', decide_eq_true_eq, and_assoc]

/-- **A turn exits early when `exitsEarly` says so.** -/
theorem Stepped.exits (stepped : Stepped env s i r s') (asks : i.refreshes = true)
    (wf : s.view.WellFormed) : r ≠ .ok () ↔ s.exitsEarly env i = true := by
  have never : ∀ {i}, s.exitsEarly env i = false →
      ((.ok () : Except SavedError Unit) ≠ .ok () ↔ s.exitsEarly env i = true) := by
    intro i late
    rw [late]
    simp
  cases stepped with
  | quiet isQuiet _ =>
    rw [Input.refreshes_of_quiet isQuiet] at asks
    cases asks
  | expired _ => cases asks
  | targetAdded | targetRemoved => cases asks
  | accepted => exact never rfl
  | closed gone settled => exact settled.exits.trans (exitsEarly_closed gone wf)
  | openFailed added settled => exact settled.exits.trans (exitsEarly_opened added wf)
  | opened added settled _ => exact settled.exits.trans (exitsEarly_opened added wf)
  | openedOver added settled _ => exact settled.exits.trans (exitsEarly_opened added wf)

end Saved
