import Saved.Laws.RelayPolicy

/-!
# What frees a reservation

A reservation is given up in one place, the loop of `prune_relays`, and that runs only over the
capacity. So a relay stays reserved when its connections close, and it takes up room until a prune
picks it: `Yields` says of a turn that a relay it gives up is asked to disconnect and that the node
is still at capacity afterwards, and `reserved_until_pruned` says it of whole runs.
-/

namespace Saved

open Saved.Lib SavedNetwork

variable {env : Env} {me : PeerId} {max : Nat} {h h' : List Input} {s s' t u v : SavedNetwork}
  {i : Input} {q relay : PeerId}

/-- As many relays are reserved as there is room for. -/
def Full (s : SavedNetwork) : Prop :=
  s.relayManager.reserved.length = s.relayManager.inUse.len + s.relayManager.maxRelays

/-- **What a turn gives up**: a relay that is not reserved any more was asked to disconnect, and
the node is at capacity. -/
structure Yields (s s' : SavedNetwork) : Prop where
  grows : ∃ new, s'.swarm.calls = s.swarm.calls ++ new
  pruned : ∀ q ∈ s.relayManager.reserved, q ∉ s'.relayManager.reserved → Full s' ∧
    ∀ new, s'.swarm.calls = s.swarm.calls ++ new → .disconnectPeerId q ∈ new

/-- An update of the relay state gives up relays down to the capacity. -/
theorem yields_update (nodup : s.relayManager.reserved.Nodup) : Yields s s.updateRelayState := by
  obtain ⟨gone, left, pruned⟩ := updateRelayState_pruned s
  have reserved : s.updateRelayState.relayManager.reserved = left := by rw [pruned.eq]; rfl
  have calls : s.updateRelayState.swarm.calls = s.swarm.calls ++ gone.map .disconnectPeerId := by
    rw [pruned.eq]; rfl
  refine ⟨⟨_, calls⟩, fun q held dropped => ?_⟩
  rw [reserved] at dropped
  have out : q ∈ gone :=
    (List.mem_append.mp (pruned.perm.mem_iff.mpr held)).resolve_right dropped
  constructor
  · -- some relay is gone, so the loop stopped where the rest fitted
    have updated := updateRelayState_spec s
    have fits := updated.fits nodup
    have tight := updated.tight
    have lengths : gone.length + left.length = s.relayManager.reserved.length := by
      rw [← List.length_append]
      exact pruned.perm.length_eq
    have some := List.length_pos_of_mem out
    unfold Full
    rw [reserved] at fits tight ⊢
    omega
  · intro new told
    obtain rfl := List.append_cancel_left (calls.symm.trans told)
    exact List.mem_map_of_mem out

/-- What comes before leaves the reservations alone. -/
theorem Yields.after (frame : Unrefreshed s t) (yields : Yields t s') : Yields s s' := by
  obtain ⟨before, calls, _⟩ := frame.calls
  obtain ⟨new, grows⟩ := yields.grows
  refine ⟨⟨before ++ new, by rw [grows, calls, List.append_assoc]⟩, fun q held dropped => ?_⟩
  rw [← frame.relayManager] at held
  obtain ⟨full, told⟩ := yields.pruned q held dropped
  refine ⟨full, fun all same => ?_⟩
  rw [grows, calls, List.append_assoc] at same
  obtain rfl := List.append_cancel_left same
  exact List.mem_append_right _ (told new grows)

/-- A turn that leaves the relay manager alone gives up nothing. -/
theorem Yields.of_unrefreshed (frame : Unrefreshed s s') : Yields s s' := by
  obtain ⟨new, calls, _⟩ := frame.calls
  refine ⟨⟨new, calls⟩, fun q held dropped => ?_⟩
  rw [frame.relayManager] at dropped
  exact absurd held dropped

/-- A relay registered, and the relay state updated. -/
theorem yields_register (nodup : s.relayManager.reserved.Nodup) :
    Yields s (s.register relay).updateRelayState := by
  obtain ⟨grows, pruned⟩ := yields_update (s := s.register relay)
    (RelayManager.register_nodup nodup)
  exact ⟨grows, fun q held => pruned q (RelayManager.mem_register.mpr (.inr held))⟩

/-- The relays in use depend on the view alone. -/
theorem recomputeInUse_inUse (rm rm' : RelayManager) (view : NetworkView) :
    (rm.recomputeInUse view).inUse = (rm'.recomputeInUse view).inUse := rfl

/-- At capacity, a registration is followed by an update that prunes to it again. -/
theorem full_register (nodup : s.relayManager.reserved.Nodup) (full : Full s.updateRelayState) :
    Full ((s.updateRelayState.register relay).updateRelayState) := by
  have first := updateRelayState_spec s
  have second := updateRelayState_spec (s.updateRelayState.register relay)
  have inUse : ((s.updateRelayState.register relay).updateRelayState).relayManager.inUse =
      s.updateRelayState.relayManager.inUse := by
    rw [second.inUse, first.inUse]
    show (RelayManager.recomputeInUse _ s.updateRelayState.view).inUse = _
    rw [first.view]
    exact recomputeInUse_inUse _ _ _
  have maxRelays : ((s.updateRelayState.register relay).updateRelayState).relayManager.maxRelays =
      s.updateRelayState.relayManager.maxRelays :=
    second.maxRelays.trans RelayManager.register_maxRelays
  have fits := second.fits (RelayManager.register_nodup (first.nodup nodup))
  have tight := second.tight
  -- Registering adds a relay or none, and the same ones are in use: a full book is full again.
  have grown : s.updateRelayState.relayManager.reserved.length ≤
      (s.updateRelayState.register relay).relayManager.reserved.length := by
    show _ ≤ (s.updateRelayState.relayManager.register relay).reserved.length
    unfold RelayManager.register
    split
    · exact Nat.le_refl _
    · simp
  unfold Full at full ⊢
  rw [inUse, maxRelays] at fits tight ⊢
  omega

/-- Two updates, with a relay registered between them. -/
theorem yields_update_register (nodup : s.relayManager.reserved.Nodup) :
    Yields s (s.updateRelayState.register relay).updateRelayState := by
  obtain ⟨⟨before, calls⟩, first⟩ := yields_update nodup
  have again : Yields s.updateRelayState (s.updateRelayState.register relay).updateRelayState :=
    yields_register ((updateRelayState_spec s).nodup nodup)
  obtain ⟨⟨after, calls'⟩, second⟩ := again
  refine ⟨⟨before ++ after, by rw [calls', calls, List.append_assoc]⟩, fun q held dropped => ?_⟩
  have both : ∀ new, ((s.updateRelayState.register relay).updateRelayState).swarm.calls =
      s.swarm.calls ++ new → new = before ++ after := by
    intro new told
    rw [calls', calls, List.append_assoc] at told
    exact (List.append_cancel_left told).symm
  by_cases still : q ∈ s.updateRelayState.relayManager.reserved
  · obtain ⟨full, told⟩ := second q still dropped
    exact ⟨full, fun new same => both new same ▸ List.mem_append_right _ (told after calls')⟩
  · obtain ⟨full, told⟩ := first q held still
    refine ⟨full_register nodup full, fun new same => ?_⟩
    exact both new same ▸ List.mem_append_left _ (told before calls)

/-- **A turn gives up a relay only by a prune.** -/
theorem Stepped.yields {r : Except SavedError Unit} (stepped : Stepped env s i r s')
    (wf : s.view.WellFormed) (nodup : s.relayManager.reserved.Nodup) : Yields s s' := by
  have settledYields : ∀ {switch t r u}, Frame s t → Settled env switch t r u → Yields s u := by
    intro switch t r u frame settled
    have first : Unrefreshed s t := .of_frame frame
    cases settled with
    | unheard _ quiet => exact .of_unrefreshed (first.trans (.of_frame quiet.toFrame))
    | unarmed _ _ quiet =>
      exact .of_unrefreshed (first.trans ⟨quiet.relayManager, quiet.calls⟩)
    | settled _ quiet =>
      have before := first.trans ⟨quiet.relayManager, quiet.calls⟩
      exact (yields_update (before.relayManager ▸ nodup)).after before
  cases stepped with
  | quiet _ quiet => exact .of_unrefreshed (.of_frame quiet.toFrame)
  | expired returned => exact .of_unrefreshed (.of_frame (removeAddresses_spec wf returned).2.1)
  | targetAdded | targetRemoved => exact .of_unrefreshed ⟨rfl, .of_eq rfl⟩
  | accepted => exact yields_register nodup
  | closed gone settled => exact settledYields (changed_of_closed gone wf).toFrame settled
  | openFailed added settled | opened added settled _ =>
    exact settledYields (changed_of_opened added wf).toFrame settled
  | openedOver added settled _ =>
    have first : Unrefreshed s _ := .of_frame (changed_of_opened added wf).toFrame
    cases settled with
    | settled _ quiet =>
      have before := first.trans ⟨quiet.relayManager, quiet.calls⟩
      exact (yields_update_register (before.relayManager ▸ nodup)).after before

/-! ## Over runs -/

/-- The invariant holds in every reachable state, whichever way the handlers exit. -/
theorem Fits.run (run : Run (SavedNetwork.step env) (fun _ _ _ => True) (.start me max) h s) :
    Fits max s :=
  run.state_invariant .start fun _ _ _ _ fits _ returned =>
    have ⟨_, stepped⟩ := step_stepped returned
    fits.stepped stepped

/-- What a run leaves of the reservations it starts from. -/
structure Outlives (max : Nat) (s s' : SavedNetwork) : Prop where
  fits : Fits max s'
  grows : ∃ new, s'.swarm.calls = s.swarm.calls ++ new
  kept : ∀ new, s'.swarm.calls = s.swarm.calls ++ new →
    ∀ q ∈ s.relayManager.reserved, .disconnectPeerId q ∉ new → q ∈ s'.relayManager.reserved

/-- At the start every relay that is held is held. -/
theorem Outlives.start (fits : Fits max s) : Outlives max s s :=
  ⟨fits, ⟨[], (List.append_nil _).symm⟩, fun _ _ _ held _ => held⟩

/-- One more turn. A relay it drops is among the calls it makes, so over the whole stretch a relay
that no call names is kept. -/
theorem Outlives.step (outlives : Outlives max s t) (returned : t.step env i = some u) :
    Outlives max s u := by
  obtain ⟨_, stepped⟩ := step_stepped returned
  obtain ⟨⟨extra, grows⟩, pruned⟩ := stepped.yields outlives.fits.wf outlives.fits.nodup
  obtain ⟨new, calls⟩ := outlives.grows
  refine ⟨outlives.fits.stepped stepped, ⟨new ++ extra, ?_⟩, fun all same q held spared => ?_⟩
  · rw [grows, calls, List.append_assoc]
  · rw [grows, calls, List.append_assoc] at same
    obtain rfl := List.append_cancel_left same
    rw [List.mem_append, not_or] at spared
    by_contra dropped
    exact spared.2 ((pruned q (outlives.kept new calls q held spared.1) dropped).2 extra grows)

/-- **A reservation outlives the connections to its relay.** In every reachable state, and over
every run on from there, closes of connections included: a reserved relay that the node does not
ask to disconnect is still reserved at the end; a turn that gives one up leaves the node at
capacity; and a relay that is not reserved is refused exactly when the reserved ones, connected or
not, are as many as there is room for. -/
theorem reserved_until_pruned (env : Env) (me : PeerId) (max : Nat) {h h' : List Input}
    {s s' : SavedNetwork} {new : List Call}
    (run : Run (SavedNetwork.step env) (fun _ _ _ => True) (.start me max) h s)
    (later : Run (SavedNetwork.step env) (fun _ _ _ => True) s h' s')
    (calls : s'.swarm.calls = s.swarm.calls ++ new) :
    (∀ q ∈ s.relayManager.reserved, .disconnectPeerId q ∉ new →
      q ∈ s'.relayManager.reserved) ∧
    (∀ i t, s'.step env i = some t → ∀ q ∈ s'.relayManager.reserved,
      q ∉ t.relayManager.reserved →
        t.relayManager.reserved.length = t.relayManager.inUse.len + max) ∧
    (∀ q ∉ s'.relayManager.reserved, s'.relayManager.canReserve q = false ↔
      s'.relayManager.reserved.length = s'.relayManager.inUse.len + max) := by
  have outlives : Outlives max s s' := later.state_invariant (.start (.run run))
    fun _ _ _ _ before _ returned => before.step returned
  have fits := outlives.fits
  refine ⟨outlives.kept new calls, fun i t returned q held dropped => ?_, fun q absent => ?_⟩
  · obtain ⟨_, stepped⟩ := step_stepped returned
    have full := ((stepped.yields fits.wf fits.nodup).pruned q held dropped).1
    rwa [Full, (fits.stepped stepped).maxRelays] at full
  · have within := fits.fits
    unfold RelayManager.canReserve
    rw [if_neg absent, decide_eq_false_iff_not, fits.maxRelays]
    omega

/-- A relay connects, accepts a reservation, and its connection closes. -/
def reserveAndClose (host : Byte) : List Input :=
  [.event (.connectionEstablished ⟨[host]⟩ ⟨host.val⟩ (.dialer (lanAddr host))),
    .event (.reservationReqAccepted ⟨[host]⟩),
    .event (.connectionClosed ⟨[host]⟩ ⟨host.val⟩)]

/-- The connection of a reserved relay closes, and the relay stays reserved. -/
theorem reserved_until_pruned_closed : ∃ s s',
    Run (SavedNetwork.step .calm) (fun _ _ _ => True) (.start ⟨[0]⟩ 4)
      ((reserveAndClose 4).take 2) s ∧
    Run (SavedNetwork.step .calm) (fun _ _ _ => True) s ((reserveAndClose 4).drop 2) s' ∧
    s'.view.isConnected ⟨[4]⟩ = false ∧ ⟨[4]⟩ ∈ s'.relayManager.reserved := by
  obtain ⟨s, run, both⟩ : ∃ s, Run (SavedNetwork.step .calm) (fun _ _ _ => True) (.start ⟨[0]⟩ 4)
      ((reserveAndClose 4).take 2) s ∧
      (decide (⟨[4]⟩ ∈ s.relayManager.reserved) &&
        (s.step .calm (.event (.connectionClosed ⟨[4]⟩ ⟨4⟩))).any fun s' =>
          !s'.view.isConnected ⟨[4]⟩ && decide (s'.swarm.calls = s.swarm.calls ++
            [Call.send (.disconnected ⟨[4]⟩ ⟨4⟩), Call.dial (lanAddr 4) true])) = true :=
    Run.exists_of_replay (by decide)
  rw [Bool.and_eq_true, decide_eq_true_eq] at both
  obtain ⟨held, closes⟩ := both
  obtain ⟨s', returned, after⟩ := (Option.any_eq_true _ _).mp closes
  rw [Bool.and_eq_true, Bool.not_eq_true', decide_eq_true_eq] at after
  have later : Run (SavedNetwork.step .calm) (fun _ _ _ => True) s
      ((reserveAndClose 4).drop 2) s' := .next .start trivial returned
  exact ⟨s, s', run, later, after.1,
    (reserved_until_pruned .calm _ 4 run later after.2).1 _ held (by decide)⟩

/-- After the run every connection is closed again, so the relays that fill the book are dead. -/
theorem swarmConns_reserveAndClose (hosts : List Byte) :
    swarmConns (hosts.flatMap reserveAndClose) = fun _ _ => none := by
  induction hosts using List.reverseRecOn with
  | nil => rfl
  | append_singleton hosts host ih =>
    rw [List.flatMap_append, List.flatMap_cons, List.flatMap_nil, List.append_nil]
    unfold swarmConns at *
    rw [List.foldl_append, ih]
    funext p d
    show (if p = ⟨[host]⟩ ∧ d = ⟨host.val⟩ then none
      else if p = ⟨[host]⟩ ∧ d = ⟨host.val⟩ then some _ else none) = none
    split <;> rfl

/-- **Relays whose connections have all closed stay reserved**, and they fill the capacity: a new
relay is refused by a node that is connected to no relay at all. -/
theorem dead_relays_fill_capacity :
    (¬ ∀ (env : Env) (me : PeerId) (max : Nat) (h : List Input) (s : SavedNetwork),
      Run (SavedNetwork.step env) (fun h _ i => i.genuine h = true) (.start me max) h s →
      ∀ r e c, .event (.connectionEstablished r c e) ∈ h → (∀ d, swarmConns h r d = none) →
        r ∉ s.relayManager.reserved) ∧
    (¬ ∀ (env : Env) (me : PeerId) (max : Nat) (h : List Input) (s : SavedNetwork),
      Run (SavedNetwork.step env) (fun h _ i => i.genuine h = true) (.start me max) h s →
      0 < max → (∀ r ∈ s.relayManager.reserved, ∀ d, swarmConns h r d = none) →
        ∀ q, s.relayManager.canReserve q = true) := by
  obtain ⟨s, run, both⟩ : ∃ s, Run (SavedNetwork.step .calm) (fun h _ i => i.genuine h = true)
      (.start ⟨[0]⟩ 4) ([4, 5, 6, 7].flatMap reserveAndClose) s ∧
      (decide (⟨[4]⟩ ∈ s.relayManager.reserved) && !s.relayManager.canReserve ⟨[8]⟩) = true :=
    Run.exists_of_replay (by decide)
  rw [Bool.and_eq_true, decide_eq_true_eq, Bool.not_eq_true'] at both
  have closed : ∀ r d, swarmConns ([4, 5, 6, 7].flatMap reserveAndClose) r d = none := fun r d =>
    congrFun (congrFun (swarmConns_reserveAndClose _) r) d
  constructor
  · intro always
    exact always _ _ _ _ s run ⟨[4]⟩ (.dialer (lanAddr 4)) ⟨4⟩ (by decide) (closed _) both.1
  · intro always
    have taken := always _ _ _ _ s run (by decide) (fun r _ => closed r) ⟨[8]⟩
    rw [both.2] at taken
    cases taken

end Saved
