import Saved.Laws.DeadRelays
import Saved.Laws.Rtts

/-!
# Pruning and the target peers

A target that offers relay service is reserved like any other relay, and pruned like any other. The
relays that a turn prunes can be read off the state before it (`relaysAfter`), whatever the
reconcile in between does, and also when the handler prunes twice, before and after it registers the
relay of a new connection (`worst_twice`). So `targets_spared_iff` says for each turn when it
disconnects a target.
-/

namespace Saved

open Saved.Lib SavedNetwork

variable {env : Env} {me : PeerId} {max : Nat} {s s' t u : SavedNetwork} {i : Input}
  {view view' : NetworkView} {relay q : PeerId}

namespace RelayManager

variable {rm rm' : RelayManager}

/-- **What a pruning gives up depends on the members of `in_use` and on the times**, not on the
order of the set or on the rest of the view. -/
theorem worst_congr (reserved : rm'.reserved = rm.reserved)
    (maxRelays : rm'.maxRelays = rm.maxRelays)
    (inUse : ∀ q, q ∈ rm'.inUse ↔ q ∈ rm.inUse) (rtts : view'.rtts = view.rtts) :
    rm'.worst view' = rm.worst view := by
  have key : rttKey view' = rttKey view := by
    funext q
    rw [NetworkView.rttKey_eq, NetworkView.rttKey_eq, rtts]
  have excess : rm'.excess = rm.excess := by
    rw [RelayManager.excess, RelayManager.excess, reserved, maxRelays, HashSet.len_congr inUse]
  have idle : (fun q => decide (q ∉ rm'.inUse)) = fun q => decide (q ∉ rm.inUse) :=
    funext fun q => decide_eq_decide.mpr (not_congr (inUse q))
  rw [worst, worst, key, excess, idle, reserved]

/-- The relays that are left. -/
def kept (rm : RelayManager) (view : NetworkView) : RelayManager :=
  { rm with reserved := rm.reserved.diff (rm.worst view) }

/-- **Pruning, registering a relay in use, and pruning again** gives up what pruning with the relay
registered gives up. -/
theorem worst_twice (used : relay ∈ rm.inUse) :
    rm.worst view ++ ((rm.kept view).register relay).worst view =
      (rm.register relay).worst view := by
  -- the relay itself is never taken, so it only counts
  have fixed : ∀ rm : RelayManager, relay ∈ rm.inUse →
      (rm.register relay).worst view = drain (rttKey view) (fun q => decide (q ∉ rm.inUse))
        (rm.register relay).excess rm.reserved := by
    intro rm used
    unfold worst register
    split
    · rfl
    · exact drain_congr (by simp [used])
  have grown : ∀ rm : RelayManager, (rm.register relay).excess =
      rm.reserved.length + (if relay ∈ rm.reserved then 0 else 1) -
        (rm.inUse.len + rm.maxRelays) := by
    intro rm
    unfold excess register
    split
    · rfl
    · rw [List.length_append]
      rfl
  have stays : relay ∈ (rm.kept view).reserved ↔ relay ∈ rm.reserved := by
    constructor
    · exact fun mem => List.diff_subset _ _ mem
    · exact fun mem => List.mem_diff_of_mem mem fun taken =>
        (mem_spares.mp (mem_spares_of_worst taken)).2 used
  have length : (rm.worst view).length + (rm.kept view).reserved.length = rm.reserved.length := by
    rw [← List.length_append]
    exact drain_perm.length_eq
  have taken : (rm.worst view).length = min rm.excess rm.spares.length := drain_length
  rw [fixed rm used, fixed (rm.kept view) used, grown, grown]
  simp only [stays]
  generalize (if relay ∈ rm.reserved then 0 else 1) = joined
  have further : rm.excess ≤ rm.reserved.length + joined - (rm.inUse.len + rm.maxRelays) := by
    unfold excess
    omega
  obtain ⟨rounds, total⟩ := Nat.exists_eq_add_of_le further
  rw [total, ← drain_add]
  show _ ++ drain _ _ _ (rm.reserved.diff (rm.worst view)) =
    rm.worst view ++ drain _ _ rounds (rm.reserved.diff (rm.worst view))
  rcases Nat.lt_or_ge rm.excess rm.spares.length with more | few
  · have same : (rm.kept view).reserved.length + joined -
        ((rm.kept view).inUse.len + (rm.kept view).maxRelays) = rounds := by
      have inUse : (rm.kept view).inUse = rm.inUse := rfl
      have maxRelays : (rm.kept view).maxRelays = rm.maxRelays := rfl
      rw [inUse, maxRelays]
      unfold excess at *
      omega
    rw [same]
    rfl
  · have none : ∀ n, drain (rttKey view) (fun q => decide (q ∉ rm.inUse)) n
        (rm.reserved.diff (rm.worst view)) = [] := fun n => drain_exhausted few
    rw [none]
    exact congrArg _ (none _)

/-- A reservation puts no relay in use. -/
@[simp] theorem register_inUse : (rm.register relay).inUse = rm.inUse := by
  unfold register
  split <;> rfl

/-- Views with the same tracked connections and the same times give up the same relays. -/
theorem recomputed_worst (rm : RelayManager) (wf : view.WellFormed) (wf' : view'.WellFormed)
    (tracked : view'.tracked = view.tracked) (rtts : view'.rtts = view.rtts) :
    (rm.recomputeInUse view').worst view' = (rm.recomputeInUse view).worst view :=
  worst_congr rfl rfl
    (fun q => by rw [mem_recomputeInUse wf', mem_recomputeInUse wf, tracked]) rtts

/-- Registering a relay and recomputing what is in use are about different fields. -/
theorem register_recompute (rm : RelayManager) (view : NetworkView) :
    (rm.recomputeInUse view).register relay = (rm.register relay).recomputeInUse view := by
  unfold register recomputeInUse
  split <;> rfl

end RelayManager

open RelayManager

namespace SavedNetwork

/-! ## The disconnects of a turn -/

/-- **From `s` to `s'` the peers of a list are disconnected, and no other.** -/
def Drops (gone : List PeerId) (s s' : SavedNetwork) : Prop :=
  ∃ new, s'.swarm.calls = s.swarm.calls ++ new ∧ ∀ q, .disconnectPeerId q ∈ new ↔ q ∈ gone

/-- Calls that spare the peers drop none. -/
theorem Drops.of_makes (makes : Makes Call.spares s s') : Drops [] s s' := by
  obtain ⟨new, calls, spares⟩ := makes
  exact ⟨new, calls, fun q => ⟨fun made => absurd rfl (spares _ made q),
    fun none => absurd none List.not_mem_nil⟩⟩

/-- What two steps drop is what the one drops and what the other drops. -/
theorem Drops.trans {gone gone' : List PeerId} (first : Drops gone s t) (second : Drops gone' t u) :
    Drops (gone ++ gone') s u := by
  obtain ⟨new, calls, mem⟩ := first
  obtain ⟨new', calls', mem'⟩ := second
  exact ⟨new ++ new', by rw [calls', calls, List.append_assoc], fun q => by
    rw [List.mem_append, List.mem_append, mem, mem']⟩

/-- The dropped peers, read off the calls that the step appended. -/
theorem Drops.mem_iff {gone : List PeerId} {new : List Call} (drops : Drops gone s s')
    (calls : s'.swarm.calls = s.swarm.calls ++ new) : .disconnectPeerId q ∈ new ↔ q ∈ gone := by
  obtain ⟨new', calls', mem⟩ := drops
  obtain rfl := List.append_cancel_left (calls'.symm.trans calls)
  exact mem q

/-- An update of the relay state. -/
theorem updateRelayState_drops (s : SavedNetwork) :
    Drops ((s.relayManager.recomputeInUse s.view).worst s.view) s s.updateRelayState := by
  refine ⟨_, by unfold updateRelayState; rw [pruneRelays_eq]; rfl, fun q => ?_⟩
  simp only [List.mem_map, Call.disconnectPeerId.injEq, exists_eq_right]
  rfl

/-- The relay manager after an update. -/
theorem updateRelayState_relayManager (s : SavedNetwork) :
    s.updateRelayState.relayManager = (s.relayManager.recomputeInUse s.view).kept s.view := by
  unfold updateRelayState
  rw [pruneRelays_eq]
  rfl

/-- The view once the connection of an event has come or gone. -/
def viewAfter (env : Env) (s : SavedNetwork) : Input → NetworkView
  | .event (.connectionEstablished p c endpoint) =>
    s.view.addConnection (env.readings s.clockReads) p c endpoint
  | .event (.connectionClosed p c) => s.view.removeConnection (env.readings s.clockReads) p c
  | _ => s.view

/-- **The relays that a turn prunes**: the relay that joins is registered, and those in use are read
off the view. -/
def relaysAfter (env : Env) (s : SavedNetwork) (i : Input) : RelayManager :=
  (i.joins.elim s.relayManager s.relayManager.register).recomputeInUse (s.viewAfter env i)

/-- The relay book at the end of a turn, by the relay that joined in it. -/
theorem relaysAfter_of_joins {joined : Option PeerId} (joins : i.joins = joined) :
    s.relaysAfter env i =
      (joined.elim s.relayManager s.relayManager.register).recomputeInUse (s.viewAfter env i) := by
  rw [relaysAfter, joins]

/-- The rest of a turn marks failures. -/
theorem viewAfter_edited (returned : s.step env i = some s') (asks : i.refreshes = true) :
    Edited ViewOp.marks (s.viewAfter env i) s'.view := by
  cases i with
  | rpc _ => cases asks
  | event event =>
    cases event with
    | connectionEstablished p c endpoint => exact opened_edited.of_exec returned
    | connectionClosed p c => exact closed_edited.of_exec returned
    | reservationReqAccepted relay =>
      cases returned
      exact .of_eq (updateRelayState_view (s.register relay))
    | _ => cases asks

end SavedNetwork

/-- A handler of connections that runs to its end prunes once. -/
theorem Settled.drops {switch : Option Bool} (settled : Settled env switch t (.ok ()) u)
    (wf : t.view.WellFormed) (rtts : u.view.rtts = t.view.rtts) :
    Drops ((t.relayManager.recomputeInUse t.view).worst t.view) t u ∧
      u.relayManager = (t.relayManager.recomputeInUse u.view).kept u.view := by
  have tracked := (settled.tracked wf).2
  have wf' := (settled.tracked wf).1
  cases settled with
  | @settled w _ quiet =>
    have same : w.relayManager = t.relayManager := quiet.relayManager
    have makes : Makes Call.spares t w := quiet.calls
    have view := updateRelayState_view w
    have drops := updateRelayState_drops w
    rw [same, ← view, recomputed_worst t.relayManager wf wf' tracked rtts] at drops
    refine ⟨(Drops.of_makes makes).trans drops, ?_⟩
    rw [updateRelayState_relayManager, view, same]

/-- **What a turn disconnects**, when its input asks for an update and it runs to its end. -/
theorem Stepped.drops (stepped : Stepped env s i (.ok ()) s') (asks : i.refreshes = true)
    (wf : s.view.WellFormed) (rtts : s'.view.rtts = (s.viewAfter env i).rtts) :
    Drops ((s.relaysAfter env i).worst (s.viewAfter env i)) s s' := by
  cases stepped with
  | quiet isQuiet _ =>
    rw [Input.refreshes_of_quiet isQuiet] at asks
    cases asks
  | expired _ => cases asks
  | targetAdded | targetRemoved => cases asks
  | accepted => exact updateRelayState_drops (s.register _)
  | closed gone settled =>
    have changed := changed_of_closed gone wf
    subst gone
    exact (Drops.of_makes changed.calls).trans (settled.drops changed.wf rtts).1
  | @opened p c e _ _ added settled direct =>
    have changed := changed_of_opened added wf
    subst added
    have joins : (Input.event (.connectionEstablished p c e)).joins = none := direct
    rw [relaysAfter_of_joins joins]
    exact (Drops.of_makes changed.calls).trans (settled.drops changed.wf rtts).1
  | @openedOver p c e _ u relay added settled used =>
    have changed := changed_of_opened added wf
    subst added
    rw [updateRelayState_view] at rtts
    have tracked := settled.tracked changed.wf
    have first := settled.drops changed.wf rtts
    have second : Drops (((u.relayManager.register relay).recomputeInUse u.view).worst u.view) u
        (u.register relay).updateRelayState := updateRelayState_drops (u.register relay)
    have joins : (Input.event (.connectionEstablished p c e)).joins = some relay := used
    -- The relay that joins carries the new connection, so it is no spare one even before it joins.
    have carries : relay ∈ (s.relayManager.recomputeInUse u.view).inUse := by
      refine (mem_recomputeInUse tracked.1).mpr ⟨p, c, e.remote, ?_, relayUsed_eq e ▸ used⟩
      rw [tracked.2, changed.tracked]
      exact Tracked.set_eq_some.mpr (.inl ⟨⟨rfl, rfl⟩, rfl⟩)
    have again : ((u.relayManager.register relay).recomputeInUse u.view).worst u.view =
        (((s.relayManager.recomputeInUse u.view).kept u.view).register relay).worst u.view := by
      rw [first.2]
      exact worst_congr rfl rfl (fun q => by rw [register_inUse]; rfl) rfl
    -- The two prunings, with the registration between them, give up what one after it would.
    have whole : (s.relayManager.recomputeInUse u.view).worst u.view ++
        (((s.relayManager.recomputeInUse u.view).kept u.view).register relay).worst u.view =
          ((s.relayManager.register relay).recomputeInUse
            (s.viewAfter env (.event (.connectionEstablished p c e)))).worst
              (s.viewAfter env (.event (.connectionEstablished p c e))) := by
      rw [worst_twice carries, register_recompute]
      exact recomputed_worst _ changed.wf tracked.1 tracked.2 rtts
    have both := (Drops.of_makes changed.calls).trans (first.1.trans second)
    rw [← recomputed_worst _ changed.wf tracked.1 tracked.2 rtts, again] at both
    rw [relaysAfter_of_joins joins]
    exact whole ▸ both

/-! ## Targets -/

/-- **A turn prunes a target**: its input asks for an update, its handler gets there, and some
target is a spare relay that fewer other spare relays are worse than there are too many. -/
def SavedNetwork.prunesTarget (env : Env) (s : SavedNetwork) (i : Input) : Bool :=
  i.refreshes && !s.exitsEarly env i && s.targetPeers.toList.any fun t =>
    decide (t ∈ (s.relaysAfter env i).spares ∧
      ((s.relaysAfter env i).spares.filter fun q =>
        decide ((s.relaysAfter env i).IsWorse (s.viewAfter env i) q t)).length <
          (s.relaysAfter env i).excess)

/-- A relay is given up when fewer spare relays are worse than there are too many. -/
theorem RelayManager.mem_worst_iff {rm : RelayManager} (nodup : rm.reserved.Nodup) :
    q ∈ rm.worst view ↔ q ∈ rm.spares ∧
      (rm.spares.filter fun r => decide (rm.IsWorse view r q)).length < rm.excess := by
  have order : rm.spares.filter (fun r => decide (rm.IsWorse view r q)) = rm.reserved.filter
      fun r => decide (r ∉ rm.inUse) && decide (Precedes (rttKey view) rm.reserved r q) := by
    rw [spares, List.filter_filter]
    exact List.filter_congr fun r _ => Bool.and_comm _ _
  rw [order, mem_spares, and_assoc, ← decide_eq_true_iff (p := q ∉ rm.inUse)]
  exact mem_drain_iff nodup

/-- **Pruning spares the target peers exactly when no target is among the worst spare relays**: in
every state that a run leads to, and for every turn from it. -/
theorem targets_spared_iff (env : Env) (me : PeerId) (max : Nat) {h : List Input} {i : Input}
    {s s' : SavedNetwork} {new : List Call}
    (run : Run (SavedNetwork.step env) (fun _ _ _ => True) (.start me max) h s)
    (returned : s.step env i = some s') (calls : s'.swarm.calls = s.swarm.calls ++ new) :
    (∀ t ∈ s.targetPeers, .disconnectPeerId t ∉ new) ↔ s.prunesTarget env i = false := by
  have fits := Fits.run run
  obtain ⟨r, stepped⟩ := step_stepped returned
  -- A turn that updates the relay state drops the worst spare relays of it; any other drops nobody.
  by_cases updates : i.refreshes = true ∧ s.exitsEarly env i = false
  · obtain ⟨asks, late⟩ := updates
    have exit : r = .ok () := by
      by_contra early
      rw [(stepped.exits asks fits.wf).mp early] at late
      cases late
    subst exit
    have drops := stepped.drops asks fits.wf (viewAfter_edited returned asks).rtts
    have nodup : (s.relaysAfter env i).reserved.Nodup := by
      unfold SavedNetwork.relaysAfter
      cases i.joins with
      | none => exact fits.nodup
      | some relay => exact register_nodup fits.nodup
    simp only [SavedNetwork.prunesTarget, asks, late, Bool.not_false, Bool.true_and,
      List.any_eq_false, decide_eq_true_eq, drops.mem_iff calls, mem_worst_iff nodup]
    rfl
  · have idle : i.refreshes = false ∨ r ≠ .ok () := by
      rw [not_and_or, Bool.not_eq_true, Bool.not_eq_false] at updates
      by_cases asks : i.refreshes = true
      · exact .inr ((stepped.exits asks fits.wf).mpr (updates.resolve_left (by simp [asks])))
      · exact .inl (Bool.eq_false_iff.mpr asks)
    have spares := (stepped.unrefreshed fits.wf idle).calls.of_append calls
    have none : s.prunesTarget env i = false := by
      unfold SavedNetwork.prunesTarget
      rw [not_and_or, Bool.not_eq_true, Bool.not_eq_false] at updates
      rcases updates with asks | early
      · rw [asks, Bool.false_and, Bool.false_and]
      · rw [early, Bool.not_true, Bool.and_false, Bool.false_and]
    exact ⟨fun _ => none, fun _ t _ made => spares _ made t rfl⟩

/-- A target connects, a ping of it takes 50 ms, and it accepts a reservation. Three more relays do,
and of these no ping was answered. -/
def targetRelayInputs : List Input :=
  Input.rpc (.addTargetPeer ⟨[1]⟩) :: pingedRelay ++
    [.event (.connectionEstablished ⟨[2]⟩ ⟨2⟩ (.dialer (lanAddr 2))),
      .event (.connectionEstablished ⟨[3]⟩ ⟨3⟩ (.dialer (lanAddr 3))),
      .event (.connectionEstablished ⟨[4]⟩ ⟨4⟩ (.dialer (lanAddr 4))),
      .event (.connectionEstablished ⟨[5]⟩ ⟨5⟩ (.dialer (lanAddr 5))),
      .event (.reservationReqAccepted ⟨[2]⟩), .event (.reservationReqAccepted ⟨[3]⟩),
      .event (.reservationReqAccepted ⟨[4]⟩)]

/-- A fifth relay, which the view does not know, accepts: it goes, and the target stays. -/
theorem targets_spared_unknown : ∃ s s' new, Run (SavedNetwork.step .calm) (fun _ _ _ => True)
    (.start ⟨[0]⟩ 4) targetRelayInputs s ∧
    s.step .calm (.event (.reservationReqAccepted ⟨[6]⟩)) = some s' ∧
    s'.swarm.calls = s.swarm.calls ++ new ∧ .disconnectPeerId ⟨[6]⟩ ∈ new ∧
    ∀ t ∈ s.targetPeers, .disconnectPeerId t ∉ new := by
  obtain ⟨s, run, shape⟩ : ∃ s, Run (SavedNetwork.step .calm) (fun _ _ _ => True)
      (.start ⟨[0]⟩ 4) targetRelayInputs s ∧
      ((s.step .calm (.event (.reservationReqAccepted ⟨[6]⟩))).any (fun s' =>
        decide (s'.swarm.calls = s.swarm.calls ++ [Call.disconnectPeerId ⟨[6]⟩])) &&
        !s.prunesTarget .calm (.event (.reservationReqAccepted ⟨[6]⟩))) = true :=
    Run.exists_of_replay (by decide)
  simp only [Bool.and_eq_true, Option.any_eq_true, decide_eq_true_eq, Bool.not_eq_true'] at shape
  obtain ⟨⟨s', returned, calls⟩, spared⟩ := shape
  exact ⟨s, s', _, run, returned, calls, List.mem_cons_self,
    (targets_spared_iff .calm ⟨[0]⟩ 4 run returned calls).mpr spared⟩

/-- **A connected target is pruned**: it is slower than the relays that no ping was answered of. -/
theorem target_pruned : ¬ ∀ (env : Env) (me : PeerId) (max : Nat) (h : List Input) (i : Input)
    (s s' : SavedNetwork) (new : List Call),
    Run (SavedNetwork.step env) (fun h _ i => i.genuine h = true) (.start me max) h s →
    s.step env i = some s' → s'.swarm.calls = s.swarm.calls ++ new →
    ∀ t ∈ s.targetPeers, .disconnectPeerId t ∉ new := by
  intro always
  obtain ⟨s, run, shape⟩ : ∃ s, Run (SavedNetwork.step .calm)
      (fun h _ i => i.genuine h = true) (.start ⟨[0]⟩ 4) targetRelayInputs s ∧
      ((s.step .calm (.event (.reservationReqAccepted ⟨[5]⟩))).any (fun s' =>
        decide (s'.swarm.calls = s.swarm.calls ++ [Call.disconnectPeerId ⟨[1]⟩])) &&
        decide (⟨[1]⟩ ∈ s.targetPeers)) = true :=
    Run.exists_of_replay (by decide)
  simp only [Bool.and_eq_true, Option.any_eq_true, decide_eq_true_eq] at shape
  obtain ⟨⟨s', returned, calls⟩, target⟩ := shape
  exact always _ _ _ _ _ s s' _ run returned calls ⟨[1]⟩ target List.mem_cons_self

end Saved
