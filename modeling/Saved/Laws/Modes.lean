import Saved.Laws.Tracking

/-!
# Active and passive mode

The node has to be active while a target is not connected. `Alert` is that rule, and a turn keeps
it unless it is one of three: a target added in passive mode that is not connected, an expiry in
passive mode that takes the last connection of a target, and a target's last connection closed in
passive mode with nobody listening to the broadcast, which ends the handler before the mode is
looked at.
-/

namespace Saved

open Saved.Lib SavedNetwork

variable {env : Env} {me : PeerId} {h : List Input} {s s' t u : SavedNetwork} {i : Input}

/-- **The rule of the modes**: with a target that is not connected, the node is active. -/
def Alert (s : SavedNetwork) : Prop :=
  ∀ p ∈ s.targetPeers, s.view.isConnected p = false → s.activeMode = true

/-- Alertness read off the tracked connections, where the steps below can follow it. -/
theorem alert_iff (wf : s.view.WellFormed) :
    Alert s ↔ s.activeMode = true ∨ ∀ p ∈ s.targetPeers, s.view.tracked.Up p := by
  constructor
  · intro alert
    by_cases active : s.activeMode = true
    · exact .inl active
    · refine .inr fun p target => ?_
      rw [← NetworkView.isConnected_iff_tracked wf]
      by_contra down
      exact active (alert p target (Bool.eq_false_iff.mpr down))
  · intro rule p target down
    rcases rule with active | all
    · exact active
    · have up := (NetworkView.isConnected_iff_tracked wf).mpr (all p target)
      exact absurd (down.symm.trans up) Bool.false_ne_true

/-- The rule looks at the mode, the targets and the tracked connections. -/
theorem alert_congr (wf : s.view.WellFormed) (wf' : s'.view.WellFormed)
    (mode : s'.activeMode = s.activeMode) (targets : s'.targetPeers = s.targetPeers)
    (tracked : s'.view.tracked = s.view.tracked) : Alert s' ↔ Alert s := by
  rw [alert_iff wf, alert_iff wf', mode, targets, tracked]

/-- A quiet step changes neither side of the condition. -/
theorem alert_quiet (quiet : Quiet s s') (wf : s.view.WellFormed) : Alert s' ↔ Alert s :=
  alert_congr wf (quiet.wf wf) quiet.activeMode quiet.targetPeers (quiet.tracked wf)

/-- The relay update closes reservations, and it leaves the mode, the targets and the view. -/
theorem alert_updateRelayState (wf : s.view.WellFormed) : Alert s.updateRelayState ↔ Alert s := by
  have updated := updateRelayState_spec s
  have wf' : s.updateRelayState.view.WellFormed := updated.view ▸ wf
  exact alert_congr wf wf' updated.activeMode updated.targetPeers (by rw [updated.view])

/-- An active node is alert, whatever it is connected to. -/
theorem alert_of_active (active : s.activeMode = true) : Alert s := fun _ _ _ => active

/-- **What a handler of connections leaves**, when its switch repairs the rule: the rule holds
unless the broadcast fails and it was broken by the change of the view. -/
theorem Settled.alert {switch : Option Bool} {r : Except SavedError Unit}
    (settled : Settled env switch t r u) (wf : t.view.WellFormed)
    (repairs : switch.getD t.activeMode = true ∨ ∀ p ∈ t.targetPeers, t.view.tracked.Up p) :
    Alert u ↔ env.sendOk t.asked = true ∨ Alert t := by
  cases settled with
  | unheard lost quiet =>
    rw [alert_quiet quiet wf, lost]
    simp
  | unarmed heard _ quiet =>
    have active : Alert u := alert_of_active quiet.activeMode
    exact ⟨fun _ => .inl heard, fun _ => active⟩
  | settled runs quiet =>
    have heard : env.sendOk t.asked = true := by
      by_contra lost
      exact runs (.inl (Bool.eq_false_iff.mpr lost))
    have alert : Alert { t with activeMode := switch.getD t.activeMode } :=
      (alert_iff (s := { t with activeMode := switch.getD t.activeMode }) wf).mpr repairs
    have wf' := quiet.wf wf
    exact ⟨fun _ => .inl heard, fun _ => (alert_updateRelayState wf').mpr
      ((alert_quiet quiet wf).mpr alert)⟩

/-- Some connection of a peer stands on an address that is not listed. -/
def NetworkView.survivesExpiry (view : NetworkView) (list : List (PeerId × Multiaddr))
    (p : PeerId) : Bool :=
  (view.addressesOf p).any fun m =>
    !m.activeConnections.isEmpty && !list.contains (p, m.address)

/-- A peer has a connection besides one. -/
def NetworkView.survivesClose (view : NetworkView) (c : ConnectionId) (p : PeerId) : Bool :=
  (view.addressesOf p).any fun m => m.activeConnections.any fun d => decide (d ≠ c)

/-- Surviving an expiry, in the source's words, is being up among the connections that the list
leaves tracked. -/
theorem NetworkView.survivesExpiry_iff {view : NetworkView} (wf : view.WellFormed)
    {list : List (PeerId × Multiaddr)} {p : PeerId} :
    view.survivesExpiry list p = true ↔ (view.tracked.expire list).Up p := by
  unfold survivesExpiry Tracked.Up
  simp only [Tracked.expire_eq_some, tracked_iff wf, List.any_eq_true, Bool.and_eq_true,
    Bool.not_eq_true', List.isEmpty_eq_false_iff, List.contains_eq_mem, decide_eq_false_iff_not]
  constructor
  · intro found
    obtain ⟨m, hm, nonempty, unlisted⟩ := found
    obtain ⟨c, hc⟩ := List.exists_mem_of_ne_nil _ nonempty
    exact ⟨c, m.address, ⟨m, hm, rfl, hc⟩, unlisted⟩
  · intro found
    obtain ⟨c, a, ⟨m, hm, rfl, hc⟩, unlisted⟩ := found
    exact ⟨m, hm, List.ne_nil_of_mem hc, unlisted⟩

/-- Surviving a close, in the source's words, is being up among the other connections. -/
theorem NetworkView.survivesClose_iff {view : NetworkView} (wf : view.WellFormed)
    {c : ConnectionId} {p : PeerId} :
    view.survivesClose c p = true ↔ (view.tracked.set p c none).Up p := by
  unfold survivesClose Tracked.Up
  simp only [Tracked.set_eq_some, tracked_iff wf, List.any_eq_true, decide_eq_true_eq]
  constructor
  · intro found
    obtain ⟨m, hm, d, hd, other⟩ := found
    exact ⟨d, m.address, .inr ⟨fun same => other same.2, m, hm, rfl, hd⟩⟩
  · intro found
    obtain ⟨d, a, here | ⟨other, m, hm, -, hd⟩⟩ := found
    · cases here.2
    · exact ⟨m, hm, d, hd, fun same => other ⟨trivial, same⟩⟩

/-- **When a turn keeps the rule.** -/
def SavedNetwork.staysAlert (env : Env) (s : SavedNetwork) : Input → Bool
  | .rpc (.addTargetPeer p) => s.activeMode || s.view.isConnected p
  | .event (.mdnsExpired list) =>
    s.activeMode || s.targetPeers.toList.all (s.view.survivesExpiry list)
  | .event (.connectionClosed p c) =>
    s.activeMode || env.sendOk s.asked || !decide (p ∈ s.targetPeers) || s.view.survivesClose c p
  | _ => true

/-- A quiet input asks nothing of the state before it. -/
theorem staysAlert_of_quiet (quiet : i.isQuiet = true) : s.staysAlert env i = true := by
  cases i with
  | rpc rpc =>
    cases rpc with
    | addTargetPeer _ => cases quiet
    | _ => rfl
  | event event =>
    cases event with
    | mdnsExpired _ | connectionClosed _ _ => cases quiet
    | _ => rfl

/-- Opening a connection keeps the rule, and its switch repairs it. -/
theorem opened_alert {p : PeerId} {c : ConnectionId} {e : ConnectedPoint}
    {r : Except SavedError Unit} (wf : s.view.WellFormed) (alert : Alert s)
    (added : t = s.onView env fun now view => view.addConnection now p c e)
    (settled : Settled env (openSwitch t p) t r u) : Alert u := by
  have changed := changed_of_opened added wf
  -- Who was connected stays so: a connection may move to another address, but is not lost.
  have grows : ∀ q, s.view.tracked.Up q → t.view.tracked.Up q := by
    intro q up
    obtain ⟨d, a, stands⟩ := up
    by_cases here : q = p ∧ d = c
    · exact ⟨d, e.remote, by rw [changed.tracked, Tracked.set_eq_some]; exact .inl ⟨here, rfl⟩⟩
    · exact ⟨d, a, by rw [changed.tracked, Tracked.set_eq_some]; exact .inr ⟨here, stands⟩⟩
  have kept : t.activeMode = true ∨ ∀ q ∈ t.targetPeers, t.view.tracked.Up q := by
    rw [changed.activeMode, changed.targetPeers]
    exact ((alert_iff wf).mp alert).imp id fun all q target => grows q (all q target)
  refine (settled.alert changed.wf ?_).mpr (.inr ((alert_iff changed.wf).mpr kept))
  unfold openSwitch
  split
  · -- the switch says whether some target is missing
    cases missing : t.targetPeers.toList.any fun q => !t.view.isConnected q with
    | true => exact .inl rfl
    | false =>
      refine .inr fun q target => (NetworkView.isConnected_iff_tracked changed.wf).mp ?_
      have here := List.any_eq_false.mp missing q target
      simpa using here
  · exact kept

/-- **Closing a connection keeps the rule** unless it takes the last one of a target in passive mode
and nobody hears of it: a switch that is heard repairs the rule. -/
theorem closed_alert {p : PeerId} {c : ConnectionId} {r : Except SavedError Unit}
    (wf : s.view.WellFormed) (alert : Alert s)
    (gone : t = s.onView env fun now view => view.removeConnection now p c)
    (settled : Settled env (closeSwitch t p) t r u) :
    Alert u ↔ s.staysAlert env (.event (.connectionClosed p c)) = true := by
  have changed := changed_of_closed gone wf
  have elsewhere : ∀ q, q ≠ p → s.view.tracked.Up q → t.view.tracked.Up q := by
    intro q other up
    obtain ⟨d, a, stands⟩ := up
    refine ⟨d, a, ?_⟩
    rw [changed.tracked, Tracked.set_eq_some]
    exact .inr ⟨fun here => other here.1, stands⟩
  -- the change of the view can break the rule for the one peer only
  have broken : Alert t ↔
      s.activeMode = true ∨ p ∉ s.targetPeers ∨ t.view.tracked.Up p := by
    rw [alert_iff changed.wf, changed.activeMode, changed.targetPeers]
    rcases (alert_iff wf).mp alert with active | all
    · exact ⟨fun _ => .inl active, fun _ => .inl active⟩
    · refine or_congr_right ⟨fun up => ?_, fun up q target => ?_⟩
      · by_cases target : p ∈ s.targetPeers
        · exact .inr (up p target)
        · exact .inl target
      · by_cases here : q = p
        · subst here
          exact up.elim (absurd target) id
        · exact elsewhere q here (all q target)
  have repairs : (closeSwitch t p).getD t.activeMode = true ∨
      ∀ q ∈ t.targetPeers, t.view.tracked.Up q := by
    unfold closeSwitch
    split
    · exact .inl rfl
    · next there =>
      refine (alert_iff changed.wf).mp (broken.mpr ?_)
      rw [← changed.targetPeers]
      by_cases target : p ∈ t.targetPeers
      · refine .inr (.inr ((NetworkView.isConnected_iff_tracked changed.wf).mp ?_))
        by_contra down
        exact there ⟨target, Bool.eq_false_iff.mpr down⟩
      · exact .inr (.inl target)
  rw [settled.alert changed.wf repairs, broken, changed.asked, changed.tracked]
  show _ ↔ (_ || _ || _ || _) = true
  rw [Bool.or_eq_true, Bool.or_eq_true, Bool.or_eq_true, NetworkView.survivesClose_iff wf,
    Bool.not_eq_true', decide_eq_false_iff_not, or_left_comm, or_assoc, or_assoc]

/-- **A turn keeps the rule exactly when it is none of the three.** -/
theorem Stepped.alert {r : Except SavedError Unit} (stepped : Stepped env s i r s')
    (wf : s.view.WellFormed) (alert : Alert s) : Alert s' ↔ s.staysAlert env i = true := by
  cases stepped with
  | quiet isQuiet quiet =>
    have same := alert_quiet quiet wf
    exact ⟨fun _ => staysAlert_of_quiet isQuiet, fun _ => same.mpr alert⟩
  | expired returned =>
    obtain ⟨wf', frame, tracked⟩ := removeAddresses_spec wf returned
    rw [alert_iff wf', frame.activeMode, frame.targetPeers, tracked]
    show _ ↔ (_ || _) = true
    rw [Bool.or_eq_true, List.all_eq_true]
    simp only [NetworkView.survivesExpiry_iff wf]
    exact Iff.rfl
  | @targetAdded q =>
    rw [alert_iff (s := { s with targetPeers := s.targetPeers.insert q }) wf]
    show _ ↔ (_ || _) = true
    rw [Bool.or_eq_true, NetworkView.isConnected_iff_tracked wf]
    -- A new target has to be connected, or the node active: nothing else would make it so.
    constructor
    · intro rule
      exact rule.imp id fun all => all q (HashSet.mem_insert.mpr (.inl rfl))
    · intro rule
      rcases (alert_iff wf).mp alert with active | all
      · exact .inl active
      · refine rule.imp id fun up p target => ?_
        rcases HashSet.mem_insert.mp target with rfl | old
        · exact up
        · exact all p old
  | @targetRemoved q =>
    refine ⟨fun _ => rfl, fun _ p target => alert p (HashSet.mem_remove.mp target).2⟩
  | @accepted relay =>
    have updated : Alert (s.register relay).updateRelayState ↔ Alert (s.register relay) :=
      alert_updateRelayState wf
    exact ⟨fun _ => rfl, fun _ => updated.mpr alert⟩
  | openFailed added settled => exact ⟨fun _ => rfl, fun _ => opened_alert wf alert added settled⟩
  | opened added settled _ => exact ⟨fun _ => rfl, fun _ => opened_alert wf alert added settled⟩
  | @openedOver q d e t u relay added settled _ =>
    have opened : Alert u := opened_alert wf alert added settled
    have wf' := (settled.tracked (changed_of_opened added wf).wf).1
    have updated : Alert (u.register relay).updateRelayState ↔ Alert (u.register relay) :=
      alert_updateRelayState wf'
    exact ⟨fun _ => rfl, fun _ => updated.mpr opened⟩
  | closed gone settled => exact closed_alert wf alert gone settled

/-- **The node is never passive while a target is missing, in every run whose turns stay alert**,
from the state `new` builds and whatever the calls answer. The next turn keeps it so exactly when
it stays alert too. -/
theorem never_passive (env : Env) (me : PeerId) {s₀ s : SavedNetwork} {h : List Input}
    (built : SavedNetwork.new env me = some s₀)
    (run : Run (SavedNetwork.step env) (fun _ s i => s.staysAlert env i = true) s₀ h s) :
    Alert s ∧ ∀ i s', s.step env i = some s' → (Alert s' ↔ s.staysAlert env i = true) := by
  have started : s₀ = .start me 4 := by
    rw [SavedNetwork.new_eq] at built
    split at built
    · exact (Option.some.inj built).symm
    · cases built
  have inv : s.view.WellFormed ∧ Alert s := by
    refine run.state_invariant (I := fun s => s.view.WellFormed ∧ Alert s) ?_ ?_
    · subst started
      exact ⟨NetworkView.wellFormed_empty, alert_of_active rfl⟩
    · intro _ s s' i inv stays returned
      obtain ⟨wf, alert⟩ := inv
      obtain ⟨r, stepped⟩ := step_stepped returned
      exact ⟨(stepped.tracked wf).1, (stepped.alert wf alert).mpr stays⟩
  obtain ⟨wf, alert⟩ := inv
  refine ⟨alert, fun i s' returned => ?_⟩
  obtain ⟨r, stepped⟩ := step_stepped returned
  exact stepped.alert wf alert

/-- The peer `1` is a target and connects, so the node turns passive. -/
def passiveInputs : List Input :=
  [.rpc (.addTargetPeer ⟨[1]⟩), .event (.connectionEstablished ⟨[1]⟩ ⟨0⟩ (.dialer (lanAddr 1)))]

/-- The target's connection closes, and the node is active again. -/
theorem never_passive_closed : ∃ s, Run (SavedNetwork.step .calm)
    (fun _ s i => s.staysAlert .calm i = true) (.start ⟨[0]⟩ 4)
    (passiveInputs ++ [.event (.connectionClosed ⟨[1]⟩ ⟨0⟩)]) s ∧ Alert s := by
  obtain ⟨s, run, _⟩ : ∃ s, Run (SavedNetwork.step .calm)
      (fun _ s i => s.staysAlert .calm i = true) (.start ⟨[0]⟩ 4)
      (passiveInputs ++ [.event (.connectionClosed ⟨[1]⟩ ⟨0⟩)]) s ∧ s.activeMode = true :=
    Run.exists_of_replay (by decide)
  exact ⟨s, run, (never_passive .calm ⟨[0]⟩ (SavedNetwork.new_eq _ _) run).1⟩

/-- **A target added in passive mode leaves the node passive**: with its one target connected the
node is passive, and a second target, which is not connected, changes nothing. -/
theorem added_target_missed : ¬ ∀ (env : Env) (me : PeerId) (s₀ : SavedNetwork) (h : List Input)
    (s : SavedNetwork), SavedNetwork.new env me = some s₀ →
      Run (SavedNetwork.step env) (fun h _ i => i.genuine h = true) s₀ h s → Alert s := by
  intro always
  obtain ⟨s, run, passive⟩ : ∃ s, Run (SavedNetwork.step .calm)
      (fun h _ i => i.genuine h = true) (.start ⟨[0]⟩ 4)
      (passiveInputs ++ [.rpc (.addTargetPeer ⟨[2]⟩)]) s ∧
      (decide (⟨[2]⟩ ∈ s.targetPeers) && !s.view.isConnected ⟨[2]⟩ && !s.activeMode) = true :=
    Run.exists_of_replay (by decide)
  rw [Bool.and_eq_true, Bool.and_eq_true, decide_eq_true_eq, Bool.not_eq_true',
    Bool.not_eq_true'] at passive
  obtain ⟨⟨target, down⟩, off⟩ := passive
  have active := always _ _ _ _ s (SavedNetwork.new_eq _ _) run ⟨[2]⟩ target down
  rw [off] at active
  cases active

end Saved
