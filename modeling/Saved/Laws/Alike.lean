import Saved.Laws.Freshness
import Saved.Laws.Ledger
import Saved.Laws.Settings

/-!
# What the inputs alone decide

Two nodes that handle the same inputs need not do the same: their clocks differ, and so do the
answers of the dials and listens they attempt, and who leads a pruning depends on their ids. What
they have in common is `Alike`: the ledger of their view, their targets and mode, and the relays
they have reserved, in order, with those in use.

`inputs_decide` says that nothing but the inputs decides these, where broadcasts are heard and mDNS
starts. Each turn reads no more of the state than two such nodes share (`Stepped.settles`), so they
stay alike turn by turn.
-/

namespace Saved

open Saved.Lib SavedNetwork

variable {env env' : Env} {s s' t t' u : SavedNetwork} {i : Input} {view view' : NetworkView}
  {r : Except SavedError Unit} {switch : Option Bool}

/-! ## What a ledger tells -/

namespace NetworkView

/-- A register is what its account says about the addresses. -/
theorem registers_ledger (view : NetworkView) (p : PeerId) :
    view.registers p = (view.ledger.account p).register := by
  rw [account_ledger]
  rfl

variable (same : view'.ledger = view.ledger)

include same

/-- Views with one ledger have the same registers. -/
theorem registers_of_ledger : view'.registers = view.registers := by
  funext p
  rw [registers_ledger, registers_ledger, same]

/-- Views with one ledger track the same connections. -/
theorem tracked_of_ledger : view'.tracked = view.tracked := by
  funext p
  rw [tracked_eq, tracked_eq, registers_of_ledger same]

/-- Views with one ledger hold the same round trip times, of the peers that have an entry and of
those that have none. -/
theorem rtts_of_ledger : view'.rtts = view.rtts := by
  have rtts : ∀ view : NetworkView, ∀ p, view.rtts p = (view.ledger p).map (·.rtt) := by
    intro view p
    unfold NetworkView.rtts ledger
    rw [Option.map_map]
    rfl
  funext p
  rw [rtts, rtts, same]

/-- Views with one ledger agree on who is connected, for this needs no order among the addresses. -/
theorem isConnected_of_ledger (wf : view.WellFormed) (wf' : view'.WellFormed) (p : PeerId) :
    view'.isConnected p = view.isConnected p := by
  rw [Bool.eq_iff_iff, isConnected_iff wf, isConnected_iff wf', registers_of_ledger same]

end NetworkView

/-! ## Relays -/

namespace RelayManager

/-- Two relay managers with the same relays reserved, in the same order, and the same in use. -/
structure Alike (rm rm' : RelayManager) : Prop where
  reserved : rm'.reserved = rm.reserved
  maxRelays : rm'.maxRelays = rm.maxRelays
  inUse : ∀ q, q ∈ rm'.inUse ↔ q ∈ rm.inUse

/-- What an update of the relay state leaves: those in use recomputed, and the worst given up. -/
def settle (view : NetworkView) (rm : RelayManager) : RelayManager :=
  (rm.recomputeInUse view).kept view

variable {rm rm' : RelayManager} {relay : PeerId}

/-- A reservation keeps two books alike, for it asks nothing but whether the relay is in. -/
theorem Alike.register (alike : Alike rm rm') :
    Alike (rm.register relay) (rm'.register relay) := by
  unfold RelayManager.register
  simp only [alike.reserved]
  split
  · exact alike
  · exact ⟨rfl, alike.maxRelays, alike.inUse⟩

/-- Updates by views with the same ledger. -/
theorem Alike.settle (alike : Alike rm rm') (wf : view.WellFormed) (wf' : view'.WellFormed)
    (same : view'.ledger = view.ledger) : Alike (rm.settle view) (rm'.settle view') := by
  have inUse : ∀ q, q ∈ (rm'.recomputeInUse view').inUse ↔ q ∈ (rm.recomputeInUse view).inUse :=
    fun q => by
      rw [mem_recomputeInUse wf, mem_recomputeInUse wf', NetworkView.tracked_of_ledger same]
  have worst : (rm'.recomputeInUse view').worst view' = (rm.recomputeInUse view).worst view :=
    worst_congr alike.reserved alike.maxRelays inUse (NetworkView.rtts_of_ledger same)
  refine ⟨?_, alike.maxRelays, inUse⟩
  show rm'.reserved.diff _ = rm.reserved.diff _
  rw [alike.reserved, worst]

/-- **What a turn does to the relays**, by the view it leaves. -/
def turn (view : NetworkView) (rm : RelayManager) : Input → RelayManager
  | .event (.reservationReqAccepted relay) => (rm.register relay).settle view
  | .event (.connectionClosed _ _) => rm.settle view
  | .event (.connectionEstablished _ _ endpoint) =>
    match relayUsed endpoint with
    | some relay => ((rm.settle view).register relay).settle view
    | none => rm.settle view
  | _ => rm

/-- A quiet input leaves the relay book. -/
theorem turn_of_quiet (quiet : i.isQuiet = true) : rm.turn view i = rm := by
  cases i with
  | rpc _ => rfl
  | event event =>
    cases event with
    | connectionEstablished | connectionClosed | reservationReqAccepted => cases quiet
    | _ => rfl

/-- What a turn does to the relay book, alike books stay alike under: which relays are given up
depends on the order of the reserved ones and on round-trip times, and on which relays are in use,
however that set is listed. -/
theorem Alike.turn (alike : Alike rm rm') (wf : view.WellFormed) (wf' : view'.WellFormed)
    (same : view'.ledger = view.ledger) : Alike (rm.turn view i) (rm'.turn view' i) := by
  cases i with
  | rpc _ => exact alike
  | event event =>
    cases event with
    | reservationReqAccepted relay => exact alike.register.settle wf wf' same
    | connectionClosed p c => exact alike.settle wf wf' same
    | connectionEstablished p c endpoint =>
      unfold RelayManager.turn
      dsimp only
      split
      · exact (alike.settle wf wf' same).register.settle wf wf' same
      · exact alike.settle wf wf' same
    | _ => exact alike

end RelayManager

/-! ## Turns -/

/-- The method of the source, as the book's own operation on the view after it. -/
theorem updateRelayState_settles (s : SavedNetwork) :
    s.updateRelayState.relayManager = s.relayManager.settle s.updateRelayState.view := by
  rw [updateRelayState_relayManager, updateRelayState_view]
  rfl

/-- In favourable surroundings a handler of connections runs to its end, and settles the relays. -/
theorem Settled.settles (favourable : env.Favourable) (settled : Settled env switch t r u) :
    r = .ok () ∧ u.relayManager = t.relayManager.settle u.view := by
  cases settled with
  | unheard lost _ => exact absurd (lost.symm.trans (favourable.heard _)) Bool.false_ne_true
  | unarmed heard early _ =>
    rcases early with lost | ⟨_, _, fails⟩
    · exact absurd (lost.symm.trans heard) Bool.false_ne_true
    · exact absurd (fails.symm.trans (favourable.starts _)) Bool.false_ne_true
  | @settled w _ quiet =>
    have same : w.relayManager = t.relayManager := quiet.relayManager
    exact ⟨rfl, by rw [updateRelayState_settles, same]⟩

/-- **What a turn leaves of the relays.** -/
theorem Stepped.settles (favourable : env.Favourable) (stepped : Stepped env s i r s')
    (wf : s.view.WellFormed) : s'.relayManager = s.relayManager.turn s'.view i := by
  cases stepped with
  | quiet isQuiet quiet =>
    rw [RelayManager.turn_of_quiet isQuiet]
    exact quiet.relayManager
  | expired returned => exact (removeAddresses_spec wf returned).2.1.relayManager
  | targetAdded | targetRemoved => rfl
  | @accepted relay => exact updateRelayState_settles (s.register relay)
  | closed gone settled =>
    rw [(settled.settles favourable).2, (changed_of_closed gone wf).relayManager]
    rfl
  | openFailed added settled => exact absurd (settled.settles favourable).1 nofun
  | opened added settled direct =>
    rw [(settled.settles favourable).2, (changed_of_opened added wf).relayManager,
      RelayManager.turn, direct]
  | @openedOver p c endpoint _ u relay added settled used =>
    have view : (u.register relay).updateRelayState.view = u.view :=
      updateRelayState_view (u.register relay)
    rw [updateRelayState_settles, view, RelayManager.turn, used]
    show (u.relayManager.register relay).settle u.view = _
    rw [(settled.settles favourable).2, (changed_of_opened added wf).relayManager]

/-- In favourable surroundings no handler exits early. -/
theorem step_settings_exactly (favourable : env.Favourable) (wf : s.view.WellFormed)
    (returned : s.step env i = some s') :
    s'.settings = s.settings.turn (s'.switchAfter i) i := by
  rcases step_settings wf returned with set | falters
  · exact set
  · exact absurd favourable falters.1

/-! ## Two nodes -/

/-- **What two nodes have in common** that handled the same inputs. -/
structure Alike (s t : SavedNetwork) : Prop where
  ledger : t.view.ledger = s.view.ledger
  settings : t.settings = s.settings
  relayManager : s.relayManager.Alike t.relayManager

/-- **A turn of both**, with the same input. -/
theorem Alike.step (favourable : env.Favourable) (favourable' : env'.Favourable)
    (wf : s.view.WellFormed) (wf' : t.view.WellFormed) (alike : Alike s t)
    (returned : s.step env i = some s') (returned' : t.step env' i = some t') : Alike s' t' := by
  obtain ⟨after, recorded⟩ := step_records favourable.heard returned wf
  obtain ⟨after', recorded'⟩ := step_records favourable'.heard returned' wf'
  obtain ⟨_, stepped⟩ := step_stepped returned
  obtain ⟨_, stepped'⟩ := step_stepped returned'
  have ledger : t'.view.ledger = s'.view.ledger := by rw [recorded, recorded', alike.ledger]
  have targets : t.targetPeers = s.targetPeers := congrArg Settings.targetPeers alike.settings
  have targets' : t'.targetPeers = s'.targetPeers := by
    rw [step_targetPeers returned, step_targetPeers returned', targets]
  have switch : t'.switchAfter i = s'.switchAfter i :=
    switchAfter_congr targets' (NetworkView.isConnected_of_ledger ledger after after')
  refine ⟨ledger, ?_, ?_⟩
  · rw [step_settings_exactly favourable wf returned,
      step_settings_exactly favourable' wf' returned', alike.settings, switch]
  · rw [stepped.settles favourable wf, stepped'.settles favourable' wf']
    exact alike.relayManager.turn after after' ledger

/-- **The inputs decide what a node becomes.** Two nodes that have handled the same inputs, wherever
broadcasts are heard and mDNS starts, keep the same accounts of their peers, the same settings, and
the same relays, reserved in the same order and in use: whatever their ids are, whatever their
clocks read, and whatever dials, listens and bootstraps have answered them. -/
theorem inputs_decide (env env' : Env) (me me' : PeerId) (max : Nat)
    (favourable : env.Favourable) (favourable' : env'.Favourable)
    {ok ok' : List Input → SavedNetwork → Input → Prop} {h : List Input} {s t : SavedNetwork}
    (run : Run (SavedNetwork.step env) ok (.start me max) h s)
    (run' : Run (SavedNetwork.step env') ok' (.start me' max) h t) : Alike s t := by
  let R : SavedNetwork → SavedNetwork → Prop := fun s t =>
    s.view.WellFormed ∧ t.view.WellFormed ∧ Alike s t
  have init : R (.start me max) (.start me' max) :=
    ⟨NetworkView.wellFormed_empty, NetworkView.wellFormed_empty, rfl, rfl, rfl, rfl,
      fun _ => Iff.rfl⟩
  refine (run.lockstep (R := R) init ?_ run').2.2
  rintro s t i s' t' ⟨wf, wf', alike⟩ returned returned'
  exact ⟨(step_records favourable.heard returned wf).1,
    (step_records favourable'.heard returned' wf').1,
    alike.step favourable favourable' wf wf' returned returned'⟩

/-- A peer is found at two addresses, and connects over the second. -/
def foundTwice : List Input :=
  [.event (.mdnsDiscovered [(⟨[1]⟩, lanAddr 1), (⟨[1]⟩, lanAddr 2)]),
    .event (.connectionEstablished ⟨[1]⟩ ⟨0⟩ (.dialer (lanAddr 2)))]

/-- Two nodes hear of it, and the first dial of one of them fails. -/
theorem inputs_decide_found : ∃ s t,
    Run (SavedNetwork.step .calm) (fun _ _ _ => True) (.start ⟨[0]⟩ 4) foundTwice s ∧
    Run (SavedNetwork.step .firstDialFails) (fun _ _ _ => True) (.start ⟨[9]⟩ 4) foundTwice t ∧
    s.swarm.calls ≠ t.swarm.calls ∧ Alike s t := by
  obtain ⟨s, run, dials⟩ : ∃ s, Run (SavedNetwork.step .calm) (fun _ _ _ => True)
      (.start ⟨[0]⟩ 4) foundTwice s ∧
      decide (.dial (lanAddr 1) false ∉ s.swarm.calls) = true := Run.exists_of_replay (by decide)
  obtain ⟨t, run', failed⟩ : ∃ t, Run (SavedNetwork.step .firstDialFails) (fun _ _ _ => True)
      (.start ⟨[9]⟩ 4) foundTwice t ∧
      decide (.dial (lanAddr 1) false ∈ t.swarm.calls) = true := Run.exists_of_replay (by decide)
  refine ⟨s, t, run, run', fun same => ?_, inputs_decide .calm .firstDialFails ⟨[0]⟩ ⟨[9]⟩ 4
    ⟨fun _ => rfl, fun _ => rfl⟩ ⟨fun _ => rfl, fun _ => rfl⟩ run run'⟩
  rw [same] at dials
  exact of_decide_eq_true dials (of_decide_eq_true failed)

end Saved
