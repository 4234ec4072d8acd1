import Saved.Laws.Edits
import Saved.Laws.Pruning
import Saved.Laws.RelayPolicy

/-!
# The round-trip times that relays are judged by

A peer's entry is created with a round-trip time of zero, by any of three operations, and only a
ping on a known connection overwrites it. So the view has one of two things for a relay that was
never pinged: no entry, which counts as the greatest time, or an entry with the least.

`Measured` is a node together with the peers whose pings it recorded. `unmeasured_first_iff` says
when a pruning starts with a relay that was never measured.
-/

namespace Saved

open Saved.Lib SavedNetwork

variable {env : Env} {me : PeerId} {max : Nat} {p q : PeerId} {v v' view : NetworkView}
  {op : ViewOp}

/-! ## What the operations do to them -/

namespace PeerInfoExt

variable {info : PeerInfoExt} {now : Readings} {failed : Instant} {a : Multiaddr} {c : ConnectionId}

/-- A learned address says nothing of the time. -/
theorem addAddress_rtt : (info.addAddress now a).2.rtt = info.rtt := by
  unfold addAddress
  split <;> rfl

/-- Nor does a failure. -/
theorem markFailure_rtt : (info.markFailure failed now a).rtt = info.rtt := by
  unfold markFailure
  split <;> rfl

/-- Nor does the second half of `add_connection`. -/
theorem placeConnection_rtt : (info.placeConnection now c a).rtt = info.rtt := by
  unfold placeConnection ensureAddress
  split <;> rfl

/-- Nor does the whole of it: a connection is not measured before its first ping. -/
theorem addConnection_rtt : (info.addConnection now c a).rtt = info.rtt := by
  unfold addConnection
  split
  · split
    · exact placeConnection_rtt
    · rfl
  · exact placeConnection_rtt

end PeerInfoExt

namespace NetworkView

/-- **The round-trip times of a view**: one for each peer it has an entry for. -/
def rtts (view : NetworkView) : PeerId → Option Duration := fun p =>
  (view.peers.get p).map (·.rtt)

/-- The key of the source's `max_by_key`: a missing entry counts as slowest, an entry that was never
pinged as fastest. -/
theorem rttKey_eq (view : NetworkView) (p : PeerId) :
    RelayManager.rttKey view p = (view.rtts p).getD Duration.max := rfl

/-- `or_default` may create an entry, and then its time is zero. This is how a peer that was never
measured gets to count as the fastest. -/
theorem rtts_entryOrDefault {f : PeerInfoExt → PeerInfoExt}
    (keeps : ∀ info, (f info).rtt = info.rtt) :
    rtts ⟨view.peers.entryOrDefault p {} f⟩ q = view.rtts q ∨
      rtts ⟨view.peers.entryOrDefault p {} f⟩ q = some .zero := by
  by_cases same : q = p
  · subst same
    simp only [rtts, HashMap.get_entryOrDefault_self, Option.map_some, keeps]
    cases view.peers.get q with
    | none => exact .inr rfl
    | some info => exact .inl rfl
  · simp only [rtts, HashMap.get_entryOrDefault_ne _ same, true_or]

/-- An entry that is changed keeps its time when the change does. -/
theorem rtts_modify {f : PeerInfoExt → PeerInfoExt} (keeps : ∀ info, (f info).rtt = info.rtt) :
    rtts ⟨view.peers.modify p f⟩ q = view.rtts q := by
  by_cases same : q = p
  · subst same
    simp only [rtts, HashMap.get_modify_self, Option.map_map, Function.comp_def, keeps]
  · simp only [rtts, HashMap.get_modify_ne _ same]

/-- An entry that is dropped takes its time with it. -/
theorem rtts_pruneEmpty : (view.pruneEmpty p).rtts q = view.rtts q ∨
    (view.pruneEmpty p).rtts q = none := by
  unfold pruneEmpty
  split
  · split
    · by_cases same : q = p
      · subst same
        simp only [rtts, HashMap.get_remove_self, Option.map_none, or_true]
      · simp only [rtts, HashMap.get_remove_ne _ same, true_or]
    · exact .inl rfl
  · exact .inl rfl

/-- A marked failure leaves every time. -/
theorem rtts_of_marks (marks : op.marks) : (view.apply op).rtts = view.rtts := by
  funext q
  cases op with
  | markFailure failed now p a => exact rtts_modify fun info => info.markFailure_rtt
  | _ => cases marks

/-- **An operation that stores no time** leaves a peer's, starts it at zero, or drops it. -/
theorem rtts_apply (unmeasured : op.unmeasured) : (view.apply op).rtts q = view.rtts q ∨
    (view.apply op).rtts q = none ∨ (view.apply op).rtts q = some .zero := by
  cases op with
  | addAddress now p a =>
    exact (rtts_entryOrDefault fun info => info.addAddress_rtt).imp_right .inr
  | addConnection now p c endpoint =>
    exact (rtts_entryOrDefault fun info => info.addConnection_rtt).imp_right .inr
  | setProtocols p protocols =>
    have set : (view.setProtocols p protocols).rtts q = view.rtts q ∨
        (view.setProtocols p protocols).rtts q = some .zero := rtts_entryOrDefault fun _ => rfl
    exact set.imp_right .inr
  | markFailure failed now p a =>
    exact .inl (rtts_modify fun info => info.markFailure_rtt)
  | setRtt p rtt => exact absurd rfl (unmeasured p rtt)
  | removeAddress now p a =>
    rw [apply, removeAddress]
    split
    · have kept : rtts ⟨view.peers.modify p fun info => info.removeAddress now a⟩ q =
          view.rtts q := rtts_modify fun _ => rfl
      rw [← kept]
      exact rtts_pruneEmpty.imp_right .inl
    · exact .inl rfl
  | removeConnection now p c =>
    rw [apply, removeConnection]
    split
    · have kept : rtts ⟨view.peers.modify p fun info => info.removeConnection now c⟩ q =
          view.rtts q := rtts_modify fun _ => rfl
      rw [← kept]
      exact rtts_pruneEmpty.imp_right .inl
    · exact .inl rfl

end NetworkView

open NetworkView

/-- Marking failures leaves every time. -/
theorem Edited.rtts (edited : Edited ViewOp.marks v v') : v'.rtts = v.rtts :=
  edited.invariant (I := fun w => w.rtts = v.rtts) (fun _ _ marks same =>
    (rtts_of_marks marks).trans same) rfl

/-! ## Measured peers -/

/-- A node, with the peers it recorded a ping of. -/
structure Measured where
  node : SavedNetwork
  measured : List PeerId

/-- **The peer whose ping a turn records**: it succeeded, over a connection the view knows. -/
def SavedNetwork.measures (s : SavedNetwork) : Input → Option PeerId
  | .event (.ping p c (some _)) =>
    if (s.view.getConnectionAddress p c).isSome then some p else none
  | _ => none

namespace Measured

/-- The node the event loop starts with. -/
def start (me : PeerId) (max : Nat) : Measured := ⟨.start me max, []⟩

/-- One turn of the event loop. -/
def step (env : Env) (m : Measured) (i : Input) : Option Measured :=
  (m.node.step env i).map fun s => ⟨s, m.measured ++ (m.node.measures i).toList⟩

/-- Some spare relay was never measured. -/
def HasUnmeasured (m : Measured) : Prop := ∃ u ∈ m.node.relayManager.spares, u ∉ m.measured

/-- The relay that a pruning takes first was never measured. -/
def TakesUnmeasured (m : Measured) : Prop :=
  ∃ u, m.node.relayManager.getWorstUnused m.node.view = some u ∧ u ∉ m.measured

/-- **A relay `u` that was never measured goes before a measured one.** With no entry it counts as
slowest, and the other has to have a time, or to be registered before it; with an entry it counts
as fastest, and the other has to be as fast and registered before it. -/
def GoesBefore (m : Measured) (u q : PeerId) : Prop :=
  if m.node.view.rtts u = none then
    (∃ rtt, m.node.view.rtts q = some rtt ∧ rtt < Duration.max) ∨
      [q, u].Sublist m.node.relayManager.reserved
  else m.node.view.rtts q = some .zero ∧ [q, u].Sublist m.node.relayManager.reserved

/-- What every run keeps: a peer never measured has no entry, or one with a time of zero. -/
structure Inv (max : Nat) (m : Measured) : Prop extends Fits max m.node where
  untimed : ∀ p, p ∉ m.measured → m.node.view.rtts p = none ∨ m.node.view.rtts p = some .zero

variable {h : List Input} {m m' : Measured} {i : Input} {u : PeerId}

/-- A ping changes the time of the peer it measures, and of no other. -/
theorem rtts_onPing {s : SavedNetwork} {c : ConnectionId} {result : Option Duration}
    (other : p ∉ (s.measures (.event (.ping q c result))).toList) :
    (s.onPing q c result).view.rtts p = s.view.rtts p := by
  unfold onPing
  cases result with
  | none => rfl
  | some rtt =>
    simp only
    split
    · next known =>
      simp only [measures, known, if_true, Option.toList_some, List.mem_singleton] at other
      simp only [rtts, setRtt, HashMap.get_modify_ne _ other]
    · rfl

/-- No entry, no time. -/
theorem Inv.start : Inv max (start me max) := ⟨.start, fun _ _ => .inl rfl⟩

/-- A ping gives a time to the peer it measures. Every other turn edits the view without times, so
what it does to those of other peers is to create an entry or to drop one. -/
theorem Inv.step (inv : Inv max m) (returned : m.step env i = some m') : Inv max m' := by
  obtain ⟨s, stepped, rfl⟩ := Option.map_eq_some_iff.mp returned
  obtain ⟨r, turn⟩ := step_stepped stepped
  refine ⟨inv.toFits.stepped turn, fun p fresh => ?_⟩
  rw [List.mem_append, not_or] at fresh
  obtain ⟨before, now⟩ := fresh
  have old := inv.untimed p before
  cases ping : i.isPing with
  | false =>
    refine (step_edited stepped ping).invariant (I := fun w => w.rtts p = none ∨
      w.rtts p = some .zero) (fun w op unmeasured untimed => ?_) old
    have cases' : (w.apply op).rtts p = w.rtts p ∨ (w.apply op).rtts p = none ∨
        (w.apply op).rtts p = some .zero := rtts_apply unmeasured
    rcases cases' with same | new
    · rwa [same]
    · exact new
  -- a ping is the one turn that writes a time, and it writes that of the peer it measures
  | true =>
    cases i with
    | rpc _ => cases ping
    | event event =>
      cases event with
      | ping q c result =>
        cases stepped
        rwa [rtts_onPing now]
      | _ => cases ping

/-- Every run keeps it. -/
theorem inv_run (run : Run (step env) (fun _ _ _ => True) (.start me max) h m) : Inv max m :=
  run.state_invariant .start fun _ _ _ _ inv _ returned => inv.step returned

/-! ## The first relay a pruning takes -/

/-- Of two relays, one of them never measured, the worse is the one that `GoesBefore` says. -/
theorem Inv.isWorse_iff (inv : Inv max m) (fresh : u ∉ m.measured) :
    m.node.relayManager.IsWorse m.node.view u q ↔ m.GoesBefore u q := by
  unfold RelayManager.IsWorse GoesBefore
  rw [rttKey_eq, rttKey_eq]
  -- Never measured means no entry, the slowest, or an entry that says zero, the fastest.
  rcases inv.untimed u fresh with none | zero
  · rw [if_pos none, none, Option.getD_none]
    cases m.node.view.rtts q with
    | none => simp
    | some rtt =>
      have top : rtt ≤ Duration.max := Fin.le_last rtt
      rw [Option.getD_some]
      constructor
      · intro worse
        rcases worse with less | ⟨_, stands⟩
        · exact .inl ⟨rtt, rfl, less⟩
        · exact .inr stands
      · intro before
        rcases before with ⟨_, same, less⟩ | stands
        · exact .inl (Option.some.inj same ▸ less)
        · exact top.lt_or_eq.imp_right fun same => ⟨same.symm, stands⟩
  · rw [if_neg (by simp [zero]), zero, Option.getD_some]
    have least : ¬ (m.node.view.rtts q).getD Duration.max < Duration.zero := Fin.not_lt_zero _
    have same : Duration.zero = (m.node.view.rtts q).getD Duration.max ↔
        m.node.view.rtts q = some .zero := by
      cases m.node.view.rtts q with
      | none => simp only [Option.getD_none, reduceCtorEq, iff_false]; decide
      | some rtt => simp [eq_comm]
    rw [same, or_iff_right least]

/-- The relay taken first was never measured when one that was not goes before all that were. -/
theorem Inv.takesUnmeasured_iff (inv : Inv max m) : m.TakesUnmeasured ↔
    ∃ u ∈ m.node.relayManager.spares, u ∉ m.measured ∧
      ∀ q ∈ m.node.relayManager.spares, q ∈ m.measured → m.GoesBefore u q := by
  constructor
  · intro takes
    obtain ⟨u, worst, fresh⟩ := takes
    refine ⟨u, RelayManager.mem_spares.mpr (RelayManager.getWorstUnused_mem worst), fresh, ?_⟩
    intro q spare known
    obtain ⟨held, idle⟩ := RelayManager.mem_spares.mp spare
    have ne : q ≠ u := fun same => fresh (same ▸ known)
    exact (inv.isWorse_iff fresh).mp
      (precedes_of_maxByKey worst held (decide_eq_true idle) ne)
  · intro found
    obtain ⟨u, spare, fresh, before⟩ := found
    cases worst : m.node.relayManager.getWorstUnused m.node.view with
    | none =>
      obtain ⟨held, idle⟩ := RelayManager.mem_spares.mp spare
      exact absurd (RelayManager.getWorstUnused_none worst u held) idle
    | some w =>
      refine ⟨w, worst, fun known => ?_⟩
      -- the worst would go before `u`, and `u` before it
      obtain ⟨held, idle⟩ := RelayManager.mem_spares.mp spare
      have first : m.node.relayManager.IsWorse m.node.view u w := (inv.isWorse_iff fresh).mpr
        (before w (RelayManager.mem_spares.mpr (RelayManager.getWorstUnused_mem worst)) known)
      have ne : u ≠ w := fun same => fresh (same ▸ known)
      exact (precedes_of_maxByKey worst held (decide_eq_true idle) ne).asymm inv.nodup first

end Measured

/-- **Unmeasured relays are pruned first exactly when one of them goes before every measured one**,
in every state that a run leads to. -/
theorem unmeasured_first_iff (env : Env) (me : PeerId) (max : Nat) {h : List Input} {m : Measured}
    (run : Run (Measured.step env) (fun _ _ _ => True) (.start me max) h m) :
    (m.HasUnmeasured → m.TakesUnmeasured) ↔ (m.HasUnmeasured →
      ∃ u ∈ m.node.relayManager.spares, u ∉ m.measured ∧
        ∀ q ∈ m.node.relayManager.spares, q ∈ m.measured → m.GoesBefore u q) :=
  imp_congr_right fun _ => (Measured.inv_run run).takesUnmeasured_iff

/-- A relay connects, a ping of it takes 50 ms, and it accepts a reservation. -/
def pingedRelay : List Input :=
  [.event (.connectionEstablished ⟨[1]⟩ ⟨0⟩ (.dialer (lanAddr 1))),
    .event (.ping ⟨[1]⟩ ⟨0⟩ (some ⟨50000000, by decide⟩)),
    .event (.reservationReqAccepted ⟨[1]⟩)]

instance (m : Measured) : Decidable m.HasUnmeasured :=
  inferInstanceAs (Decidable (∃ u ∈ m.node.relayManager.spares, u ∉ m.measured))

/-- A relay the view does not know accepts one too: it goes first. -/
theorem unmeasured_first_unknown : ∃ m, Run (Measured.step .calm) (fun _ _ _ => True)
    (.start ⟨[0]⟩ 4) (pingedRelay ++ [Input.event (.reservationReqAccepted ⟨[2]⟩)]) m ∧
    m.HasUnmeasured ∧ m.TakesUnmeasured := by
  obtain ⟨m, run, shape⟩ : ∃ m, Run (Measured.step .calm) (fun _ _ _ => True) (.start ⟨[0]⟩ 4)
      (pingedRelay ++ [Input.event (.reservationReqAccepted ⟨[2]⟩)]) m ∧
      (decide (m.node.relayManager.spares = [⟨[1]⟩, ⟨[2]⟩]) && decide (m.measured = [⟨[1]⟩]) &&
        decide (m.node.view.rtts ⟨[1]⟩ = some ⟨50000000, by decide⟩) &&
        decide (m.node.view.rtts ⟨[2]⟩ = none)) = true :=
    Run.exists_of_replay (by decide)
  simp only [Bool.and_eq_true, decide_eq_true_eq] at shape
  obtain ⟨⟨⟨spares, measured⟩, time⟩, unknown⟩ := shape
  have has : m.HasUnmeasured := ⟨⟨[2]⟩, by simp [spares], by simp [measured]⟩
  refine ⟨m, run, has, (unmeasured_first_iff .calm ⟨[0]⟩ 4 run).mpr (fun _ => ?_) has⟩
  refine ⟨⟨[2]⟩, by simp [spares], by simp [measured], fun q _ known => ?_⟩
  rw [measured, List.mem_singleton] at known
  subst known
  unfold Measured.GoesBefore
  rw [if_pos unknown]
  exact .inl ⟨_, time, by decide⟩

/-- **A relay that is connected, and was never pinged, counts as the fastest**: the one that took
50 ms is taken first. -/
theorem unmeasured_kept : ¬ ∀ (env : Env) (me : PeerId) (max : Nat) (h : List Input)
    (m : Measured), Run (Measured.step env) (fun _ _ _ => True) (.start me max) h m →
    m.HasUnmeasured → m.TakesUnmeasured := by
  intro always
  obtain ⟨m, run, shape⟩ : ∃ m, Run (Measured.step .calm) (fun _ _ _ => True) (.start ⟨[0]⟩ 4)
      (pingedRelay ++ [Input.event (.connectionEstablished ⟨[2]⟩ ⟨1⟩ (.dialer (lanAddr 2))),
        Input.event (.reservationReqAccepted ⟨[2]⟩)]) m ∧
      (decide m.HasUnmeasured && decide (m.measured = [⟨[1]⟩]) &&
        decide (m.node.relayManager.getWorstUnused m.node.view = some ⟨[1]⟩)) = true :=
    Run.exists_of_replay (by decide)
  simp only [Bool.and_eq_true, decide_eq_true_eq] at shape
  obtain ⟨⟨has, measured⟩, worst⟩ := shape
  obtain ⟨u, taken, fresh⟩ := always _ _ _ _ m run has
  obtain rfl := Option.some.inj (worst.symm.trans taken)
  exact fresh (by simp [measured])

end Saved
