import Saved.Laws.Edits
import Saved.Laws.Plan

/-!
# A connected address is never in backoff

A failure is marked in one place, by a reconcile, on the address it has just dialed; and it dials an
address only while no connection stands on it. A connection clears the backoff of the address it
comes to stand on, whichever way it gets there. So where a connection stands there is no failure, in
every state of every run, and no comparison of a resort puts another address before a connected one
on account of a cooldown (`connected_is_clear`).
-/

namespace Saved

open Saved.Lib SavedNetwork

variable {env : Env} {s : SavedNetwork} {i : Input} {p : PeerId} {op : ViewOp} {view : NetworkView}

/-- **No address with a connection has a failure.** -/
def NetworkView.Cleared (view : NetworkView) : Prop :=
  ∀ p a, (view.registers p).Holds a → view.backoffs p a = some .clear

/-- An operation that marks no failure where a connection stands. -/
def ViewOp.SparesConnected (op : ViewOp) (view : NetworkView) : Prop :=
  ∀ failed now p a, op = .markFailure failed now p a → ¬ (view.registers p).Holds a

/-! ## One operation -/

/-- One case for each operation. Only a failure can break the rule, and the hypothesis rules out the
failure of a connected address. -/
theorem NetworkView.Cleared.apply (cleared : view.Cleared) (wf : view.WellFormed)
    (spares : op.SparesConnected view) : (view.apply op).Cleared := by
  intro p a holds
  rw [(apply_registers wf op).2] at holds
  rw [apply_backoffs wf op]
  -- a connection that was there before
  have old : ¬ op.Connects p a → view.backoffs p a = some .clear := fun other =>
    cleared p a ((Book.holds_apply holds).resolve_right other)
  cases op with
  | removeConnection | setProtocols | setRtt => exact old (by simp [ViewOp.Connects])
  | addAddress now q b =>
    have clear := old (by simp [ViewOp.Connects])
    rw [Backoffs.apply, update_update_apply]
    split
    · next here =>
      obtain ⟨rfl, rfl⟩ := here
      rw [clear]
      rfl
    · exact clear
  | removeAddress now q b =>
    rw [Backoffs.apply, update_update_apply]
    split
    · next here =>
      obtain ⟨rfl, rfl⟩ := here
      obtain ⟨d, stands⟩ := holds
      rw [Book.apply, Function.update_self] at stands
      exact absurd rfl (Register.slotOf_erase.mp stands).1
    · exact old (by simp [ViewOp.Connects])
  | addConnection now q c endpoint =>
    rw [Backoffs.apply, update_update_apply]
    split
    · rfl
    · next other =>
      refine old ?_
      rintro ⟨now', c', endpoint', same, remote⟩
      cases same
      exact other ⟨rfl, remote⟩
  | markFailure failed now q b =>
    have clear := old (by simp [ViewOp.Connects])
    rw [Backoffs.apply, update_update_apply]
    split
    · next here =>
      obtain ⟨rfl, rfl⟩ := here
      exact absurd holds (spares failed now q b rfl)
    · exact clear

/-! ## A run -/

/-- The invariant: what the view keeps of its own accord, and that no connected address has a
failure. -/
structure NetworkView.Orderly (view : NetworkView) : Prop where
  wf : view.WellFormed
  cleared : view.Cleared

/-- Every operation keeps well-formedness; the hypothesis is for the other half. -/
theorem NetworkView.Orderly.apply (orderly : view.Orderly) (spares : op.SparesConnected view) :
    (view.apply op).Orderly :=
  ⟨(apply_registers orderly.wf op).1, orderly.cleared.apply orderly.wf spares⟩

/-- Order is a matter of the vectors, so what leaves them alone keeps it. -/
theorem NetworkView.Orderly.of_addresses {view' : NetworkView} (orderly : view.Orderly)
    (same : view'.addressesOf = view.addressesOf) : view'.Orderly := by
  refine ⟨wellFormed_congr same orderly.wf, ?_⟩
  unfold Cleared
  rw [registers_congr same, backoffs_congr same]
  exact orderly.cleared

/-- A view without addresses is in order. -/
theorem NetworkView.orderly_empty : NetworkView.Orderly {} :=
  ⟨wellFormed_empty, fun _ _ holds => absurd holds (by rintro ⟨_, stands⟩; cases stands)⟩

/-- A turn marks failures in its reconciles only. -/
theorem spares_of_moments (mem : .op op ∈ s.moments env i) : op.SparesConnected view := by
  rintro failed now p a rfl
  rcases op_of_moments mem with ⟨entry, _, opens⟩ | removes
  · cases opens
  · exact absurd removes id

/-- **The invariant of every run.** A failure is marked where no connection stands. -/
theorem orderly_run {me : PeerId} {max : Nat} {h : List Input}
    (run : Run (SavedNetwork.step env) (fun _ _ _ => True) (.start me max) h s) :
    s.view.Orderly := by
  refine view_run (I := NetworkView.Orderly) (fun _ _ same orderly => orderly.of_addresses same) ?_
    NetworkView.orderly_empty
    (fun _ _ _ _ _ _ mem orderly => orderly.apply (spares_of_moments mem)) run
  intro view failed now p a idle orderly
  refine orderly.apply ?_
  rintro failed' now' q b same holds
  cases same
  rw [(NetworkView.isConnectedOver_iff orderly.wf).mpr holds] at idle
  cases idle

/-- The entry of a connected address counts no failure. -/
theorem NetworkView.Orderly.clear (orderly : view.Orderly) {m : AddressMetadata}
    (known : m ∈ view.addressesOf p) (connected : m.activeConnections ≠ []) :
    m.backoff = .clear := by
  have holds : (view.registers p).Holds m.address :=
    (holds_iff (orderly.wf p)).mpr ⟨m, known, rfl, connected⟩
  have stored : view.backoffs p m.address = some m.backoff :=
    (backoffsOf_eq_some (orderly.wf p)).mpr ⟨m, known, rfl, rfl⟩
  exact Option.some.inj (stored.symm.trans (orderly.cleared p m.address holds))

/-- **A connected address is never in backoff**: in every state of every run its entry counts no
failure, so the cooldown part of its key is that of an address at its best at every reading of the
clock. No comparison that a resort makes puts another entry before it on account of a cooldown,
whatever the clock reads for either of the two: only one that comes before it by scope, transport
and address. -/
theorem connected_is_clear (env : Env) (me : PeerId) (max : Nat) {h : List Input}
    {s : SavedNetwork} {p : PeerId} {m : AddressMetadata}
    (run : Run (SavedNetwork.step env) (fun _ _ _ => True) (.start me max) h s)
    (known : m ∈ s.view.addressesOf p) (connected : m.activeConnections ≠ []) :
    m.errCount = 0 ∧ m.lastErr = none ∧ (∀ now, m.isInCooldown now = false) ∧
      ∀ n ∈ s.view.addressesOf p, ∀ now now',
        n.sortKey now < m.sortKey now' → n.address.rankKey < m.address.rankKey := by
  have orderly := orderly_run run
  have clear := orderly.clear known connected
  have noFailure : m.lastErr = none := congrArg Backoff.lastErr clear
  have awake : ∀ now, m.isInCooldown now = false := by
    intro now
    rw [AddressMetadata.isInCooldown, noFailure]
  refine ⟨congrArg Backoff.errCount clear, noFailure, awake, fun n known' now now' before => ?_⟩
  rw [sortKey_rank (orderly.wf p) known', sortKey_rank (orderly.wf p) known, awake,
    Prod.Lex.toLex_lt_toLex] at before
  -- nothing is less than an entry that is not in cooldown by the first part of the key
  rcases before with below | ⟨_, rank⟩
  · exact absurd below not_lt_bot
  · exact rank

/-- A dial fails, and the peer connects over the address all the same. -/
theorem connected_is_clear_failed : ∃ (s : SavedNetwork) (m : AddressMetadata),
    Run (SavedNetwork.step .firstDialFails) (fun _ _ _ => True) (.start ⟨[0]⟩ 4)
      [.event (.newExternalAddrOfPeer ⟨[1]⟩ (lanAddr 1)),
        .event (.connectionEstablished ⟨[1]⟩ ⟨0⟩ (.listener (lanAddr 0) (lanAddr 1)))] s ∧
    m ∈ s.view.addressesOf ⟨[1]⟩ ∧ m.activeConnections = [⟨0⟩] ∧ m.errCount = 0 := by
  obtain ⟨s, run, shape⟩ : ∃ s, Run (SavedNetwork.step .firstDialFails) (fun _ _ _ => True)
      (.start ⟨[0]⟩ 4) [.event (.newExternalAddrOfPeer ⟨[1]⟩ (lanAddr 1)),
        .event (.connectionEstablished ⟨[1]⟩ ⟨0⟩ (.listener (lanAddr 0) (lanAddr 1)))] s ∧
      ((s.view.addressesOf ⟨[1]⟩).any fun m => decide (m.activeConnections = [⟨0⟩])) = true :=
    Run.exists_of_replay (by decide)
  obtain ⟨m, known, up⟩ := List.any_eq_true.mp shape
  have connected := of_decide_eq_true up
  have clear := connected_is_clear .firstDialFails ⟨[0]⟩ 4 run known (by rw [connected]; simp)
  exact ⟨s, m, run, known, connected, clear.1⟩

end Saved
