import Saved.Lib.Selection
import Saved.Laws.Relays

/-!
# Which relays a pruning gives up

`prune_relays` takes the worst spare relay, again and again, while too many are reserved. `worst`
says at once what the loop takes: of the spare relays, as many as there are too many, in the order
of `Precedes` by the round-trip time (`pruneLoop_eq`). So it takes the worst, and what it keeps
stands in the order it stood in (`pruneRelays_worst`).
-/

namespace Saved

open Saved.Lib SavedNetwork

namespace RelayManager

/-- How many relays are reserved beyond the capacity. -/
def excess (rm : RelayManager) : Nat := rm.reserved.length - (rm.inUse.len + rm.maxRelays)

/-- The reserved relays that carry nothing, oldest first. -/
def spares (rm : RelayManager) : List PeerId := rm.reserved.filter fun r => decide (r ∉ rm.inUse)

/-- **The worse of two relays**: the slower one, or of two as slow the one registered later. -/
def IsWorse (rm : RelayManager) (view : NetworkView) (r q : PeerId) : Prop :=
  rttKey view q < rttKey view r ∨ rttKey view r = rttKey view q ∧ [q, r].Sublist rm.reserved

instance (rm : RelayManager) (view : NetworkView) (r q : PeerId) :
    Decidable (rm.IsWorse view r q) := inferInstanceAs (Decidable (_ ∨ _))

/-- **The relays a pruning gives up**, in order. -/
def worst (rm : RelayManager) (view : NetworkView) : List PeerId :=
  drain (rttKey view) (fun r => decide (r ∉ rm.inUse)) rm.excess rm.reserved

variable {rm : RelayManager} {view : NetworkView} {r : PeerId}

/-- A spare relay is reserved and carries nothing. -/
theorem mem_spares : r ∈ rm.spares ↔ r ∈ rm.reserved ∧ r ∉ rm.inUse := by
  unfold spares
  simp

/-- Only spare relays are given up. -/
theorem mem_spares_of_worst (h : r ∈ rm.worst view) : r ∈ rm.spares := by
  have taken := of_mem_drain h
  rw [decide_eq_true_eq] at taken
  exact mem_spares.mpr taken

/-- The test of the source's loop, as a number that is not yet zero. -/
theorem shouldPrune_iff : rm.shouldPrune = true ↔ 0 < rm.excess := by
  unfold shouldPrune excess
  rw [decide_eq_true_eq]
  omega

end RelayManager

namespace SavedNetwork

variable {s : SavedNetwork} {rounds : Nat}

/-- The node once the given relays are given up. -/
def giveUp (s : SavedNetwork) (gone : List PeerId) : SavedNetwork :=
  { s with relayManager := { s.relayManager with
      reserved := s.relayManager.reserved.diff gone } }.tell (gone.map .disconnectPeerId)

/-- Giving up nothing. -/
theorem giveUp_nil (s : SavedNetwork) : s.giveUp [] = s := tell_nil s

/-- One round of the loop removes a relay and asks for its disconnection. The relays may then be
given up one by one or all together. -/
theorem giveUp_cons (s : SavedNetwork) (r : PeerId) (gone : List PeerId) :
    ({ s with relayManager := s.relayManager.remove r }.tell [.disconnectPeerId r]).giveUp gone =
      s.giveUp (r :: gone) := by
  simp only [giveUp, tell, RelayManager.remove, List.diff_cons, List.map_cons, List.append_assoc,
    List.singleton_append]

/-- **The loop gives up the worst**, as many as it has rounds for. -/
theorem pruneLoop_eq : s.pruneLoop rounds = s.giveUp (drain (RelayManager.rttKey s.view)
    (fun r => decide (r ∉ s.relayManager.inUse)) (min rounds s.relayManager.excess)
    s.relayManager.reserved) := by
  induction rounds generalizing s with
  | zero =>
    rw [Nat.zero_min]
    exact (giveUp_nil s).symm
  | succ rounds ih =>
    unfold pruneLoop
    split
    · next full =>
      have many := RelayManager.shouldPrune_iff.mp full
      -- One round takes one relay off, and the rest of the list is drained with one round less.
      have least : min (rounds + 1) s.relayManager.excess =
          min rounds (s.relayManager.excess - 1) + 1 := by omega
      rw [least]
      split
      · next r found =>
        have held := (RelayManager.getWorstUnused_mem found).1
        have excess : (s.relayManager.remove r).excess = s.relayManager.excess - 1 := by
          have fewer := List.length_erase_of_mem held
          have positive := List.length_pos_of_mem held
          simp only [RelayManager.excess, RelayManager.remove, fewer]
          omega
        rw [drain_some found, ← giveUp_cons, ih, ← excess]
        rfl
      · next none =>
        rw [drain_none none]
        exact (giveUp_nil s).symm
    · next fits =>
      have none : s.relayManager.excess = 0 := by
        rw [RelayManager.shouldPrune_iff] at fits
        omega
      rw [none, Nat.min_zero]
      exact (giveUp_nil s).symm

/-- A round for each reservation is enough. -/
theorem pruneLoop_enough (enough : s.relayManager.reserved.length ≤ rounds) :
    s.pruneLoop rounds = s.giveUp (s.relayManager.worst s.view) := by
  have least : min rounds s.relayManager.excess = s.relayManager.excess := by
    unfold RelayManager.excess
    omega
  rw [pruneLoop_eq, least]
  rfl

/-- The loop with the bound that the model gives it. -/
theorem pruneRelays_eq (s : SavedNetwork) :
    s.pruneRelays = s.giveUp (s.relayManager.worst s.view) :=
  pruneLoop_enough (Nat.le_refl _)

/-- Where the loop ends, it has no more to do. -/
theorem pruneRelays_done (s : SavedNetwork) : s.pruneRelays.relayManager.shouldPrune = false ∨
    s.pruneRelays.relayManager.getWorstUnused s.view = none := by
  obtain ⟨gone, left, pruned⟩ := pruneLoop_pruned (Nat.le_refl s.relayManager.reserved.length)
  unfold pruneRelays
  rw [pruned.eq]
  rcases pruned.fits with fits | used
  · exact .inl (decide_eq_false (Nat.not_lt.mpr fits))
  · exact .inr (maxByKey_eq_none.mpr (List.filter_eq_nil_iff.mpr fun r held idle =>
      of_decide_eq_true idle (used r held)))

end SavedNetwork

/-- **A pruning that gives up exactly the worst spare relays.** The list `gone` is in the order in
which they go. -/
structure PrunedWorst (s s' : SavedNetwork) (gone kept : List PeerId) : Prop where
  eq : s' = { s with relayManager := { s.relayManager with reserved := kept } }.tell
    (gone.map .disconnectPeerId)
  /-- Further rounds change nothing. -/
  ends : ∀ rounds, s.relayManager.reserved.length ≤ rounds → s.pruneLoop rounds = s'
  done : s'.relayManager.shouldPrune = false ∨ s'.relayManager.getWorstUnused s.view = none
  length : gone.length = min
    (s.relayManager.reserved.length - (s.relayManager.inUse.len + s.relayManager.maxRelays))
    s.relayManager.spares.length
  nodup : gone.Nodup
  spare : ∀ r ∈ gone, r ∈ s.relayManager.reserved ∧ r ∉ s.relayManager.inUse
  keeps : kept = s.relayManager.reserved.filter fun r => decide (r ∉ gone)
  worst : ∀ r ∈ gone, ∀ q ∈ kept, q ∉ s.relayManager.inUse → s.relayManager.IsWorse s.view r q
  order : gone.Pairwise (s.relayManager.IsWorse s.view)

/-- **Pruning selects exactly the worst spare relays**, for all reserved relays, relays in use,
capacities and views. -/
theorem pruneRelays_worst (s : SavedNetwork) (nodup : s.relayManager.reserved.Nodup) :
    ∃ gone kept, PrunedWorst s s.pruneRelays gone kept := by
  have kept : s.relayManager.reserved.diff (s.relayManager.worst s.view) =
      s.relayManager.reserved.filter fun r => decide (r ∉ s.relayManager.worst s.view) :=
    nodup.sdiff_eq_filter
  refine ⟨s.relayManager.worst s.view, _, pruneRelays_eq s, ?_, pruneRelays_done s, drain_length,
    drain_nodup nodup, fun r taken => RelayManager.mem_spares.mp
      (RelayManager.mem_spares_of_worst taken), kept, ?_, drain_pairwise nodup⟩
  · intro rounds enough
    rw [pruneLoop_enough enough, pruneRelays_eq]
  · intro r taken q stays unused
    rw [kept, List.mem_filter, decide_eq_true_eq] at stays
    exact drain_precedes nodup taken stays.1 (decide_eq_true unused) stays.2

/-- A node with capacity one, whose relays `1` to `4` are reserved: `2` is in use, `1` and `4` are
as fast, and of `3` nothing is known. -/
def prunedNode : SavedNetwork :=
  { SavedNetwork.start ⟨[0]⟩ 1 with
    view := ⟨(HashMap.entryOrDefault (.entryOrDefault ∅ ⟨[1]⟩ {} id) ⟨[4]⟩ {} id)⟩
    relayManager := ⟨[⟨[1]⟩, ⟨[2]⟩, ⟨[3]⟩, ⟨[4]⟩], .ofList [⟨[2]⟩], 1⟩ }

/-- The unknown relay goes first, then the later one of the two that are as fast. -/
theorem pruneRelays_worst_two : prunedNode.relayManager.reserved.Nodup ∧
    (∃ gone kept, PrunedWorst prunedNode prunedNode.pruneRelays gone kept) ∧
    prunedNode.pruneRelays.relayManager.reserved = [⟨[1]⟩, ⟨[2]⟩] :=
  ⟨by decide, pruneRelays_worst prunedNode (by decide), by decide⟩

end Saved
