import Saved.Laws.Quiet

/-!
# Relays

The relays that carry traffic are read off the tracked connections: `Carries t r` says that some
connection stands on an address that goes through `r`. `recompute_in_use` computes exactly this set,
and `update_relay_state` then drops reservations, never one of a relay in it, until the rest fit
(`updateRelayState_spec`).
-/

namespace Saved

open Saved.Lib SavedNetwork

/-- **The relays that carry a connection.** -/
def Carries (t : Tracked) (r : PeerId) : Prop :=
  ∃ p c a, t p c = some a ∧ RelayManager.extractRelayPeer a = some r

/-! ## Reading a relay off an address -/

namespace RelayManager

/-- A relay is read off only where `/p2p-circuit` stands behind it. -/
theorem circuit_of_extractFrom {r : PeerId} {l : List Protocol} {last : Option PeerId}
    (h : extractFrom last l = some r) : .p2pCircuit ∈ l := by
  induction l generalizing last with
  | nil => cases h
  | cons p l ih =>
    cases p with
    | p2pCircuit => exact List.mem_cons_self
    | _ => exact List.mem_cons_of_mem _ (ih h)

/-- An address with a relay is a relay address. The converse fails, since `/p2p-circuit` may stand
without a peer before it. -/
theorem addrIsRelay_of_extract {a : Multiaddr} {r : PeerId} (h : extractRelayPeer a = some r) :
    addrIsRelay a = true :=
  List.any_eq_true.mpr ⟨.p2pCircuit, circuit_of_extractFrom h, decide_eq_true rfl⟩

/-- A record has its relay in use when it holds a connection and its address names a relay. -/
theorem usedRelay_eq_some {m : AddressMetadata} {r : PeerId} :
    usedRelay m = some r ↔ m.activeConnections ≠ [] ∧ extractRelayPeer m.address = some r := by
  unfold usedRelay
  split
  · next h =>
    rw [Bool.and_eq_true, Bool.not_eq_true', List.isEmpty_eq_false_iff] at h
    exact ⟨fun found => ⟨h.1, found⟩, And.right⟩
  · next h =>
    constructor
    · intro found
      cases found
    · intro both
      refine absurd ?_ h
      rw [Bool.and_eq_true, Bool.not_eq_true', List.isEmpty_eq_false_iff]
      exact ⟨both.1, addrIsRelay_of_extract both.2⟩

/-- **`recompute_in_use` finds the relays that carry a connection.** -/
theorem mem_recomputeInUse {rm : RelayManager} {view : NetworkView} (wf : view.WellFormed)
    {r : PeerId} : r ∈ (rm.recomputeInUse view).inUse ↔ Carries view.tracked r := by
  have stands : ∀ p a, (∃ c, view.tracked p c = some a) ↔
      ∃ m ∈ view.addressesOf p, m.address = a ∧ m.activeConnections ≠ [] := by
    intro p a
    rw [NetworkView.tracked_eq]
    exact holds_iff (wf p)
  unfold recomputeInUse
  simp only [HashSet.mem_ofList, List.mem_flatMap, List.mem_filterMap, usedRelay_eq_some]
  constructor
  · intro found
    obtain ⟨info, stored, m, hm, up, relay⟩ := found
    obtain ⟨p, known⟩ := HashMap.mem_values.mp stored
    rw [← NetworkView.addressesOf_of_get known] at hm
    obtain ⟨c, stands⟩ := (stands p m.address).mpr ⟨m, hm, rfl, up⟩
    exact ⟨p, c, m.address, stands, relay⟩
  · intro carried
    obtain ⟨p, c, a, here, relay⟩ := carried
    obtain ⟨m, hm, rfl, up⟩ := (stands p a).mp ⟨c, here⟩
    cases known : view.peers.get p with
    | none =>
      rw [NetworkView.addressesOf, known] at hm
      exact absurd hm List.not_mem_nil
    | some info =>
      rw [NetworkView.addressesOf_of_get known] at hm
      exact ⟨info, HashMap.mem_values.mpr ⟨p, known⟩, m, hm, up, relay⟩

/-- `register_reservation` puts the relay in, and puts no other in or out. -/
theorem mem_register {rm : RelayManager} {r q : PeerId} :
    q ∈ (rm.register r).reserved ↔ q = r ∨ q ∈ rm.reserved := by
  unfold register
  split
  · next held => exact ⟨.inr, fun h => h.elim (fun e => e ▸ held) id⟩
  · rw [List.mem_append, List.mem_singleton, or_comm]

/-- A set stays one. -/
theorem register_nodup {rm : RelayManager} {r : PeerId} (nodup : rm.reserved.Nodup) :
    (rm.register r).reserved.Nodup := by
  unfold register
  split
  · exact nodup
  · next absent =>
    exact List.nodup_append'.mpr ⟨nodup, List.nodup_singleton r,
      List.disjoint_singleton.mpr absent⟩

/-- The bound is fixed at the start. -/
@[simp] theorem register_maxRelays {rm : RelayManager} {r : PeerId} :
    (rm.register r).maxRelays = rm.maxRelays := by unfold register; split <;> rfl

/-- A relay to prune is reserved and carries nothing. -/
theorem getWorstUnused_mem {rm : RelayManager} {view : NetworkView} {r : PeerId}
    (h : rm.getWorstUnused view = some r) : r ∈ rm.reserved ∧ r ∉ rm.inUse := by
  have found := maxByKey_mem h
  rw [List.mem_filter, decide_eq_true_eq] at found
  exact found

/-- When there is none to prune, every reserved relay carries a connection. -/
theorem getWorstUnused_none {rm : RelayManager} {view : NetworkView}
    (h : rm.getWorstUnused view = none) : ∀ r ∈ rm.reserved, r ∈ rm.inUse := by
  intro r held
  have nothing := List.filter_eq_nil_iff.mp (maxByKey_eq_none.mp h) r held
  simpa using nothing

/-- **Spare relays are what is left of the reserved ones.** -/
theorem spare_length {rm : RelayManager} (nodup : rm.reserved.Nodup)
    (used : ∀ r ∈ rm.inUse, r ∈ rm.reserved) :
    (rm.reserved.filter fun r => decide (r ∉ rm.inUse)).length + rm.inUse.len =
      rm.reserved.length := by
  have split := List.length_eq_length_filter_add (l := rm.reserved) fun r => decide (r ∈ rm.inUse)
  have inUse : (rm.reserved.filter fun r => decide (r ∈ rm.inUse)).Perm rm.inUse.toList := by
    refine (List.perm_ext_iff_of_nodup (nodup.filter _) rm.inUse.nodup).mpr fun r => ?_
    rw [List.mem_filter, decide_eq_true_eq]
    exact ⟨And.right, fun h => ⟨used r h, h⟩⟩
  have same : (rm.reserved.filter fun r => decide (r ∉ rm.inUse)) =
      rm.reserved.filter fun r => !decide (r ∈ rm.inUse) := by
    refine List.filter_congr fun r _ => ?_
    simp
  have length := inUse.length_eq
  rw [same]
  unfold HashSet.len
  omega

end RelayManager

/-! ## Pruning -/

/-- **What a pruning leaves**: some reserved relays that carry nothing are gone, each with its
disconnect, and those that stay fit the capacity. -/
structure Pruned (s s' : SavedNetwork) (gone left : List PeerId) : Prop where
  eq : s' = { s with relayManager := { s.relayManager with reserved := left } }.tell
    (gone.map .disconnectPeerId)
  perm : (gone ++ left).Perm s.relayManager.reserved
  unused : ∀ r ∈ gone, r ∉ s.relayManager.inUse
  fits : left.length ≤ s.relayManager.inUse.len + s.relayManager.maxRelays ∨
    ∀ r ∈ left, r ∈ s.relayManager.inUse
  tight : min s.relayManager.reserved.length
    (s.relayManager.inUse.len + s.relayManager.maxRelays) ≤ left.length

namespace SavedNetwork

variable {env : Env} {s s' : SavedNetwork}

/-- Telling the swarm nothing changes nothing. -/
theorem tell_nil (s : SavedNetwork) : s.tell [] = s := by
  unfold tell
  rw [List.append_nil]

/-- The loop prunes, given a round for each reservation. -/
theorem pruneLoop_pruned {rounds : Nat} {s : SavedNetwork}
    (enough : s.relayManager.reserved.length ≤ rounds) :
    ∃ gone left, Pruned s (s.pruneLoop rounds) gone left := by
  -- Both ways the loop stops: the relays fit, or none of them is spare.
  have stop : ∀ s : SavedNetwork,
      (s.relayManager.reserved.length ≤ s.relayManager.inUse.len + s.relayManager.maxRelays ∨
        ∀ r ∈ s.relayManager.reserved, r ∈ s.relayManager.inUse) →
      Pruned s s [] s.relayManager.reserved := fun s fits =>
    ⟨(tell_nil s).symm, .refl _, fun _ h => absurd h List.not_mem_nil, fits, Nat.min_le_left _ _⟩
  induction rounds generalizing s with
  | zero =>
    have none : s.relayManager.reserved = [] := List.length_eq_zero_iff.mp (Nat.le_zero.mp enough)
    exact ⟨[], _, stop s (.inl (by rw [none]; exact Nat.zero_le _))⟩
  | succ rounds ih =>
    unfold pruneLoop
    split
    · next full =>
      have tooMany := of_decide_eq_true full
      split
      · next worst found =>
        obtain ⟨held, idle⟩ := RelayManager.getWorstUnused_mem found
        have fewer := List.length_erase_of_mem held
        let t := { s with relayManager := s.relayManager.remove worst }.tell
          [.disconnectPeerId worst]
        -- Each round removes one relay, so as many rounds as there are relays suffice.
        obtain ⟨gone, left, pruned⟩ := ih (s := t) (by
          show (s.relayManager.reserved.erase worst).length ≤ rounds
          omega)
        refine ⟨worst :: gone, left, ?_, ?_, ?_, pruned.fits, ?_⟩
        · rw [pruned.eq]
          simp only [t, tell, RelayManager.remove, List.map_cons, List.append_assoc,
            List.singleton_append]
        · exact (pruned.perm.cons worst).trans (List.perm_cons_erase held).symm
        · intro r mem
          rcases List.mem_cons.mp mem with rfl | later
          · exact idle
          · exact pruned.unused r later
        · have tight : min (s.relayManager.reserved.erase worst).length
              (s.relayManager.inUse.len + s.relayManager.maxRelays) ≤ left.length := pruned.tight
          omega
      · next none => exact ⟨[], _, stop s (.inr (RelayManager.getWorstUnused_none none))⟩
    · next fits =>
      have small : s.relayManager.reserved.length ≤
          s.relayManager.inUse.len + s.relayManager.maxRelays := by
        unfold RelayManager.shouldPrune at fits
        rw [decide_eq_true_eq] at fits
        omega
      exact ⟨[], _, stop s (.inl small)⟩

/-- **`update_relay_state`**: the relays in use are read off the view, then the rest are pruned. -/
theorem updateRelayState_pruned (s : SavedNetwork) :
    ∃ gone left, Pruned s.recomputeInUse s.updateRelayState gone left :=
  pruneLoop_pruned (Nat.le_refl _)

end SavedNetwork

/-- **What an update of the relay state does**: it reads the relays in use off the view, and gives
up reservations of relays that carry nothing. -/
structure RelaysUpdated (s s' : SavedNetwork) : Prop where
  view : s'.view = s.view
  targetPeers : s'.targetPeers = s.targetPeers
  activeMode : s'.activeMode = s.activeMode
  localPeerId : s'.swarm.localPeerId = s.swarm.localPeerId
  maxRelays : s'.relayManager.maxRelays = s.relayManager.maxRelays
  inUse : s'.relayManager.inUse = (s.relayManager.recomputeInUse s.view).inUse
  reserved : ∀ r ∈ s'.relayManager.reserved, r ∈ s.relayManager.reserved
  nodup : s.relayManager.reserved.Nodup → s'.relayManager.reserved.Nodup
  kept : ∀ r ∈ s.relayManager.reserved, r ∈ s'.relayManager.inUse → r ∈ s'.relayManager.reserved
  fits : s.relayManager.reserved.Nodup →
    s'.relayManager.reserved.length ≤ s'.relayManager.inUse.len + s'.relayManager.maxRelays
  tight : min s.relayManager.reserved.length
    (s'.relayManager.inUse.len + s'.relayManager.maxRelays) ≤ s'.relayManager.reserved.length
  calls : ∃ gone : List PeerId, s'.swarm.calls = s.swarm.calls ++ gone.map .disconnectPeerId ∧
    (∀ r ∈ gone, r ∉ s'.relayManager.inUse) ∧
    gone.length + s'.relayManager.reserved.length = s.relayManager.reserved.length

/-- `update_relay_state` whole: first the relays in use are read off the view, then the spare ones
beyond the bound are pruned. The clauses speak of the state after both. -/
theorem updateRelayState_spec (s : SavedNetwork) : RelaysUpdated s s.updateRelayState := by
  obtain ⟨gone, left, pruned⟩ := updateRelayState_pruned s
  have nodup : s.relayManager.reserved.Nodup → left.Nodup := fun h =>
    (List.nodup_append'.mp (pruned.perm.nodup_iff.mpr h)).2.1
  rw [pruned.eq]
  refine ⟨rfl, rfl, rfl, rfl, rfl, rfl, fun r h => ?_, nodup, fun r held used => ?_, fun h => ?_,
    pruned.tight, gone, rfl, pruned.unused, ?_⟩
  · exact pruned.perm.mem_iff.mp (List.mem_append_right _ h)
  · rcases List.mem_append.mp (pruned.perm.mem_iff.mpr held) with out | stays
    · exact absurd used (pruned.unused r out)
    · exact stays
  · rcases pruned.fits with small | used
    · exact small
    · have within : left.length ≤ s.recomputeInUse.relayManager.inUse.len :=
        HashSet.len_le_length (s := ⟨left, nodup h⟩) used
      exact within.trans (Nat.le_add_right _ _)
  · rw [← List.length_append]
    exact pruned.perm.length_eq

end Saved
