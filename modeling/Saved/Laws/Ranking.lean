import Saved.Laws.Dialing
import Saved.Pair

/-!
# The order of connected addresses

A vector is sorted by a key that moves with the clock: an address in cooldown stands behind every
other. Connected addresses stand apart from this. A failure is marked only on an address that no
connection stands on, and a connection clears the backoff of its address, so a connected address is
never in cooldown (`Ranked.calm`), and what stands before it comes before it in the order of
`Multiaddr.rankKey`, which never changes (`rankKey_lt_of_sorted`).
-/

namespace Saved

open Saved.Lib SavedNetwork

variable {env : Env} {p : PeerId} {c : ConnectionId} {a : Multiaddr} {s s' : SavedNetwork}
  {now : Readings} {t failed : Instant} {info : PeerInfoExt}

/-- The part of the key that does not move: scope, transport, address. -/
def Multiaddr.rankKey (a : Multiaddr) : Nat ×ₗ Nat ×ₗ Multiaddr :=
  toLex ((classifyAddr a).1.rank, toLex ((classifyAddr a).2.rank, a))

/-- The address is the last part of its own key, so no two rank the same. -/
theorem Multiaddr.rankKey_injective : Function.Injective rankKey := by
  intro a b same
  have inner := congrArg (fun k => (ofLex (ofLex k).2).2) same
  exact inner

/-- The key of an entry: the part that moves with the clock, then the part that does not. -/
theorem sortKey_rank {l : List AddressMetadata} (wf : Wf l) {m : AddressMetadata} (hm : m ∈ l) :
    m.sortKey t = toLex (m.isInCooldown t, m.address.rankKey) := by
  have classes := wf.classified m hm
  rw [Prod.ext_iff] at classes
  rw [AddressMetadata.sortKey, Multiaddr.rankKey, ← classes.1, ← classes.2]

/-- No connected address has a failure marked. -/
def Calm (l : List AddressMetadata) : Prop := ∀ m ∈ l, m.activeConnections ≠ [] → m.lastErr = none

/-- **A ranked vector**: sorted as of some reading of the clock, and calm. -/
structure Ranked (l : List AddressMetadata) : Prop where
  sorted : ∃ now, SortedAt now l
  calm : Calm l

/-- The vector of a peer that is not known. -/
theorem ranked_nil : Ranked [] := ⟨⟨0, .nil⟩, fun _ h => absurd h List.not_mem_nil⟩

/-- **What stands before an address that is not in cooldown** comes before it in the order that does
not move. -/
theorem rankKey_lt_of_sorted {l : List AddressMetadata} {n m : AddressMetadata}
    (sorted : SortedAt t l) (wf : Wf l) (before : [n, m].Sublist l)
    (awake : m.isInCooldown t = false) :
    n.address.rankKey < m.address.rankKey := by
  have known : n ∈ l := before.subset List.mem_cons_self
  have known' : m ∈ l := before.subset (List.mem_cons_of_mem _ List.mem_cons_self)
  have pair := sorted.sublist before
  have le := List.pairwise_pair.mp pair
  rw [sortKey_rank wf known, sortKey_rank wf known', awake, Prod.Lex.toLex_le_toLex] at le
  have le' : n.address.rankKey ≤ m.address.rankKey := by
    rcases le with below | same
    · exact absurd below not_lt_bot
    · exact same.2
  refine lt_of_le_of_ne le' fun same => ?_
  have apart := wf.addresses_nodup.sublist (before.map (·.address))
  exact List.pairwise_pair.mp apart (Multiaddr.rankKey_injective same)

/-- **The best address comes before every connected one**, in the order that does not move. -/
theorem Ranked.best_lt {best m : AddressMetadata} {rest : List AddressMetadata}
    (ranked : Ranked (best :: rest)) (wf : Wf (best :: rest)) (mem : m ∈ rest)
    (connected : m.activeConnections ≠ []) : best.address.rankKey < m.address.rankKey := by
  obtain ⟨now, sorted⟩ := ranked.sorted
  have awake : m.isInCooldown now = false := by
    rw [AddressMetadata.isInCooldown, ranked.calm m (List.mem_cons_of_mem _ mem) connected]
  exact rankKey_lt_of_sorted sorted wf ((List.singleton_sublist.mpr mem).cons_cons _) awake

/-! ## The operations keep a vector calm -/

namespace PeerInfoExt

/-- A new entry has no connection, so nothing is asked of it. -/
theorem calm_append_fresh {l : List AddressMetadata} (calm : Calm l) : Calm (l ++ [.fresh a]) := by
  intro m hm connected
  rcases List.mem_append.mp hm with old | new
  · exact calm m old connected
  · obtain rfl := List.mem_singleton.mp new
    exact absurd rfl connected

/-- An entry that has a connection when one is taken off had one before. -/
theorem calm_release (calm : Calm info.addresses) :
    Calm (info.releaseConnection c).addresses := by
  intro m hm connected
  rcases mem_modifyFirst hm with old | ⟨n, hn, _, rfl⟩
  · exact calm m old connected
  · refine calm n hn fun none => connected ?_
    show swapRemoveItem c n.activeConnections = []
    rw [none]
    rfl

/-- To clear a backoff can only help. -/
theorem calm_clear (calm : Calm info.addresses) :
    Calm (info.clearBackoffOnSuccess a).addresses := by
  intro m hm connected
  rcases mem_modifyFirst hm with old | ⟨n, _, _, rfl⟩
  · exact calm m old connected
  · rfl

/-- The address a connection is put on has its backoff cleared. -/
theorem calm_attach (calm : Calm info.addresses) :
    Calm ((info.attachConnection c a).clearBackoffOnSuccess a).addresses := by
  intro m hm connected
  change m ∈ modifyFirst _ _ (modifyFirst _ _ info.addresses) at hm
  -- the two changes are of one entry: the first with this address
  rw [modifyFirst_modifyFirst fun x _ isA => by split <;> exact isA] at hm
  rcases mem_modifyFirst hm with old | ⟨n, _, _, rfl⟩
  · exact calm m old connected
  · rfl

end PeerInfoExt

/-! ## The operations keep a vector ranked

Each of them ends in a resort. It leaves the vector in the order of one instant when the clock
stands still in it, and then all that is to be shown is that the entries are calm. -/

section Still

variable (still : now.Still)

include still

namespace PeerInfoExt

/-- A resort in which the clock stands still ranks a vector that is calm. -/
theorem resort_ranked (calm : Calm info.addresses) : Ranked (info.resort now).addresses :=
  ⟨⟨_, (resort_resorted now info).sorted still.steady⟩, fun m hm => calm m (mem_resort.mp hm)⟩

/-- A new record comes without connections and without failures, and the sort puts it in its
place. -/
theorem addAddress_ranked (ranked : Ranked info.addresses) :
    Ranked (info.addAddress now a).2.addresses := by
  unfold addAddress
  split
  · exact resort_ranked still ranked.calm
  · exact resort_ranked still (calm_append_fresh ranked.calm)

/-- What is left after a filter is calm, and is sorted anew. -/
theorem removeAddress_ranked (ranked : Ranked info.addresses) :
    Ranked (info.removeAddress now a).addresses :=
  resort_ranked still fun m hm => ranked.calm m (List.mem_of_mem_eraseP hm)

/-- A connection that goes leaves the failures of every address as they were, and the vector is
sorted anew. -/
theorem removeConnection_ranked (ranked : Ranked info.addresses) :
    Ranked (info.removeConnection now c).addresses :=
  resort_ranked still (calm_release ranked.calm)

/-- The second half of an added connection: its address is there, known before or new, and has the
connection put on it and its backoff cleared. -/
theorem placeConnection_ranked (calm : Calm info.addresses) :
    Ranked (info.placeConnection now c a).addresses := by
  have ensured : Calm (info.ensureAddress a).addresses := by
    unfold ensureAddress
    split
    · exact calm
    · exact calm_append_fresh calm
  exact resort_ranked still (calm_attach ensured)

/-- The address that the connection comes to stand on is cleared of its failures, so the vector
stays calm. -/
theorem addConnection_ranked (ranked : Ranked info.addresses) :
    Ranked (info.addConnection now c a).addresses := by
  unfold addConnection
  split
  · split
    · exact placeConnection_ranked still (calm_release ranked.calm)
    · exact resort_ranked still (calm_clear ranked.calm)
  · exact placeConnection_ranked still ranked.calm

/-- A failure is marked on an address that no connection stands on. -/
theorem markFailure_ranked (ranked : Ranked info.addresses)
    (idle : ∀ m ∈ info.addresses, m.address = a → m.activeConnections = []) :
    Ranked (info.markFailure failed now a).addresses := by
  unfold markFailure
  split
  · refine resort_ranked still fun m hm connected => ?_
    rcases mem_modifyFirst hm with old | ⟨n, hn, isA, rfl⟩
    · exact ranked.calm m old connected
    · exact absurd (idle n hn (of_decide_eq_true isA)) connected
  · exact ranked

end PeerInfoExt

namespace NetworkView

variable {view : NetworkView}

/-- The entry's law, at the peer it is about. -/
theorem addAddress_ranked (ranked : Ranked (view.addressesOf p)) :
    Ranked ((view.addAddress now p a).2.addressesOf p) := by
  have here := (addressesOf_entryOrDefault (p := p) view fun info => (info.addAddress now a).2).1
  rw [addAddress, here]
  exact PeerInfoExt.addAddress_ranked still ranked

/-- The entry's law, at the peer it is about. -/
theorem addConnection_ranked {endpoint : ConnectedPoint} (ranked : Ranked (view.addressesOf p)) :
    Ranked ((view.addConnection now p c endpoint).addressesOf p) := by
  have here := (addressesOf_entryOrDefault (p := p) view fun info =>
    info.addConnection now c endpoint.remote).1
  rw [addConnection, here]
  exact PeerInfoExt.addConnection_ranked still ranked

/-- The entry's law, at the peer it is about. If the entry goes, its empty vector is ranked. -/
theorem removeAddress_ranked (ranked : Ranked (view.addressesOf p)) :
    Ranked ((view.removeAddress now p a).addressesOf p) := by
  have here : (view.removeAddress now p a).addressesOf p = _ := (addressesOf_modify_prune view
    (f := fun info => info.removeAddress now a) rfl rfl).1
  rw [here]
  exact PeerInfoExt.removeAddress_ranked still ranked

/-- The entry's law, at the peer it is about. If the entry goes, its empty vector is ranked. -/
theorem removeConnection_ranked (ranked : Ranked (view.addressesOf p)) :
    Ranked ((view.removeConnection now p c).addressesOf p) := by
  have here : (view.removeConnection now p c).addressesOf p = _ := (addressesOf_modify_prune view
    (f := fun info => info.removeConnection now c) rfl rfl).1
  rw [here]
  exact PeerInfoExt.removeConnection_ranked still ranked

/-- A failure of an address that the peer is not connected over. -/
theorem markFailure_ranked (wf : view.WellFormed) (ranked : Ranked (view.addressesOf p))
    (idle : view.isConnectedOver p a = false) :
    Ranked ((view.markFailure failed now p a).addressesOf p) := by
  have here := (addressesOf_modify (p := p) view
    (f := fun info => info.markFailure failed now a) rfl).1
  rw [markFailure, here]
  refine PeerInfoExt.markFailure_ranked still ranked fun m hm isA => ?_
  by_contra connected
  obtain ⟨d, hd⟩ := List.exists_mem_of_ne_nil _ connected
  have up := (isConnectedOver_iff_tracked wf).mpr
    ⟨d, (tracked_iff wf).mpr ⟨m, hm, isA, hd⟩⟩
  exact Bool.false_ne_true (idle.symm.trans up)

end NetworkView

end Still

/-- **A reconcile keeps the vector ranked**: every failure it marks is of an address that no
connection stands on. -/
theorem Reconciled.ranked (still : ∀ n, (env.readings n).Still)
    (reconciled : Reconciled env p s s') (wf : s.view.WellFormed)
    (ranked : Ranked (s.view.addressesOf p)) : Ranked (s'.view.addressesOf p) := by
  induction reconciled with
  | unknown | keep | wait | prune | dialed | migrate => exact ranked
  | redial vector down _ _ ih =>
    exact ih (NetworkView.registers_of_records wf (NetworkView.markFailure_records _)).1
      (NetworkView.markFailure_ranked (still _) wf ranked (isConnectedOver_of_down down _))
  | migrateFailed vector idle _ _ _ => exact NetworkView.markFailure_ranked (still _) wf ranked idle

/-- **Where a connection stands**: on the best address, or on one that comes after it in the order
that does not move. -/
theorem Ranked.of_tracked {best : AddressMetadata} {rest : List AddressMetadata}
    (ranked : Ranked (s.view.addressesOf p)) (wf : s.view.WellFormed)
    (vector : s.view.addressesOf p = best :: rest) (stands : s.view.tracked p c = some a) :
    a = best.address ∧ c ∉ rest.flatMap (·.activeConnections) ∨
      best.address.rankKey < a.rankKey := by
  have wf' := vector ▸ wf p
  obtain ⟨m, hm, rfl, hc⟩ := (NetworkView.tracked_iff wf).mp stands
  rw [vector] at hm ranked
  rcases List.mem_cons.mp hm with rfl | later
  · exact .inl ⟨rfl, fun elsewhere => (disjoint_rest wf vector).2 hc elsewhere⟩
  · exact .inr (ranked.best_lt wf' later (List.ne_nil_of_mem hc))

/-! ## The closes of a reconcile -/

/-- **A reconcile asks for closes only as the prune leader of a peer that is connected over its
best address**, and then for those of every other address. -/
theorem Reconciled.asked (reconciled : Reconciled env p s s') :
    (∀ c, Asked s' c ↔ Asked s c) ∨
      ∃ best rest, s.view.addressesOf p = best :: rest ∧ s.isPruneLeader p = true ∧
        s.view.isConnectedOver p best.address = true ∧
        ∀ c, Asked s' c ↔ Asked s c ∨ c ∈ rest.flatMap (·.activeConnections) := by
  have dial : ∀ (s : SavedNetwork) (a : Multiaddr) (ok : Bool) (c : ConnectionId),
      .closeConnection c ∈ s.swarm.calls ++ [.dial a ok] ↔ Asked s c := by
    intro s a ok c
    rw [List.mem_append, List.mem_singleton]
    exact or_iff_left nofun
  induction reconciled with
  | unknown | keep | wait => exact .inl fun _ => Iff.rfl
  | dialed | migrate | migrateFailed => exact .inl fun c => dial _ _ _ c
  | @prune s best rest vector up leads =>
    refine .inr ⟨best, rest, vector, leads, up, fun c => ?_⟩
    show _ ∈ s.swarm.calls ++ _ ↔ _
    rw [List.mem_append, List.mem_map]
    refine or_congr_right ⟨fun told => ?_, fun mem => ⟨c, mem, rfl⟩⟩
    obtain ⟨d, mem, same⟩ := told
    cases same
    exact mem
  | @redial s s' best rest vector down _ _ ih =>
    -- The call after a failed dial does not prune: the peer has no connection to be spared.
    have down' : (s.dialFailed env p).view.isConnected p = false :=
      dialFailed_isConnected.trans down
    unfold dialFailed at down'
    rw [bestAddr_of_vector vector] at down'
    rcases ih with same | pruned
    · exact .inl fun c => (same c).trans (dial s _ _ c)
    · obtain ⟨best', _, _, _, up, _⟩ := pruned
      have nowhere := isConnectedOver_of_down down' best'.address
      exact absurd (nowhere.symm.trans up) Bool.false_ne_true

end Saved
