import Mathlib.Data.Set.Finite.Lemmas
import Saved.Laws.Destination
import Saved.Laws.Failures
import Saved.Laws.Ranking

/-!
# Dials in flight

A dial that was started is in flight until its end is reported. `reconcile_peer_connections` looks
at the connections that are established, not at the dials, so what keeps it from dialing an address
twice can only be what the turns ask of it.

`SavedNetwork.mayDial` lists the addresses that a reconcile of a peer may dial, whatever the dials
answer and the clock shows, and `SavedNetwork.visits` lists them for every reconcile that the
operations of an input bring about. A turn is orderly when no visit takes an address that is in
flight or was taken by a visit before.
-/

namespace Saved

open Saved.Lib SavedNetwork

/-- The dials in flight: the number of each, and its address. -/
abbrev Flight := List (Nat × Multiaddr)

/-- What a moment does to the dials in flight. -/
def Flight.after (env : Env) (flight : Flight) : Moment → Flight
  | .read p s =>
    match s.dialTarget p with
    | none => flight
    | some a => if env.dialOk s.asked then (s.asked, a) :: flight else flight
  | .settled dial _ => flight.filter fun entry => entry.1 ≠ dial
  | .op _ | .request _ => flight

/-- The dials in flight after more moments. -/
def Flight.run (env : Env) (flight : Flight) (l : List Moment) : Flight :=
  l.foldl (Flight.after env) flight

/-- **The dials in flight after some moments**, of those that reconcile started. -/
def inFlight (env : Env) (l : List Moment) : Flight := Flight.run env [] l

/-- No read of these moments dials an address that is in flight when it is read. -/
def Clear (env : Env) : Flight → List Moment → Prop
  | _, [] => True
  | flight, m :: l =>
    (∀ p s a, m = .read p s → s.dialTarget p = some a → a ∉ flight.map Prod.snd) ∧
      Clear env (flight.after env m) l

/-! ## What the operations of an input may make the node dial -/

/-- The operations of offered addresses. -/
def addOps (now : Readings) (list : List (PeerId × Multiaddr)) : List ViewOp :=
  (list.filter fun entry => !shouldSkipForDial entry.2).map fun entry =>
    .addAddress now entry.1 entry.2

/-- The operations of expired addresses. -/
def removeOps (now : Readings) (list : List (PeerId × Multiaddr)) : List ViewOp :=
  list.map fun entry => .removeAddress now entry.1 entry.2

/-- The operations that an input makes on the view, dated at an instant. -/
def Input.ops (now : Readings) : Input → List ViewOp
  | .event (.mdnsExpired list) => removeOps now list
  | .event (.connectionEstablished p c endpoint) => [.addConnection now p c endpoint]
  | .event (.connectionClosed p c) => [.removeConnection now p c]
  | i => addOps now i.offers

namespace SavedNetwork

/-- **The addresses that a reconcile of a peer may dial**, whatever the dials answer and the clock
shows: of a peer without a connection, every one; of a connected peer, when this node leads, those
no connection stands on and no address without a failure ranks before. -/
def mayDial (s : SavedNetwork) (p : PeerId) : List Multiaddr :=
  ((s.view.addressesOf p).filter fun m => m.activeConnections.isEmpty &&
    (!s.view.isConnected p || s.isPruneLeader p && (s.view.addressesOf p).all fun n =>
      n.lastErr.isSome || decide (m.address.rankKey ≤ n.address.rankKey))).map (·.address)

/-- An operation makes the node reconcile its peer, but for an address that is known already. -/
def reconciles (s : SavedNetwork) : ViewOp → Bool
  | .addAddress now p a => (s.view.addAddress now p a).1
  | _ => true

/-- **The visits of some operations**: for each that makes the node reconcile, the addresses it may
dial. -/
def visits : SavedNetwork → List ViewOp → List (List Multiaddr)
  | _, [] => []
  | s, op :: ops =>
    if s.reconciles op then (s.after op).mayDial op.peer :: (s.after op).visits ops
    else (s.after op).visits ops

end SavedNetwork

/-- **Orderly visits**: each keeps apart from the addresses in flight, and from the visits before
it. -/
def Orderly : List Multiaddr → List (List Multiaddr) → Prop
  | _, [] => True
  | busy, visit :: later => (∀ a ∈ visit, a ∉ busy) ∧ Orderly (busy ++ visit) later

instance Orderly.decide : (busy : List Multiaddr) → (visits : List (List Multiaddr)) →
    Decidable (Orderly busy visits)
  | _, [] => .isTrue trivial
  | busy, visit :: later =>
    haveI := Orderly.decide (busy ++ visit) later
    inferInstanceAs (Decidable ((∀ a ∈ visit, a ∉ busy) ∧ Orderly (busy ++ visit) later))

variable {env : Env} {s t : SavedNetwork} {l l' : List Moment} {flight : Flight} {p : PeerId}
  {a : Multiaddr} {op : ViewOp} {now : Readings}

/-- A stretch is clear when its first part is, and the rest is with what the first part left in
flight. -/
theorem clear_append : Clear env flight (l ++ l') ↔
    Clear env flight l ∧ Clear env (flight.run env l) l' := by
  induction l generalizing flight with
  | nil => exact (iff_of_eq (true_and _)).symm
  | cons m l ih =>
    show _ ∧ Clear env _ (l ++ l') ↔ (_ ∧ Clear env _ l) ∧ Clear env (Flight.run env _ l) _
    rw [ih, and_assoc]

/-- What is no read dials nothing. -/
theorem clear_op (clear : Clear env flight l) : Clear env flight (.op op :: l) := by
  refine ⟨fun p s a read => ?_, clear⟩
  cases read

/-- A dial that a caller asks for is no reconcile's, so it duplicates none. It is not counted as in
flight either: of the dials made, those that a reconcile started are. -/
theorem clear_request : Clear env flight [.request a] := by
  refine ⟨fun p s a read => ?_, trivial⟩
  cases read

/-- A dial that ends cannot be a duplicate. -/
theorem clear_settled {dial : Nat} {established : Bool} :
    Clear env flight [.settled dial established] := by
  refine ⟨fun p s a read => ?_, trivial⟩
  cases read

/-- What clear moments say of a read. -/
theorem Clear.read {rest : List Moment} (clear : Clear env flight (l ++ .read p t :: rest))
    (dials : t.dialTarget p = some a) : a ∉ (flight.run env l).map Prod.snd :=
  (clear_append.mp clear).2.1 p t a rfl dials

/-! ## What a reconcile may dial, by the book -/

/-- An address is known, and no failure of it is counted. -/
def Backoffs.Unfailed (t : Backoffs) (p : PeerId) (a : Multiaddr) : Prop :=
  ∃ b, t p a = some b ∧ b.lastErr = none

/-- An address that never failed, as the record has it. -/
theorem NetworkView.unfailed_iff {view : NetworkView} (wf : view.WellFormed) :
    view.backoffs.Unfailed p a ↔ ∃ m ∈ view.addressesOf p, m.address = a ∧ m.lastErr = none := by
  unfold Backoffs.Unfailed NetworkView.backoffs
  simp only [backoffsOf_eq_some (wf p)]
  constructor
  · rintro ⟨_, ⟨m, hm, isA, rfl⟩, calm⟩
    exact ⟨m, hm, isA, calm⟩
  · rintro ⟨m, hm, isA, calm⟩
    exact ⟨_, ⟨m, hm, isA, rfl⟩, calm⟩

/-- **Among the addresses without a failure one ranks first.** -/
theorem NetworkView.exists_first {view : NetworkView} (wf : view.WellFormed)
    (some : view.backoffs.Unfailed p a) : ∃ d, view.backoffs.Unfailed p d ∧
      ∀ b, view.backoffs.Unfailed p b → d.rankKey ≤ b.rankKey := by
  have finite : {b | view.backoffs.Unfailed p b}.Finite := by
    refine ((view.addressesOf p).map (·.address)).finite_toSet.subset fun b unfailed => ?_
    obtain ⟨m, hm, isB, _⟩ := (unfailed_iff wf).mp unfailed
    exact List.mem_map.mpr ⟨m, hm, isB⟩
  exact Set.exists_min_image _ _ finite ⟨a, some⟩

/-- The node leads for a peer. -/
def SavedNetwork.Leads (s : SavedNetwork) (p : PeerId) : Prop := s.isPruneLeader p = true

/-- **An address that a reconcile of a peer may dial**, by the peer's register and its backoffs. -/
def SavedNetwork.Candidate (s : SavedNetwork) (p : PeerId) (a : Multiaddr) : Prop :=
  a ∈ (s.view.registers p).slots ∧ ¬ (s.view.registers p).Holds a ∧
    ((s.view.registers p).Occupied →
      s.Leads p ∧ ∀ b, s.view.backoffs.Unfailed p b → a.rankKey ≤ b.rankKey)

/-- The list that the run's condition computes from the source's fields is the candidate set of the
register and the cooldowns, on which the proof works. -/
theorem mem_mayDial (wf : s.view.WellFormed) : a ∈ s.mayDial p ↔ s.Candidate p a := by
  unfold mayDial SavedNetwork.Candidate SavedNetwork.Leads NetworkView.registers
  rw [holds_iff (wf p), mem_slots, ← NetworkView.registers, ← NetworkView.isConnected_iff wf]
  simp only [NetworkView.unfailed_iff wf, List.mem_map, List.mem_filter, Bool.and_eq_true,
    Bool.or_eq_true, Bool.not_eq_true', List.isEmpty_iff, List.all_eq_true, decide_eq_true_eq]
  constructor
  · rintro ⟨m, ⟨hm, idle, may⟩, rfl⟩
    refine ⟨⟨m, hm, rfl⟩, ?_, fun up => ?_⟩
    · rintro ⟨n, hn, same, stands⟩
      exact stands ((wf p).eq_of_address hn hm same ▸ idle)
    · obtain ⟨leads, first⟩ := may.resolve_left (by simp [up])
      refine ⟨leads, ?_⟩
      rintro b ⟨n, hn, rfl, calm⟩
      exact (first n hn).resolve_left (by simp [calm])
  · rintro ⟨⟨m, hm, rfl⟩, idle, may⟩
    refine ⟨m, ⟨hm, ?_, ?_⟩, rfl⟩
    · by_contra stands
      exact idle ⟨m, hm, rfl, stands⟩
    · cases up : s.view.isConnected p with
      | false => exact .inl rfl
      | true =>
        obtain ⟨leads, first⟩ := may up
        refine .inr ⟨leads, fun n hn => ?_⟩
        cases calm : n.lastErr with
        | none => exact .inr (first n.address ⟨n, hn, rfl, calm⟩)
        | some _ => exact .inl rfl

/-- The vector of a peer is sorted as of some instant, if the peer is connected. Of a peer without a
connection any known address may be dialed, so there the order does not matter. -/
def SavedNetwork.Ordered (s : SavedNetwork) (p : PeerId) : Prop :=
  s.view.isConnected p = true → ∃ now, SortedAt now (s.view.addressesOf p)

/-- Every reconcile among these moments reads a vector that is sorted, if its peer is connected. -/
def AllOrdered (l : List Moment) : Prop := ∀ p t, .read p t ∈ l → t.Ordered p

/-- What is required of every read is required of some. -/
theorem AllOrdered.subset (ordered : AllOrdered l) (sub : l' ⊆ l) : AllOrdered l' :=
  fun p t read => ordered p t (sub read)

/-- **What a reconcile dials is one of them**: the first of a sorted vector is ranked behind no
address without a failure. -/
theorem candidate_of_target (wf : s.view.WellFormed) (ordered : s.Ordered p)
    (dials : s.dialTarget p = some a) : s.Candidate p a := by
  obtain ⟨known, rfl, down, leads⟩ := dialTarget_eq_some.mp dials
  refine ⟨mem_slots.mpr (bestAddr_mem known), fun holds => ?_, fun occupied => ?_⟩
  · rw [← NetworkView.isConnectedOver_iff wf, down] at holds
    cases holds
  have up : s.view.isConnected p = true := (NetworkView.isConnected_iff wf).mpr occupied
  obtain ⟨now, sorted⟩ := ordered up
  refine ⟨leads up, fun b unfailed => ?_⟩
  obtain ⟨n, hn, rfl, calm⟩ := (NetworkView.unfailed_iff wf).mp unfailed
  unfold bestAddr
  cases vector : s.view.addressesOf p with
  | nil => exact absurd vector known
  | cons best rest =>
    have here : best ∈ s.view.addressesOf p := vector ▸ List.mem_cons_self
    -- Without a failure there is no cooldown, so the fixed part of the key decides.
    have awake : n.isInCooldown now = false := by rw [AddressMetadata.isInCooldown, calm]
    have le : best.sortKey now ≤ n.sortKey now := by
      rw [vector] at hn sorted
      rcases List.mem_cons.mp hn with rfl | later
      · exact le_refl _
      · exact (List.pairwise_cons.mp sorted).1 n later
    rw [sortKey_rank (wf p) here, sortKey_rank (wf p) hn, awake, Prod.Lex.toLex_le_toLex] at le
    rcases le with below | same
    · exact absurd below (by simp)
    · exact same.2

end Saved
