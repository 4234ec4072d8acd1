import Saved.Laws.TurnTraces

/-!
# The best address is current whenever it is read

A vector is sorted as of its last resort, and a cooldown ends without one. What keeps the best
address current is that a reconcile is never called but right after an operation on the very peer:
each of the four operations of the handlers resorts, and so does the failure that is marked before
the recursive call. `Happens.read` carries this through every turn; `best_address_current` is what
it means for the address that is dialed.
-/

namespace Saved

open Saved.Lib SavedNetwork

variable {now : Instant}

/-- The rank of an address among those that are not in cooldown: scope, then transport. -/
def AddressMetadata.rank (m : AddressMetadata) : Nat ×ₗ Nat :=
  toLex (m.scope.rank, m.transport.rank)

/-- **What the order says of the first**: in cooldown only when all are, and ranked no worse than
any that is not. -/
theorem SortedAt.head_le {best n : AddressMetadata} {rest : List AddressMetadata}
    (sorted : SortedAt now (best :: rest)) (mem : n ∈ best :: rest)
    (awake : n.isInCooldown now = false) : best.isInCooldown now = false ∧ best.rank ≤ n.rank := by
  have le : best.sortKey now ≤ n.sortKey now := by
    rcases List.mem_cons.mp mem with rfl | later
    · exact le_refl _
    · exact (List.pairwise_cons.mp sorted).1 n later
  rw [AddressMetadata.sortKey, AddressMetadata.sortKey, awake, Prod.Lex.toLex_le_toLex] at le
  rcases le with below | ⟨same, tail⟩
  · exact absurd below (by simp)
  · refine ⟨same, ?_⟩
    rw [Prod.Lex.toLex_le_toLex] at tail
    rcases tail with scope | ⟨scope, tail⟩
    · exact Prod.Lex.toLex_le_toLex.mpr (.inl scope)
    · rw [Prod.Lex.toLex_le_toLex] at tail
      refine Prod.Lex.toLex_le_toLex.mpr (.inr ⟨scope, ?_⟩)
      rcases tail with transport | ⟨transport, _⟩
      · exact Nat.le_of_lt transport
      · exact transport.le

/-- **The best address is current whenever it is read.** In every run, whenever a reconcile reads
the best address of a peer and the clock has stood still in this turn, the vector is sorted at the
clock; an address that is dialed is in cooldown only when every address of the peer is, and it is
ranked no worse than any that is not. -/
theorem best_address_current (env : Env) (me : PeerId) (max : Nat) {h : List Input}
    {s t : SavedNetwork} {i : Input} {p : PeerId} {now : Instant}
    (run : Run (SavedNetwork.step env) (fun _ _ _ => True) (.start me max) h s)
    (read : .read p t ∈ s.moments env i)
    (still : ∀ n k, s.clockReads ≤ n → n < t.clockReads → env.clock n k = now) :
    SortedAt now (t.view.addressesOf p) ∧
      ∀ a, t.dialTarget p = some a → ∀ m ∈ t.view.addressesOf p, m.address = a →
        ∀ n ∈ t.view.addressesOf p, n.isInCooldown now = false →
          m.isInCooldown now = false ∧ m.rank ≤ n.rank := by
  obtain ⟨before, _, reached, n, recent, last, resorted⟩ := read_of_turn read
  -- The reading that the vector was sorted at lies in the turn, and the clock stood still in it.
  have stands : ∀ k, env.clock n k = now := fun k =>
    still n k recent (last ▸ Nat.lt_succ_self n)
  have sorted : SortedAt now (t.view.addressesOf p) := by
    rw [← stands 0]
    exact resorted.sorted (Readings.Still.steady fun k => (stands k).trans (stands 0).symm)
  refine ⟨sorted, fun a target m hm isA n hn awake => ?_⟩
  have wf : t.view.WellFormed := wellFormed_trace reached (wellFormed_run run)
  obtain ⟨known, best, _⟩ := dialTarget_eq_some.mp target
  unfold bestAddr at best
  cases vector : t.view.addressesOf p with
  | nil => exact absurd vector known
  | cons first rest =>
    rw [vector] at best sorted hn
    have here : m = first :=
      (wf p).eq_of_address hm (vector ▸ List.mem_cons_self) (isA.trans best.symm)
    exact here ▸ sorted.head_le hn awake

/-- A world where the first dial of a run fails. -/
def Env.firstDialFails : Env := { Env.calm with dialOk := fun n => decide (n ≠ 1), depth := 2 }

/-- The dial of a first address fails, and the next read dials the second address found. -/
theorem best_address_current_found : ∃ t, .read ⟨[1]⟩ t ∈
      (SavedNetwork.start ⟨[0]⟩ 4).moments .firstDialFails
        (.event (.mdnsDiscovered [(⟨[1]⟩, lanAddr 1), (⟨[1]⟩, lanAddr 2)])) ∧
    t.dialTarget ⟨[1]⟩ = some (lanAddr 2) ∧ SortedAt 0 (t.view.addressesOf ⟨[1]⟩) := by
  have seen : ((SavedNetwork.start ⟨[0]⟩ 4).moments .firstDialFails
      (.event (.mdnsDiscovered [(⟨[1]⟩, lanAddr 1), (⟨[1]⟩, lanAddr 2)]))).any (fun m =>
        match m with
        | .read p t => decide (p = ⟨[1]⟩) && decide (t.dialTarget p = some (lanAddr 2))
        | _ => false) = true := by decide
  obtain ⟨m, read, dials⟩ := List.any_eq_true.mp seen
  cases m with
  | read p t =>
    obtain ⟨peer, target⟩ := Bool.and_eq_true_iff.mp dials
    obtain rfl := of_decide_eq_true peer
    have current := best_address_current .firstDialFails ⟨[0]⟩ 4 .start read fun _ _ _ _ => rfl
    exact ⟨t, read, of_decide_eq_true target, current.1⟩
  | op | request | settled => cases dials

end Saved
