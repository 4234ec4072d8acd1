import Saved.Lib.Sorter
import Saved.Laws.Ranking

/-!
# A resort while the clock moves

The key of `resort` reads the clock each time it is evaluated, and `sort_by_key` evaluates the key
of both operands of each comparison: `resortReading` is the sort at that grain. Where no cooldown
ends during the sort, the vector is in the order of any of its readings (`resortReading_sorted`).

When a cooldown ends between two readings, the comparisons need not be those of any one order.
`resort_consistent` says when the result is sorted as of a single instant all the same: when no
comparison of a sort at that instant comes out differently at its own readings.
-/

namespace Saved

open Saved.Lib

variable {α : Type} {large : List AddressMetadata → Asking AddressMetadata (List AddressMetadata)}
  {r : Nat → Instant} {l : List AddressMetadata} {now : Instant}

/-- The sort with the clock fixed at an instant. -/
def resortFixed (large : List AddressMetadata → Asking AddressMetadata (List AddressMetadata))
    (now : Instant) (l : List AddressMetadata) : List AddressMetadata × Nat :=
  (stdSort large l).run (keyLess (AddressMetadata.sortKey now)) 0

/-- **The result is sorted as of one instant** between the first and the last reading. -/
def Consistent (large : List AddressMetadata → Asking AddressMetadata (List AddressMetadata))
    (r : Nat → Instant) (l : List AddressMetadata) : Prop :=
  ∃ now, r 0 ≤ now ∧ now ≤ r (2 * (resortReading large r l).2 - 1) ∧
    SortedAt now (resortReading large r l).1

/-- For one instant between the first and the last reading, no comparison of the sort with the
clock fixed there comes out differently at its own two readings. -/
def Undisturbed (large : List AddressMetadata → Asking AddressMetadata (List AddressMetadata))
    (r : Nat → Instant) (l : List AddressMetadata) : Prop :=
  ∃ now, r 0 ≤ now ∧ now ≤ r (2 * (resortFixed large now l).2 - 1) ∧
    (stdSort large l).Agrees (keyLess (AddressMetadata.sortKey now)) (readLess r) 0

/-- A sorted vector with no address twice is strictly sorted. -/
theorem SortedAt.strict (sorted : SortedAt now l) (nodup : (l.map (·.address)).Nodup) :
    l.Pairwise fun m n => m.sortKey now < n.sortKey now := by
  refine (sorted.and (List.pairwise_map.mp nodup)).imp fun both => lt_of_le_of_ne both.1 ?_
  exact fun same => both.2 (congrArg (fun k => (ofLex (ofLex (ofLex k).2).2).2) same)

/-- **When a resort is consistent.** The result is sorted as of one instant between the first and
the last reading when no comparison of the sort at that instant comes out differently at its own
readings; in a short vector with no address twice, only then. -/
theorem resort_consistent (sorts : Sorts large) (r : Nat → Instant) (l : List AddressMetadata) :
    (Undisturbed large r l → Consistent large r l) ∧
      (l.length ≤ 20 → (l.map (·.address)).Nodup → Consistent large r l →
        Undisturbed large r l) := by
  constructor
  · rintro ⟨now, first, last, agrees⟩
    have same : resortReading large r l = resortFixed large now l := Asking.run_congr agrees
    refine ⟨now, first, ?_, ?_⟩
    · rwa [same]
    · rw [same]
      exact (stdSort_sorts sorts (AddressMetadata.sortKey now) l).2
  · rintro short nodup ⟨now, first, last, sorted⟩
    have isInsertion : stdSort large l = insertionSort l := if_pos short
    have perm : (resortReading large r l).1.Perm l := by
      rw [resortReading, isInsertion]
      exact insertAll_perm (readLess r) [] l 0
    have strict := sorted.strict ((perm.map _).nodup_iff.mpr nodup)
    rw [resortReading, isInsertion] at strict
    have agrees : (stdSort large l).Agrees (readLess r) (keyLess (AddressMetadata.sortKey now)) 0 :=
      isInsertion ▸ insertAll_agrees [] l 0 strict
    have same : resortFixed large now l = resortReading large r l := Asking.run_congr agrees
    exact ⟨now, first, same ▸ last, agrees.symm⟩

/-- Two addresses in cooldown. The better one stands last, and its cooldown ends first. -/
def coolingDown : List AddressMetadata :=
  [{ AddressMetadata.fresh .empty with lastErr := some 0, errCount := 2 },
    { AddressMetadata.fresh (lanAddr 1) with lastErr := some 0, errCount := 1 }]

/-- A clock that stands at an instant for its first reading, and later at another. -/
def twoReadings (first later : Instant) (k : Nat) : Instant := if k = 0 then first else later

/-- The clock of the example never goes back. -/
theorem twoReadings_monotone {first later : Instant} (le : first ≤ later) :
    Monotone (twoReadings first later) := by
  intro i j below
  unfold twoReadings
  split_ifs
  · exact le_refl first
  · exact le
  · omega
  · exact le_refl later

/-- Both cooldowns end between the readings, and the comparison comes out as it does after. -/
theorem resort_consistent_ended : Consistent insertionSort (twoReadings 3000000000 5000000000)
    coolingDown :=
  (resort_consistent insertionSort_sorts _ _).1
    ⟨5000000000, by decide, by decide, by decide, trivial⟩

/-- As of any instant the better address comes first: it is in cooldown only when the other is. -/
theorem not_sortedAt_coolingDown (now : Instant) : ¬ SortedAt now coolingDown := by
  intro sorted
  have le := (List.pairwise_cons.mp sorted).1 _ List.mem_cons_self
  have ranks : ∀ a b : Bool, (b = true → a = true) →
      toLex (b, (lanAddr 1).rankKey) < toLex (a, Multiaddr.empty.rankKey) := by decide
  refine absurd le (not_le.mpr (ranks _ _ fun cooling => ?_))
  have early : now - 0 < 2000000000 := of_decide_eq_true cooling
  exact decide_eq_true (early.trans (by decide))

/-- **A resort that no instant explains**: the better address is read before its cooldown ends, and
the other one after both cooldowns. -/
theorem resort_inconsistent : ¬ ∀ (r : Nat → Instant) (l : List AddressMetadata), Monotone r →
    Consistent insertionSort r l := by
  intro always
  obtain ⟨now, _, _, sorted⟩ :=
    always (twoReadings 0 5000000000) coolingDown (twoReadings_monotone (by decide))
  have kept : (resortReading insertionSort (twoReadings 0 5000000000) coolingDown).1 =
      coolingDown := by decide
  rw [kept] at sorted
  exact not_sortedAt_coolingDown now sorted

end Saved
