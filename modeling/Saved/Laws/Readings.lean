import Saved.View

/-!
# What a resort reads

`resort` reads the clock anew in each comparison, so the vector it leaves need not be in the order
of any key. Two things hold of it all the same. It has the entries that there were
(`resortReading_perm`), and that is all that most of the program rests on. And where no cooldown of
an entry ends between two readings, the clock decides no comparison one way now and the other way
later: the vector is sorted as of every one of the readings (`Resorted.sorted`).
-/

namespace Saved

open Saved.Lib

variable {now : Readings} {l : List AddressMetadata}

/-- The vector is sorted as of an instant. -/
def SortedAt (now : Instant) (l : List AddressMetadata) : Prop :=
  l.Pairwise fun m n => m.sortKey now ≤ n.sortKey now

/-- **No cooldown of these entries ends** between two readings of a resort. -/
def Readings.Steady (now : Readings) (l : List AddressMetadata) : Prop :=
  ∀ m ∈ l, ∀ k, m.isInCooldown (now.clock k) = m.isInCooldown (now.clock 0)

/-- The clock stands still during a resort. -/
def Readings.Still (now : Readings) : Prop := ∀ k, now.clock k = now.clock 0

/-- **A vector that was just resorted**, with these readings of the clock. -/
def Resorted (now : Readings) (l : List AddressMetadata) : Prop :=
  ∃ before, l = (resortReading now.large.program now.clock before).1

/-- Readings of a clock that stands at zero. -/
def Readings.zero : Readings := .still .insertion 0

/-- Whatever the sort is told, it asks about the entries only and loses none of them: both of an
insertion sort and of the sort of long slices. -/
theorem stdSort_within {α : Type} (large : Sorter α) (l : List α) :
    (stdSort large.program l).Within l (·.Perm l) := by
  unfold stdSort
  split
  · exact insertAll_within [] l
  · exact large.within l

/-- std's sort is a sort when its routine for long vectors is one: the short ones go through the
insertion sort, which is proved to be. -/
theorem stdSort_sorts {α : Type} {large : List α → Asking α (List α)} (sorts : Sorts large) :
    Sorts (stdSort large) := by
  intro κ _ key l
  unfold stdSort
  split
  · exact insertionSort_sorts key l
  · exact sorts key l

/-- **A resort keeps the entries**, whatever the clock does meanwhile. -/
theorem resortReading_perm (large : Sorter AddressMetadata) (r : Nat → Instant)
    (l : List AddressMetadata) : (resortReading large.program r l).1.Perm l :=
  (stdSort_within large l).run (readLess r) 0

/-- In a sorted vector a smaller key stands before a greater one. -/
theorem SortedAt.lt_of_key_lt {now : Instant} {i j : Nat} {m n : AddressMetadata}
    (sorted : SortedAt now l) (first : l[i]? = some m) (second : l[j]? = some n)
    (less : m.sortKey now < n.sortKey now) : i < j := by
  obtain ⟨hi, rfl⟩ := List.getElem?_eq_some_iff.mp first
  obtain ⟨hj, rfl⟩ := List.getElem?_eq_some_iff.mp second
  by_contra behind
  rcases Nat.eq_or_lt_of_le (Nat.le_of_not_lt behind) with rfl | before
  · exact lt_irrefl _ less
  · exact absurd less (not_lt.mpr (List.pairwise_iff_getElem.mp sorted j i hj hi before))

namespace Readings

/-- Whether a clock is steady on a vector depends on the records and not on their order. -/
theorem Steady.perm {l' : List AddressMetadata} (steady : now.Steady l) (perm : l.Perm l') :
    now.Steady l' := fun m mem => steady m (perm.mem_iff.mpr mem)

/-- No cooldown ends while the clock stands still. -/
theorem Still.steady (still : now.Still) : now.Steady l := fun m _ k => by rw [still k]

end Readings

/-- **A resort that no cooldown ends in** sorts as of its first reading, and so of every other: each
comparison of two entries comes out as it would have at that reading. -/
theorem resortReading_sorted (steady : now.Steady l) :
    SortedAt (now.clock 0) (resortReading now.large.program now.clock l).1 := by
  have alike : ∀ k, ∀ x ∈ l, ∀ y ∈ l,
      keyLess (AddressMetadata.sortKey (now.clock 0)) k x y = readLess now.clock k x y := by
    intro k x hx y hy
    unfold keyLess readLess AddressMetadata.sortKey
    rw [steady x hx (2 * k), steady y hy (2 * k + 1)]
  have same := Asking.run_congr ((stdSort_within now.large l).agrees (k := 0) alike)
  unfold resortReading SortedAt
  rw [same]
  exact (stdSort_sorts now.large.sorts _ l).2

/-- The vector of a resort, when no cooldown of its entries ended in it. -/
theorem Resorted.sorted (resorted : Resorted now l) (steady : now.Steady l) :
    SortedAt (now.clock 0) l := by
  obtain ⟨before, rfl⟩ := resorted
  exact resortReading_sorted (steady.perm (resortReading_perm now.large now.clock before))

namespace PeerInfoExt

variable {info : PeerInfoExt}

/-- `resort` loses and adds no record. -/
theorem resort_perm (now : Readings) (info : PeerInfoExt) :
    (info.resort now).addresses.Perm info.addresses :=
  resortReading_perm now.large now.clock info.addresses

/-- What is in the vector after `resort` was in it before. -/
theorem mem_resort {m : AddressMetadata} :
    m ∈ (info.resort now).addresses ↔ m ∈ info.addresses := (resort_perm now info).mem_iff

/-- The vector that `resort` leaves is one that was just sorted at these readings. -/
theorem resort_resorted (now : Readings) (info : PeerInfoExt) :
    Resorted now (info.resort now).addresses := ⟨info.addresses, rfl⟩

end PeerInfoExt

end Saved
