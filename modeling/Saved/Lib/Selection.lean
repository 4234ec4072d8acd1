import Saved.Lib.Vec

/-!
# Repeated selection of the greatest

A program that takes the greatest of the elements that satisfy a predicate out of a vector, again
and again, takes them in a fixed order: `Precedes` of two elements, by the key, and among equal keys
the later one first. `drain` is what `n` rounds take. In a vector with no element twice it takes the
first `n` in that order (`mem_drain_iff`), so what it leaves comes after all that it took.
-/

namespace Saved.Lib

variable {α κ : Type} [DecidableEq α] [LinearOrder κ] {key : α → κ} {p : α → Bool} {l : List α}
  {a b : α} {n : Nat}

/-- **`a` is taken before `b`**: its key is greater, or as great and it stands later. -/
def Precedes (key : α → κ) (l : List α) (a b : α) : Prop :=
  key b < key a ∨ key a = key b ∧ [b, a].Sublist l

instance : Decidable (Precedes key l a b) := inferInstanceAs (Decidable (_ ∨ _))

/-- What `n` rounds take out of a vector, in order. -/
def drain (key : α → κ) (p : α → Bool) : Nat → List α → List α
  | 0, _ => []
  | n + 1, l =>
    match maxByKey key (l.filter p) with
    | none => []
    | some a => a :: drain key p n (l.erase a)

/-! ## The order -/

omit [DecidableEq α] in
/-- Two elements of a vector with no element twice stand in one order. -/
theorem not_sublist_swap (nodup : l.Nodup) (h : [a, b].Sublist l) : ¬ [b, a].Sublist l := by
  intro h'
  induction l with
  | nil => cases h
  | cons x l ih =>
    obtain ⟨absent, nodup⟩ := List.nodup_cons.mp nodup
    cases h with
    | cons _ here =>
      cases h' with
      | cons _ here' => exact ih nodup here here'
      | cons_cons _ _ => exact absent (here.subset (by simp))
    | cons_cons _ here =>
      cases h' with
      | cons _ here' => exact absent (here'.subset (by simp))
      | cons_cons _ _ => exact absent (here.subset (by simp))

omit [DecidableEq α] in
/-- Of two elements only one precedes the other: with equal keys the place in the list decides, and
no element is there twice. -/
theorem Precedes.asymm (nodup : l.Nodup) (h : Precedes key l a b) : ¬ Precedes key l b a := by
  intro h'
  rcases h with less | ⟨same, stands⟩
  · rcases h' with less' | ⟨same', _⟩
    · exact lt_asymm less less'
    · exact less.ne same'
  · rcases h' with less' | ⟨_, stands'⟩
    · exact less'.ne same
    · exact not_sublist_swap nodup stands stands'

omit [DecidableEq α] in
/-- The order among some of the elements is that among all. -/
theorem Precedes.mono {l' : List α} (within : l'.Sublist l) (h : Precedes key l' a b) :
    Precedes key l a b :=
  h.imp_right fun h => ⟨h.1, h.2.trans within⟩

omit [DecidableEq α] in
/-- **One round** takes the element that precedes every other. -/
theorem precedes_of_maxByKey (h : maxByKey key (l.filter p) = some a) (mem : b ∈ l)
    (holds : p b = true) (ne : b ≠ a) : Precedes key l a b := by
  obtain ⟨before, after, shape, small, less⟩ := maxByKey_split h
  have stays : b ∈ before ++ a :: after := shape ▸ List.mem_filter.mpr ⟨mem, holds⟩
  rcases List.mem_append.mp stays with old | new
  · rcases (small b old).lt_or_eq with lt | eq
    · exact .inl lt
    · refine .inr ⟨eq.symm, .trans ?_ (List.filter_sublist (p := p))⟩
      rw [shape]
      exact (List.singleton_sublist.mpr old).append (List.singleton_sublist.mpr List.mem_cons_self)
  · exact .inl (less b ((List.mem_cons.mp new).resolve_left ne))

/-! ## What the rounds take -/

/-- Nothing is taken when no element is left to choose from. -/
theorem drain_none (h : maxByKey key (l.filter p) = none) : drain key p n l = [] := by
  cases n with
  | zero => rfl
  | succ n => simp only [drain, h]

/-- One round takes the chosen element, and the next go on with the rest. -/
theorem drain_some (h : maxByKey key (l.filter p) = some a) :
    drain key p (n + 1) l = a :: drain key p n (l.erase a) := by
  simp only [drain, h]

/-- It takes elements that satisfy the predicate. -/
theorem of_mem_drain (h : a ∈ drain key p n l) : a ∈ l ∧ p a = true := by
  induction n generalizing l with
  | zero => cases h
  | succ n ih =>
    cases best : maxByKey key (l.filter p) with
    | none =>
      rw [drain_none best] at h
      cases h
    | some x =>
      rw [drain_some best] at h
      rcases List.mem_cons.mp h with rfl | later
      · exact List.mem_filter.mp (maxByKey_mem best)
      · exact ⟨List.mem_of_mem_erase (ih later).1, (ih later).2⟩

/-- It takes one in each round, until there is none. -/
theorem drain_length : (drain key p n l).length = min n (l.filter p).length := by
  induction n generalizing l with
  | zero => simp [drain]
  | succ n ih =>
    cases best : maxByKey key (l.filter p) with
    | none =>
      rw [drain_none best, maxByKey_eq_none.mp best]
      simp
    | some x =>
      have mem := maxByKey_mem best
      have positive := List.length_pos_of_mem mem
      have fewer : ((l.erase x).filter p).length = (l.filter p).length - 1 := by
        rw [← List.erase_filter, List.length_erase_of_mem mem]
      rw [drain_some best, List.length_cons, ih, fewer]
      omega

/-- It takes no element twice. -/
theorem drain_nodup (nodup : l.Nodup) : (drain key p n l).Nodup := by
  induction n generalizing l with
  | zero => exact List.nodup_nil
  | succ n ih =>
    cases best : maxByKey key (l.filter p) with
    | none => simp [drain_none best]
    | some x =>
      rw [drain_some best, List.nodup_cons]
      exact ⟨fun h => nodup.not_mem_erase (of_mem_drain h).1, ih (nodup.erase x)⟩

/-- **It takes them in order.** -/
theorem drain_pairwise (nodup : l.Nodup) :
    (drain key p n l).Pairwise (Precedes key l) := by
  induction n generalizing l with
  | zero => exact .nil
  | succ n ih =>
    cases best : maxByKey key (l.filter p) with
    | none => simp [drain_none best]
    | some x =>
      rw [drain_some best, List.pairwise_cons]
      refine ⟨fun b later => ?_, (ih (nodup.erase x)).imp (.mono List.erase_sublist)⟩
      obtain ⟨mem, holds⟩ := of_mem_drain later
      obtain ⟨ne, mem⟩ := (nodup.mem_erase_iff).mp mem
      exact precedes_of_maxByKey best mem holds ne

/-- **It takes nothing before what it leaves.** -/
theorem drain_precedes (nodup : l.Nodup) (taken : a ∈ drain key p n l) (mem : b ∈ l)
    (holds : p b = true) (left : b ∉ drain key p n l) : Precedes key l a b := by
  induction n generalizing l with
  | zero => cases taken
  | succ n ih =>
    cases best : maxByKey key (l.filter p) with
    | none =>
      rw [drain_none best] at taken
      cases taken
    | some x =>
      rw [drain_some best] at taken left
      rw [List.mem_cons, not_or] at left
      obtain ⟨ne, left⟩ := left
      rcases List.mem_cons.mp taken with rfl | taken
      · exact precedes_of_maxByKey best mem holds ne
      · exact (ih (nodup.erase x) taken (nodup.mem_erase_iff.mpr ⟨ne, mem⟩) left).mono
          List.erase_sublist

/-- **It takes the elements that fewer than `n` precede.** -/
theorem mem_drain_iff (nodup : l.Nodup) : a ∈ drain key p n l ↔
    a ∈ l ∧ p a = true ∧ (l.filter fun b => p b && decide (Precedes key l b a)).length < n := by
  have order : (drain key p n l).Pairwise (Precedes key l) := drain_pairwise nodup
  have length : (drain key p n l).length = min n (l.filter p).length := drain_length
  constructor
  · intro taken
    refine ⟨(of_mem_drain taken).1, (of_mem_drain taken).2, ?_⟩
    obtain ⟨before, after, shape⟩ := List.append_of_mem taken
    have first : (l.filter fun b => p b && decide (Precedes key l b a)) ⊆ before := by
      intro b mem
      simp only [List.mem_filter, Bool.and_eq_true, decide_eq_true_eq] at mem
      obtain ⟨mem, holds, precedes⟩ := mem
      by_cases here : b ∈ drain key p n l
      · rw [shape] at here order
        rcases List.mem_append.mp here with old | new
        · exact old
        · rcases List.mem_cons.mp new with rfl | later
          · exact absurd precedes (precedes.asymm nodup)
          · have after := (List.pairwise_cons.mp (List.pairwise_append.mp order).2.1).1 b later
            exact absurd precedes (after.asymm nodup)
      · exact absurd precedes ((drain_precedes nodup taken mem holds here).asymm nodup)
    have fewer := (List.subperm_of_subset (nodup.filter _) first).length_le
    rw [shape, List.length_append, List.length_cons] at length
    omega
  · intro found
    obtain ⟨mem, holds, fewer⟩ := found
    by_contra left
    -- all that was taken precedes it, and it is one more that satisfies the predicate
    have all : a :: drain key p n l ⊆ l.filter p := by
      intro b here
      rcases List.mem_cons.mp here with rfl | taken
      · exact List.mem_filter.mpr ⟨mem, holds⟩
      · exact List.mem_filter.mpr (of_mem_drain taken)
    have fresh := List.nodup_cons.mpr ⟨left, drain_nodup nodup⟩
    have room := (List.subperm_of_subset fresh all).length_le
    have before : drain key p n l ⊆ l.filter fun b => p b && decide (Precedes key l b a) := by
      intro b taken
      have precedes := drain_precedes nodup taken mem holds left
      simp [of_mem_drain taken, precedes]
    have enough := (List.subperm_of_subset (drain_nodup nodup) before).length_le
    rw [List.length_cons] at room
    omega

/-! ## Selection in two parts -/

/-- It takes the same from two vectors with the same elements to take from. -/
theorem drain_congr {l' : List α} (same : l.filter p = l'.filter p) :
    drain key p n l = drain key p n l' := by
  induction n generalizing l l' with
  | zero => rfl
  | succ n ih =>
    cases best : maxByKey key (l.filter p) with
    | none => rw [drain_none best, drain_none (same ▸ best)]
    | some x =>
      have rest : (l.erase x).filter p = (l'.erase x).filter p := by
        rw [← List.erase_filter, ← List.erase_filter, same]
      rw [drain_some best, drain_some (same ▸ best), ih rest]

/-- What it takes and what it leaves is the vector. -/
theorem drain_perm : (drain key p n l ++ l.diff (drain key p n l)).Perm l := by
  induction n generalizing l with
  | zero => exact .refl _
  | succ n ih =>
    cases best : maxByKey key (l.filter p) with
    | none =>
      rw [drain_none best]
      exact .refl _
    | some x =>
      have mem := (List.mem_filter.mp (maxByKey_mem best)).1
      rw [drain_some best, List.diff_cons, List.cons_append]
      exact (ih.cons x).trans (List.perm_cons_erase mem).symm

/-- **Some rounds and then some more** are one selection. -/
theorem drain_add {m : Nat} : drain key p m l ++ drain key p n (l.diff (drain key p m l)) =
    drain key p (m + n) l := by
  induction m generalizing l with
  | zero => rw [Nat.zero_add, drain, List.nil_append, List.diff_nil]
  | succ m ih =>
    rw [Nat.add_right_comm]
    cases best : maxByKey key (l.filter p) with
    | none => rw [drain_none best, drain_none best, List.diff_nil, drain_none best, List.append_nil]
    | some x =>
      rw [drain_some best, drain_some best, List.diff_cons, List.cons_append, ih]

/-- Nothing is left to take when there were no more than the rounds before took. -/
theorem drain_exhausted {m : Nat} (few : (l.filter p).length ≤ m) :
    drain key p n (l.diff (drain key p m l)) = [] := by
  have first : (drain key p m l).length = min m (l.filter p).length := drain_length
  have all : (drain key p (m + n) l).length = min (m + n) (l.filter p).length := drain_length
  rw [← drain_add, List.length_append] at all
  refine List.length_eq_zero_iff.mp ?_
  omega

end Saved.Lib
