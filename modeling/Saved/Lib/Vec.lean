import Mathlib.Data.List.Sort
import Mathlib.Data.List.Perm.Basic
import Mathlib.Data.List.Induction
import Mathlib.Data.List.Nodup

/-!
# Vectors as lists

The vector operations a Rust program uses on a `Vec`, on lists, where the list is the vector's
content in order:

* `modifyFirst` is `iter_mut().find(p)` followed by an assignment through the borrow;
* `swapRemove` is `Vec::swap_remove`, and `swapRemoveItem` is `position` followed by it;
* `maxByKey` is `max_by_key`, which answers the last of several greatest elements.

Each is given up to what its callers can observe: the elements that stay, the rows a first match
touches, the element that a choice ends in.
-/

namespace Saved.Lib

variable {α β κ : Type}

/-! ## The first match -/

/-- Change the first element that satisfies `p`. -/
def modifyFirst (p : α → Bool) (f : α → α) : List α → List α
  | [] => []
  | x :: xs => if p x then f x :: xs else x :: modifyFirst p f xs

/-- A column the change keeps is the column of the whole vector. -/
theorem map_modifyFirst {p : α → Bool} {f : α → α} {g : α → β} {l : List α}
    (keeps : ∀ x ∈ l, p x = true → g (f x) = g x) : (modifyFirst p f l).map g = l.map g := by
  induction l with
  | nil => rfl
  | cons x xs ih =>
    by_cases hx : p x = true
    · rw [modifyFirst, if_pos hx, List.map_cons, List.map_cons, keeps x List.mem_cons_self hx]
    · rw [modifyFirst, if_neg hx, List.map_cons, List.map_cons,
        ih fun y hy => keeps y (List.mem_cons_of_mem _ hy)]

/-- An element of the changed vector is an element of the vector, or the change of a match. -/
theorem mem_modifyFirst {p : α → Bool} {f : α → α} {l : List α} {y : α}
    (h : y ∈ modifyFirst p f l) : y ∈ l ∨ ∃ x ∈ l, p x = true ∧ y = f x := by
  induction l with
  | nil => cases h
  | cons x xs ih =>
    by_cases hx : p x = true
    · rw [modifyFirst, if_pos hx] at h
      rcases List.mem_cons.mp h with rfl | tail
      · exact .inr ⟨x, List.mem_cons_self, hx, rfl⟩
      · exact .inl (List.mem_cons_of_mem _ tail)
    · rw [modifyFirst, if_neg hx] at h
      rcases List.mem_cons.mp h with rfl | tail
      · exact .inl List.mem_cons_self
      · rcases ih tail with old | ⟨z, hz, hp, rfl⟩
        · exact .inl (List.mem_cons_of_mem _ old)
        · exact .inr ⟨z, List.mem_cons_of_mem _ hz, hp, rfl⟩

/-- Two changes of the first match are one, when the first change keeps it a match. -/
theorem modifyFirst_modifyFirst {p : α → Bool} {f g : α → α} {l : List α}
    (keeps : ∀ x ∈ l, p x = true → p (f x) = true) :
    modifyFirst p g (modifyFirst p f l) = modifyFirst p (fun x => g (f x)) l := by
  induction l with
  | nil => rfl
  | cons x xs ih =>
    by_cases hx : p x = true
    · rw [modifyFirst, if_pos hx, modifyFirst, if_pos (keeps x List.mem_cons_self hx), modifyFirst,
        if_pos hx]
    · rw [modifyFirst, if_neg hx, modifyFirst, if_neg hx, modifyFirst, if_neg hx,
        ih fun y hy => keeps y (List.mem_cons_of_mem _ hy)]

/-- Changing the first match by one that adds `extra` to its row adds `extra` to the rows. -/
theorem flatMap_modifyFirst_add {p : α → Bool} {f : α → α} {g : α → List β} {extra : List β}
    {l : List α} (found : ∃ x ∈ l, p x = true)
    (adds : ∀ x ∈ l, p x = true → (g (f x)).Perm (extra ++ g x)) :
    ((modifyFirst p f l).flatMap g).Perm (extra ++ l.flatMap g) := by
  induction l with
  | nil => obtain ⟨x, hx, _⟩ := found; cases hx
  | cons x xs ih =>
    by_cases hx : p x = true
    · rw [modifyFirst, if_pos hx, List.flatMap_cons, List.flatMap_cons, ← List.append_assoc]
      exact (adds x List.mem_cons_self hx).append_right _
    · rw [modifyFirst, if_neg hx, List.flatMap_cons, List.flatMap_cons]
      have rest := ih
        (by
          obtain ⟨y, hy, hp⟩ := found
          rcases List.mem_cons.mp hy with rfl | hy
          · exact absurd hp hx
          · exact ⟨y, hy, hp⟩)
        fun y hy => adds y (List.mem_cons_of_mem _ hy)
      refine (rest.append_left (g x)).trans ?_
      rw [← List.append_assoc, ← List.append_assoc]
      exact List.perm_append_comm.append_right _

/-- Changing the first row that holds a `q` element by one that erases its first `q` element
erases the first `q` element of the rows. -/
theorem flatMap_modifyFirst_erase {p : α → Bool} {f : α → α} {g : α → List β} {q : β → Bool}
    {l : List α} (holds : ∀ x ∈ l, p x = (g x).any q)
    (erases : ∀ x ∈ l, p x = true → (g (f x)).Perm ((g x).eraseP q)) :
    ((modifyFirst p f l).flatMap g).Perm ((l.flatMap g).eraseP q) := by
  induction l with
  | nil => exact .nil
  | cons x xs ih =>
    have here := holds x List.mem_cons_self
    by_cases hx : p x = true
    · obtain ⟨b, hb, hq⟩ := List.any_eq_true.mp (here.symm.trans hx)
      rw [modifyFirst, if_pos hx, List.flatMap_cons, List.flatMap_cons,
        List.eraseP_append_left hq _ hb]
      exact (erases x List.mem_cons_self hx).append_right _
    · rw [modifyFirst, if_neg hx, List.flatMap_cons, List.flatMap_cons,
        List.eraseP_append_right]
      · exact (ih (fun y hy => holds y (List.mem_cons_of_mem _ hy))
          fun y hy => erases y (List.mem_cons_of_mem _ hy)).append_left _
      · intro b hb hq
        exact hx (here.trans (List.any_eq_true.mpr ⟨b, hb, hq⟩))

/-- With no key twice, removing the first element with a key removes every one. -/
theorem eraseP_key [DecidableEq β] {key : α → β} {b : β} {l : List α}
    (nodup : (l.map key).Nodup) :
    (l.eraseP fun x => decide (key x = b)) = l.filter fun x => decide (key x ≠ b) := by
  induction l with
  | nil => rfl
  | cons x l ih =>
    rw [List.map_cons, List.nodup_cons] at nodup
    by_cases h : key x = b
    · rw [List.eraseP_cons_of_pos (by simpa using h), List.filter_cons_of_neg (by simpa using h)]
      refine (List.filter_eq_self.mpr fun y hy => ?_).symm
      simp only [ne_eq, decide_eq_true_eq]
      exact fun e => nodup.1 (List.mem_map.mpr ⟨y, hy, e.trans h.symm⟩)
    · rw [List.eraseP_cons_of_neg (by simpa using h), List.filter_cons_of_pos (by simpa using h),
        ih nodup.2]

/-! ## Swap removal -/

/-- Remove the element at an index by putting the last one in its place. -/
def swapRemove (l : List α) (i : Nat) : List α :=
  match l.getLast? with
  | none => []
  | some last => (l.set i last).dropLast

/-- Up to order, a swap removal is a removal. -/
theorem swapRemove_perm {l : List α} {i : Nat} (h : i < l.length) :
    (swapRemove l i).Perm (l.eraseIdx i) := by
  rcases List.eq_nil_or_concat l with rfl | ⟨init, last, rfl⟩
  · simp at h
  · rw [List.concat_eq_append] at h ⊢
    simp only [List.length_append, List.length_cons, List.length_nil] at h
    simp only [swapRemove, List.getLast?_append, List.getLast?_singleton, Option.some_or]
    rcases Nat.lt_or_ge i init.length with hi | hi
    · rw [List.set_append_left _ _ hi, List.dropLast_concat, List.eraseIdx_append_of_lt_length hi]
      exact (List.set_perm_cons_eraseIdx hi last).trans (List.perm_append_singleton _ _).symm
    · have : i = init.length := by omega
      subst this
      rw [List.set_append_right _ _ (Nat.le_refl _),
        List.eraseIdx_append_of_length_le (Nat.le_refl _)]
      simp

variable [DecidableEq α]

/-- Swap-remove the first occurrence of an element. -/
def swapRemoveItem (a : α) (l : List α) : List α :=
  match l.idxOf? a with
  | none => l
  | some i => swapRemove l i

/-- Up to order, it erases the element. -/
theorem swapRemoveItem_perm (a : α) (l : List α) : (swapRemoveItem a l).Perm (l.erase a) := by
  rw [swapRemoveItem, List.erase_eq_eraseIdx]
  cases h : l.idxOf? a with
  | none => exact .refl _
  | some i =>
    refine swapRemove_perm ?_
    rw [List.idxOf?_eq_some_iff] at h
    exact h.1

/-! ## The greatest element by a key -/

omit [DecidableEq α]

variable [LinearOrder κ]

/-- The last of the elements with the greatest key. -/
def maxByKey (key : α → κ) : List α → Option α
  | [] => none
  | x :: xs => some (xs.foldl (fun best y => if key best ≤ key y then y else best) x)

omit [LinearOrder κ] in
private theorem foldl_pick_mem {pick : α → α → α} (picks : ∀ a b, pick a b = a ∨ pick a b = b) :
    ∀ (xs : List α) (x : α), xs.foldl pick x ∈ x :: xs
  | [], _ => List.mem_cons_self
  | y :: ys, x => by
    have rest := foldl_pick_mem picks ys (pick x y)
    rw [List.foldl_cons]
    rcases List.mem_cons.mp rest with h | h
    · rw [h]
      rcases picks x y with h' | h' <;> rw [h']
      · exact List.mem_cons_self
      · exact List.mem_cons_of_mem _ List.mem_cons_self
    · exact List.mem_cons_of_mem _ (List.mem_cons_of_mem _ h)

/-- The answer is one of the elements. -/
theorem maxByKey_mem {key : α → κ} {l : List α} {a : α} (h : maxByKey key l = some a) : a ∈ l := by
  cases l with
  | nil => cases h
  | cons x xs =>
    obtain rfl := Option.some.inj h
    exact foldl_pick_mem (fun a b => by split <;> simp) xs x

/-- **The answer is the last of the greatest**: what stands before it is at most as great, and what
stands after it is less. -/
theorem maxByKey_split {key : α → κ} {l : List α} {a : α} (h : maxByKey key l = some a) :
    ∃ before after, l = before ++ a :: after ∧ (∀ b ∈ before, key b ≤ key a) ∧
      ∀ b ∈ after, key b < key a := by
  cases l with
  | nil => cases h
  | cons x xs =>
    obtain rfl := Option.some.inj h
    clear h
    -- from the left, so that the next element is compared with the best of all before it
    induction xs using List.reverseRecOn with
    | nil => exact ⟨[], [], rfl, by simp, by simp⟩
    | append_singleton xs y ih =>
      rw [List.foldl_concat]
      obtain ⟨before, after, shape, small, less⟩ := ih
      split
      · next le =>
        refine ⟨x :: xs, [], rfl, ?_, by simp⟩
        rw [shape]
        intro b mem
        rcases List.mem_append.mp mem with old | new
        · exact (small b old).trans le
        · rcases List.mem_cons.mp new with rfl | later
          · exact le
          · exact (less b later).le.trans le
      · next gt =>
        refine ⟨before, after ++ [y], ?_, small, ?_⟩
        · rw [← List.cons_append, shape, List.append_assoc, List.cons_append]
        · intro b mem
          rcases List.mem_append.mp mem with later | last
          · exact less b later
          · exact List.mem_singleton.mp last ▸ not_le.mp gt

/-- There is an answer unless there is no element. -/
theorem maxByKey_eq_none {key : α → κ} {l : List α} : maxByKey key l = none ↔ l = [] := by
  cases l <;> simp [maxByKey]

end Saved.Lib
