import Mathlib.Logic.Function.Basic
import Saved.Lib.Vec

/-!
# Vectors with a key column

A vector whose rows carry a key is a partial map from keys to what the rows hold. `valueAt` reads
it by the first row with the key, as a lookup does, and each operation of a vector is an operation
of the map: changing the row of a key, appending a row with a new key, removing the row of a key.
Where no key stands twice, the order of the rows does not matter.
-/

namespace Saved.Lib

variable {α κ ν : Type} [DecidableEq κ] {key : α → κ} {val : α → ν} {l l' : List α} {k : κ}

/-- **The value at a key**: that of the first row with the key. -/
def valueAt (key : α → κ) (val : α → ν) (l : List α) (k : κ) : Option ν :=
  (l.find? fun x => decide (key x = k)).map val

/-- The first row decides for its key. -/
theorem valueAt_cons (x : α) (l : List α) :
    valueAt key val (x :: l) = Function.update (valueAt key val l) (key x) (some (val x)) := by
  funext k
  unfold valueAt
  by_cases h : key x = k
  · subst h
    rw [List.find?_cons_of_pos (by simp), Function.update_self]
    rfl
  · rw [List.find?_cons_of_neg (by simpa using h), Function.update_of_ne (Ne.symm h)]

/-- A key without a row has no value. -/
theorem valueAt_eq_none : valueAt key val l k = none ↔ k ∉ l.map key := by
  rw [valueAt, Option.map_eq_none_iff, List.find?_eq_none]
  simp only [decide_eq_true_eq, List.mem_map, not_exists, not_and]

/-- With no key twice, the value at a key is that of the row with the key. -/
theorem valueAt_eq_some (nodup : (l.map key).Nodup) {v : ν} :
    valueAt key val l k = some v ↔ ∃ x ∈ l, key x = k ∧ val x = v := by
  constructor
  · intro h
    obtain ⟨x, found, rfl⟩ := Option.map_eq_some_iff.mp h
    exact ⟨x, List.mem_of_find?_eq_some found, by simpa using List.find?_some found, rfl⟩
  · rintro ⟨x, hx, rfl, rfl⟩
    cases found : l.find? fun y => decide (key y = key x) with
    | none => exact absurd (decide_eq_true rfl) (List.find?_eq_none.mp found x hx)
    | some y =>
      have same : key y = key x := by simpa using List.find?_some found
      rw [List.inj_on_of_nodup_map nodup (List.mem_of_find?_eq_some found) hx same] at found
      rw [valueAt, found]
      rfl

/-- The order of the rows does not matter. -/
theorem valueAt_perm (nodup : (l.map key).Nodup) (perm : l'.Perm l) :
    valueAt key val l' = valueAt key val l := by
  have nodup' := (perm.map key).nodup_iff.mpr nodup
  funext k
  refine Option.ext fun v => ?_
  rw [valueAt_eq_some nodup', valueAt_eq_some nodup]
  simp only [perm.mem_iff]

/-- Only the two columns matter. -/
theorem valueAt_columns
    (same : (l'.map fun x => (key x, val x)) = l.map fun x => (key x, val x)) :
    valueAt key val l' = valueAt key val l := by
  have columns : ∀ m : List α, valueAt key val m =
      fun k => ((m.map fun x => (key x, val x)).find? fun r => decide (r.1 = k)).map Prod.snd := by
    intro m
    funext k
    rw [List.find?_map, Option.map_map]
    rfl
  rw [columns, columns, same]

/-- **Changing the row of a key changes the value at the key.** -/
theorem valueAt_modifyFirst {f : α → α} {g : ν → ν} (keeps : ∀ x, key (f x) = key x)
    (acts : ∀ x, val (f x) = g (val x)) :
    valueAt key val (modifyFirst (fun x => decide (key x = k)) f l) =
      Function.update (valueAt key val l) k ((valueAt key val l k).map g) := by
  induction l with
  | nil => exact (Function.update_eq_self k _).symm
  | cons x xs ih =>
    by_cases h : key x = k
    · subst h
      rw [modifyFirst, if_pos (by simp), valueAt_cons, valueAt_cons, keeps, acts,
        Function.update_self, Function.update_idem]
      rfl
    · rw [modifyFirst, if_neg (by simpa using h), valueAt_cons, valueAt_cons, ih,
        Function.update_of_ne (Ne.symm h), Function.update_comm h]

/-- **A row with a new key is a new value.** -/
theorem valueAt_concat {x : α} (absent : key x ∉ l.map key) :
    valueAt key val (l ++ [x]) = Function.update (valueAt key val l) (key x) (some (val x)) := by
  induction l with
  | nil => exact valueAt_cons x []
  | cons y ys ih =>
    rw [List.map_cons, List.mem_cons, not_or] at absent
    rw [List.cons_append, valueAt_cons, valueAt_cons, ih absent.2, Function.update_comm absent.1]

/-- **Removing the row of a key removes the value.** -/
theorem valueAt_eraseP (nodup : (l.map key).Nodup) :
    valueAt key val (l.eraseP fun x => decide (key x = k)) =
      Function.update (valueAt key val l) k none := by
  rw [eraseP_key nodup]
  have nodup' := (List.filter_sublist (p := fun x => decide (key x ≠ k)) (l := l)).map key
    |>.nodup nodup
  funext k'
  refine Option.ext fun v => ?_
  rw [valueAt_eq_some nodup']
  by_cases h : k' = k
  · subst h
    rw [Function.update_self]
    simp only [List.mem_filter, decide_eq_true_eq, reduceCtorEq, iff_false]
    rintro ⟨x, ⟨_, apart⟩, same, _⟩
    exact apart same
  · rw [Function.update_of_ne h, valueAt_eq_some nodup]
    simp only [List.mem_filter, decide_eq_true_eq]
    constructor
    · rintro ⟨x, ⟨hx, _⟩, rest⟩
      exact ⟨x, hx, rest⟩
    · rintro ⟨x, hx, rfl, rest⟩
      exact ⟨x, ⟨hx, h⟩, rfl, rest⟩

end Saved.Lib
