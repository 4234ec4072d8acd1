import Mathlib.Data.Set.Basic
import Mathlib.Logic.Function.Basic

/-!
# Registers: a set of slots and what stands in them

A register has a set of slots, and it assigns to some keys the slot they stand in. A slot may hold
several keys; a key stands in one slot at most, and only in a slot the register has. That last
rule is a field, so a key in a slot that was erased cannot be built.

The four operations are the ones of a bookkeeper: open a slot, put a key in a slot (wherever it
stood before), take a key out, erase a slot with everything in it.
-/

namespace Saved.Lib

/-- **A register** of keys `C` in slots `A`. -/
structure Register (A C : Type) where
  slots : Set A
  slotOf : C → Option A
  slotOf_mem : ∀ {c a}, slotOf c = some a → a ∈ slots

namespace Register

variable {A C : Type} {r r' : Register A C} {a b : A} {c d : C}

/-- Registers with the same slots and the same assignment are the same. -/
theorem ext' (slots : ∀ a, a ∈ r.slots ↔ a ∈ r'.slots)
    (assigned : ∀ c a, r.slotOf c = some a ↔ r'.slotOf c = some a) : r = r' := by
  obtain ⟨s, f, _⟩ := r
  obtain ⟨s', f', _⟩ := r'
  obtain rfl : s = s' := Set.ext slots
  obtain rfl : f = f' := funext fun c => Option.ext fun a => assigned c a
  rfl

/-- No slot. -/
def empty : Register A C := ⟨∅, fun _ => none, fun h => by cases h⟩

/-- Some key stands in `a`. -/
def Holds (r : Register A C) (a : A) : Prop := ∃ c, r.slotOf c = some a

/-- Some key stands somewhere. -/
def Occupied (r : Register A C) : Prop := ∃ a, r.Holds a

/-- Open a slot. -/
def insert (r : Register A C) (a : A) : Register A C :=
  ⟨{b | b = a ∨ b ∈ r.slots}, r.slotOf, fun h => .inr (r.slotOf_mem h)⟩

/-- A new slot holds no token. -/
@[simp] theorem slotOf_insert : (r.insert a).slotOf = r.slotOf := rfl

/-- A slot that is there is not made twice. -/
theorem insert_of_mem (h : a ∈ r.slots) : r.insert a = r :=
  ext' (fun _ => ⟨fun hb => hb.elim (fun e => e ▸ h) id, .inr⟩) fun _ _ => Iff.rfl

/-- Slots may be made in any order. -/
theorem insert_comm : (r.insert a).insert b = (r.insert b).insert a :=
  ext' (fun _ => or_left_comm) fun _ _ => Iff.rfl

variable [DecidableEq C]

/-- Put a key in a slot. -/
def assign (r : Register A C) (c : C) (a : A) : Register A C where
  slots := {b | b = a ∨ b ∈ r.slots}
  slotOf := Function.update r.slotOf c (some a)
  slotOf_mem {d _} h := by
    by_cases hd : d = c
    · subst hd
      rw [Function.update_self] at h
      exact .inl (Option.some.inj h).symm
    · rw [Function.update_of_ne hd] at h
      exact .inr (r.slotOf_mem h)

/-- The token given is in its new slot and in no other, and every other stays where it was. -/
theorem slotOf_assign : (r.assign c a).slotOf d = some b ↔
    (d = c ∧ b = a) ∨ (d ≠ c ∧ r.slotOf d = some b) := by
  by_cases hd : d = c
  · subst hd
    simp [assign, eq_comm]
  · simp [assign, hd]

/-- Take a key out. -/
def release (r : Register A C) (c : C) : Register A C where
  slots := r.slots
  slotOf := Function.update r.slotOf c none
  slotOf_mem {d _} h := by
    by_cases hd : d = c
    · subst hd
      rw [Function.update_self] at h
      cases h
    · rw [Function.update_of_ne hd] at h
      exact r.slotOf_mem h

/-- A token that is taken out is in no slot, and every other stays where it was. -/
theorem slotOf_release : (r.release c).slotOf d = some b ↔ d ≠ c ∧ r.slotOf d = some b := by
  by_cases hd : d = c
  · subst hd
    simp [release]
  · simp [release, hd]

/-- A slot may be made before a token is put elsewhere, or after. -/
theorem assign_insert_comm : (r.insert b).assign c a = (r.assign c a).insert b :=
  ext' (fun _ => or_left_comm) fun _ _ => Iff.rfl

/-- Two keys can be put in either order. -/
theorem assign_comm (apart : c ≠ d) : (r.assign c a).assign d b = (r.assign d b).assign c a := by
  refine ext' (fun _ => or_left_comm) fun e x => ?_
  simp only [slotOf_assign]
  by_cases hc : e = c
  · subst hc
    simp [apart]
  · simp [hc]

/-- Putting a key where it stands changes nothing. -/
theorem assign_of_slotOf (h : r.slotOf c = some a) : r.assign c a = r :=
  ext' (fun b => ⟨fun hb => hb.elim (fun e => e ▸ r.slotOf_mem h) id, .inr⟩) fun d b => by
    rw [slotOf_assign]
    constructor
    · rintro (⟨rfl, rfl⟩ | ⟨-, hd⟩)
      · exact h
      · exact hd
    · intro hd
      by_cases e : d = c
      · subst e
        exact .inl ⟨rfl, Option.some.inj (hd.symm.trans h)⟩
      · exact .inr ⟨e, hd⟩

/-- Moving a key is taking it out and putting it in. -/
theorem assign_release : (r.release c).assign c a = r.assign c a :=
  ext' (fun _ => Iff.rfl) fun d b => by
    rw [slotOf_assign, slotOf_assign, slotOf_release]
    exact or_congr Iff.rfl ⟨fun h => ⟨h.1, h.2.2⟩, fun h => ⟨h.1, h.1, h.2⟩⟩

/-- An assignment opens the slot it needs. -/
theorem assign_insert : (r.insert a).assign c a = r.assign c a :=
  ext' (fun b => ⟨fun h => h.elim .inl id, .inr⟩) fun d b => by
    rw [slotOf_assign, slotOf_assign, slotOf_insert]

variable [DecidableEq A]

/-- Erase a slot, with every key in it. -/
def erase (r : Register A C) (a : A) : Register A C where
  slots := {b | b ≠ a ∧ b ∈ r.slots}
  slotOf c := if r.slotOf c = some a then none else r.slotOf c
  slotOf_mem {d b} h := by
    split at h
    · cases h
    · next hne => exact ⟨fun e => hne (e ▸ h), r.slotOf_mem h⟩

omit [DecidableEq C] in
/-- Erasing a slot takes out the tokens it held, and no other. -/
theorem slotOf_erase : (r.erase a).slotOf d = some b ↔ b ≠ a ∧ r.slotOf d = some b := by
  simp only [erase]
  split
  · next h => 
    simp only [reduceCtorEq, h, Option.some.injEq, false_iff]
    exact fun both => both.1 both.2.symm
  · next h =>
    constructor
    · exact fun hb => ⟨fun e => h (e ▸ hb), hb⟩
    · exact And.right

end Register

end Saved.Lib
