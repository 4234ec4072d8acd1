import Mathlib.Data.List.AList

/-!
# Hash maps and hash sets

A `HashMap` is Mathlib's association list with distinct keys: the list is one iteration order of
the map, and nothing below depends on which. `entryOrDefault` is `entry(k).or_default()` followed
by a change through the borrow, and `modify` is `get_mut(k)` followed by one.

A `HashSet` is a list with no duplicates, again in one iteration order. Its length is the number
of its members, and the constructor makes a set with a repeated member impossible.
-/

namespace Saved.Lib

variable {κ ν α β : Type}

/-- A map with distinct keys. -/
abbrev HashMap (κ ν : Type) := AList fun _ : κ => ν

namespace HashMap

/-- The values, in the iteration order. -/
def values (m : HashMap κ ν) : List ν := m.entries.map Sigma.snd

variable [DecidableEq κ]

/-- `get`. -/
def get (m : HashMap κ ν) (k : κ) : Option ν := m.lookup k

/-- `remove`. -/
def remove (m : HashMap κ ν) (k : κ) : HashMap κ ν := m.erase k

/-- `entry(k).or_default()`, then a change of the value. -/
def entryOrDefault (m : HashMap κ ν) (k : κ) (default : ν) (f : ν → ν) : HashMap κ ν :=
  m.insert k (f ((m.get k).getD default))

/-- `get_mut(k)`, then a change of the value. -/
def modify (m : HashMap κ ν) (k : κ) (f : ν → ν) : HashMap κ ν :=
  match m.get k with
  | none => m
  | some v => m.insert k (f v)

/-- The values are those that some key finds. -/
theorem mem_values {m : HashMap κ ν} {v : ν} : v ∈ m.values ↔ ∃ k, m.get k = some v := by
  simp only [values, List.mem_map, Sigma.exists, exists_eq_right, get, ← Option.mem_def,
    AList.mem_lookup_iff]

/-- `entry(k).or_default()` changes the value at the key, or a default one that it puts there
first. -/
@[simp] theorem get_entryOrDefault_self (m : HashMap κ ν) (k : κ) (default : ν) (f : ν → ν) :
    (m.entryOrDefault k default f).get k = some (f ((m.get k).getD default)) :=
  AList.lookup_insert m

/-- The other keys find what they found. -/
theorem get_entryOrDefault_ne (m : HashMap κ ν) {k k' : κ} (h : k' ≠ k) (default : ν)
    (f : ν → ν) : (m.entryOrDefault k default f).get k' = m.get k' :=
  AList.lookup_insert_ne h

/-- `get_mut(k)` changes the value at the key, and does nothing where there is none. -/
@[simp] theorem get_modify_self (m : HashMap κ ν) (k : κ) (f : ν → ν) :
    (m.modify k f).get k = (m.get k).map f := by
  unfold modify
  cases h : m.get k with
  | none => exact h
  | some v => exact AList.lookup_insert m

/-- The other keys find what they found. -/
theorem get_modify_ne (m : HashMap κ ν) {k k' : κ} (h : k' ≠ k) (f : ν → ν) :
    (m.modify k f).get k' = m.get k' := by
  unfold modify
  cases m.get k with
  | none => rfl
  | some v => exact AList.lookup_insert_ne h

/-- A key that is removed finds nothing. -/
@[simp] theorem get_remove_self (m : HashMap κ ν) (k : κ) : (m.remove k).get k = none :=
  AList.lookup_erase k m

/-- The other keys find what they found. -/
theorem get_remove_ne (m : HashMap κ ν) {k k' : κ} (h : k' ≠ k) :
    (m.remove k).get k' = m.get k' :=
  AList.lookup_erase_ne h

end HashMap

/-- A set, with its members in an iteration order. -/
structure HashSet (α : Type) where
  toList : List α
  nodup : toList.Nodup

namespace HashSet

instance : Membership α (HashSet α) := ⟨fun s a => a ∈ s.toList⟩

/-- The set with no member. -/
def empty : HashSet α := ⟨[], List.nodup_nil⟩

/-- A new set has no member. -/
@[simp] theorem not_mem_empty (a : α) : ¬ a ∈ (empty : HashSet α) := List.not_mem_nil

/-- The number of members. -/
def len (s : HashSet α) : Nat := s.toList.length

/-- A set whose members all stand in a list is no longer than the list. -/
theorem len_le_length {s : HashSet α} {l : List α} (h : ∀ a ∈ s, a ∈ l) : s.len ≤ l.length :=
  (List.subperm_of_subset s.nodup fun a ha => h a ha).length_le

/-- Sets with the same members have the same size. -/
theorem len_congr {s t : HashSet α} (same : ∀ a, a ∈ s ↔ a ∈ t) : s.len = t.len :=
  Nat.le_antisymm (len_le_length fun a => (same a).mp) (len_le_length fun a => (same a).mpr)

variable [DecidableEq α]

instance (a : α) (s : HashSet α) : Decidable (a ∈ s) := inferInstanceAs (Decidable (a ∈ s.toList))

/-- `insert`. -/
def insert (s : HashSet α) (a : α) : HashSet α := ⟨s.toList.insert a, s.nodup.insert⟩

/-- The members after an insertion; that one was there already changes nothing. -/
@[simp] theorem mem_insert {s : HashSet α} {a b : α} : b ∈ s.insert a ↔ b = a ∨ b ∈ s :=
  List.mem_insert_iff

/-- `remove`. -/
def remove (s : HashSet α) (a : α) : HashSet α := ⟨s.toList.erase a, s.nodup.erase a⟩

/-- The members after a removal; that it was none changes nothing. -/
@[simp] theorem mem_remove {s : HashSet α} {a b : α} : b ∈ s.remove a ↔ b ≠ a ∧ b ∈ s :=
  s.nodup.mem_erase_iff

/-- A set filled by inserting the members of a list in turn. -/
def ofList (l : List α) : HashSet α := l.foldl insert empty

private theorem mem_foldl_insert {a : α} : ∀ (l : List α) (s : HashSet α),
    a ∈ l.foldl insert s ↔ a ∈ l ∨ a ∈ s
  | [], s => by simp
  | x :: xs, s => by
    rw [List.foldl_cons, mem_foldl_insert xs, mem_insert, List.mem_cons]
    tauto

/-- The members of a set collected from a list, whichever of them came twice. -/
@[simp] theorem mem_ofList {l : List α} {a : α} : a ∈ ofList l ↔ a ∈ l := by
  simp [ofList, mem_foldl_insert]

end HashSet

end Saved.Lib
