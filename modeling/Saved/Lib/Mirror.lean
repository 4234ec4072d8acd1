import Mathlib.Data.Set.Insert

/-!
# A copy that is told of changes

A set changes, and a copy of it hears of changes only through notices: that an entry came, or that
it went. The copy may have missed some entries for good, having come into being after them. It is a
mirror when of the entries that are still there it has those that it had before, and all the new
ones (`Mirrors`): then it has nothing that is not there.

Mirrored changes compose when no entry goes in the first and comes back in the second
(`Mirrors.trans`), as in a run of additions or a run of removals.
-/

namespace Saved.Lib

variable {ε : Type} [DecidableEq ε]

/-- What a copy is told. -/
inductive Notice (ε : Type) where
  | came (entry : ε)
  | went (entry : ε)
  deriving DecidableEq

/-- The copy, when it has been told. -/
def Notice.tell (copy : List ε) : Notice ε → List ε
  | came entry => entry :: copy
  | went entry => copy.filter (· ≠ entry)

/-- The copy, when it has been told all of a list. -/
def told (copy : List ε) (notices : List (Notice ε)) : List ε := notices.foldl Notice.tell copy

/-- What is told later changes the copy that was made before. -/
theorem told_append (copy : List ε) (first rest : List (Notice ε)) :
    told copy (first ++ rest) = told (told copy first) rest := List.foldl_append

/-- **The notices of a change, to any copy that had nothing else**: it has the entries that it had
and those that are new, as far as they are there. -/
def Mirrors (before after : Set ε) (notices : List (Notice ε)) : Prop :=
  ∀ copy : List ε, (∀ e ∈ copy, e ∈ before) →
    ∀ e, e ∈ told copy notices ↔ e ∈ after ∧ (e ∈ copy ∨ e ∉ before)

namespace Mirrors

variable {a b c : Set ε} {n m : List (Notice ε)} {entry : ε}

/-- A copy has nothing that is not there. -/
theorem within (mirrors : Mirrors a b n) {copy : List ε} (sub : ∀ e ∈ copy, e ∈ a) :
    ∀ e ∈ told copy n, e ∈ b := fun e here => ((mirrors copy sub e).mp here).1

/-- A set that does not change needs no notice. -/
theorem refl (a : Set ε) : Mirrors a a [] := by
  intro copy sub e
  constructor
  · exact fun here => ⟨sub e here, .inl here⟩
  · rintro ⟨there, here | apart⟩
    · exact here
    · exact absurd there apart

/-- **Composition.** -/
theorem trans (first : Mirrors a b n) (second : Mirrors b c m) (stays : ∀ e ∈ a, e ∈ c → e ∈ b) :
    Mirrors a c (n ++ m) := by
  intro copy sub e
  rw [told_append, second _ (first.within sub), first copy sub]
  constructor
  · rintro ⟨last, ⟨_, held⟩ | new⟩
    · exact ⟨last, held⟩
    · exact ⟨last, .inr fun old => new (stays e old last)⟩
  · rintro ⟨last, held | new⟩
    · exact ⟨last, .inl ⟨stays e (sub e held) last, .inl held⟩⟩
    · refine ⟨last, ?_⟩
      by_cases mid : e ∈ b
      · exact .inl ⟨mid, .inr new⟩
      · exact .inr mid

/-- An entry that was not there comes. -/
theorem came (new : entry ∉ a) : Mirrors a (insert entry a) [.came entry] := by
  intro copy sub e
  show e ∈ entry :: copy ↔ _
  rw [List.mem_cons, Set.mem_insert_iff]
  constructor
  · rintro (rfl | held)
    · exact ⟨.inl rfl, .inr new⟩
    · exact ⟨.inr (sub e held), .inl held⟩
  · rintro ⟨rfl | old, held | apart⟩
    · exact .inl rfl
    · exact .inl rfl
    · exact .inr held
    · exact absurd old apart

/-- An entry goes, if it was there. -/
theorem went : Mirrors a (a \ {entry}) [.went entry] := by
  intro copy sub e
  show e ∈ copy.filter (· ≠ entry) ↔ _
  rw [List.mem_filter, decide_eq_true_eq]
  constructor
  · exact fun held => ⟨⟨sub e held.1, held.2⟩, .inl held.1⟩
  · rintro ⟨⟨old, other⟩, held | apart⟩
    · exact ⟨held, other⟩
    · exact absurd old apart

end Mirrors

end Saved.Lib
