import Mathlib.Algebra.Ring.Nat
import Mathlib.Data.List.Basic
import Mathlib.Data.List.Lex
import Mathlib.Order.Fin.Basic

/-!
# Self-delimiting codes

A binary format writes a list of values one after the other, with no separator. Reading it back is
possible when each value's code says where it ends: no code of a value is a prefix of what another
value followed by anything writes. `SelfDelimiting` states that as one cancellation law, and the
lemmas here say how such codes compose: a tag before a body (`SelfDelimiting.tagged`), a body of a
size the tag fixes (`fixed`), a body behind its own length (`frame`), and a list of values
(`SelfDelimiting.flatMap_injective`). The number code is the unsigned varint: seven bits a byte,
low bits first, the top bit set on each byte but the last.

The consumers are formats whose order is the order of their bytes: the byte order is a total order
of the values exactly because the code is injective.
-/

namespace Saved.Lib

/-- A byte, with its order. -/
abbrev Byte := Fin 256

instance Byte.neZero : NeZero 256 := ⟨by decide⟩

variable {α β γ : Type}

/-- **A self-delimiting code**: what follows the code of a value can be told from the code. -/
def SelfDelimiting (enc : α → List β) : Prop :=
  ∀ {a b : α} {r s : List β}, enc a ++ r = enc b ++ s → a = b ∧ r = s

/-- A list of values, coded one after the other, determines the values. The codes are not empty,
so a shorter list does not write what a longer one does. -/
theorem SelfDelimiting.flatMap_injective {enc : α → List β} (code : SelfDelimiting enc)
    (nonempty : ∀ a, enc a ≠ []) : Function.Injective fun l : List α => l.flatMap enc := by
  intro l
  induction l with
  | nil =>
    intro m h
    cases m with
    | nil => rfl
    | cons b bs =>
      simp only [List.flatMap_nil, List.flatMap_cons, List.nil_eq, List.append_eq_nil_iff] at h
      exact absurd h.1 (nonempty b)
  | cons a as ih =>
    intro m h
    cases m with
    | nil =>
      simp only [List.flatMap_nil, List.flatMap_cons, List.append_eq_nil_iff] at h
      exact absurd h.1 (nonempty a)
    | cons b bs =>
      simp only [List.flatMap_cons] at h
      obtain ⟨rfl, rest⟩ := code h
      rw [ih rest]

/-- A tag before a body that is self-delimiting at each tag. -/
theorem SelfDelimiting.tagged {tag : α → γ} {encTag : γ → List β} {body : α → List β}
    (code : SelfDelimiting encTag)
    (bodies : ∀ {a b : α} {r s : List β}, tag a = tag b → body a ++ r = body b ++ s →
      a = b ∧ r = s) :
    SelfDelimiting fun a => encTag (tag a) ++ body a := by
  intro a b r s h
  simp only [List.append_assoc] at h
  obtain ⟨sameTag, rest⟩ := code h
  exact bodies sameTag rest

/-! ## The number code -/

/-- The bytes of `n` with `more` bytes allowed before the last. -/
def varintGo : Nat → Nat → List Byte
  | 0, n => [Fin.ofNat 256 n]
  | more + 1, n =>
    if n < 128 then [Fin.ofNat 256 n]
    else Fin.ofNat 256 (n % 128 + 128) :: varintGo more (n / 128)

/-- **The unsigned varint of `n`.** The number of bytes allowed is the number of seven-bit groups
of `n`, which `lt_groups` shows to be enough. -/
def varint (n : Nat) : List Byte := varintGo (n.log2 / 7) n

/-- A number is below the power of 128 its groups reach. -/
theorem lt_groups (n : Nat) : n < 128 ^ (n.log2 / 7 + 1) := by
  have bits : n < 2 ^ (n.log2 + 1) := Nat.lt_log2_self
  have room : n.log2 + 1 ≤ 7 * (n.log2 / 7 + 1) := by omega
  have : 2 ^ (n.log2 + 1) ≤ 2 ^ (7 * (n.log2 / 7 + 1)) := Nat.pow_le_pow_right (by omega) room
  rw [show (128 : Nat) = 2 ^ 7 from rfl, ← Nat.pow_mul]
  omega

/-- The groups of a number are never none: the last is written in every case. -/
theorem varintGo_ne_nil (more n : Nat) : varintGo more n ≠ [] := by
  cases more with
  | zero => simp [varintGo]
  | succ more => unfold varintGo; split <;> simp

/-- So a number has an encoding with at least one byte. -/
theorem varint_ne_nil (n : Nat) : varint n ≠ [] := varintGo_ne_nil _ n

/-- A number of seven bits is one byte. -/
theorem varint_of_lt {n : Nat} (small : n < 128) : varint n = [Fin.ofNat 256 n] := by
  have groups : n.log2 / 7 = 0 := by
    rcases Nat.eq_zero_or_pos n with zero | positive
    · rw [zero]
      rfl
    · have bits : n.log2 < 7 := (Nat.log2_lt (by omega)).mpr small
      omega
  rw [varint, groups, varintGo]

/-- The numbers two varints read alike, whatever room each was written with: the first byte below
128 is the last one. -/
theorem varintGo_cancel {m n : Nat} {r s : List Byte} : ∀ {f g : Nat}, m < 128 ^ (f + 1) →
    n < 128 ^ (g + 1) → varintGo f m ++ r = varintGo g n ++ s → m = n ∧ r = s := by
  intro f
  induction f generalizing m n with
  | zero =>
    intro g hm hn h
    have small : m < 128 := by simpa using hm
    cases g with
    | zero =>
      have small' : n < 128 := by simpa using hn
      simp only [varintGo, List.cons_append, List.nil_append, List.cons.injEq, Fin.ext_iff,
        Fin.ofNat] at h
      exact ⟨by omega, h.2⟩
    | succ g =>
      simp only [varintGo] at h
      split at h <;> simp only [List.cons_append, List.nil_append, List.cons.injEq, Fin.ext_iff,
        Fin.ofNat] at h
      · exact ⟨by omega, h.2⟩
      · omega
  | succ f ih =>
    intro g hm hn h
    cases g with
    | zero =>
      have small' : n < 128 := by simpa using hn
      simp only [varintGo] at h
      split at h <;> simp only [List.cons_append, List.nil_append, List.cons.injEq, Fin.ext_iff,
        Fin.ofNat] at h
      · exact ⟨by omega, h.2⟩
      · omega
    | succ g =>
      have hm' : m / 128 < 128 ^ (f + 1) := by
        rw [Nat.div_lt_iff_lt_mul (by decide), ← Nat.pow_succ]; exact hm
      have hn' : n / 128 < 128 ^ (g + 1) := by
        rw [Nat.div_lt_iff_lt_mul (by decide), ← Nat.pow_succ]; exact hn
      simp only [varintGo] at h
      -- The high bit of the first byte says whether there is more, so both sides go on or neither.
      split at h <;> split at h <;> simp only [List.cons_append, List.nil_append, List.cons.injEq,
        Fin.ext_iff, Fin.ofNat] at h
      · exact ⟨by omega, h.2⟩
      · omega
      · omega
      · obtain ⟨high, rest⟩ := ih hm' hn' h.2
        exact ⟨by omega, rest⟩

/-- **The number code is self-delimiting**: the first byte below 128 is its last. -/
theorem varint_selfDelimiting : SelfDelimiting varint :=
  fun h => varintGo_cancel (lt_groups _) (lt_groups _) h

/-! ## Bodies -/

/-- A body behind its own length. -/
def frame (body : List Byte) : List Byte := varint body.length ++ body

/-- Bodies of one length cancel. -/
theorem fixed_cancel {b c r s : List β} (same : b.length = c.length) (h : b ++ r = c ++ s) :
    b = c ∧ r = s := List.append_inj h same

/-- A framed body is self-delimiting. -/
theorem frame_selfDelimiting : SelfDelimiting frame := by
  intro b c r s h
  simp only [frame, List.append_assoc] at h
  obtain ⟨same, rest⟩ := varint_selfDelimiting h
  exact fixed_cancel same rest

end Saved.Lib
