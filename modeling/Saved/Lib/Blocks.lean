import Mathlib.Data.Nat.Digits.Defs
import Saved.Lib.PrefixCode

/-!
# Blocks of addresses

An address of a fixed width is a list of octets, and a block is the set of addresses that begin
with the first `len` bits of a base. `InBlock` says so by the big-endian values, and octets past the
length do not matter to it (`inBlock_append`). `land_mask` reads the test a program makes, by a mask
of the leading bits.
-/

namespace Saved.Lib

/-- The big-endian value of a list of octets. -/
def octetsValue (octets : List Byte) : Nat := Nat.ofDigits 256 (octets.reverse.map (·.val))

/-- The octets behind count for themselves, and those before by a power of 256 more. -/
theorem octetsValue_append (hi lo : List Byte) :
    octetsValue (hi ++ lo) = octetsValue lo + 256 ^ lo.length * octetsValue hi := by
  unfold octetsValue
  rw [List.reverse_append, List.map_append, Nat.ofDigits_append, List.length_map,
    List.length_reverse]

/-- Octets make a number below the power of 256 that has one octet more. -/
theorem octetsValue_lt (octets : List Byte) : octetsValue octets < 256 ^ octets.length := by
  have bound := Nat.ofDigits_lt_base_pow_length (b := 256) (l := octets.reverse.map (·.val))
    (by decide) fun d hd => by
      obtain ⟨o, _, rfl⟩ := List.mem_map.mp hd
      exact o.isLt
  rwa [List.length_map, List.length_reverse] at bound

/-- **The block of a base**: the addresses whose first `len` bits are those of the base. -/
def InBlock (base : List Byte) (len : Nat) (octets : List Byte) : Prop :=
  octetsValue octets / 2 ^ (8 * octets.length - len) =
    octetsValue base / 2 ^ (8 * octets.length - len)

instance (base : List Byte) (len : Nat) (octets : List Byte) :
    Decidable (InBlock base len octets) := inferInstanceAs (Decidable (_ = _))

/-- The octets past the length do not matter. -/
theorem inBlock_append {base hi lo baseLo : List Byte} {len : Nat} (within : len ≤ 8 * hi.length)
    (length : lo.length = baseLo.length) :
    InBlock (base ++ baseLo) len (hi ++ lo) ↔ InBlock base len hi := by
  have split : 2 ^ (8 * (hi ++ lo).length - len) = 256 ^ lo.length * 2 ^ (8 * hi.length - len) := by
    rw [List.length_append, show 256 = 2 ^ 8 from rfl, ← Nat.pow_mul, ← Nat.pow_add]
    congr 1
    omega
  have shift : ∀ low high : List Byte, low.length = lo.length →
      octetsValue (high ++ low) / 256 ^ lo.length = octetsValue high := by
    intro low high same
    rw [octetsValue_append, same, Nat.add_mul_div_left _ _ (Nat.pow_pos (by decide)),
      Nat.div_eq_of_lt (same ▸ octetsValue_lt low), Nat.zero_add]
  unfold InBlock
  rw [split, ← Nat.div_div_eq_div_mul, ← Nat.div_div_eq_div_mul, shift lo hi rfl,
    shift baseLo base length.symm]

/-- **A mask of the leading bits** keeps the value up to the bits below. -/
theorem land_mask (low high : Nat) {x : Nat} (bound : x < 2 ^ (high + low)) :
    x &&& ((2 ^ high - 1) <<< low) = (x / 2 ^ low) * 2 ^ low := by
  apply Nat.eq_of_testBit_eq
  intro i
  rw [Nat.testBit_and, Nat.testBit_shiftLeft, Nat.testBit_two_pow_sub_one, ← Nat.shiftLeft_eq,
    Nat.testBit_shiftLeft, ← Nat.shiftRight_eq_div_pow, Nat.testBit_shiftRight]
  by_cases below : i < low
  · simp [Nat.not_le.mpr below]
  · have at' : low + (i - low) = i := by omega
    rw [at']
    by_cases inside : i - low < high
    · simp [inside, Nat.le_of_not_lt below]
    · have zero : x.testBit i = false :=
        Nat.testBit_lt_two_pow (bound.trans_le (Nat.pow_le_pow_right (by decide) (by omega)))
      simp [zero]

end Saved.Lib
