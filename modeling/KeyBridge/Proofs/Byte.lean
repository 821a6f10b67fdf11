import Mathlib.Data.Nat.Bitwise

/-!
# Bits of a byte

Keyboards tell with the highest bit of a byte whether a key goes down or up, and with the rest of it
which key it is.

## Key results

- `toNat_and_lowBits`: the low bits as a number
- `toNat_and_not_highBit`, `and_highBit_eq_zero_iff`: the rest and the bit as numbers
- `or_highBit_and_not`, `or_highBit_and`: the bit set
-/

namespace KeyBridge

variable {b : UInt8}

/-- A mask of the `n` low bits leaves the remainder modulo `2 ^ n`. -/
theorem toNat_and_lowBits (b : UInt8) {mask : UInt8} (n : Nat) (hmask : mask.toNat = 2 ^ n - 1) :
    (b &&& mask).toNat = b.toNat % 2 ^ n := by
  rw [UInt8.toNat_and, hmask, Nat.and_two_pow_sub_one_eq_mod]

/-- Without its high bit a byte is its remainder modulo 128. -/
theorem toNat_and_not_highBit (b : UInt8) : (b &&& ~~~0x80).toNat = b.toNat % 2 ^ 7 :=
  toNat_and_lowBits b 7 rfl

/-- The high bit is clear exactly in the lower half of the bytes. -/
theorem and_highBit_eq_zero_iff : b &&& 0x80 = 0 ↔ b < 0x80 := by
  have hlt : b.toNat < 2 ^ 8 := b.toNat_lt
  rw [← UInt8.toNat_inj, UInt8.toNat_and, show (0x80 : UInt8).toNat = 2 ^ 7 from rfl,
    Nat.and_two_pow, Nat.testBit_eq_decide_div_mod_eq, UInt8.lt_iff_toNat_lt]
  by_cases hbit : b.toNat / 2 ^ 7 % 2 = 1
  · rw [decide_eq_true hbit]
    exact iff_of_false (by decide) (by simp only [UInt8.reduceToNat]; omega)
  · rw [decide_eq_false hbit]
    exact iff_of_true rfl (by simp only [UInt8.reduceToNat]; omega)

/-- To set the high bit before it is cleared makes no difference. -/
theorem or_highBit_and_not (b : UInt8) : (b ||| 0x80) &&& ~~~0x80 = b &&& ~~~0x80 := by
  apply UInt8.toBitVec_inj.mp
  simp [BitVec.and_or_distrib_right]

/-- A high bit that was set is set. -/
theorem or_highBit_and (b : UInt8) : (b ||| 0x80) &&& 0x80 = 0x80 := by
  apply UInt8.toBitVec_inj.mp
  ext i
  simp only [UInt8.toBitVec_and, UInt8.toBitVec_or, BitVec.getElem_and, BitVec.getElem_or]
  cases b.toBitVec[i] <;> simp

end KeyBridge
