import KeyBridge.Chip.Program

/-!
# Dividers at the ends of their range

A divider lies between 1 and 65535 + 255/256. The divider for two rates keeps its whole part in
that range, and takes the fraction from the quotient of the rates as it is. For a quotient within
the range that is the quotient itself. Below and above it the fraction is not that of the nearest
divider: it is added to 1 or to 65535, and a smaller quotient may lead to a larger divider.

## Main definitions

- `amount`: a divider as a number of 256ths
- `quotient`: the quotient of two rates in 256ths
- `clamped`: the amount in range that is nearest to a quotient

## Key results

- `toNat_in256ths`: the register holds the amount
- `amount_ofRates_low`, `amount_ofRates_exact`, `amount_ofRates_high`: the divider for each quotient
- `saturates_iff`: when it is the nearest one, and when it goes down as the quotient goes up
-/

namespace KeyBridge.Chip.Divider

variable {system system' rate rate' : UInt32}

/-! ## Amounts -/

/-- A divider as a number of 256ths. -/
def amount (d : Divider) : Nat := 256 * d.whole.toNat + d.fraction.toNat

/-- The quotient of two rates as a number of 256ths, rounded down. -/
def quotient (system rate : UInt32) : Nat := 256 * system.toNat / rate.toNat

/-- The amount from 1 to 65535 + 255/256 that is nearest to a quotient. -/
def clamped (q : Nat) : Nat := max 256 (min 0xFFFFFF q)

/-- The register holds whole part and fraction side by side, and that is the amount. -/
theorem toNat_in256ths (d : Divider) : d.in256ths.toNat = d.amount := by
  have hwhole := d.whole.toNat_lt
  have hfraction : d.fraction.toNat < 2 ^ 8 := d.fraction.toNat_lt
  -- The whole part is short enough to be moved up by 8 bits.
  have hshift : (d.whole.toUInt32 <<< 8).toNat = d.whole.toNat <<< 8 := by
    rw [UInt32.toNat_shiftLeft, UInt16.toNat_toUInt32]
    show d.whole.toNat <<< 8 % 2 ^ 32 = d.whole.toNat <<< 8
    rw [Nat.shiftLeft_eq]
    omega
  rw [in256ths, UInt32.toNat_or, hshift, UInt8.toNat_toUInt32,
    ← Nat.shiftLeft_add_eq_or_of_lt hfraction, Nat.shiftLeft_eq, amount]
  omega

/-! ## Quotients -/

/-- A faster system clock and a slower rate make a larger quotient. -/
theorem quotient_mono (hrate : 0 < rate') (h : system ≤ system') (h' : rate' ≤ rate) :
    quotient system rate ≤ quotient system' rate' := by
  rw [UInt32.le_iff_toNat_le] at h h'
  have hpos : 0 < rate'.toNat := UInt32.lt_iff_toNat_lt.mp hrate
  calc 256 * system.toNat / rate.toNat
      ≤ 256 * system.toNat / rate'.toNat := Nat.div_le_div_left h' hpos
    _ ≤ 256 * system'.toNat / rate'.toNat := Nat.div_le_div_right (Nat.mul_le_mul_left 256 h)

/-- The whole part is kept in range, and the fraction is that of the quotient. -/
theorem amount_ofRates (hrate : 0 < rate) :
    (ofRates system rate).amount =
      256 * min 0xFFFF (max 1 (quotient system rate / 256)) + quotient system rate % 256 := by
  have hne : rate ≠ 0 := by
    rintro rfl
    exact absurd hrate (by decide)
  have hq : system.toNat * 256 / rate.toNat = quotient system rate := by
    rw [quotient, Nat.mul_comm]
  simp only [ofRates, if_neg hne, hq, amount, UInt16.toNat_ofNat', UInt8.toNat_ofNat']
  omega

/-- Below one, the whole part is one and the fraction that of the quotient. -/
theorem amount_ofRates_low (hrate : 0 < rate) (h : quotient system rate < 256) :
    (ofRates system rate).amount = 256 + quotient system rate := by
  rw [amount_ofRates hrate]
  omega

/-- Where the whole part fits, the divider is the quotient. -/
theorem amount_ofRates_exact (hrate : 0 < rate) (h : 256 ≤ quotient system rate)
    (h' : quotient system rate ≤ 0xFFFFFF) :
    (ofRates system rate).amount = quotient system rate := by
  rw [amount_ofRates hrate]
  omega

/-- Above, the whole part is the highest and the fraction that of the quotient. -/
theorem amount_ofRates_high (hrate : 0 < rate) (h : 0xFFFFFF < quotient system rate) :
    (ofRates system rate).amount = 0xFFFF00 + quotient system rate % 256 := by
  rw [amount_ofRates hrate]
  omega

/-! ## Saturation -/

/-- The divider is the nearest one to the quotient if that is in range. Below the range it is so for
quotient 0 only, and above it if the fraction happens to be the largest. -/
theorem amount_eq_clamped_iff (hrate : 0 < rate) :
    (ofRates system rate).amount = clamped (quotient system rate) ↔
      quotient system rate = 0 ∨
        (256 ≤ quotient system rate ∧ quotient system rate ≤ 0xFFFFFF) ∨
        (0xFFFFFF < quotient system rate ∧ quotient system rate % 256 = 255) := by
  rcases Nat.lt_or_ge (quotient system rate) 256 with hlow | hlow
  · rw [amount_ofRates_low hrate hlow, clamped]
    omega
  · rcases Nat.lt_or_ge 0xFFFFFF (quotient system rate) with hhigh | hhigh
    · rw [amount_ofRates_high hrate hhigh, clamped]
      omega
    · rw [amount_ofRates_exact hrate hlow hhigh, clamped]
      omega

/-- Of two quotients the larger one can have the smaller divider only if both whole parts are 1 or
both are 65535. -/
theorem amount_lt_iff (hrate : 0 < rate) (hrate' : 0 < rate')
    (hle : quotient system rate ≤ quotient system' rate') :
    (ofRates system' rate').amount < (ofRates system rate).amount ↔
      quotient system' rate' % 256 < quotient system rate % 256 ∧
        (quotient system' rate' < 512 ∨ 0xFFFF00 ≤ quotient system rate) := by
  rw [amount_ofRates hrate, amount_ofRates hrate']
  omega

/-- The divider for any two rates above 0 is the quotient brought into range exactly if the quotient
is in range, is 0, or lies above the range with the fraction 255. When the system clock becomes
faster or the rate slower, the divider goes down exactly if the fraction does and the quotient stays
below 2 or was at least 65535. -/
theorem saturates_iff (system rate : UInt32) (hrate : 0 < rate) :
    ((ofRates system rate).amount = clamped (quotient system rate) ↔
      quotient system rate = 0 ∨
        (256 ≤ quotient system rate ∧ quotient system rate ≤ 0xFFFFFF) ∨
        (0xFFFFFF < quotient system rate ∧ quotient system rate % 256 = 255)) ∧
    ∀ system' rate', 0 < rate' → system ≤ system' → rate' ≤ rate →
      ((ofRates system' rate').amount < (ofRates system rate).amount ↔
        quotient system' rate' % 256 < quotient system rate % 256 ∧
          (quotient system' rate' < 512 ∨ 0xFFFF00 ≤ quotient system rate)) :=
  ⟨amount_eq_clamped_iff hrate, fun _ _ hrate' hsystem hslower =>
    amount_lt_iff hrate hrate' (quotient_mono hrate' hsystem hslower)⟩

/-- A clock of 1.5 MHz brought down to 1 MHz, and one of 1.9 MHz. -/
theorem saturates_iff_in_range :
    (0 : UInt32) < 1000000 ∧
      (ofRates 1500000 1000000).amount = clamped (quotient 1500000 1000000) ∧
      ¬ (ofRates 1900000 1000000).amount < (ofRates 1500000 1000000).amount := by
  obtain ⟨hclamped, hmono⟩ :=
    saturates_iff 1500000 1000000 (by decide)
  refine ⟨by decide, hclamped.mpr (by decide), ?_⟩
  rw [hmono 1900000 1000000 (by decide) (by decide) (by decide)]
  decide

/-- At 0.5 MHz the divider for 1 MHz is 1.5 and not 1, so that it goes down to 1 when the clock gets
twice as fast. At the upper end, the largest quotient comes to 65535 without a fraction. -/
theorem not_clamped :
    (ofRates 500000 1000000).amount ≠ clamped (quotient 500000 1000000) ∧
      (ofRates 1000000 1000000).amount < (ofRates 500000 1000000).amount ∧
      (ofRates 0xFFFFFFFF 1).amount ≠ clamped (quotient 0xFFFFFFFF 1) := by
  decide

end KeyBridge.Chip.Divider
