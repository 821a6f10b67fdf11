import KeyBridge.Proofs.Build.Accepted

/-!
# Pins in effect

The firmware runs with the pins that its configuration gives, and with the default ones where none
is given. In a configuration without problems all of these pins exist, and the clock pin is the one
above the data pin.

The LED is compared with them as part of the interface only. Where no interface is given, its pins
are the default ones all the same, and the LED may be on one of them.

## Main definitions

- `pinInEffect?`: the pin that the firmware uses for a key

## Key results

- `pinsInEffect_of_problems`: what is known of the pins of a configuration without problems
- `led_on_data`: the LED on the default data pin is no problem
-/

namespace KeyBridge.Build

open Config (Key pinNamed?)
open Toml (Value)

variable {config : Value} {key : Key} {default : Pin}

/-- The pin that the firmware uses for a key: the one with the name that is given, as the reader of
configurations takes it, or the default one if nothing is given. -/
def pinInEffect? (config : Value) (key : Key) : Option Pin :=
  match valueAt config key with
  | some x => x.string?.bind (pinNamed? false false)
  | none => ({} : Config).pin? key

/-- What is accepted for a pin is the name of one. -/
theorem accepted_pin (hkey : key.isPin = true) {x : Value} (h : Accepted key x) : IsPinName x := by
  cases key <;> first | exact h | contradiction

/-- What is given for a pin is the name of one. -/
theorem pinInEffect?_of_given (h : problems config = []) (hkey : key.isPin = true) {x : Value}
    (hx : valueAt config key = some x) :
    ∃ pin, pinInEffect? config key = some pin ∧ pinAt? config key = some pin.number := by
  obtain ⟨name, n, rfl, hn⟩ := accepted_pin hkey (accepted_of_problems h hx)
  -- The check and the reader find the same pin under the name.
  have hname := (pinNamed?_number false false name).trans hn
  obtain ⟨pin, hpin, rfl⟩ := Option.map_eq_some_iff.mp hname
  refine ⟨pin, ?_, ?_⟩
  · rw [pinInEffect?, hx]
    exact hpin
  · rw [pinAt?, hx]
    exact hn

/-- A pin that has a default is always in effect. -/
theorem pinInEffect?_of_default (h : problems config = []) (hkey : key.isPin = true)
    (hdefault : ({} : Config).pin? key = some default) :
    ∃ pin, pinInEffect? config key = some pin ∧
      pin.number = (pinAt? config key).getD default.number := by
  cases hx : valueAt config key with
  | some x =>
    -- A pin that is given is in effect.
    obtain ⟨pin, hpin, hat⟩ := pinInEffect?_of_given h hkey hx
    exact ⟨pin, hpin, by rw [hat]; rfl⟩
  | none =>
    -- Otherwise the default is.
    refine ⟨default, ?_, ?_⟩
    · rw [pinInEffect?, hx]
      exact hdefault
    · rw [pinAt?, hx]
      rfl

/-- A pin that is given, or else a default within the chip, is within the chip. -/
theorem getD_pinAt?_le {n : UInt8} (h : n ≤ maxPin) : (pinAt? config key).getD n ≤ maxPin := by
  cases hat : pinAt? config key with
  | none => exact h
  | some m => exact pinAt?_le hat

/-- The pins of a configuration without problems exist, and the clock pin is the one above the data
pin. The LED is on neither of them, if there is an interface; if there is none, it may be on the
default ones. -/
theorem pinsInEffect_of_problems (h : problems config = []) :
    ∃ data clock, pinInEffect? config .dataPin = some data ∧
      pinInEffect? config .clockPin = some clock ∧
      data.number ≤ maxPin ∧ clock.number ≤ maxPin ∧
      clock.number.toNat = data.number.toNat + 1 ∧
      ((valueAt config .ledPin).isSome = true → ∃ led, pinInEffect? config .ledPin = some led ∧
        led.number ≤ maxPin ∧
        (led.number ≠ data.number ∧ led.number ≠ clock.number ↔
          (config.get? "interface".toList).isSome = true ∨ led.number ≠ 2 ∧ led.number ≠ 3)) := by
  obtain ⟨data, hdata, hdataNumber⟩ :=
    pinInEffect?_of_default h (rfl : Key.dataPin.isPin = true) rfl
  obtain ⟨clock, hclock, hclockNumber⟩ :=
    pinInEffect?_of_default h (rfl : Key.clockPin.isPin = true) rfl
  have hdataMax : data.number ≤ maxPin := hdataNumber ▸ getD_pinAt?_le (by decide)
  have hclockMax : clock.number ≤ maxPin := hclockNumber ▸ getD_pinAt?_le (by decide)
  -- No pin is so high that the pin above it would not fit into a byte.
  have horder : clock.number.toNat = data.number.toNat + 1 := by
    have hbyte : clock.number = data.number + 1 := by
      rw [hclockNumber, hdataNumber]
      exact order_of_problems h
    have hmax : data.number.toNat ≤ 29 := UInt8.le_iff_toNat_le.mp hdataMax
    have hone : (1 : UInt8).toNat = 1 := rfl
    rw [hbyte, UInt8.toNat_add]
    omega
  refine ⟨data, clock, hdata, hclock, hdataMax, hclockMax, horder, fun hgiven => ?_⟩
  -- A LED that is given is in effect, whether or not it was compared with the other pins.
  obtain ⟨x, hx⟩ := Option.isSome_iff_exists.mp hgiven
  obtain ⟨led, hled, hat⟩ := pinInEffect?_of_given h (rfl : Key.ledPin.isPin = true) hx
  refine ⟨led, hled, pinAt?_le hat, ?_⟩
  rw [hdataNumber, hclockNumber]
  cases hi : config.get? "interface".toList with
  | some v =>
    -- With an `[interface]` the check has compared it.
    have hfree := led_of_problems h hi hat
    exact iff_of_true hfree (.inl rfl)
  | none =>
    -- Without one the data and clock pins are 2 and 3, and nothing was compared.
    rw [pinAt?_of_no_interface hi rfl, pinAt?_of_no_interface hi rfl]
    exact (or_iff_right nofun).symm

/-- An interface with its clock pin left out, and a LED. -/
def halfWired : Value :=
  .table .header
    [("interface".toList, .table .header
      [("protocol".toList, .string "xt".toList), ("data_pin".toList, .string "!gpio2".toList)]),
      ("status".toList, .table .header [("led_pin".toList, .string "^gpio25".toList)])]

/-- Only the data pin is given, and a LED: all pins are in effect, in order and different. -/
theorem pinsInEffect_of_halfWired :
    problems halfWired = [] ∧
      ∃ data clock led, pinInEffect? halfWired .dataPin = some data ∧
        pinInEffect? halfWired .clockPin = some clock ∧
        pinInEffect? halfWired .ledPin = some led ∧
        data.number ≤ maxPin ∧ clock.number ≤ maxPin ∧ led.number ≤ maxPin ∧
        clock.number.toNat = data.number.toNat + 1 ∧
        led.number ≠ data.number ∧ led.number ≠ clock.number := by
  have h : problems halfWired = [] := by decide +kernel
  obtain ⟨data, clock, hdata, hclock, hdataMax, hclockMax, horder, hgiven⟩ :=
    pinsInEffect_of_problems h
  obtain ⟨led, hled, hledMax, hfree⟩ := hgiven rfl
  exact ⟨h, data, clock, led, hdata, hclock, hled, hdataMax, hclockMax, hledMax, horder,
    hfree.mpr (.inl rfl)⟩

/-- A LED on the default data pin, and no interface. -/
def ledOnly : Value :=
  .table .header
    [("status".toList, .table .header [("led_pin".toList, .string "gpio2".toList)])]

/-- Without an interface, the LED can be on the data pin. -/
theorem led_on_data :
    problems ledOnly = [] ∧
      ∃ data led, pinInEffect? ledOnly .dataPin = some data ∧
        pinInEffect? ledOnly .ledPin = some led ∧ led.number = data.number := by
  refine ⟨by decide +kernel, { number := 2, pullUp := true }, { number := 2 }, ?_, ?_, ?_⟩ <;> rfl

end KeyBridge.Build
