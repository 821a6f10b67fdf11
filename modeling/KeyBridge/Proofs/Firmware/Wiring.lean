import KeyBridge.Firmware.Schedule
import KeyBridge.Proofs.Config.Ranges

/-!
# Wiring

The firmware takes its pins as it starts, and cannot do without those of the two lines. It takes
them by a configuration that has been read, or by the default one, and both leave the pins in their
ranges and apart from each other: it gets what it asks for, whatever text is built in.

## Key results

- `ofConfig_eq_ok`: all pins of a sound configuration are handed out
- `exists_bootWith`: the firmware starts with every text
- `starts_as_read`: with one that can be read, it starts with the configuration of that text
-/

namespace KeyBridge

namespace Chip.PinBank

/-- A pin of the chip is handed out once. -/
theorem take_eq_ok {b : PinBank} {pin : UInt8} (hle : pin ≤ maxPin) (hfree : pin ∉ b.taken) :
    b.take pin = .ok ⟨pin :: b.taken⟩ := by
  have hcount : ¬ pinCount ≤ pin.toNat := Nat.not_le.mpr (Nat.lt_succ_of_le hle)
  rw [take, if_neg hcount, if_neg (by simpa using hfree)]

end Chip.PinBank

namespace Config

open Chip (PinBank)

variable {c : Config}

/-- The pin after the data pin has a number of eight bits. -/
theorem InRange.dataPin_succ_lt (h : c.InRange) :
    c.dataPin.number.toNat + 1 < UInt8.size :=
  Nat.lt_of_le_of_lt (Nat.succ_le_succ h.dataPin_le) (by decide)

/-- In a sound configuration the clock has a pin of its own. -/
theorem Sound.clockPin_ne (h : c.Sound) : c.clockPin.number ≠ c.dataPin.number := by
  intro heq
  have hnumber := h.clockPin_eq
  rw [heq] at hnumber
  exact Nat.succ_ne_self _ hnumber.symm

/-- The pins of a sound configuration are handed out one after the other. -/
structure Granted (c : Config) : Prop where
  dataPin : ({} : PinBank).take c.dataPin.number = .ok ⟨[c.dataPin.number]⟩
  clockPin : PinBank.take ⟨[c.dataPin.number]⟩ c.clockPin.number =
    .ok ⟨[c.clockPin.number, c.dataPin.number]⟩
  ledPin : ∀ led ∈ c.ledPin, PinBank.take ⟨[c.clockPin.number, c.dataPin.number]⟩ led.number =
    .ok ⟨[led.number, c.clockPin.number, c.dataPin.number]⟩

/-- Every pin of a sound configuration is granted. -/
theorem Sound.granted (h : c.Sound) : c.Granted where
  dataPin := PinBank.take_eq_ok h.dataPin_le List.not_mem_nil
  clockPin := PinBank.take_eq_ok h.clockPin_le (by simpa using h.clockPin_ne)
  ledPin led hled := by
    obtain ⟨hdata, hclock⟩ := h.ledPin_ne led hled
    exact PinBank.take_eq_ok (h.ledPin_le led hled) (by simp [hdata, hclock])

end Config

namespace Firmware

open Config (Progress)
open Chip (PinBank)

variable {c : Config}

/-- The pins that a configuration asks for, with nothing to be logged about them. -/
def Wiring.asked (c : Config) : Wiring where
  dataPin := c.dataPin.number
  clockPin := c.clockPin.number
  led := c.ledPin.map fun led => ⟨led.number, led.inverted⟩

/-- A configuration whose pins are granted is wired as it asks. -/
theorem Wiring.ofConfig_eq_ok (h : c.Granted) : Wiring.ofConfig c = .ok (.asked c) := by
  -- The LED is the only one of the three that the firmware would do without.
  have hled : takeLed ⟨[c.clockPin.number, c.dataPin.number]⟩ c.ledPin =
      ((asked c).led, (asked c).complaints) := by
    cases hpin : c.ledPin with
    | none => simp [takeLed, asked, hpin]
    | some led => simp [takeLed, asked, hpin, h.ledPin led hpin]
  simp only [ofConfig, h.dataPin, h.clockPin, hled, bind, Except.bind]
  rfl

namespace Board

/-- Whatever the text is, the configuration that is loaded is sound. -/
theorem sound_load (text : List Char) : (load text).1.Sound := by
  unfold load
  split
  · next hread => exact Config.sound_of_read hread
  · exact Config.sound_default

/-- Whatever the text is, the boot succeeds, with the wiring that the loaded configuration asks for.
-/
theorem bootWith_eq_ok {text : List Char} {loaded : List Message} (hload : load text = (c, loaded))
    (system : UInt32) : bootWith text system =
      .ok ((wire c (.asked c) system).announce c (.asked c) loaded).settle := by
  have hsound : c.Sound := by simpa [hload] using sound_load text
  rw [bootWith, hload]
  change (Wiring.ofConfig c >>= _) = _
  rw [Wiring.ofConfig_eq_ok hsound.granted]
  rfl

/-- The firmware starts, whatever text is built in. -/
theorem exists_bootWith (text : List Char) (system : UInt32) :
    ∃ b, bootWith text system = .ok b :=
  ⟨_, bootWith_eq_ok rfl system⟩

/-- A configuration that has been read is safe to run with, whatever the text was. At the end of its
lines, before anything has been checked about the pins together, the number of the data pin still
has a byte above it. Once they have been checked, no limit is zero, the pins are in range, the clock
pin is the one above the data pin and the LED's is another one; so the firmware gets all of them,
one after the other, and runs with them. -/
theorem starts_as_read (text : List Char) :
    (∀ p, ({} : Progress).readLines (Text.lines text) = .ok p →
      p.config.dataPin.number.toNat + 1 < UInt8.size) ∧
    ∀ c, Config.read text = .ok c → c.Sound ∧ c.Granted ∧
      Wiring.ofConfig c = .ok (.asked c) ∧
      ∀ system, bootWith text system =
        .ok ((wire c (.asked c) system).announce c (.asked c) [.settingsRead]).settle := by
  -- The range of each pin was looked at when it was read, so it is known before the last check.
  refine ⟨fun p hp => (Config.inRange_default.readLines hp).dataPin_succ_lt, fun c hc => ?_⟩
  have hsound : c.Sound := Config.sound_of_read hc
  have hload : load text = (c, [.settingsRead]) := by rw [load, hc]
  exact ⟨hsound, hsound.granted, Wiring.ofConfig_eq_ok hsound.granted, bootWith_eq_ok hload⟩

/-- A text that gives the LED the data pin of the defaults, and the port other pins after that. -/
def moved : List Char :=
  "[status]\nled_pin=\"!gpio2\"\n[interface]\ndata_pin=\"gpio28\"\nclock_pin=\"gpio29\"".toList

/-- The interface is moved to the pins 28 and 29, and an inverted LED to pin 2. -/
theorem starts_as_read_moved :
    let c : Config :=
      { dataPin := { number := 28 }, clockPin := { number := 29 }
        ledPin := some { number := 2, inverted := true } }
    Config.read moved = .ok c ∧ c.dataPin.number.toNat + 1 < UInt8.size ∧
      PinBank.take ⟨[29, 28]⟩ 2 = .ok ⟨[2, 29, 28]⟩ ∧
      Wiring.ofConfig c = .ok { dataPin := 28, clockPin := 29, led := some ⟨2, true⟩ } := by
  intro c
  have hread : Config.read moved = .ok c := rfl
  obtain ⟨hbyte, hsafe⟩ := starts_as_read moved
  obtain ⟨-, hgranted, hwired, -⟩ := hsafe c hread
  obtain ⟨p, hlines, hconfig, -⟩ := Config.readLines_of_read hread
  exact ⟨hread, hconfig ▸ hbyte p hlines, hgranted.ledPin _ rfl, hwired⟩

end Board

end Firmware

end KeyBridge
