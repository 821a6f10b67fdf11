/-!
# Events and lock LEDs

What a decoder produces for the host, and what the host says about its lock LEDs.
-/

namespace KeyBridge

/-- A key going down or up. The code belongs to the code space of the scan code set that produced
it. -/
structure KeyEvent where
  code : UInt8
  /-- Down rather than up. -/
  make : Bool
deriving DecidableEq, Repr

/-- A relative mouse movement with the state of the buttons. -/
structure MouseReport where
  /-- Bit 0 left, bit 1 right, bit 2 middle. -/
  buttons : UInt8
  /-- Positive to the right. -/
  dx : Int16
  /-- Positive downwards. -/
  dy : Int16
  /-- Positive away from the user. -/
  wheel : Int8
deriving DecidableEq, Repr

/-- One event for the host. -/
inductive Event where
  | key (event : KeyEvent)
  | mouse (report : MouseReport)
deriving DecidableEq, Repr

namespace Event

/-- A key going down. -/
def press (code : UInt8) : Event := .key ⟨code, true⟩

/-- A key going up. -/
def release (code : UInt8) : Event := .key ⟨code, false⟩

/-- Whether an event is about a key. -/
def isKey : Event → Bool
  | key _ => true
  | mouse _ => false

end Event

/-- The lock LEDs as the host wants them. -/
structure LockLeds where
  num : Bool := false
  caps : Bool := false
  scroll : Bool := false
deriving DecidableEq, Repr, Inhabited

namespace LockLeds

/-- Reads the host's output report: bit 0 is num, bit 1 caps, bit 2 scroll lock. -/
def ofReport (report : UInt8) : LockLeds where
  num := report.toNat.testBit 0
  caps := report.toNat.testBit 1
  scroll := report.toNat.testBit 2

/-- The argument of the command that sets the LEDs: bit 0 is scroll, bit 1 num, bit 2 caps lock. -/
def bitmap (leds : LockLeds) : UInt8 :=
  leds.scroll.toUInt8 ||| (leds.num.toUInt8 <<< 1) ||| (leds.caps.toUInt8 <<< 2)

/-- Each LED has a bit of its own, and no other bit is set. -/
theorem toNat_bitmap (leds : LockLeds) :
    leds.bitmap.toNat = leds.scroll.toNat + 2 * leds.num.toNat + 4 * leds.caps.toNat := by
  obtain ⟨num, caps, scroll⟩ := leds
  cases num <;> cases caps <;> cases scroll <;> rfl

end LockLeds

end KeyBridge
