import KeyBridge.Config

/-!
# Pins

The pins of the chip are handed out by number, each once. An output pin that drives an LED may be
wired so that low means on, and the level of any pin can be read, whoever owns it.
-/

namespace KeyBridge.Chip

/-- Why a pin is not handed out. -/
inductive PinError where
  /-- There is no such pin. -/
  | invalidPin
  /-- The pin was handed out before. -/
  | alreadyTaken
deriving DecidableEq, Repr

/-- The pins of the chip, of which some have been handed out. -/
structure PinBank where
  taken : List UInt8 := []
deriving DecidableEq, Repr

namespace PinBank

/-- How many pins there are. -/
def pinCount : Nat := maxPin.toNat + 1

/-- Whether a pin can be handed out. -/
def isAvailable (b : PinBank) (pin : UInt8) : Bool := pin.toNat < pinCount && !b.taken.contains pin

/-- Hands out a pin. -/
def take (b : PinBank) (pin : UInt8) : Except PinError PinBank :=
  if pinCount ≤ pin.toNat then .error .invalidPin
  else if b.taken.contains pin then .error .alreadyTaken
  else .ok ⟨pin :: b.taken⟩

end PinBank

/-- An LED on an output pin. -/
structure Led where
  pin : UInt8
  /-- The LED is on when the pin is low. -/
  inverted : Bool
deriving DecidableEq, Repr

/-- The level of the pin that turns the LED on or off. -/
def Led.level (l : Led) (on : Bool) : Bool := on != l.inverted

/-- The level of a pin among the levels of all pins. -/
def pinLevel (levels : UInt32) (pin : UInt8) : Bool := levels.toNat.testBit pin.toNat

/-- What a line reads as. -/
structure LineReading where
  high : Bool
  low : Bool
  /-- Whether the line, taken for a clock line, rests. -/
  idle : Bool
deriving DecidableEq, Repr

/-- What a line reads as at a level. A clock line rests at its high level. -/
def LineReading.ofLevel (level : Bool) : LineReading := ⟨level, !level, level⟩

end KeyBridge.Chip
