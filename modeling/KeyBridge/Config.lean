import KeyBridge.Wire.Format

/-!
# Configuration

What is attached to the converter, how it is wired, and how patient the converter is with it.
-/

namespace KeyBridge

/-- What is attached to the converter. -/
inductive Protocol where
  /-- IBM AT or PS/2 keyboard. -/
  | atKeyboard
  /-- PS/2 mouse, with or without a wheel. -/
  | ps2Mouse
  /-- IBM PC/XT keyboard. -/
  | xt
  /-- Commodore Amiga keyboard. -/
  | amiga
  /-- Apple M0110 or M0110A keyboard. -/
  | m0110
deriving DecidableEq, Repr, Inhabited

namespace Protocol

/-- The shape of the frames that the device sends. -/
def format : Protocol → Wire.Format
  | atKeyboard | ps2Mouse => .atPs2
  | xt => .xt
  | amiga => .amiga
  | m0110 => .m0110

/-- Whether the device is a pointing device. -/
def isMouse : Protocol → Bool
  | ps2Mouse => true
  | atKeyboard | xt | amiga | m0110 => false

end Protocol

/-- The scan code sets of IBM keyboards. -/
inductive CodeSet where
  /-- XT keyboards, and AT keyboards that speak like them. -/
  | set1
  /-- The set that PS/2 keyboards start with. -/
  | set2
  /-- Terminal keyboards. -/
  | set3
deriving DecidableEq, Repr, Inhabited

/-- The highest pin number of the chip. -/
def maxPin : UInt8 := 29

/-- How one pin is used. -/
structure Pin where
  number : UInt8
  /-- The pin is active low. -/
  inverted : Bool := false
  /-- The internal pull-up is on. -/
  pullUp : Bool := false
deriving DecidableEq, Repr

/-- A pin with its pull-up on. -/
def Pin.pulledUp (number : UInt8) : Pin := { number, pullUp := true }

/-- When the converter stops waiting for a device. -/
structure Timing where
  /-- The length of one stall period in milliseconds. -/
  stallPeriod : UInt32 := 200
  /-- How many stalls pass before the wait for an acknowledgement or a self test ends. -/
  ackStalls : UInt8 := 5
  /-- How many stalls pass before the wait in identification and set-up ends. -/
  idStalls : UInt8 := 2
  /-- How long a polled device may take to answer, in milliseconds. -/
  responseTimeout : UInt32 := 500
deriving DecidableEq, Repr

/-- The whole configuration. -/
structure Config where
  /-- What is attached. -/
  protocol : Protocol := .atKeyboard
  /-- The scan code set of a keyboard that does not identify itself as a terminal keyboard. -/
  codeSet : CodeSet := .set2
  /-- The data line. -/
  dataPin : Pin := .pulledUp 2
  /-- The clock line, which the receiver expects directly above the data line. -/
  clockPin : Pin := .pulledUp 3
  timing : Timing := {}
  /-- Whether a mouse is asked for a wheel. -/
  wheel : Bool := true
  /-- The LED that is lit while the device is initialised. -/
  ledPin : Option Pin := none
deriving DecidableEq, Repr

/-- Whether the pins fit together: the clock line directly above the data line, and the LED on
neither of them. -/
def Config.pinsAgree (c : Config) : Bool :=
  c.clockPin.number.toNat == c.dataPin.number.toNat + 1 &&
    c.ledPin.all fun led => led.number != c.dataPin.number && led.number != c.clockPin.number

end KeyBridge
