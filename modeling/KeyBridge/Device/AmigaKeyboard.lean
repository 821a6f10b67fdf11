import KeyBridge.Command
import KeyBridge.Event
import KeyBridge.Device.Action

/-!
# Amiga keyboards

These keyboards take no commands. Between their keys they send codes about themselves, which end
here, and at power-up a list of the keys held down, which is passed over.

Caps lock is latched by the keyboard: it is reported when it is pressed only, and bit 7 is clear
when the LED has come on and set when it has gone out. The session makes a press and a release of
it whenever the keyboard and the host disagree.
-/

namespace KeyBridge.Device

open Command

/-- Where an Amiga keyboard session stands. -/
inductive AmigaKeyboard.State where
  /-- Nothing has been heard yet. -/
  | uninitialised
  /-- The list of keys held down at power-up is coming in. -/
  | powerUp
  /-- Keys come in. -/
  | initialised
deriving DecidableEq, Repr

/-- The session of an Amiga keyboard. -/
structure AmigaKeyboard where
  state : AmigaKeyboard.State := .uninitialised
  /-- Whether caps lock is on at the host. -/
  hostCaps : Bool := false
  /-- How often the keyboard has been initialised, modulo 2^16. -/
  epoch : UInt16 := 0
deriving DecidableEq, Repr

namespace AmigaKeyboard

/-- Whether keys are passed on. -/
def isInitialised (k : AmigaKeyboard) : Bool := k.state == .initialised

/-- The keyboard is ready, if it has not been before. -/
def ready (k : AmigaKeyboard) : AmigaKeyboard :=
  if k.state = .initialised then k
  else { k with state := .initialised, epoch := k.epoch + 1 }

/-- The bit that tells the two bytes of a key apart. -/
def upBit : UInt8 := 0x80

/-- What to do with a key. -/
def keyAction (k : AmigaKeyboard) (byte : UInt8) : Action :=
  if byte &&& ~~~upBit = Amiga.capsLock then
    if (byte &&& upBit == 0) = k.hostCaps then .none
    else .queue Amiga.capsLock (Amiga.capsLock ||| upBit)
  else .pass

/-- Takes in one byte from the keyboard. A key from a keyboard that has not been heard before says
that the keyboard was running already. -/
def receive (k : AmigaKeyboard) (byte : UInt8) : Step AmigaKeyboard :=
  if byte = Amiga.powerUpStart then { next := { k with state := .powerUp } }
  else if byte = Amiga.powerUpEnd then { next := k.ready }
  else if k.state = .powerUp then { next := k, notes := [.powerUpKeyDropped byte] }
  else if byte = Amiga.resetWarning then
    { next := { k with state := .uninitialised }, notes := [.management byte] }
  else if byte = Amiga.lostSync ∨ byte = Amiga.bufferOverflow then
    { next := k, notes := [.management byte] }
  else if byte = Amiga.selfTestFailed then { next := k, notes := [.selfTestFailed] }
  else { next := k.ready, action := k.keyAction byte }

/-- Forgets the keyboard. What the host wants and the epoch stay. -/
def reset (k : AmigaKeyboard) : AmigaKeyboard := { k with state := .uninitialised }

/-- Takes in what the host wants of the lock LEDs. -/
def setLeds (k : AmigaKeyboard) (leds : LockLeds) : AmigaKeyboard :=
  { k with hostCaps := leds.caps }

end AmigaKeyboard

end KeyBridge.Device
