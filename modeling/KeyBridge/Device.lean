import KeyBridge.Device.AmigaKeyboard
import KeyBridge.Device.AtKeyboard
import KeyBridge.Device.M0110Keyboard
import KeyBridge.Device.Ps2Mouse
import KeyBridge.Device.XtKeyboard

/-!
# Devices

The session of whichever device is attached. It takes in the bytes that the device sends, looks at
the time now and then, and says with an `Action` what is to be done.

* `Device.receive`, `Device.tick` — the two kinds of step;
* `Device.Input`, `Device.step` — all that can happen to a session, for runs of any length.
-/

namespace KeyBridge

open Device

/-- The session of a device. -/
inductive Device where
  | atKeyboard (session : AtKeyboard)
  | ps2Mouse (session : Ps2Mouse)
  | xt (session : XtKeyboard)
  | amiga (session : AmigaKeyboard)
  | m0110 (session : M0110Keyboard)
deriving DecidableEq, Repr

namespace Device

/-- The session of the configured device, before anything has been heard from it. -/
def ofConfig (c : Config) : Device :=
  match c.protocol with
  | .atKeyboard => atKeyboard { timing := c.timing, defaultSet := c.codeSet }
  | .ps2Mouse => ps2Mouse { timing := c.timing, detectWheel := c.wheel }
  | .xt => xt { timing := c.timing }
  | .amiga => amiga {}
  | .m0110 => m0110 { timing := c.timing }

/-- The protocol of a session. -/
def protocol : Device → Protocol
  | atKeyboard _ => .atKeyboard
  | ps2Mouse _ => .ps2Mouse
  | xt _ => .xt
  | amiga _ => .amiga
  | m0110 _ => .m0110

/-- Whether the device is ready for normal operation. -/
def isInitialised : Device → Bool
  | atKeyboard s => s.isInitialised
  | ps2Mouse s => s.isInitialised
  | xt s => s.isInitialised
  | amiga s => s.isInitialised
  | m0110 s => s.isInitialised

/-- How often the device has been initialised, modulo 2^16. Bytes from before a change belong to
another session and mean nothing together with later ones. -/
def epoch : Device → UInt16
  | atKeyboard s => s.epoch
  | ps2Mouse s => s.epoch
  | xt s => s.epoch
  | amiga s => s.epoch
  | m0110 s => s.epoch

/-- The scan code set in use, for IBM keyboards. -/
def codeSet? : Device → Option CodeSet
  | atKeyboard s => some s.codeSet
  | xt _ => some .set1
  | ps2Mouse _ | amiga _ | m0110 _ => none

/-- Whether there is a wheel, for mice. -/
def wheel? : Device → Option Bool
  | ps2Mouse s => some s.hasWheel
  | atKeyboard _ | xt _ | amiga _ | m0110 _ => none

/-- Takes in one byte from the device. -/
def receive (d : Device) (byte : UInt8) : Step Device :=
  match d with
  | atKeyboard s => (s.receive byte).map atKeyboard
  | ps2Mouse s => (s.receive byte).map ps2Mouse
  | xt s => (s.receive byte).map xt
  | amiga s => (s.receive byte).map amiga
  | m0110 s => (s.receive byte).map m0110

/-- Looks at the time; `idle` is the state of the clock line. -/
def tick (d : Device) (now : UInt32) (idle : Bool) : Step Device :=
  match d with
  | atKeyboard s => (s.tick now idle).map atKeyboard
  | ps2Mouse s => (s.tick now idle).map ps2Mouse
  | xt s => (s.tick now idle).map xt
  | amiga s => { next := amiga s }
  | m0110 s => (s.tick now idle).map m0110

/-- Forgets all about the device and starts over. -/
def reset : Device → Device
  | atKeyboard s => atKeyboard s.reset
  | ps2Mouse s => ps2Mouse s.reset
  | xt s => xt s.reset
  | amiga s => amiga s.reset
  | m0110 s => m0110 s.reset

/-- Takes in what the host wants of the lock LEDs. -/
def setLeds (d : Device) (leds : LockLeds) : Device :=
  match d with
  | atKeyboard s => atKeyboard (s.setLeds leds)
  | amiga s => amiga (s.setLeds leds)
  | ps2Mouse _ | xt _ | m0110 _ => d

/-- What can happen to a session. -/
inductive Input where
  | byte (value : UInt8)
  | tick (now : UInt32) (idle : Bool)
  | reset
  | leds (wanted : LockLeds)
deriving DecidableEq, Repr

/-- Takes in whatever happens. -/
def step (d : Device) : Input → Step Device
  | .byte b => d.receive b
  | .tick now idle => d.tick now idle
  | .reset => { next := d.reset }
  | .leds l => { next := d.setLeds l }

/-- A session after a run of inputs. -/
def run (d : Device) (inputs : List Input) : Device := inputs.foldl (fun d i => (d.step i).next) d

end Device

end KeyBridge
