import KeyBridge.Command
import KeyBridge.Config
import KeyBridge.Device.Action
import KeyBridge.Device.Stall

/-!
# PC/XT keyboards

These keyboards take no commands. The session waits for the self test at power-up; when the
keyboard stays silent the receiver is restarted, which makes the keyboard test itself again.
-/

namespace KeyBridge.Device

open Command

/-- What an XT keyboard session is waiting for. -/
inductive XtKeyboard.State where
  /-- The result of the self test. -/
  | uninitialised
  /-- Nothing: keys come in. -/
  | initialised
deriving DecidableEq, Repr

/-- The session of a PC/XT keyboard. -/
structure XtKeyboard where
  timing : Timing
  state : XtKeyboard.State := .uninitialised
  /-- How many bytes were received, modulo 2^32. -/
  activity : UInt32 := 0
  timer : StallTimer := {}
  /-- How often the keyboard has been initialised, modulo 2^16. -/
  epoch : UInt16 := 0
deriving DecidableEq, Repr

namespace XtKeyboard

/-- The byte that says that keys were lost. -/
def overrun : UInt8 := 0xFF

/-- Whether keys are passed on. -/
def isInitialised (k : XtKeyboard) : Bool := k.state == .initialised

/-- Takes in one byte from the keyboard. -/
def receive (k : XtKeyboard) (byte : UInt8) : Step XtKeyboard :=
  let k := { k with activity := k.activity + 1 }
  match k.state with
  | .uninitialised =>
    if byte = Xt.selfTestPassed then
      { next := { k with state := .initialised, epoch := k.epoch + 1 } }
    else { next := k, notes := [.unexpectedReply byte] }
  | .initialised =>
    if byte = overrun then { next := k, notes := [.deviceOverrun byte] }
    else { next := k, action := .pass }

/-- Looks at the time. -/
def tick (k : XtKeyboard) (now : UInt32) (idle : Bool) : Step XtKeyboard :=
  let timer := k.timer.tick k.activity now idle k.timing.stallPeriod
  if k.state = .uninitialised ∧ k.timing.ackStalls ≤ timer.stalls then
    { next := { k with timer := timer.restart now }
      action := .restart
      notes := [.timeout timer.stalls false] }
  else { next := { k with timer } }

/-- Forgets the keyboard. The counts and the epoch stay. -/
def reset (k : XtKeyboard) : XtKeyboard :=
  { k with state := .uninitialised, timer := k.timer.clear }

end XtKeyboard

end KeyBridge.Device
