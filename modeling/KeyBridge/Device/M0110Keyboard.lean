import KeyBridge.Command
import KeyBridge.Config
import KeyBridge.Device.Action
import KeyBridge.Device.Stall

/-!
# M0110 keyboards

These keyboards speak only when they are asked. The session asks for the model, which also resets
the keyboard, and from then on answers every reply with the next inquiry. A keyboard that does not
answer in time is asked for its model again.
-/

namespace KeyBridge.Device

open Command

/-- What an M0110 keyboard session is waiting for. -/
inductive M0110Keyboard.State where
  /-- The first tick. -/
  | uninitialised
  /-- The model number. -/
  | awaitModel
  /-- The reply to an inquiry. -/
  | initialised
deriving DecidableEq, Repr

/-- The session of an M0110 keyboard. -/
structure M0110Keyboard where
  timing : Timing
  state : M0110Keyboard.State := .uninitialised
  /-- The model number, once it is known. -/
  model : Option UInt8 := none
  /-- How many bytes were received, modulo 2^32. -/
  activity : UInt32 := 0
  timer : StallTimer := {}
  /-- How often the keyboard has been initialised, modulo 2^16. -/
  epoch : UInt16 := 0
deriving DecidableEq, Repr

namespace M0110Keyboard

/-- Whether keys are passed on. -/
def isInitialised (k : M0110Keyboard) : Bool := k.state == .initialised

/-- Takes in one byte from the keyboard. -/
def receive (k : M0110Keyboard) (byte : UInt8) : Step M0110Keyboard :=
  let k := { k with activity := k.activity + 1 }
  match k.state with
  | .uninitialised => { next := k, notes := [.unexpectedReply byte] }
  | .awaitModel =>
    { next := { k with model := some byte, state := .initialised, epoch := k.epoch + 1 }
      action := .send M0110.inquiry
      notes := [.identified byte.toUInt16] }
  | .initialised =>
    { next := k
      action := if byte = M0110.noKey then .send M0110.inquiry else .passAndSend M0110.inquiry }

/-- Asks for the model. -/
def queryModel (k : M0110Keyboard) (now : UInt32) : Step M0110Keyboard where
  next := { k with state := .awaitModel, timer := k.timer.restart now }
  action := .send M0110.model

/-- Looks at the time. -/
def tick (k : M0110Keyboard) (now : UInt32) (idle : Bool) : Step M0110Keyboard :=
  if k.state = .uninitialised then k.queryModel now
  else
    let timer := k.timer.tick k.activity now idle k.timing.responseTimeout
    let k := { k with timer }
    if timer.stalls = 0 then { next := k }
    else (k.queryModel now).note (.timeout timer.stalls false)

/-- Forgets the keyboard. The counts and the epoch stay. -/
def reset (k : M0110Keyboard) : M0110Keyboard :=
  { k with state := .uninitialised, model := none, timer := k.timer.clear }

end M0110Keyboard

end KeyBridge.Device
