import KeyBridge.Command
import KeyBridge.Config
import KeyBridge.Event
import KeyBridge.Device.Action
import KeyBridge.Device.Stall

/-!
# AT and PS/2 keyboards

After its self test the keyboard is asked for its two-byte id. A terminal keyboard is then set up
to report every key with make and break, and speaks scan code set 3; any other keyboard speaks the
configured set. From then on keys are passed on, and the lock LEDs are set whenever they differ
from what the host wants.

A reply that does not belong to the exchange under way resets the keyboard. Identification and
set-up are tried twice; a keyboard that still does not answer is taken for one of the configured
kind.
-/

namespace KeyBridge.Device

open Command

/-- How far the setting of the lock LEDs has got. -/
inductive LedStage where
  /-- The command is sent, its acknowledgement is awaited. -/
  | command
  /-- The bitmap is sent, its acknowledgement is awaited. -/
  | value
deriving DecidableEq, Repr

/-- What a keyboard session is waiting for. -/
inductive AtKeyboard.State where
  /-- The result of the self test at power-up. -/
  | uninitialised
  /-- The acknowledgement of a reset. -/
  | awaitAck
  /-- The result of the self test after a reset. -/
  | awaitSelfTest
  /-- The first byte of the id. -/
  | readId1
  /-- The second byte of the id. -/
  | readId2
  /-- The acknowledgement of a terminal keyboard's set-up. -/
  | setup
  /-- An acknowledgement while the lock LEDs are set. -/
  | setLeds (stage : LedStage)
  /-- Nothing: keys come in. -/
  | initialised
deriving DecidableEq, Repr

/-- Whether a keyboard's id is that of a terminal keyboard: `BFxx`, and the two boards `AB85` and
`AB86` with 122 keys. -/
def isTerminalId (id : UInt16) : Bool := id &&& 0xFF00 == 0xBF00 || id == 0xAB85 || id == 0xAB86

/-- The id of a keyboard that did not tell it. -/
def unknownId : UInt16 := 0xFFFF

/-- The session of an AT or PS/2 keyboard. -/
structure AtKeyboard where
  timing : Timing
  /-- The scan code set of keyboards that are no terminal keyboards. -/
  defaultSet : CodeSet
  state : AtKeyboard.State := .uninitialised
  /-- The scan code set in use. -/
  codeSet : CodeSet := defaultSet
  /-- The id, as far as it is known. -/
  id : UInt16 := 0
  /-- Whether the step under way has been tried before. -/
  retried : Bool := false
  commands : LastCommand := .none
  /-- The lock LEDs as the host wants them. -/
  hostLeds : LockLeds := {}
  /-- The lock LEDs as the keyboard has them, if that is known. -/
  deviceLeds : Option LockLeds := none
  /-- The lock LEDs that are being set. -/
  pendingLeds : LockLeds := {}
  /-- How many bytes were received, modulo 2^32. -/
  activity : UInt32 := 0
  timer : StallTimer := {}
  /-- How often the keyboard has been initialised, modulo 2^16. -/
  epoch : UInt16 := 0
deriving DecidableEq, Repr

namespace AtKeyboard

/-- Whether keys are passed on. -/
def isInitialised (k : AtKeyboard) : Bool :=
  match k.state with
  | .initialised | .setLeds _ => true
  | _ => false

/-! ## Parts of a step -/

/-- Sends a command that has not just been sent. -/
def issue (k : AtKeyboard) (command : UInt8) : Step AtKeyboard where
  next := { k with commands := .sent command }
  action := .send command

/-- Resets the keyboard. -/
def resetDevice (k : AtKeyboard) : Step AtKeyboard :=
  { k with state := .awaitAck, retried := false }.issue Ps2.reset

/-- Resets a keyboard that sent a byte nobody waited for. -/
def refuse (k : AtKeyboard) (byte : UInt8) : Step AtKeyboard :=
  k.resetDevice.note (.unexpectedReply byte)

/-- Asks for the id. -/
def requestId (k : AtKeyboard) : Step AtKeyboard :=
  { k with state := .readId1, id := 0, retried := false }.issue Ps2.getId

/-- Starts over with a keyboard that was plugged in again; its LEDs are unknown. -/
def replugged (k : AtKeyboard) : Step AtKeyboard := { k with deviceLeds := none }.requestId

/-- The keyboard is ready. It has just been reset, so its LEDs are to be set again. -/
def ready (k : AtKeyboard) : AtKeyboard :=
  { k with state := .initialised, retried := false, deviceLeds := none, epoch := k.epoch + 1 }

/-- Acts on the complete id. -/
def identified (k : AtKeyboard) : Step AtKeyboard :=
  Step.note (.identified k.id) <|
    if isTerminalId k.id then
      { k with codeSet := .set3, state := .setup, retried := false }.issue Ps2.setAllMakeBreak
    else { next := { k with codeSet := k.defaultSet }.ready }

/-- Repeats the last command, or resets a keyboard that has asked for it too often. -/
def repeatCommand (k : AtKeyboard) : Step AtKeyboard :=
  Step.note (.resendRequested (k.commands.command.getD 0)) <|
    match k.commands.repeat? with
    | some (command, commands) => { next := { k with commands }, action := .send command }
    | none => k.resetDevice

/-- Takes the keyboard for one of the configured kind. -/
def assumeDefault (k : AtKeyboard) : Step AtKeyboard where
  next := { k with id := unknownId, codeSet := k.defaultSet }.ready
  notes := [.identified unknownId]

/-! ## Steps -/

/-- Takes in one byte from the keyboard. -/
def receive (k : AtKeyboard) (byte : UInt8) : Step AtKeyboard :=
  let k := { k with activity := k.activity + 1 }
  if byte = Ps2.resendRequest then
    if k.state = .uninitialised then k.refuse byte else k.repeatCommand
  else match k.state with
  | .uninitialised => if byte = Ps2.selfTestPassed then k.requestId else k.refuse byte
  | .awaitAck =>
    if byte = Ps2.selfTestPassed then k.requestId
    else if byte = Ps2.ack then { next := { k with state := .awaitSelfTest } }
    else k.refuse byte
  | .awaitSelfTest =>
    if byte = Ps2.selfTestPassed then k.requestId
    else if byte = Ps2.selfTestFailed then k.resetDevice.note .selfTestFailed
    else k.refuse byte
  | .readId1 =>
    if byte = Ps2.ack then { next := k }
    else { next := { k with id := byte.toUInt16 <<< 8, state := .readId2 } }
  | .readId2 => { k with id := k.id ||| byte.toUInt16 }.identified
  | .setup => if byte = Ps2.ack then { next := k.ready } else k.refuse byte
  | .setLeds stage =>
    if byte = Ps2.ack then
      match stage with
      | .command => { k with state := .setLeds .value }.issue k.pendingLeds.bitmap
      | .value => { next := { k with deviceLeds := some k.pendingLeds, state := .initialised } }
    -- In set 1 this byte is the release of the left shift key.
    else if byte = Ps2.selfTestPassed ∧ k.codeSet ≠ .set1 then k.replugged
    else { next := k, action := .pass }
  | .initialised =>
    if byte = Ps2.ack ∨ byte = Ps2.echoReply then { next := k }
    else if byte = Ps2.keyError ∨ byte = Ps2.bufferOverrun then
      { next := k, notes := [.deviceOverrun byte] }
    else if byte = Ps2.selfTestPassed ∧ k.codeSet ≠ .set1 then k.replugged
    else { next := k, action := .pass }

/-- How many stalls end the wait of a state. -/
def stallLimit (k : AtKeyboard) : UInt8 :=
  match k.state with
  | .uninitialised | .awaitAck | .awaitSelfTest => k.timing.ackStalls
  | _ => k.timing.idStalls

/-- Acts on a wait that has lasted too long. -/
def expire (k : AtKeyboard) : Step AtKeyboard :=
  match k.state with
  | .uninitialised | .awaitAck | .awaitSelfTest => k.resetDevice
  | .readId1 | .readId2 =>
    if k.retried then k.assumeDefault
    else k.requestId.map fun k => { k with retried := true }
  | .setup =>
    if k.retried then { next := k.ready }
    else { k with retried := true }.issue Ps2.setAllMakeBreak
  -- The LEDs stay as they are until the host changes them again.
  | .setLeds _ => { next := { k with deviceLeds := some k.pendingLeds, state := .initialised } }
  | .initialised => { next := k }

/-- Whether the end of the wait means that something is assumed rather than tried again. -/
def givesUp (k : AtKeyboard) : Bool :=
  match k.state with
  | .uninitialised | .awaitAck | .awaitSelfTest | .initialised => false
  | .readId1 | .readId2 | .setup => k.retried
  | .setLeds _ => true

/-- Begins to set the lock LEDs if they are not as the host wants them. -/
def updateLeds (k : AtKeyboard) (now : UInt32) : Step AtKeyboard :=
  if k.deviceLeds = some k.hostLeds then { next := k }
  else
    { k with
      pendingLeds := k.hostLeds, state := .setLeds .command,
      timer := k.timer.restart now }.issue Ps2.setLockLeds

/-- Looks at the time. -/
def tick (k : AtKeyboard) (now : UInt32) (idle : Bool) : Step AtKeyboard :=
  let timer := k.timer.tick k.activity now idle k.timing.stallPeriod
  let k := { k with timer }
  if k.state = .initialised then k.updateLeds now
  else if timer.stalls < k.stallLimit then { next := k }
  else
    ({ k with timer := timer.restart now }.expire).note (.timeout timer.stalls k.givesUp)

/-- Forgets the keyboard. What the host wants, the counts and the epoch stay. -/
def reset (k : AtKeyboard) : AtKeyboard :=
  { k with
    state := .uninitialised, id := 0, retried := false, codeSet := k.defaultSet,
    commands := .none, deviceLeds := none, timer := k.timer.clear }

/-- Takes in what the host wants of the lock LEDs. -/
def setLeds (k : AtKeyboard) (leds : LockLeds) : AtKeyboard := { k with hostLeds := leds }

end AtKeyboard

end KeyBridge.Device
