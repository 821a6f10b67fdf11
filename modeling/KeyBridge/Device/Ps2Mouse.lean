import KeyBridge.Command
import KeyBridge.Config
import KeyBridge.Device.Action
import KeyBridge.Device.Stall

/-!
# PS/2 mice

After its self test the mouse sends its id. If the wheel matters, the mouse is then knocked at:
three sample rates are set, and a mouse with a wheel answers the next question for its id with 3
and sends packets of four bytes from then on. At last the mouse is told to report movements.
-/

namespace KeyBridge.Device

open Command

/-- What a mouse session is waiting for. -/
inductive Ps2Mouse.State where
  /-- The result of the self test at power-up. -/
  | uninitialised
  /-- The acknowledgement of a reset. -/
  | awaitAck
  /-- The result of the self test after a reset. -/
  | awaitSelfTest
  /-- The id that follows the self test. -/
  | awaitId
  /-- The acknowledgement of the command that sets a sample rate of the knock or, once that has
  come, of the rate itself. -/
  | knock (index : Nat) (rateSent : Bool)
  /-- The id that tells whether there is a wheel. -/
  | readWheelId
  /-- The acknowledgement of the command that begins the reports. -/
  | awaitEnableAck
  /-- Nothing: movements come in. -/
  | initialised
deriving DecidableEq, Repr

/-- The session of a PS/2 mouse. -/
structure Ps2Mouse where
  timing : Timing
  /-- Whether the mouse is to be knocked at. -/
  detectWheel : Bool
  state : Ps2Mouse.State := .uninitialised
  /-- Whether the mouse sends packets of four bytes. -/
  hasWheel : Bool := false
  /-- Whether the step under way has been tried before. -/
  retried : Bool := false
  commands : LastCommand := .none
  /-- How many bytes were received, modulo 2^32. -/
  activity : UInt32 := 0
  timer : StallTimer := {}
  /-- How often the mouse has been initialised, modulo 2^16. -/
  epoch : UInt16 := 0
deriving DecidableEq, Repr

namespace Ps2Mouse

/-- Whether movements are passed on. -/
def isInitialised (m : Ps2Mouse) : Bool := m.state == .initialised

/-! ## Parts of a step -/

/-- Goes on to a state with the command that it waits on. -/
def enter (m : Ps2Mouse) (state : State) (command : UInt8) : Step Ps2Mouse where
  next := { m with state, retried := false, commands := .sent command }
  action := .send command

/-- Resets the mouse. -/
def resetDevice (m : Ps2Mouse) : Step Ps2Mouse :=
  { m with hasWheel := false }.enter .awaitAck Ps2.reset

/-- Resets a mouse that sent a byte nobody waited for. -/
def refuse (m : Ps2Mouse) (byte : UInt8) : Step Ps2Mouse :=
  m.resetDevice.note (.unexpectedReply byte)

/-- Tells the mouse to report movements. -/
def enable (m : Ps2Mouse) : Step Ps2Mouse := m.enter .awaitEnableAck Ps2.enableReporting

/-- Goes on once the id has come or is given up. -/
def afterId (m : Ps2Mouse) : Step Ps2Mouse :=
  if m.detectWheel then m.enter (.knock 0 false) Ps2.setSampleRate else m.enable

/-- The mouse is ready. -/
def ready (m : Ps2Mouse) : Ps2Mouse :=
  { m with state := .initialised, retried := false, epoch := m.epoch + 1 }

/-- Repeats the last command, or resets a mouse that has asked for it too often. -/
def repeatCommand (m : Ps2Mouse) : Step Ps2Mouse :=
  Step.note (.resendRequested (m.commands.command.getD 0)) <|
    match m.commands.repeat? with
    | some (command, commands) => { next := { m with commands }, action := .send command }
    | none => m.resetDevice

/-- Sends a sample rate of the knock. The step under way stays the same. -/
def sendRate (m : Ps2Mouse) (index : Nat) : Step Ps2Mouse :=
  let rate := Ps2.wheelKnock.getD index 0
  { next := { m with state := .knock index true, commands := .sent rate }, action := .send rate }

/-- Goes on to the next sample rate of the knock, or asks for the id after the last one. -/
def nextRate (m : Ps2Mouse) (index : Nat) : Step Ps2Mouse :=
  if index + 1 < Ps2.wheelKnock.length then m.enter (.knock (index + 1) false) Ps2.setSampleRate
  else m.enter .readWheelId Ps2.getId

/-! ## Steps -/

/-- Takes in one byte from the mouse. Once it is initialised every byte is part of a movement. -/
def receive (m : Ps2Mouse) (byte : UInt8) : Step Ps2Mouse :=
  let m := { m with activity := m.activity + 1 }
  if m.state = .initialised then { next := m, action := .pass }
  else if byte = Ps2.resendRequest then
    if m.state = .uninitialised then m.refuse byte else m.repeatCommand
  else match m.state with
  | .uninitialised =>
    if byte = Ps2.selfTestPassed then { next := { m with state := .awaitId } } else m.refuse byte
  | .awaitAck =>
    if byte = Ps2.selfTestPassed then { next := { m with state := .awaitId } }
    else if byte = Ps2.ack then { next := { m with state := .awaitSelfTest } }
    else m.refuse byte
  | .awaitSelfTest =>
    if byte = Ps2.selfTestPassed then { next := { m with state := .awaitId } }
    else if byte = Ps2.selfTestFailed then m.resetDevice.note .selfTestFailed
    else m.refuse byte
  | .awaitId => m.afterId.note (.identified byte.toUInt16)
  | .knock index rateSent =>
    if byte = Ps2.ack then if rateSent then m.nextRate index else m.sendRate index
    else m.refuse byte
  | .readWheelId =>
    if byte = Ps2.ack then { next := m }
    else
      ({ m with hasWheel := byte == Ps2.wheelMouseId }.enable).note (.identified byte.toUInt16)
  | .awaitEnableAck => if byte = Ps2.ack then { next := m.ready } else m.refuse byte
  | .initialised => { next := m, action := .pass }

/-- How many stalls end the wait of a state. -/
def stallLimit (m : Ps2Mouse) : UInt8 :=
  match m.state with
  | .uninitialised | .awaitAck | .awaitSelfTest => m.timing.ackStalls
  | _ => m.timing.idStalls

/-- Repeats the last command once, without a new answer being due. -/
def retry (m : Ps2Mouse) : Step Ps2Mouse :=
  match m.commands.repeat? with
  | some (command, commands) =>
    { next := { m with retried := true, commands }, action := .send command }
  | none => { next := { m with retried := true } }

/-- Acts on a wait that has lasted too long. Some mice send no id after the self test. -/
def expire (m : Ps2Mouse) : Step Ps2Mouse :=
  match m.state with
  | .uninitialised | .awaitAck | .awaitSelfTest => m.resetDevice
  | .awaitId => m.afterId
  | .knock _ _ | .readWheelId =>
    if m.retried then { m with hasWheel := false }.enable else m.retry
  | .awaitEnableAck =>
    if m.retried then { next := m.ready }
    else
      { next := { m with retried := true, commands := .sent Ps2.enableReporting }
        action := .send Ps2.enableReporting }
  | .initialised => { next := m }

/-- Whether the end of the wait means that something is assumed rather than tried again. -/
def givesUp (m : Ps2Mouse) : Bool :=
  match m.state with
  | .uninitialised | .awaitAck | .awaitSelfTest | .awaitId | .initialised => false
  | .knock _ _ | .readWheelId | .awaitEnableAck => m.retried

/-- Looks at the time. -/
def tick (m : Ps2Mouse) (now : UInt32) (idle : Bool) : Step Ps2Mouse :=
  let timer := m.timer.tick m.activity now idle m.timing.stallPeriod
  let m := { m with timer }
  if m.state = .initialised ∨ timer.stalls < m.stallLimit then { next := m }
  else
    ({ m with timer := timer.restart now }.expire).note (.timeout timer.stalls m.givesUp)

/-- Forgets the mouse. The counts and the epoch stay. -/
def reset (m : Ps2Mouse) : Ps2Mouse :=
  { m with
    state := .uninitialised, retried := false, hasWheel := false, commands := .none,
    timer := m.timer.clear }

end Ps2Mouse

end KeyBridge.Device
