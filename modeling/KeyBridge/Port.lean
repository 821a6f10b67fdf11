import KeyBridge.ByteRing
import KeyBridge.Device
import KeyBridge.Diagnostic.Log

/-!
# The device port

The port stands between the receiver and the session: it checks each frame, lets the session take
in its byte, and does what the session asks for. Bytes for the decoder go into a ring, commands
are offered to the transmitter, and all that is worth logging goes into the port's log.

* A frame with wrong parity is dropped and the device is asked for it again; the session does not
  hear of it.
* After a wrong start or stop bit the session is reset and the receiver restarted.
* Whenever the receiver is restarted or the session starts a new epoch the bytes still in the ring
  are discarded, so that none of them meets the decoder of another epoch.

A step offers at most one word to the transmitter, so that the transmitter is given to it as the
words that it would accept at that moment.
-/

namespace KeyBridge

open Device (Action)

/-- What the receiver is to do after a step. -/
inductive Outcome where
  /-- Go on receiving. -/
  | proceed
  /-- Start over at the next frame. -/
  | restart
deriving DecidableEq, Repr

/-- What a port has counted, each modulo 2^32. -/
structure PortStats where
  /-- Frames received. -/
  frames : UInt32 := 0
  /-- Frames refused. -/
  frameErrors : UInt32 := 0
  /-- Frames asked for again because of their parity. -/
  resends : UInt32 := 0
  /-- Bytes dropped because the ring was full. -/
  overflows : UInt32 := 0
  /-- Restarts of the receiver. -/
  restarts : UInt32 := 0
deriving DecidableEq, Repr

/-- What can be seen of a session from outside. -/
structure PortStatus where
  protocol : Protocol
  /-- Whether the device is ready for normal operation. -/
  initialised : Bool
  /-- Changes each time the device becomes ready. -/
  epoch : UInt16
  /-- The scan code set in use, for IBM keyboards. -/
  codeSet? : Option CodeSet
  /-- Whether there is a wheel, for mice. -/
  wheel? : Option Bool
deriving DecidableEq, Repr

/-- A port with the session of its device. -/
structure Port where
  device : Device
  log : Log := {}
  stats : PortStats := {}
deriving DecidableEq, Repr

/-- A port and its ring after a step, with the words offered to the transmitter and what the
receiver is to do. -/
structure PortStep (w : Nat := 64) where
  port : Port
  ring : ByteRing w
  offered : List UInt32 := []
  outcome : Outcome := .proceed
deriving DecidableEq, Repr

namespace Port

variable {w : Nat}

/-- The port of the configured device. -/
def ofConfig (c : Config) : Port := { device := .ofConfig c }

/-- The shape of the frames that the port receives. -/
def format (p : Port) : Wire.Format := p.device.protocol.format

/-- What can be seen of the session. -/
def status (p : Port) : PortStatus where
  protocol := p.device.protocol
  initialised := p.device.isInitialised
  epoch := p.device.epoch
  codeSet? := p.device.codeSet?
  wheel? := p.device.wheel?

/-- Records a diagnostic. -/
def note (p : Port) (d : Diagnostic) : Port := { p with log := p.log.push d }

/-! ## Parts of a step -/

/-- Queues a byte for the decoder. A byte that finds no room is dropped and counted. -/
def enqueue (s : PortStep w) (byte : UInt8) : PortStep w :=
  match s.ring.put? byte with
  | some ring => { s with ring }
  | none =>
    let stats := { s.port.stats with overflows := s.port.stats.overflows + 1 }
    { s with port := { s.port with stats }.note (.overflow byte) }

/-- Offers a command to the transmitter. A command that has no word or is not accepted is noted. -/
def transmit (accepts : UInt32 → Bool) (s : PortStep w) (command : UInt8) : PortStep w :=
  match Wire.encode? s.port.format command with
  | some word =>
    let s := { s with offered := s.offered ++ [word] }
    if accepts word then s else { s with port := s.port.note (.transmitFailed command) }
  | none => { s with port := s.port.note (.transmitFailed command) }

/-- Has the receiver restarted. -/
def restart (s : PortStep w) : PortStep w :=
  let stats := { s.port.stats with restarts := s.port.stats.restarts + 1 }
  { s with port := { s.port with stats }, ring := s.ring.discard, outcome := .restart }

/-- Puts the session after its step in place, and discards what is in the ring if the session has
started a new epoch. -/
def adopt (p : Port) (ring : ByteRing w) (s : Device.Step Device) : PortStep w where
  port := { p with device := s.next, log := p.log.pushAll s.notes }
  ring := if s.next.epoch = p.device.epoch then ring else ring.discard

/-- Does what the session asks for after it has taken in a byte. -/
def perform (accepts : UInt32 → Bool) (byte : UInt8) (s : PortStep w) : Action → PortStep w
  | .none => s
  | .send command => transmit accepts s command
  | .pass => enqueue s byte
  | .passAndSend command => transmit accepts (enqueue s byte) command
  | .queue first second => enqueue (enqueue s first) second
  | .restart => restart s

/-- Acts on a frame that was refused. -/
def refuse (accepts : UInt32 → Bool) (p : Port) (ring : ByteRing w) (e : Wire.FrameError) :
    PortStep w :=
  let stats := { p.stats with frameErrors := p.stats.frameErrors + 1 }
  let p := { p with stats }.note (.frame e)
  if e.losesPosition then restart { port := { p with device := p.device.reset }, ring }
  else
    let stats := { p.stats with resends := p.stats.resends + 1 }
    transmit accepts { port := { p with stats }, ring } Command.Ps2.resend

/-! ## Steps -/

/-- Takes in one word from the receiver. -/
def receive (p : Port) (ring : ByteRing w) (accepts : UInt32 → Bool) (word : UInt32) : PortStep w :=
  let p := { p with stats := { p.stats with frames := p.stats.frames + 1 } }
  match Wire.decode p.format word with
  | .error e => refuse accepts p ring e
  | .ok byte =>
    let s := p.device.receive byte
    perform accepts byte (p.adopt ring s) s.action

/-- Looks at the time. No byte was received, so nothing is passed on. -/
def tick (p : Port) (ring : ByteRing w) (accepts : UInt32 → Bool) (now : UInt32) (idle : Bool) :
    PortStep w :=
  let s := p.device.tick now idle
  match s.action with
  | .send command => transmit accepts (p.adopt ring s) command
  | .restart => restart (p.adopt ring s)
  | .none | .pass | .passAndSend _ | .queue _ _ => p.adopt ring s

/-- Moves the port's log into another one. -/
def drainLog (p : Port) (log : Log) : Port × Log :=
  let (rest, log) := p.log.drainInto log
  ({ p with log := rest }, log)

/-- Takes in what the host wants of the lock LEDs. -/
def setLeds (p : Port) (leds : LockLeds) : Port := { p with device := p.device.setLeds leds }

end Port

end KeyBridge
