import KeyBridge.Coordinator
import KeyBridge.Transmitter

/-!
# The bridge

A port, its ring and the coordinator, together with what stands around them: the transmitter, the
clock line, the host and whoever watches the state of the device. `Bridge.Move` names all that can
happen, and `Bridge.run` is what has become of a bridge after any run of moves.
-/

namespace KeyBridge

/-- What a bridge has given away, each in order. -/
structure Trace where
  /-- The words offered to the transmitter. -/
  offered : List UInt32 := []
  /-- The words that the transmitter took. -/
  sent : List UInt32 := []
  /-- The events for the host. -/
  events : List Event := []
  /-- The reports on whether the device is ready. -/
  life : List Bool := []
deriving DecidableEq, Repr

/-- A port, its ring and the coordinator with their surroundings. -/
structure Bridge (w : Nat := 64) where
  port : Port
  ring : ByteRing w := .empty
  coordinator : Coordinator
  /-- The diagnostics that have left the port. -/
  log : Log := .empty
  transmitter : Transmitter := .queue none []
  /-- The state of the clock line. -/
  idle : Bool := true
  /-- Whether the host is ready for an event. -/
  ready : Bool := true
  /-- Whether the host takes movements of a mouse. -/
  takesMouse : Bool := true
  /-- Whether anyone wants to know if the device is ready. -/
  watched : Bool := true
  /-- Whether the coordinator sees the port. -/
  attached : Bool := true
  trace : Trace := {}
deriving DecidableEq, Repr

namespace Bridge

variable {w : Nat}

/-- The bridge for the configured device. -/
def ofConfig (c : Config) : Bridge w := { port := .ofConfig c, coordinator := .ofConfig c }

/-- The words that the transmitter would take. -/
def accepts (b : Bridge w) (_word : UInt32) : Bool := b.transmitter.accepts

/-- Offers a word to the transmitter. -/
def offer (b : Bridge w) (word : UInt32) : Bridge w :=
  let sent := if b.transmitter.accepts then b.trace.sent ++ [word] else b.trace.sent
  { b with
    transmitter := b.transmitter.offer word
    trace := { b.trace with offered := b.trace.offered ++ [word], sent } }

/-- Hands an event to the host, which may not take those of a mouse. -/
def deliver (b : Bridge w) (e : Event) : Bridge w :=
  if e.isKey || b.takesMouse then
    { b with trace := { b.trace with events := b.trace.events ++ [e] } }
  else b

/-- Reports whether the device is ready. -/
def report (b : Bridge w) (initialised : Bool) : Bridge w :=
  if b.watched then { b with trace := { b.trace with life := b.trace.life ++ [initialised] } }
  else b

/-- Takes over the port and the ring after a step. -/
def settle (b : Bridge w) (s : PortStep w) : Bridge w :=
  let b := { b with port := s.port, ring := s.ring }
  s.offered.foldl offer b

/-- A word comes from the receiver. -/
def frame (b : Bridge w) (word : UInt32) : Bridge w × Outcome :=
  let s := b.port.receive b.ring b.accepts word
  (b.settle s, s.outcome)

/-- The port looks at the time. -/
def tick (b : Bridge w) (now : UInt32) : Bridge w × Outcome :=
  let s := b.port.tick b.ring b.accepts now b.idle
  (b.settle s, s.outcome)

/-- The log of the port is moved out of it. -/
def drainLog (b : Bridge w) : Bridge w :=
  let (port, log) := b.port.drainLog b.log
  { b with port, log }

/-- The port looks at the time and gives its log away. -/
def service (b : Bridge w) (now : UInt32) : Bridge w × Outcome :=
  let (b, outcome) := b.tick now
  (b.drainLog, outcome)

/-- The coordinator follows a status. -/
def sync (b : Bridge w) (s : PortStatus) : Bridge w × Option Bool :=
  let (coordinator, change) := b.coordinator.sync s
  ({ b with coordinator }, change)

/-- The coordinator moves a byte, unless something was discarded since the given generation. -/
def drainOne (b : Bridge w) (generation : BitVec w) : Bridge w × Bool :=
  let d := b.coordinator.drainOne b.ring generation b.ready
  let b := { b with coordinator := d.coordinator, ring := d.ring }
  (d.event.elim b b.deliver, d.consumed)

/-- The coordinator has a turn. The result says whether a byte left the ring, and what the receiver
is to do. Without a port nothing happens. -/
def poll (b : Bridge w) (now : UInt32) : Bridge w × Bool × Outcome :=
  if b.attached then
    let t := b.coordinator.poll b.port b.ring b.accepts now b.idle b.ready
    let b := { b with port := t.port, ring := t.ring, coordinator := t.coordinator, log := .empty }
    let b := t.offered.foldl offer b
    let b := t.change.elim b b.report
    (t.event.elim b b.deliver, t.consumed, t.outcome)
  else (b, false, .proceed)

/-- The coordinator has turns until one moves no byte, and `n` turns at most. The result is the
number of turns that moved one. -/
def pollUpTo (now : UInt32) : Nat → Bridge w → Bridge w × Nat
  | 0, b => (b, 0)
  | n + 1, b =>
    match b.poll now with
    | (b, true, _) => (pollUpTo now n b).map id (· + 1)
    | (b, false, _) => (b, 0)

/-- The coordinator has turns until one moves no byte. Every other turn takes one byte out of the
ring, so that there are no more of them than bytes. -/
def drain (b : Bridge w) (now : UInt32) : Bridge w × Nat := pollUpTo now (b.ring.length + 1) b

/-- What can happen to a bridge. -/
inductive Move where
  /-- A word comes from the receiver. -/
  | frame (word : UInt32)
  /-- The port looks at the time. -/
  | tick (now : UInt32)
  /-- The coordinator has a turn. -/
  | poll (now : UInt32)
  /-- The host wants other lock LEDs. -/
  | leds (wanted : LockLeds)
  /-- The host becomes ready, or stops being ready. -/
  | ready (value : Bool)
  /-- The clock line changes. -/
  | idle (value : Bool)
  /-- The transmitter sends what it holds. -/
  | flush
deriving DecidableEq, Repr

/-- The bridge after a move. -/
def step (b : Bridge w) : Move → Bridge w
  | .frame word => (b.frame word).1
  | .tick now => (b.tick now).1
  | .poll now => (b.poll now).1
  | .leds wanted => { b with port := b.port.setLeds wanted }
  | .ready value => { b with ready := value }
  | .idle value => { b with idle := value }
  | .flush => { b with transmitter := b.transmitter.flush }

/-- The bridge after a run of moves. -/
def run (b : Bridge w) (moves : List Move) : Bridge w := moves.foldl step b

end Bridge

end KeyBridge
