import KeyBridge.ByteRing
import KeyBridge.Decoder
import KeyBridge.Diagnostic.Log
import KeyBridge.Port

/-!
# The coordinator

The coordinator runs beside the port. In each turn it has the port look at the time, follows what
can be seen of the session, empties the log, and moves at most one byte from the ring through the
decoder to the host, if the host is ready for an event.

A new epoch means a new session, and the decoder is replaced. Bytes that were put into the ring
after the coordinator looked at the session may belong to a session it does not know yet: it
notices by the ring's generation and leaves them for its next turn.
-/

namespace KeyBridge

/-- The decoder in use and the last status that it was chosen for. -/
structure Coordinator where
  decoder : Decoder
  /-- The scan code set of devices that do not tell theirs. -/
  defaultSet : CodeSet
  /-- What was last seen of the session. -/
  last : Option PortStatus := none
deriving DecidableEq, Repr

/-- What one turn took from the ring and made of it. -/
structure Drained (w : Nat := 64) where
  coordinator : Coordinator
  ring : ByteRing w
  /-- Whether a byte left the ring. -/
  consumed : Bool := false
  /-- The event for the host. -/
  event : Option Event := none
deriving DecidableEq, Repr

/-- A port, its ring and the coordinator after one turn, with all that came of it. -/
structure Turn (w : Nat := 64) where
  port : Port
  ring : ByteRing w
  coordinator : Coordinator
  /-- The words offered to the transmitter. -/
  offered : List UInt32 := []
  /-- Whether the device is ready, if that has changed. -/
  change : Option Bool := none
  /-- Whether a byte left the ring. -/
  consumed : Bool := false
  /-- The event for the host. -/
  event : Option Event := none
  /-- What the receiver is to do. -/
  outcome : Outcome := .proceed
deriving DecidableEq, Repr

namespace Coordinator

variable {w : Nat}

/-- The coordinator of the configured device, before the port has been looked at. -/
def ofConfig (c : Config) : Coordinator where
  decoder := .select c.protocol c.codeSet false
  defaultSet := c.codeSet

/-- The decoder for the session with a status. -/
def decoderFor (c : Coordinator) (s : PortStatus) : Decoder :=
  .select s.protocol (s.codeSet?.getD c.defaultSet) (s.wheel?.getD false)

/-- Follows the status of the port. The result says whether the device is ready, if that has
changed or was not known. -/
def sync (c : Coordinator) (s : PortStatus) : Coordinator × Option Bool :=
  let decoder := if c.last.map (·.epoch) = some s.epoch then c.decoder else c.decoderFor s
  let change := if c.last.map (·.initialised) = some s.initialised then none else some s.initialised
  ({ c with decoder, last := some s }, change)

/-- Moves at most one byte from the ring through the decoder, if the host is ready and nothing has
been discarded since the ring had the given generation. -/
def drainOne (c : Coordinator) (ring : ByteRing w) (generation : BitVec w) (ready : Bool) :
    Drained w :=
  if ready && ring.generation == generation then
    match ring.get with
    | (some byte, ring) =>
      let (decoder, event) := c.decoder.feed byte
      { coordinator := { c with decoder }, ring, consumed := true, event }
    | (none, ring) => { coordinator := c, ring }
  else { coordinator := c, ring }

/-- One turn, beginning with the generation of the ring. The status is taken after the port has
looked at the time, and nothing of its log is left. -/
def poll (c : Coordinator) (port : Port) (ring : ByteRing w) (accepts : UInt32 → Bool)
    (now : UInt32) (idle ready : Bool) : Turn w :=
  let s := port.tick ring accepts now idle
  let port := (s.port.drainLog .empty).1
  let (c, change) := c.sync port.status
  let d := c.drainOne s.ring ring.generation ready
  { port, ring := d.ring, coordinator := d.coordinator, offered := s.offered, change
    consumed := d.consumed, event := d.event, outcome := s.outcome }

end Coordinator

end KeyBridge
