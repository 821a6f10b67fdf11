import KeyBridge.Proofs.Bridge.Turn

/-!
# The bridge between the parts of a turn

A turn of the coordinator has four parts: it reads the generation of the ring, has the port look at
the time, follows the status it was given, and moves a byte. Frames can come in between any two of
them. A `Pipeline` is a bridge whose coordinator may have stopped there, and `Pipeline.Move` names
what can happen next.

## Key results

- `part_part_part_part`: four parts with nothing in between are one turn of the bridge
-/

namespace KeyBridge

variable {w : Nat}

/-- How far the coordinator has got with its turn. -/
inductive Stage (w : Nat) where
  | resting
  /-- The generation of the ring has been read. -/
  | looked (generation : BitVec w)
  /-- The port has looked at the time and given its status. -/
  | serviced (generation : BitVec w) (status : PortStatus)
  /-- The status has been followed. -/
  | synced (generation : BitVec w)
deriving DecidableEq, Repr

/-- A bridge, possibly in the middle of a turn of its coordinator. -/
structure Pipeline (w : Nat) where
  bridge : Bridge w
  stage : Stage w := .resting
deriving DecidableEq, Repr

namespace Pipeline

/-- The pipeline of the configured device. -/
def ofConfig (c : Config) : Pipeline w := { bridge := .ofConfig c }

/-- The next part of a turn. -/
def part (p : Pipeline w) (now : UInt32) : Pipeline w :=
  match p.stage with
  | .resting => { p with stage := .looked p.bridge.ring.generation }
  | .looked g =>
    let b := (p.bridge.service now).1
    { bridge := b, stage := .serviced g b.port.status }
  | .serviced g s => { bridge := p.bridge.follow s, stage := .synced g }
  | .synced g => { bridge := (p.bridge.drainOne g).1 }

/-- What can happen to a pipeline. -/
inductive Move where
  /-- A word comes from the receiver. -/
  | frame (word : UInt32)
  /-- The host wants other lock LEDs. -/
  | leds (wanted : LockLeds)
  /-- The host becomes ready, or stops being ready. -/
  | ready (value : Bool)
  /-- The clock line changes. -/
  | idle (value : Bool)
  /-- The transmitter sends what it holds. -/
  | flush
  /-- The coordinator goes on with its turn. -/
  | part (now : UInt32)
deriving DecidableEq, Repr

/-- The pipeline after a move. -/
def step (p : Pipeline w) : Move → Pipeline w
  | .frame word => { p with bridge := p.bridge.step (.frame word) }
  | .leds wanted => { p with bridge := p.bridge.step (.leds wanted) }
  | .ready value => { p with bridge := p.bridge.step (.ready value) }
  | .idle value => { p with bridge := p.bridge.step (.idle value) }
  | .flush => { p with bridge := p.bridge.step .flush }
  | .part now => p.part now

/-- The pipeline after a run of moves. -/
def run (p : Pipeline w) (moves : List Move) : Pipeline w := moves.foldl step p

/-- Four parts with nothing in between are one turn of the bridge. -/
theorem part_part_part_part (b : Bridge w) (hb : b.attached = true) (t now t' t'' : UInt32) :
    (((({ bridge := b } : Pipeline w).part t).part now).part t').part t'' =
      { bridge := (b.poll now).1 } := by
  rw [b.poll_eq hb]
  rfl

end Pipeline

end KeyBridge
