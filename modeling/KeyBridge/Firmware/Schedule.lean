import KeyBridge.Firmware.Tasks

/-!
# The schedule

All tasks have a turn one after the other, round after round, until none of them has anything to
do. A round can take one byte out of the ring, and nothing enters the ring after the first round,
so that there are few rounds.

* `Board.settle` — the board when all tasks have come to rest;
* `Board.boot` — the board after the start with the built-in configuration, `Board.bootWith` — with
  any text in its place, `Board.start` — with a configuration and without the main task.
-/

namespace KeyBridge.Firmware.Board

/-- Whether a task has something to do. -/
def hasWork (b : Board) : Task → Bool
  | .main => b.mainSince.any fun since => since + heartbeatPeriod ≤ b.now
  | .interface => !b.received.isEmpty || !b.commands.isEmpty || b.restartDue
  | .hid => !b.events.isEmpty
  | .led => b.led.isSome && b.ready?.isSome
  | .coordinator =>
    match b.coordinatorSince with
    | none => true
    | some since => b.dataReady || since + pollPeriod ≤ b.now

/-- A turn of a task. -/
def turn (b : Board) : Task → Board
  | .main => b.mainTurn
  | .interface => b.interfaceTurn
  | .hid => b.hidTurn
  | .led => b.ledTurn
  | .coordinator => b.coordinatorTurn

/-- The tasks in the order of their turns. -/
def order : List Task := [.main, .interface, .hid, .led, .coordinator]

/-- A turn of a task, unless it is paused. -/
def visit (b : Board) (t : Task) : Board := if t ∈ b.paused then b else b.turn t

/-- A turn of every task. -/
def round (b : Board) : Board := order.foldl visit b

/-- Whether any task that is not paused has something to do. -/
def busy (b : Board) : Bool := order.any fun t => t ∉ b.paused && b.hasWork t

/-- At most `n` rounds, as long as there is something to do. -/
def rounds : Nat → Board → Board
  | 0, b => b
  | n + 1, b => if b.busy then rounds n b.round else b

/-- More rounds than it ever takes: one for each byte that the ring can hold, and a few for what
follows from the first and the last of them. -/
def maxRounds : Nat := ByteRing.capacity + 9

/-- All tasks run until they have come to rest. -/
def settle (b : Board) : Board := rounds maxRounds b

/-- The board after the start with a configuration and without the main task. -/
def start (c : Config) (system : UInt32) : Except Chip.PinError Board := do
  let w ← Wiring.ofConfig c
  return (wire c w system).settle

/-- The board after the start with the text of a configuration built in. -/
def bootWith (text : List Char) (system : UInt32) : Except Chip.PinError Board := do
  let (c, loaded) := load text
  let w ← Wiring.ofConfig c
  return ((wire c w system).announce c w loaded).settle

/-- The board after the start with the built-in configuration. -/
def boot (system : UInt32) : Except Chip.PinError Board := bootWith settings.toList system

/-! ## From outside -/

/-- Words arrive at the state machine. -/
def receiveWords (b : Board) (words : List UInt32) : Board :=
  { b with received := b.received ++ words }

/-- Time passes. -/
def advance (b : Board) (milliseconds : Nat) : Board := { b with now := b.now + milliseconds }

/-- A task stops having turns. -/
def pause (b : Board) (t : Task) : Board := { b with paused := t :: b.paused }

/-- A task has turns again. -/
def resume (b : Board) (t : Task) : Board := { b with paused := b.paused.filter (· ≠ t) }

/-- Takes one event in place of the task for the host. -/
def takeEvent (b : Board) : Option Event × Board :=
  match b.events with
  | [] => (none, b)
  | e :: es => (some e, { b with events := es })

/-- The board with an empty log and no requests on record. -/
def forget (b : Board) : Board := { b with messages := [], requests := [] }

end KeyBridge.Firmware.Board
