import KeyBridge.Chip.Program
import KeyBridge.Chip.Pins

/-!
# Requests to the chip

All that is asked of the chip, as values: how the state machine of the port is set up, started and
restarted, and how the LED is driven.
-/

namespace KeyBridge.Chip

/-- How the state machine of a port is set up. -/
structure Machine where
  /-- The number of instructions of its program. -/
  programLength : Nat
  /-- The data line. -/
  dataPin : UInt8
  /-- The clock line. -/
  clockPin : UInt8
  /-- The line that jumps look at. -/
  jumpPin : UInt8
  /-- Both shift registers shift right. -/
  shiftsRight : Bool
  /-- How many received bits make a word. -/
  threshold : Nat
  divider : Divider
deriving DecidableEq, Repr

/-- The state machine for a frame format. An XT keyboard's frame is known by its data line. -/
def Machine.forFormat (f : Wire.Format) (dataPin clockPin : UInt8) (system : UInt32) : Machine where
  programLength := (program f).assemble.words.length
  dataPin := dataPin
  clockPin := clockPin
  jumpPin := match f with
    | .xt => dataPin
    | .atPs2 | .amiga | .m0110 => clockPin
  shiftsRight := f.shiftsRight
  threshold := f.frameBits
  divider := .ofRates system tickRate

/-- One request to the chip. -/
inductive Request where
  /-- Turns on the pull-up of a pin. -/
  | pullUp (pin : UInt8)
  /-- Sets up the state machine. -/
  | configure (machine : Machine)
  /-- Makes inputs of pins. -/
  | inputs (pins : List UInt8)
  /-- Starts or stops the state machine. -/
  | enable (on : Bool)
  /-- Empties both queues of the state machine. -/
  | clearQueues
  /-- Puts the state machine back to the start of its program. -/
  | restart
  /-- Makes an output of a pin, at a level. -/
  | output (pin : UInt8) (level : Bool)
  /-- Sets the level of an output pin. -/
  | level (pin : UInt8) (level : Bool)
  /-- Lets the receiver interrupt the other tasks. -/
  | raisePriority
deriving DecidableEq, Repr

/-- Sets up and starts a state machine. -/
def Machine.start (m : Machine) (pullUps : Bool) : List Request :=
  (if pullUps then [.pullUp m.dataPin, .pullUp m.clockPin] else []) ++
    [.configure m, .inputs [m.dataPin, m.clockPin], .enable true]

/-- Drops what has been received of a frame and starts the program again. -/
def Machine.restart (m : Machine) : List Request :=
  [.enable false, .clearQueues, .restart, .configure m, .enable true]

/-- Makes an output of the LED's pin, with the LED off. -/
def Led.attach (l : Led) : Request := .output l.pin (l.level false)

/-- Turns the LED on or off. -/
def Led.turn (l : Led) (on : Bool) : Request := .level l.pin (l.level on)

end KeyBridge.Chip
