/-!
# State machine assembly

Programs for the small state machines that drive the lines of the port. A program is a list of
instructions with labels between them; each instruction becomes one word of sixteen bits, the
operation at the top, then a delay of up to 31 cycles, then the operands. A pair of marks says
which part of the program is repeated.

Labels are positions among the instructions, so that a jump needs nothing but the position of its
label.
-/

namespace KeyBridge.Chip

/-- When a jump is taken. -/
inductive Condition where
  | always
  /-- The register X is zero. -/
  | xZero
  /-- The register X is not zero; it is decremented. -/
  | xDecrement
  /-- The register Y is not zero; it is decremented. -/
  | yDecrement
  /-- The jump pin is high. -/
  | pin
deriving DecidableEq, Repr

/-- The number of a condition in a jump. -/
def Condition.code : Condition → UInt16
  | always => 0
  | xZero => 1
  | xDecrement => 2
  | yDecrement => 4
  | pin => 6

/-- What a value can be set into. -/
inductive Target where
  | pins
  | x
  | y
  /-- The directions of the pins. -/
  | directions
deriving DecidableEq, Repr

/-- The number of a target. -/
def Target.code : Target → UInt16
  | pins => 0
  | x => 1
  | y => 2
  | directions => 4

/-- What a value can be moved from or into. -/
inductive Register where
  | x
  | y
  /-- The shift register for output. -/
  | output
deriving DecidableEq, Repr

/-- The number of a register. -/
def Register.code : Register → UInt16
  | x => 1
  | y => 2
  | output => 7

/-- The operation of an instruction. -/
inductive Operation where
  /-- Goes on at a label. -/
  | jump (condition : Condition) (label : String)
  /-- Waits until a pin, counted from the first one, has a level. -/
  | wait (level : Bool) (pin : UInt16)
  /-- Shifts bits in from the pins. -/
  | input (bits : UInt16)
  /-- Shifts bits out to the directions of the pins. -/
  | outputDirections (bits : UInt16)
  /-- Takes the next word to send, and waits for one if `blocking`. -/
  | pull (blocking : Bool)
  /-- Copies a register, inverted or not. -/
  | move (destination : Register) (inverted : Bool) (source : Register)
  /-- Sets a value. -/
  | set (target : Target) (value : UInt16)
deriving DecidableEq, Repr

/-- Does nothing: copies a register to itself. -/
def Operation.nop : Operation := .move .y false .y

/-- An operation with a number of cycles to wait after it. -/
structure Instruction where
  operation : Operation
  delay : UInt16 := 0
deriving DecidableEq, Repr

/-- One line of a program. -/
inductive Line where
  /-- Names the position of the next instruction. -/
  | label (name : String)
  /-- The repeated part begins at the next instruction. -/
  | repeatFrom
  /-- The repeated part ended with the last instruction. -/
  | repeatTo
  | instruction (i : Instruction)
deriving DecidableEq, Repr

/-- An operation as a line, with a number of cycles to wait. -/
def Operation.line (o : Operation) (delay : UInt16 := 0) : Line := .instruction ⟨o, delay⟩

/-- A program. -/
abbrev Program := List Line

/-- A program as the state machine runs it. It may stand anywhere in its memory. -/
structure Image where
  words : List UInt16
  /-- The last instruction of the repeated part. -/
  wrapSource : Nat
  /-- The first instruction of the repeated part. -/
  wrapTarget : Nat
deriving DecidableEq, Repr

/-- The number of an operation, for the top three bits of its word. -/
def Operation.code : Operation → UInt16
  | jump _ _ => 0
  | wait _ _ => 1
  | input _ => 2
  | outputDirections _ => 3
  | pull _ => 4
  | move _ _ _ => 5
  | set _ _ => 7

/-- The operands of an operation, for the low eight bits of its word. -/
def Operation.operands (position : String → UInt16) : Operation → UInt16
  | jump condition label => (condition.code <<< 5) ||| position label
  | wait level pin => (level.toUInt16 <<< 7) ||| pin ||| 0x20
  | input bits => bits
  | outputDirections bits => bits ||| 0x80
  | pull blocking => (blocking.toUInt16 <<< 5) ||| 0x80
  | move destination inverted source =>
    (destination.code <<< 5) ||| (inverted.toUInt16 <<< 3) ||| source.code
  | set target value => (target.code <<< 5) ||| value

namespace Program

/-- The instructions of a program. -/
def instructions (p : Program) : List Instruction :=
  p.filterMap fun
    | .instruction i => some i
    | .label _ | .repeatFrom | .repeatTo => none

/-- How many instructions stand before a line. -/
def position (p : Program) (l : Line) : Nat := (instructions (p.takeWhile (· != l))).length

/-- The word of an instruction of the program. -/
def word (p : Program) (i : Instruction) : UInt16 :=
  (i.operation.code <<< 13) ||| (i.delay <<< 8) |||
    i.operation.operands fun name => .ofNat (p.position (.label name))

/-- The program as the state machine runs it. -/
def assemble (p : Program) : Image where
  words := p.instructions.map p.word
  wrapSource := p.position .repeatTo - 1
  wrapTarget := p.position .repeatFrom

end Program

end KeyBridge.Chip
