/-!
# The byte ring

A ring of slots between one writer, which owns the head, and one reader, which owns the tail. One
slot always stays free, so that equal positions mean an empty ring.

The writer can also discard everything that is waiting. It may not move the tail, so it leaves a
mark at its own position and counts one more generation; the reader moves the tail up to the mark
when it reads next, and until then both sides take the mark for the tail.

* `contents` — the waiting bytes, oldest first;
* `put?` appends a byte if there is room, `get` takes the oldest, `discard` and `reset` empty the
  ring.

Generations are counted in machine words, so that the ring depends on the width `w` of a word; a
host with 64 bits is the default.
-/

namespace KeyBridge

/-- A ring of bytes on a machine with words of `w` bits. -/
structure ByteRing (w : Nat := 64) where
  slots : Vector UInt8 32 := .replicate 32 0
  /-- The slot that is written next. -/
  head : Nat := 0
  /-- The slot that is read next, discards apart. -/
  tail : Nat := 0
  /-- The head at the latest discard. -/
  mark : Nat := 0
  /-- How many discards there were, modulo 2^w. -/
  generation : BitVec w := 0
  /-- The generation up to which the tail accounts for discards. -/
  applied : BitVec w := 0
deriving DecidableEq, Repr

/-- On a host with 64 bits a generation can be given as a 64-bit number. -/
instance coeUInt64BitVec : Coe UInt64 (BitVec 64) := ⟨UInt64.toBitVec⟩

namespace ByteRing

variable {w : Nat}

/-- The number of slots. -/
def slotCount : Nat := 32

/-- How many bytes a ring can hold. -/
def capacity : Nat := slotCount - 1

/-- A ring with nothing in it. -/
def empty : ByteRing w := {}

/-- The slot after a slot. -/
def after (i : Nat) : Nat := (i + 1) % slotCount

/-- The tail with all discards accounted for. -/
def liveTail (r : ByteRing w) : Nat := if r.generation = r.applied then r.tail else r.mark

/-- How many bytes are waiting. -/
def length (r : ByteRing w) : Nat := (r.head + slotCount - r.liveTail) % slotCount

/-- Whether nothing is waiting. -/
def isEmpty (r : ByteRing w) : Bool := r.head == r.liveTail

/-- Whether there is no room for another byte. -/
def isFull (r : ByteRing w) : Bool := after r.head == r.liveTail

/-- The byte in a slot. -/
def slot (r : ByteRing w) (i : Nat) : UInt8 := r.slots[i]?.getD 0

/-- The waiting bytes, oldest first. -/
def contents (r : ByteRing w) : List UInt8 :=
  (List.range r.length).map fun i => r.slot ((r.liveTail + i) % slotCount)

/-- Appends a byte, if there is room for it. -/
def put? (r : ByteRing w) (byte : UInt8) : Option (ByteRing w) :=
  if r.isFull then none
  else some { r with slots := r.slots.setIfInBounds r.head byte, head := after r.head }

/-- Appends a byte, or leaves the ring as it is when it is full; says whether there was room. -/
def put (r : ByteRing w) (byte : UInt8) : ByteRing w × Bool :=
  match r.put? byte with
  | some r' => (r', true)
  | none => (r, false)

/-- Drops every byte that is waiting, on behalf of the writer. -/
def discard (r : ByteRing w) : ByteRing w :=
  { r with mark := r.head, generation := r.generation + 1 }

/-- Moves the tail up to the latest mark. -/
def settle (r : ByteRing w) : ByteRing w := { r with tail := r.liveTail, applied := r.generation }

/-- Takes the oldest byte. -/
def get (r : ByteRing w) : Option UInt8 × ByteRing w :=
  let r := r.settle
  if r.tail = r.head then (none, r) else (some (r.slot r.tail), { r with tail := after r.tail })

/-- Drops every byte that is waiting, on behalf of both sides. -/
def reset (r : ByteRing w) : ByteRing w :=
  { r with tail := r.head, mark := r.head, applied := r.generation }

end ByteRing

end KeyBridge
