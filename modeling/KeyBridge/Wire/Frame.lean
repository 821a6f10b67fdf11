import KeyBridge.Wire.Format

/-!
# Frames

From a received word to a checked byte, and from a command byte to the word that is transmitted.

* `oddParity` — the bit that follows a byte on the wire in formats with parity, so that the eight
  data bits and the parity bit together hold an odd number of ones;
* `decode` — the byte of a received word, or the reason for which the frame is refused;
* `encode?` — the word that carries a command, if the format has a way to the device.
-/

namespace KeyBridge.Wire

/-! ## Parity -/

/-- The bits of a byte, the least significant first. -/
def bits (b : UInt8) : List Bool := (List.range 8).map b.toNat.testBit

/-- How many bits of a byte are set. -/
def ones (b : UInt8) : Nat := (bits b).count true

/-- The parity bit of a byte: set exactly when the byte holds an even number of ones. -/
def oddParity (b : UInt8) : Bool := ones b % 2 == 0

@[simp] theorem length_bits (b : UInt8) : (bits b).length = 8 := by simp [bits]

/-- A byte and its parity bit hold an odd number of ones. -/
theorem ones_add_oddParity (b : UInt8) : (ones b + (oddParity b).toNat) % 2 = 1 := by
  rcases Nat.mod_two_eq_zero_or_one (ones b) with h | h
  · simp [oddParity, h]
    omega
  · simp [oddParity, h]

/-! ## Words and bytes -/

/-- Why a received frame is refused. -/
inductive FrameError where
  /-- The start bit has the wrong level. -/
  | badStart
  /-- The parity bit does not make the number of ones odd. -/
  | badParity
  /-- The stop bit has the wrong level. -/
  | badStop
deriving DecidableEq, Repr

/-- After a wrong start or stop bit the position in the bit stream is lost; after a wrong parity
bit it is not, and the device is asked for the byte again. -/
def FrameError.losesPosition : FrameError → Bool
  | .badStart | .badStop => true
  | .badParity => false

/-- The four fields of an eleven-bit frame. -/
structure Frame where
  startBit : Bool
  data : UInt8
  parityBit : Bool
  stopBit : Bool
deriving DecidableEq, Repr

namespace Frame

/-- Splits a right-aligned word; the bits above the frame are ignored. -/
def ofWord (w : UInt32) : Frame where
  startBit := w.toNat.testBit 0
  data := (w >>> 1).toUInt8
  parityBit := w.toNat.testBit 9
  stopBit := w.toNat.testBit 10

/-- The right-aligned word with the fields of a frame. -/
def toWord (f : Frame) : UInt32 :=
  f.startBit.toUInt32 ||| (f.data.toUInt32 <<< 1) ||| (f.parityBit.toUInt32 <<< 9) |||
    (f.stopBit.toUInt32 <<< 10)

/-- The frame that carries a byte: start low, odd parity, stop high. -/
def ofByte (b : UInt8) : Frame := ⟨false, b, oddParity b, true⟩

/-- The byte of a frame whose fields agree. Start and stop are looked at first: in a frame that is
out of step the parity bit says nothing. -/
def validate (f : Frame) : Except FrameError UInt8 :=
  if f.startBit then .error .badStart
  else if !f.stopBit then .error .badStop
  else if oddParity f.data != f.parityBit then .error .badParity
  else .ok f.data

end Frame

/-- The byte rotated down by one place, its lowest bit going to the top. -/
def rotateDown (b : UInt8) : UInt8 := (b >>> 1) ||| (b <<< 7)

/-- Turns one received word into a checked byte. Of an `xt` frame only the start bit can be
checked, and it must be high; `amiga` and `m0110` words carry nothing but data. -/
def decode : Format → UInt32 → Except FrameError UInt8
  | .atPs2, w => (Frame.ofWord w).validate
  | .xt, w => if w &&& 1 = 0 then .error .badStart else .ok (w >>> 1).toUInt8
  | .amiga, w => .ok (rotateDown (~~~ w.toUInt8))
  | .m0110, w => .ok w.toUInt8

/-- The word that carries a command. In the `atPs2` format it holds data, parity and stop bit; the
transmitter makes the start bit itself by pulling the data line low. -/
def encode? : Format → UInt8 → Option UInt32
  | .atPs2, b => some (b.toUInt32 ||| ((oddParity b).toUInt32 <<< 8) ||| 0x200)
  | .m0110, b => some b.toUInt32
  | .xt, _ | .amiga, _ => none

end KeyBridge.Wire
