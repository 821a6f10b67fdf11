/-!
# Frame formats

The four electrical frame shapes. A receiver hands over one word per frame, right-aligned:

* `atPs2` — bit 0 start (low), bits 1 to 8 data with the least significant bit first, bit 9 odd
  parity, bit 10 stop (high);
* `xt` — bit 0 start (high), bits 1 to 8 data with the least significant bit first;
* `amiga` — bits 7 to 0 are the line levels of D6 … D0, D7, active low;
* `m0110` — bits 7 to 0 are the data, the most significant bit first on the wire.
-/

namespace KeyBridge.Wire

/-- The shape of the frames of one protocol. -/
inductive Format where
  /-- Eleven bits with odd parity, both directions. -/
  | atPs2
  /-- Nine bits, device to host only. -/
  | xt
  /-- Eight inverted, rotated bits, each byte acknowledged by a pulse. -/
  | amiga
  /-- Eight bits, the keyboard clocks both directions. -/
  | m0110
deriving DecidableEq, Repr, Inhabited

namespace Format

/-- Whether the host can send commands to the device. -/
def bidirectional : Format → Bool
  | atPs2 | m0110 => true
  | xt | amiga => false

/-- How many bits one received frame has. -/
def frameBits : Format → Nat
  | atPs2 => 11
  | xt => 9
  | amiga | m0110 => 8

/-- Whether received bits enter the shift register at the top, so that the first one ends lowest. -/
def shiftsRight : Format → Bool
  | atPs2 | xt => true
  | amiga | m0110 => false

end Format

end KeyBridge.Wire
