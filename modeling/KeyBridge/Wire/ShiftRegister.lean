import KeyBridge.Wire.Format

/-!
# Shift registers

A receiver collects the bits of a frame in a 32-bit shift register and a transmitter sends a word
out of one. `align` moves a received register down to bit 0, and `place` puts an encoded command
where the transmitter takes its bits from.
-/

namespace KeyBridge.Wire

namespace Format

/-- One received bit enters the register: at the top with a shift right, or at the bottom with a
shift left. -/
def shiftIn (f : Format) (register : UInt32) (bit : Bool) : UInt32 :=
  if f.shiftsRight then (register >>> 1) ||| (bit.toUInt32 <<< 31)
  else (register <<< 1) ||| bit.toUInt32

/-- The register after the bits of one frame, in the order of arrival. -/
def receive (f : Format) (register : UInt32) (bits : List Bool) : UInt32 :=
  bits.foldl f.shiftIn register

/-- Right-aligns the register of a received frame and drops what earlier frames left in it. -/
def align (f : Format) (register : UInt32) : UInt32 :=
  if f.shiftsRight then register >>> (32 - UInt32.ofNat f.frameBits) else register &&& 0xFF

/-- Places an encoded command for the transmitter, which shifts `m0110` words out of the top. -/
def place (f : Format) (word : UInt32) : UInt32 :=
  match f with
  | .m0110 => (word &&& 0xFF) <<< 24
  | .atPs2 | .xt | .amiga => word

end Format

/-- The lowest `n` bits of a word, from bit 0 upwards. -/
def bitsUp (w : UInt32) (n : Nat) : List Bool := (List.range n).map w.toNat.testBit

/-- The highest `n` bits of a word, from bit 31 downwards. -/
def bitsDown (w : UInt32) (n : Nat) : List Bool :=
  (List.range n).map fun i => w.toNat.testBit (31 - i)

end KeyBridge.Wire
