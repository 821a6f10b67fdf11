import KeyBridge.Scan.Basic

/-!
# Mouse packets

A movement is a packet of three bytes, or four from a mouse with a wheel:

* the status: bits 0 to 2 are the buttons, bit 3 is always set, bits 4 and 5 are the signs of X
  and Y, bits 6 and 7 say that X or Y overflowed;
* the low eight bits of X;
* the low eight bits of Y, which is positive upwards;
* in the low four bits the movement of the wheel, towards the user.

A packet with an overflow is dropped. A byte without bit 3 cannot begin a packet.
-/

namespace KeyBridge.Scan.Mouse

/-- How many bytes a packet has. -/
def packetLength (wheel : Bool) : Nat := if wheel then 4 else 3

/-- A nine-bit two's complement number from its sign and its low eight bits. -/
def signed9 (negative : Bool) (low : UInt8) : Int16 :=
  low.toUInt16.toInt16 - if negative then 256 else 0

/-- A four-bit two's complement number from the low bits of a byte. -/
def signed4 (byte : UInt8) : Int8 := (byte <<< 4).toInt8 >>> 4

/-- The movement that a packet reports. -/
def report (status x y : UInt8) (wheel : Int8) : MouseReport where
  buttons := status &&& 0x07
  dx := signed9 (status.toNat.testBit 4) x
  dy := - signed9 (status.toNat.testBit 5) y
  wheel := wheel

/-- The reading of a complete packet. -/
def complete (wheel : Bool) (packet : Vector UInt8 4) : Reading :=
  if packet[0] &&& 0xC0 != 0 then .silent
  else
    let turn := if wheel then - signed4 packet[3] else 0
    .event (.mouse (report packet[0] packet[1] packet[2] turn))

/-- The packet under way. -/
structure State where
  /-- Its bytes in order of arrival, and behind them what is left of the packets before. -/
  packet : Vector UInt8 4 := .replicate 4 0
  /-- How many bytes of it have arrived. -/
  count : Nat := 0
deriving DecidableEq, Repr

/-- Takes in one byte. -/
def step (wheel : Bool) (s : State) (byte : UInt8) : State × Reading :=
  if s.count == 0 && byte &&& 0x08 == 0 then (s, .unexpected byte)
  else
    let packet := s.packet.setIfInBounds s.count byte
    let count := s.count + 1
    if count < packetLength wheel then ({ packet, count }, .silent)
    else ({ packet }, complete wheel packet)

end KeyBridge.Scan.Mouse
