import KeyBridge.Command
import KeyBridge.Event

/-!
# Readings

A decoder turns the bytes of one device into events, one byte at a time. Each has a type of states
with an initial one and a step function from a state and a byte to the next state and a
`Reading`. A byte that does not fit the sequence under way puts the decoder back into its initial
state.

The decoder of Amiga keyboards, `Amiga.read`, has no states: every byte is a transition.
-/

namespace KeyBridge.Scan

/-- What a decoder makes of one byte. -/
inductive Reading where
  /-- The byte is part of a longer sequence, or stands for nothing. -/
  | silent
  /-- The byte completes an event. -/
  | event (e : Event)
  /-- The byte does not fit the sequence under way. -/
  | unexpected (byte : UInt8)
deriving DecidableEq, Repr

namespace Reading

/-- The event of a reading; an unexpected byte counts as silence. -/
def event? : Reading → Option Event
  | event e => some e
  | silent | unexpected _ => none

/-- Whether a reading is about an unexpected byte. -/
def isUnexpected : Reading → Bool
  | unexpected _ => true
  | silent | event _ => false

/-- The reading of a key transition. -/
def key (code : UInt8) (make : Bool) : Reading := event (.key ⟨code, make⟩)

/-- The reading of a key transition whose code may be unknown; an unknown key is not reported. -/
def key? (code : Option UInt8) (make : Bool) : Reading :=
  match code with
  | some c => key c make
  | none => silent

end Reading

/-- The bit that marks a release in the codes that have one. -/
def releaseBit : UInt8 := 0x80

/-- Whether a byte with a release bit stands for a key going down. -/
def isMake (byte : UInt8) : Bool := byte &&& releaseBit == 0

/-- The key code of a byte with a release bit. -/
def keyBits (byte : UInt8) : UInt8 := byte &&& ~~~releaseBit

/-! ## Amiga key codes -/

namespace Amiga

/-- The reading of one byte: seven bits of key code, and bit 7 set when the key comes up. Caps lock
arrives as a press and a release like any other key. Codes above the highest key are unexpected. -/
def read (byte : UInt8) : Reading :=
  if Command.Amiga.maxKeyCode < keyBits byte then .unexpected byte
  else .key (keyBits byte) (isMake byte)

end Amiga

end KeyBridge.Scan
