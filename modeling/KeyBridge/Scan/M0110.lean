import KeyBridge.Command
import KeyBridge.Scan.Basic

/-!
# M0110 key codes

Every byte has bit 0 set, six bits of key code above it, and bit 7 set when the key comes up. 79
announces a key of the keypad (all codes here are hexadecimal). The four operator keys of the
keypad come as a shift transition, 71 or F1, followed by 79 and the key: the shift is reported as
it comes, and the operator has a code of its own.
-/

namespace KeyBridge.Scan.M0110

open Command.M0110 (keypadMark shiftMark)

/-- The key code of a byte. -/
def keyCode (byte : UInt8) : UInt8 := (byte >>> 1) &&& 0x3F

/-- The event code of a key of the keypad. -/
def keypadCode (code : UInt8) : UInt8 := 0x40 ||| code

/-- The key codes of the operators equal, divide, multiply and plus. -/
def operators : List UInt8 := [0x06, 0x0D, 0x02, 0x08]

/-- The event code of an operator key. -/
def operatorCode (code : UInt8) : UInt8 := 0x80 ||| code

/-- The event code of a key of the keypad after a shift transition. -/
def shiftedKeypadCode (code : UInt8) : UInt8 :=
  if code ∈ operators then operatorCode code else keypadCode code

/-- What has been read of the sequence under way. -/
inductive State where
  | init
  /-- A key of the keypad follows. -/
  | keypad
  /-- A shift transition, after which an operator may follow. -/
  | shift
  /-- A shift transition, then the announcement of the keypad. -/
  | shiftKeypad
deriving DecidableEq, Repr, Inhabited

/-- Takes in a byte that begins a sequence. -/
def begin (byte : UInt8) : State × Reading :=
  if byte = keypadMark then (.keypad, .silent)
  else (if keyBits byte = shiftMark then .shift else .init, .key (keyCode byte) (isMake byte))

/-- Takes in one byte. -/
def step (s : State) (byte : UInt8) : State × Reading :=
  if byte &&& 1 = 0 then (.init, .unexpected byte)
  else match s with
    | .init => begin byte
    | .keypad => (.init, .key (keypadCode (keyCode byte)) (isMake byte))
    | .shift => if byte = keypadMark then (.shiftKeypad, .silent) else begin byte
    | .shiftKeypad => (.init, .key (shiftedKeypadCode (keyCode byte)) (isMake byte))

end KeyBridge.Scan.M0110
