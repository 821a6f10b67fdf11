import KeyBridge.Scan.Basic

/-!
# Scan code set 2

F0 announces a break (all codes here are hexadecimal). E0 announces an extended key, which is
folded into a code that the base keys do not use. The pause key sends `E1 14 77` when it goes down
and `E1 F0 14 F0 77` when it comes up.
-/

namespace KeyBridge.Scan.Set2

/-- The event code of the pause key. -/
def pause : UInt8 := 0x80

/-- The event code of print screen, alone or with alt. -/
def printScreen : UInt8 := 0x7F

/-- The extended keys: the code after E0 and the event code. -/
def extendedKeys : List (UInt8 × UInt8) :=
  [(0x11, 0x0F), -- right alt
    (0x14, 0x17), -- right control
    (0x1F, 0x19), -- left GUI
    (0x27, 0x1F), -- right GUI
    (0x2F, 0x5C), -- application
    (0x4A, 0x60), -- keypad divide
    (0x5A, 0x62), -- keypad enter
    (0x69, 0x27), -- end
    (0x6B, 0x53), -- left
    (0x6C, 0x2F), -- home
    (0x70, 0x39), -- insert
    (0x71, 0x37), -- delete
    (0x72, 0x3F), -- down
    (0x74, 0x47), -- right
    (0x75, 0x4F), -- up
    (0x7A, 0x56), -- page down
    (0x7D, 0x5E), -- page up
    (0x7C, printScreen), -- print screen
    (0x7E, pause), -- control and break
    (0x21, 0x65), -- volume down
    (0x32, 0x6E), -- volume up
    (0x23, 0x6F)] -- mute

/-- The event code of the byte after E0. -/
def extendedCode? (byte : UInt8) : Option UInt8 := extendedKeys.lookup byte

/-- The shifts that some keyboards wrap around the navigation keys. -/
def isFakeShift (byte : UInt8) : Bool := byte == 0x12 || byte == 0x59

/-- The event code of a byte that stands alone or after F0: 83 is F7 and 84 is print screen with
alt. -/
def baseCode? (byte : UInt8) : Option UInt8 :=
  if byte = 0x83 then some 0x02
  else if byte = 0x84 then some printScreen
  else if 0x01 ≤ byte ∧ byte ≤ 0x7F then some byte
  else none

/-- What has been read of the sequence under way. -/
inductive State where
  | init
  | afterF0
  | afterE0
  | afterE0xF0
  | afterE1
  | afterE1x14
  | afterE1xF0
  | afterE1xF0x14
  | afterE1xF0x14xF0
deriving DecidableEq, Repr, Inhabited

/-- The reading of the byte that names an extended key. -/
def extended (byte : UInt8) (make : Bool) : Reading :=
  if isFakeShift byte then .silent
  else if 0x80 ≤ byte then .unexpected byte
  else .key? (extendedCode? byte) make

/-- Goes on to `next` if the byte is the one that is due, and reports it as unexpected if not. -/
def expect (due : UInt8) (next : State × Reading) (byte : UInt8) : State × Reading :=
  if byte = due then next else (.init, .unexpected byte)

/-- Takes in one byte. -/
def step (s : State) (byte : UInt8) : State × Reading :=
  match s with
  | .init =>
    if byte = 0xE0 then (.afterE0, .silent)
    else if byte = 0xE1 then (.afterE1, .silent)
    else if byte = 0xF0 then (.afterF0, .silent)
    else (.init, .key? (baseCode? byte) true)
  | .afterF0 =>
    match baseCode? byte with
    | some c => (.init, .key c false)
    | none => (.init, .unexpected byte)
  | .afterE0 => if byte = 0xF0 then (.afterE0xF0, .silent) else (.init, extended byte true)
  | .afterE0xF0 => (.init, extended byte false)
  | .afterE1 =>
    if byte = 0x14 then (.afterE1x14, .silent) else expect 0xF0 (.afterE1xF0, .silent) byte
  | .afterE1x14 => expect 0x77 (.init, .key pause true) byte
  | .afterE1xF0 => expect 0x14 (.afterE1xF0x14, .silent) byte
  | .afterE1xF0x14 => expect 0xF0 (.afterE1xF0x14xF0, .silent) byte
  | .afterE1xF0x14xF0 => expect 0x77 (.init, .key pause false) byte

end KeyBridge.Scan.Set2
