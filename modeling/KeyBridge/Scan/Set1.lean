import KeyBridge.Scan.Basic

/-!
# Scan code set 1

Make codes are below 80 (all codes here are hexadecimal) and break codes set bit 7. E0 announces
one extended key, which is folded into a code that the base keys do not use. E1 begins the pause
key, `E1 1D 45` when it goes down and `E1 9D C5` when it comes up. Korean keyboards send F1 for
Hanja and F2 for Hangul when the key goes down and nothing when it comes up.
-/

namespace KeyBridge.Scan.Set1

/-- The event code of the pause key. -/
def pause : UInt8 := 0x55

/-- The event code of the Hanja key. -/
def hanja : UInt8 := 0x71

/-- The event code of the Hangul key. -/
def hangul : UInt8 := 0x72

/-- The extended keys: the code after E0 and the event code. -/
def extendedKeys : List (UInt8 × UInt8) :=
  [(0x37, 0x54), -- print screen
    (0x46, pause), -- control and break
    (0x1C, 0x6F), -- keypad enter
    (0x35, 0x7F), -- keypad divide
    (0x5B, 0x5A), -- left GUI
    (0x5C, 0x5B), -- right GUI
    (0x5D, 0x5C), -- application
    (0x5E, 0x5D), -- power
    (0x5F, 0x5E), -- sleep
    (0x63, 0x5F), -- wake
    (0x48, 0x60), -- up
    (0x4B, 0x61), -- left
    (0x50, 0x62), -- down
    (0x4D, 0x63), -- right
    (0x52, 0x6A), -- insert
    (0x53, 0x6B), -- delete
    (0x47, 0x74), -- home
    (0x4F, 0x75), -- end
    (0x49, 0x77), -- page up
    (0x51, 0x78), -- page down
    (0x1D, 0x7A), -- right control
    (0x38, 0x7C)] -- right alt

/-- The event code of the byte after E0, make or break. The shifts that some keyboards wrap around
the navigation keys have none. -/
def extendedCode? (byte : UInt8) : Option UInt8 := extendedKeys.lookup (keyBits byte)

/-- The event code of a byte that stands alone; 00 and 80 have none. -/
def baseCode? (byte : UInt8) : Option UInt8 :=
  if keyBits byte = 0 then none else some (keyBits byte)

/-- What has been read of the sequence under way. -/
inductive State where
  | init
  | afterE0
  | afterE1
  | afterE1x1D
  | afterE1x9D
deriving DecidableEq, Repr, Inhabited

/-- Takes in one byte. -/
def step (s : State) (byte : UInt8) : State × Reading :=
  match s with
  | .init =>
    if byte = 0xE0 then (.afterE0, .silent)
    else if byte = 0xE1 then (.afterE1, .silent)
    else if byte = 0xF1 then (.init, .key hanja true)
    else if byte = 0xF2 then (.init, .key hangul true)
    else (.init, .key? (baseCode? byte) (isMake byte))
  | .afterE0 => (.init, .key? (extendedCode? byte) (isMake byte))
  | .afterE1 =>
    if byte = 0x1D then (.afterE1x1D, .silent)
    else if byte = 0x9D then (.afterE1x9D, .silent)
    else (.init, .unexpected byte)
  | .afterE1x1D => if byte = 0x45 then (.init, .key pause true) else (.init, .unexpected byte)
  | .afterE1x9D => if byte = 0xC5 then (.init, .key pause false) else (.init, .unexpected byte)

end KeyBridge.Scan.Set1
