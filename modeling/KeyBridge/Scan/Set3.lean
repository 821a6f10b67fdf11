import KeyBridge.Scan.Basic

/-!
# Scan code set 3

One byte for each key, with F0 in front when the key comes up (all codes here are hexadecimal).
-/

namespace KeyBridge.Scan.Set3

/-- The event code of a byte: 83 is F7, 84 keypad minus, and 85 is F13 on keyboards with 122
keys. -/
def code? (byte : UInt8) : Option UInt8 :=
  if byte = 0x83 then some 0x02
  else if byte = 0x84 then some 0x7F
  else if byte = 0x85 then some 0x68
  else if 0x01 ≤ byte ∧ byte ≤ 0x7F then some byte
  else none

/-- What has been read of the sequence under way. -/
inductive State where
  | init
  | afterF0
deriving DecidableEq, Repr, Inhabited

/-- Takes in one byte. -/
def step (s : State) (byte : UInt8) : State × Reading :=
  match s with
  | .init => if byte = 0xF0 then (.afterF0, .silent) else (.init, .key? (code? byte) true)
  | .afterF0 =>
    match code? byte with
    | some c => (.init, .key c false)
    | none => (.init, .unexpected byte)

end KeyBridge.Scan.Set3
