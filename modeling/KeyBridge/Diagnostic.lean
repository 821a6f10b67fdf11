import KeyBridge.Wire.Frame

/-!
# Diagnostics

What goes wrong with a device and is worth a line in a log. Every such event is mended where it
occurs; nothing but the diagnostic remains of it.
-/

namespace KeyBridge

/-- An event worth logging. -/
inductive Diagnostic where
  /-- A frame was refused. -/
  | frame (cause : Wire.FrameError)
  /-- A byte was dropped because the ring was full. -/
  | overflow (byte : UInt8)
  /-- A device did not answer within so many stalls. With `gaveUp` its default is assumed,
  otherwise the question is put again. -/
  | timeout (stalls : UInt8) (gaveUp : Bool)
  /-- A byte that the exchange under way does not know. -/
  | unexpectedReply (byte : UInt8)
  /-- The device says that its self test failed. -/
  | selfTestFailed
  /-- The id of the device is settled. -/
  | identified (id : UInt16)
  /-- The device asked for a command again. -/
  | resendRequested (command : UInt8)
  /-- The device lost keys. -/
  | deviceOverrun (byte : UInt8)
  /-- An Amiga keyboard reports something about itself. -/
  | management (byte : UInt8)
  /-- A key that was down at power-up is passed over. -/
  | powerUpKeyDropped (byte : UInt8)
  /-- A command could not be handed to the transmitter. -/
  | transmitFailed (command : UInt8)
deriving DecidableEq, Repr

end KeyBridge
