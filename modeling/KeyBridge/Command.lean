/-!
# Commands and replies

The bytes that hosts and devices exchange outside the stream of key and mouse codes.
-/

namespace KeyBridge.Command

/-! ## AT and PS/2 keyboards and mice -/

namespace Ps2

/-- Host to device: start over with a self test. -/
def reset : UInt8 := 0xFF
/-- Host to device: send the last byte again. -/
def resend : UInt8 := 0xFE
/-- Host to device: report make and break of every key. -/
def setAllMakeBreak : UInt8 := 0xF8
/-- Host to device: start sending movement packets. -/
def enableReporting : UInt8 := 0xF4
/-- Host to device: the next byte is a sample rate. -/
def setSampleRate : UInt8 := 0xF3
/-- Host to device: send the device id. -/
def getId : UInt8 := 0xF2
/-- Host to device: the next byte is a bitmap of lock LEDs. -/
def setLockLeds : UInt8 := 0xED

/-- Device to host: command received. -/
def ack : UInt8 := 0xFA
/-- Device to host: power-on self test passed. -/
def selfTestPassed : UInt8 := 0xAA
/-- Device to host: power-on self test failed. -/
def selfTestFailed : UInt8 := 0xFC
/-- Device to host: reply to an echo. -/
def echoReply : UInt8 := 0xEE
/-- Device to host: send the last command again. -/
def resendRequest : UInt8 := 0xFE
/-- Device to host: a key could not be read. -/
def keyError : UInt8 := 0xFF
/-- Device to host: keys were lost. -/
def bufferOverrun : UInt8 := 0x00

/-- The id of a mouse whose wheel is enabled. -/
def wheelMouseId : UInt8 := 0x03

/-- The sample rates that, set one after the other, enable the wheel of a mouse that has one. -/
def wheelKnock : List UInt8 := [200, 100, 80]

end Ps2

/-! ## PC/XT keyboards -/

namespace Xt

/-- Device to host: power-on self test passed. -/
def selfTestPassed : UInt8 := 0xAA

end Xt

/-! ## Amiga keyboards -/

namespace Amiga

/-- The host is about to be reset from the keyboard. -/
def resetWarning : UInt8 := 0x78
/-- The last byte was not received well and is sent again. -/
def lostSync : UInt8 := 0xF9
/-- The keyboard's own queue overflowed. -/
def bufferOverflow : UInt8 := 0xFA
/-- The self test failed. -/
def selfTestFailed : UInt8 := 0xFC
/-- The keys held down at power-up follow. -/
def powerUpStart : UInt8 := 0xFD
/-- The list of keys held down at power-up ends. -/
def powerUpEnd : UInt8 := 0xFE
/-- The caps lock key, whose bit 7 carries the new state of the LED. -/
def capsLock : UInt8 := 0x62
/-- The highest key code. -/
def maxKeyCode : UInt8 := 0x67

end Amiga

/-! ## M0110 keyboards -/

namespace M0110

/-- Host to device: send the next key transition. -/
def inquiry : UInt8 := 0x10
/-- Host to device: reset and send the model number. -/
def model : UInt8 := 0x16
/-- Device to host: no key transition. -/
def noKey : UInt8 := 0x7B
/-- Announces a key of the keypad. -/
def keypadMark : UInt8 := 0x79
/-- The shift key, which also announces the operator keys of the keypad. -/
def shiftMark : UInt8 := 0x71

end M0110

end KeyBridge.Command
