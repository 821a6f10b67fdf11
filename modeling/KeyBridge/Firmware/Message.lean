import KeyBridge.Chip.Pins
import KeyBridge.Event

/-!
# Log messages

What the firmware writes to its log. A message is sent as its level, a fixed text with places for
its arguments, and the arguments; the text itself is put together by whoever reads the log.
-/

namespace KeyBridge.Firmware

/-- How much a message matters. -/
inductive Level where
  | trace
  | debug
  | info
  | warn
  | error
deriving DecidableEq, Repr

/-- Why a command is not handed to the state machine. -/
inductive SendError where
  /-- Its queue is full. -/
  | busy
  /-- There is no way to the device. -/
  | unsupported
deriving DecidableEq, Repr

/-- A message. -/
inductive Message where
  | starting
  | chipReady
  | settingsRead
  | settingsRefused
  | defaultsUsed
  | portOn (protocol : Protocol) (data clock : UInt8)
  | inversionIgnored
  | portReady
  | ledUnavailable (pin : UInt8) (cause : Chip.PinError)
  | running
  | heartbeat
  | interfaceStarted (format : Wire.Format)
  | alignmentLost
  | commandDropped (word : UInt32) (cause : SendError)
  | restarting
  | hidStarted
  | key (event : KeyEvent)
  | mouse (report : MouseReport)
  | coordinatorStarted
  | keyLost (code : UInt8)
  | reportLost
deriving DecidableEq, Repr

/-- The name of a protocol in messages. -/
def protocolName : Protocol → String
  | .atKeyboard => "AtPs2Keyboard"
  | .ps2Mouse => "AtPs2Mouse"
  | .xt => "Xt"
  | .amiga => "Amiga"
  | .m0110 => "M0110"

/-- The name of a frame format in messages. -/
def formatName : Wire.Format → String
  | .atPs2 => "AtPs2"
  | .xt => "Xt"
  | .amiga => "Amiga"
  | .m0110 => "M0110"

/-- The name of a reason for which a command is dropped. -/
def SendError.name : SendError → String
  | busy => "Busy"
  | unsupported => "Unsupported"

/-- The name of a reason for which a pin is not handed out. -/
def pinErrorName : Chip.PinError → String
  | .invalidPin => "InvalidPin"
  | .alreadyTaken => "AlreadyTaken"

namespace Message

/-- How much a message matters. -/
def level : Message → Level
  | heartbeat => .trace
  | key _ | mouse _ => .debug
  | starting | chipReady | settingsRead | portOn _ _ _ | portReady | running | interfaceStarted _
  | restarting | hidStarted | coordinatorStarted => .info
  | inversionIgnored | ledUnavailable _ _ | alignmentLost | commandDropped _ _ | keyLost _
  | reportLost => .warn
  | settingsRefused | defaultsUsed => .error

/-- The fixed text of a message. -/
def text : Message → String
  | starting => "keyconv firmware starting..."
  | chipReady => "Peripherals initialized"
  | settingsRead => "Parsed embedded configuration successfully"
  | settingsRefused => "Failed to parse embedded config: \x7b\x7d"
  | defaultsUsed => "Using default configuration"
  | portOn _ _ _ => "Interface: \x7b\x7d on data gpio\x7b=u8\x7d, clock gpio\x7b=u8\x7d"
  | inversionIgnored => "Inverted interface pins are not supported, ignoring '!'"
  | portReady => "PIO interface initialized"
  | ledUnavailable _ _ => "Status LED gpio\x7b=u8\x7d unavailable: \x7b\x7d"
  | running => "All tasks spawned, firmware running"
  | heartbeat => "Main loop heartbeat"
  | interfaceStarted _ => "Interface task started (\x7b\x7d)"
  | alignmentLost => "Receiver lost bit alignment, restarting"
  | commandDropped _ _ => "Command \x7b=u32:#x\x7d dropped: \x7b\x7d"
  | restarting => "Restarting receiver"
  | hidStarted => "HID task started"
  | key _ => "key \x7b=u8:#x\x7d \x7b\x7d"
  | mouse _ => "mouse buttons=\x7b=u8:#x\x7d dx=\x7b=i16\x7d dy=\x7b=i16\x7d wheel=\x7b=i8\x7d"
  | coordinatorStarted => "Coordinator task started"
  | keyLost _ => "HID queue full, key \x7b=u8:#x\x7d lost"
  | reportLost => "HID queue full, mouse report lost"

/-- The arguments of a message, numbers in decimal. -/
def arguments : Message → List String
  | portOn protocol data clock => [protocolName protocol, toString data, toString clock]
  | ledUnavailable pin cause => [toString pin, pinErrorName cause]
  | interfaceStarted format => [formatName format]
  | commandDropped word cause => [toString word, cause.name]
  | key e => [toString e.code, if e.make then "make" else "break"]
  | mouse r => [toString r.buttons, toString r.dx, toString r.dy, toString r.wheel]
  | keyLost code => [toString code]
  | starting | chipReady | settingsRead | settingsRefused | defaultsUsed | inversionIgnored
  | portReady | running | heartbeat | alignmentLost | restarting | hidStarted | coordinatorStarted
  | reportLost => []

end Message

end KeyBridge.Firmware
