import KeyBridge.Chip.Request
import KeyBridge.Config.Reader
import KeyBridge.Coordinator
import KeyBridge.Firmware.Message

/-!
# The board

The whole state of a running converter: the port, its ring and the coordinator, the queues and
signals between the tasks, the chip as the tasks see it, and what has been written to the log and
asked of the chip so far.

* `settings` — the configuration that the firmware is built with;
* `Wiring.ofConfig` — the pins that a configuration asks for, if they can all be handed out;
* `Board.wire` — a board at the moment its tasks have been started.
-/

namespace KeyBridge.Firmware

/-! ## Built-in settings -/

/-- The text of the built-in configuration, line by line. -/
def settingsLines : List String :=
  ["[interface]",
    "protocol = \"at\"",
    "code_set = 2",
    "data_pin = \"^gpio2\"",
    "clock_pin = \"^gpio3\"",
    "",
    "[timing]",
    "stall_period_ms = 200",
    "ack_stall_limit = 5",
    "id_stall_limit = 2",
    "response_timeout_ms = 500",
    "",
    "[mouse]",
    "wheel = true",
    "",
    "[status]",
    "led_pin = \"gpio25\"",
    ""]

/-- The text of the built-in configuration. -/
def settings : String := "\n".intercalate settingsLines

/-! ## Tasks and pins -/

/-- The tasks of the firmware. -/
inductive Task where
  | main
  /-- Owns the state machine of the port. -/
  | interface
  /-- Takes events for the host. -/
  | hid
  /-- Drives the LED. -/
  | led
  | coordinator
deriving DecidableEq, Repr

/-- The pins in use, with what is to be logged about them. -/
structure Wiring where
  dataPin : UInt8
  clockPin : UInt8
  led : Option Chip.Led
  complaints : List Message := []
deriving DecidableEq, Repr

/-- Takes the LED's pin, or does without the LED. -/
def takeLed (bank : Chip.PinBank) : Option Pin → Option Chip.Led × List Message
  | none => (none, [])
  | some p =>
    match bank.take p.number with
    | .ok _ => (some ⟨p.number, p.inverted⟩, [])
    | .error e => (none, [.ledUnavailable p.number e])

/-- Takes the pins that a configuration asks for. Without both lines there is no port. -/
def Wiring.ofConfig (c : Config) : Except Chip.PinError Wiring := do
  let bank ← ({} : Chip.PinBank).take c.dataPin.number
  let bank ← bank.take c.clockPin.number
  let (led, complaints) := takeLed bank c.ledPin
  return { dataPin := c.dataPin.number, clockPin := c.clockPin.number, led, complaints }

/-- A board. -/
structure Board where
  /-- The shape of the frames on the port. -/
  format : Wire.Format
  /-- The state machine of the port. -/
  machine : Chip.Machine
  led : Option Chip.Led
  /-- The port, as long as it is attached. -/
  port : Option Port
  /-- The ring; the chip has words of 32 bits. -/
  ring : ByteRing 32 := .empty
  coordinator : Coordinator
  /-- Words for the device that the state machine has not been given yet. -/
  commands : List UInt32 := []
  /-- Events for the host. -/
  events : List Event := []
  /-- The receiver is to be restarted. -/
  restartDue : Bool := false
  /-- There are new bytes in the ring. -/
  dataReady : Bool := false
  /-- What the LED is to show. -/
  ready? : Option Bool := none
  /-- The lock LEDs as the host wants them, if that is news. -/
  hostLeds : Option LockLeds := none
  /-- The words that the state machine has received. -/
  received : List UInt32 := []
  /-- The words that the state machine is to send. -/
  sending : List UInt32 := []
  /-- The levels of all pins. -/
  levels : UInt32 := 0xFFFFFFFF
  /-- The time in milliseconds. -/
  now : Nat := 0
  /-- Since when the main task waits, if it runs. -/
  mainSince : Option Nat := none
  /-- Since when the coordinator waits, unless it only gave way to the other tasks. -/
  coordinatorSince : Option Nat := none
  /-- The tasks that do not run for the time being. -/
  paused : List Task := []
  /-- What has been logged. -/
  messages : List Message := []
  /-- What has been asked of the chip. -/
  requests : List Chip.Request := []
deriving Repr

namespace Board

/-! ## Capacities -/

/-- How many commands can wait for the state machine. -/
def commandRoom : Nat := 4

/-- How many events can wait for the host. -/
def eventRoom : Nat := 16

/-- How many words the state machine holds to send. -/
def sendRoom : Nat := 4

/-! ## Effects -/

/-- Writes to the log. -/
def say (b : Board) (m : Message) : Board := { b with messages := b.messages ++ [m] }

/-- Asks something of the chip. -/
def ask (b : Board) (rs : List Chip.Request) : Board := { b with requests := b.requests ++ rs }

/-- Restarts the state machine, which loses what it has received and is to send. -/
def restart (b : Board) : Board :=
  { b with received := [], sending := [] }.ask b.machine.restart

/-- Whether another command can wait. -/
def acceptsCommand (b : Board) : Bool := b.commands.length < commandRoom

/-- Has a command wait for the state machine, if there is room. -/
def queueCommand (b : Board) (word : UInt32) : Board :=
  if b.acceptsCommand then { b with commands := b.commands ++ [word] } else b

/-- Whether another event can wait. -/
def acceptsEvent (b : Board) : Bool := b.events.length < eventRoom

/-- Has an event wait for the host. An event without room is lost. -/
def deliver (b : Board) (e : Event) : Board :=
  if b.acceptsEvent then { b with events := b.events ++ [e] }
  else match e with
    | .key k => b.say (.keyLost k.code)
    | .mouse _ => b.say .reportLost

/-- Takes over what a step of the port has left. -/
def settlePort (b : Board) (s : PortStep 32) : Board :=
  let b := { b with port := some s.port, ring := s.ring }
  s.offered.foldl queueCommand b

/-! ## Start -/

/-- The board with its pins in use and its tasks started. -/
def wire (c : Config) (w : Wiring) (system : UInt32) : Board :=
  let format := c.protocol.format
  let machine := Chip.Machine.forFormat format w.dataPin w.clockPin system
  { format, machine, led := w.led, port := some (.ofConfig c), coordinator := .ofConfig c
    messages := [.interfaceStarted format, .hidStarted, .coordinatorStarted]
    requests := machine.start (c.dataPin.pullUp || c.clockPin.pullUp) ++
      w.led.toList.map Chip.Led.attach }

/-- What the main task logs as it starts. -/
def announcements (c : Config) (w : Wiring) : List Message :=
  [.portOn c.protocol c.dataPin.number c.clockPin.number] ++
    (if c.dataPin.inverted || c.clockPin.inverted then [.inversionIgnored] else []) ++
    [.portReady] ++ w.complaints ++ [.running]

/-- The board with the main task running, which logs the start and lets the receiver interrupt the
other tasks. `loaded` is what is logged about the configuration. -/
def announce (b : Board) (c : Config) (w : Wiring) (loaded : List Message) : Board :=
  { b with
    mainSince := some b.now
    messages := [.starting, .chipReady] ++ loaded ++ announcements c w ++ b.messages
    requests := b.requests ++ [.raisePriority] }

/-- The configuration that a text says, or the default one if it cannot be read, with what is logged
about it. -/
def load (text : List Char) : Config × List Message :=
  match Config.read text with
  | .ok c => (c, [.settingsRead])
  | .error _ => ({}, [.settingsRefused, .defaultsUsed])

end Board

end KeyBridge.Firmware
