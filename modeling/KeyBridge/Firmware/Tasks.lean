import KeyBridge.Firmware.Board
import KeyBridge.Wire.ShiftRegister

/-!
# Tasks

What each task does when it has its turn: it runs until it has to wait for something.

* The interface task hands every received word to the port, then the waiting commands to the state
  machine, and restarts the state machine when that is due.
* The task for the host takes all events.
* The LED task shows whether the device is ready.
* The coordinator moves one byte and gives way, or waits until bytes come in or ten milliseconds
  have passed.
-/

namespace KeyBridge.Firmware.Board

/-! ## The interface -/

/-- Hands received words to the port, one after the other. When one of them makes a restart due,
those after it are lost. -/
def takeWords (b : Board) : List UInt32 → Board
  | [] => { b with received := [] }
  | raw :: rest =>
    match b.port with
    | none => takeWords b rest
    | some port =>
      let s := port.receive b.ring (fun _ => b.acceptsCommand) (b.format.align raw)
      match s.outcome with
      | .proceed => takeWords (b.settlePort s) rest
      | .restart => ((b.settlePort s).say .alignmentLost).restart

/-- Hands a command to the state machine. -/
def sendCommand (b : Board) (word : UInt32) : Board :=
  if !b.format.bidirectional then b.say (.commandDropped word .unsupported)
  else if b.sending.length < sendRoom then
    { b with sending := b.sending ++ [b.format.place word] }
  else b.say (.commandDropped word .busy)

/-- Takes in the received words, if there are any, and says whether bytes are waiting then. -/
def interfaceReceives (b : Board) : Board :=
  if b.received.isEmpty then b
  else
    let b := b.takeWords b.received
    if b.ring.isEmpty then b else { b with dataReady := true }

/-- Hands all waiting commands to the state machine. -/
def interfaceSends (b : Board) : Board := b.commands.foldl sendCommand { b with commands := [] }

/-- Restarts the state machine if that is due. -/
def interfaceRestarts (b : Board) : Board :=
  if b.restartDue then ({ b with restartDue := false }.say .restarting).restart else b

/-- A turn of the interface task. -/
def interfaceTurn (b : Board) : Board := b.interfaceReceives.interfaceSends.interfaceRestarts

/-! ## The host and the LED -/

/-- The message about an event for the host. -/
def eventMessage : Event → Message
  | .key e => .key e
  | .mouse r => .mouse r

/-- A turn of the task for the host. -/
def hidTurn (b : Board) : Board :=
  { b with events := [], messages := b.messages ++ b.events.map eventMessage }

/-- A turn of the LED task. -/
def ledTurn (b : Board) : Board :=
  match b.led, b.ready? with
  | some led, some on => { b with ready? := none }.ask [led.turn on]
  | _, _ => b

/-! ## The coordinator -/

/-- The coordinator has the port look at the time and moves a byte; says whether it moved one. -/
def poll (b : Board) : Board × Bool :=
  let leds := b.hostLeds
  let b := { b with hostLeds := none }
  match b.port with
  | none => (b, false)
  | some port =>
    let port := leds.elim port port.setLeds
    let idle := (Chip.LineReading.ofLevel (Chip.pinLevel b.levels b.machine.clockPin)).idle
    let t := b.coordinator.poll port b.ring (fun _ => b.acceptsCommand) (.ofNat b.now) idle
      b.acceptsEvent
    let b := { b with port := some t.port, ring := t.ring, coordinator := t.coordinator }
    let b := t.offered.foldl queueCommand b
    let b := { b with ready? := t.change <|> b.ready? }
    let b := t.event.elim b b.deliver
    ({ b with restartDue := b.restartDue || t.outcome == .restart }, t.consumed)

/-- How long the coordinator waits at most, in milliseconds. -/
def pollPeriod : Nat := 10

/-- The coordinator moves a byte and gives way, or waits. If bytes came in before it could wait it
tries once more. -/
def pollAndWait (b : Board) : Board :=
  match b.poll with
  | (b, true) => { b with coordinatorSince := none }
  | (b, false) =>
    if b.dataReady then
      match { b with dataReady := false }.poll with
      | (b, true) => { b with coordinatorSince := none }
      | (b, false) => { b with coordinatorSince := some b.now }
    else { b with coordinatorSince := some b.now }

/-- A turn of the coordinator. -/
def coordinatorTurn (b : Board) : Board :=
  match b.coordinatorSince with
  | none => b.pollAndWait
  | some since =>
    if b.dataReady then { b with dataReady := false }.pollAndWait
    else if since + pollPeriod ≤ b.now then b.pollAndWait
    else b

/-! ## The main task -/

/-- How often the main task logs that it runs, in milliseconds. -/
def heartbeatPeriod : Nat := 60000

/-- A turn of the main task. -/
def mainTurn (b : Board) : Board :=
  match b.mainSince with
  | some since =>
    if since + heartbeatPeriod ≤ b.now then { b with mainSince := some b.now }.say .heartbeat else b
  | none => b

end KeyBridge.Firmware.Board
