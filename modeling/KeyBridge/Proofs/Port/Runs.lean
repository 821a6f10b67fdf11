import KeyBridge.Proofs.Device.Epoch
import KeyBridge.Proofs.Port.Visible

/-!
# Runs of a port

A port is given words, the time and the lock LEDs in any order, and its log is taken from it now
and then. Meanwhile the reader takes bytes out of the ring and the transmitter sends what it holds.
At each `Moment` of a run the ring is therefore any ring and the transmitter takes whatever it
takes: what is said of such runs holds with every reader and every transmitter.

## Key results

- `device_step`: the session goes through what the moves are to it
- `offered_receive`, `offered_tick`: what a step offers is the word of what the session sends
- `ring_step`: what a step does to the ring
- `trace_congr`, `run_kept`: from one step to a run
-/

namespace KeyBridge.Port

open Device (Action)

variable {w : Nat} {p : Port} {ring : ByteRing w} {accepts : UInt32 → Bool} {word now : UInt32}
  {idle : Bool} {byte : UInt8}

/-- What can happen to a port. -/
inductive Move where
  /-- A word comes from the receiver. -/
  | frame (word : UInt32)
  /-- The port looks at the time. -/
  | tick (now : UInt32) (idle : Bool)
  /-- The host wants other lock LEDs. -/
  | leds (wanted : LockLeds)
  /-- The log is moved out of the port. -/
  | drain
deriving DecidableEq, Repr

def Move.isFrame : Move → Bool
  | .frame _ => true
  | .tick _ _ | .leds _ | .drain => false

def Move.isTick : Move → Bool
  | .tick _ _ => true
  | .frame _ | .leds _ | .drain => false

/-- A move with what the port meets at that moment. -/
structure Moment (w : Nat) where
  move : Move
  ring : ByteRing w
  /-- The words that the transmitter would take. -/
  accepts : UInt32 → Bool

/-- What a port does at a moment. -/
def step (p : Port) (m : Moment w) : PortStep w :=
  match m.move with
  | .frame word => p.receive m.ring m.accepts word
  | .tick now idle => p.tick m.ring m.accepts now idle
  | .leds wanted => { port := p.setLeds wanted, ring := m.ring }
  | .drain => { port := (p.drainLog .empty).1, ring := m.ring }

/-- A port after a run. -/
def run (p : Port) (moments : List (Moment w)) : Port :=
  moments.foldl (fun p m => (p.step m).port) p

/-- What a run comes to of which each moment adds something. -/
def trace {α : Type} (f : Port → Moment w → List α) (p : Port) : List (Moment w) → List α
  | [] => []
  | m :: moments => f p m ++ trace f (p.step m).port moments

/-- The words that a run offers to the transmitter. -/
def offersIn (p : Port) (moments : List (Moment w)) : List UInt32 :=
  p.trace (fun p m => (p.step m).offered) moments

/-- What a move is to the session. -/
def input? (p : Port) : Move → Option Device.Input
  | .frame word =>
    match Wire.decode p.format word with
    | .ok byte => some (.byte byte)
    | .error e => if e.losesPosition then some .reset else none
  | .tick now idle => some (.tick now idle)
  | .leds wanted => some (.leds wanted)
  | .drain => none

/-- The bytes that a move offers to the ring. -/
def puts (p : Port) (move : Move) : List UInt8 :=
  match p.input? move with
  | some (.byte byte) => (p.device.receive byte).action.queued byte
  | some (.tick _ _) | some .reset | some (.leds _) | none => []

/-- The bytes that a run offers to the ring. -/
def putsIn (p : Port) (moments : List (Moment w)) : List UInt8 :=
  p.trace (fun p m => p.puts m.move) moments

/-- What the session notes at a move. -/
def notes (p : Port) (move : Move) : List Diagnostic :=
  (p.input? move).elim [] fun i => (p.device.step i).notes

/-- What the session notes in a run. -/
def notesIn (p : Port) (moments : List (Moment w)) : List Diagnostic :=
  p.trace (fun p m => p.notes m.move) moments

@[simp] theorem run_nil (p : Port) : p.run ([] : List (Moment w)) = p := rfl

@[simp] theorem run_cons (p : Port) (m : Moment w) (moments : List (Moment w)) :
    p.run (m :: moments) = (p.step m).port.run moments := rfl

/-- Two accounts of a run are the same if they are at each moment, as long as the port keeps what
makes them so. -/
theorem trace_congr {α : Type} {f g : Port → Moment w → List α} {P : Port → Prop}
    (hkept : ∀ p m, P p → P (p.step (w := w) m).port) (heq : ∀ p m, P p → f p m = g p m)
    (h : P p) (moments : List (Moment w)) : p.trace f moments = p.trace g moments := by
  induction moments generalizing p with
  | nil => rfl
  | cons m moments ih => rw [trace, trace, heq p m h, ih (hkept p m h)]

/-- The image of a record is the record of the images. -/
theorem map_trace {α β : Type} (g : α → β) (f : Port → Moment w → List α) (p : Port)
    (moments : List (Moment w)) :
    (p.trace f moments).map g = p.trace (fun p m => (f p m).map g) moments := by
  induction moments generalizing p with
  | nil => rfl
  | cons m moments ih => rw [trace, trace, List.map_append, ih]

/-- What every step keeps, a run keeps. -/
theorem run_kept {P : Port → Prop} (hkept : ∀ p m, P p → P (p.step (w := w) m).port) (h : P p)
    (moments : List (Moment w)) : P (p.run moments) := by
  induction moments generalizing p with
  | nil => exact h
  | cons m moments ih => exact ih (hkept p m h)

/-! ## The session -/

/-- The session takes in what the move is to it. -/
theorem device_step (p : Port) (m : Moment w) :
    (p.step m).port.device =
      (p.input? m.move).elim p.device fun i => (p.device.step i).next := by
  obtain ⟨move, ring, accepts⟩ := m
  cases move with
  | frame word =>
    simp only [step, input?]
    cases h : Wire.decode p.format word with
    | ok byte => exact (receive_of_ok ring accepts h).1
    | error e => cases e <;> exact (receive_of_error ring accepts h).1
  | tick now idle => exact device_tick
  | leds wanted | drain => rfl

/-- A step keeps the protocol. -/
theorem protocol_step (p : Port) (m : Moment w) :
    (p.step m).port.device.protocol = p.device.protocol := by
  rw [device_step]
  cases p.input? m.move with
  | none => rfl
  | some i => exact p.device.step_protocol i

/-! ## What a step offers -/

/-- A session of the same protocol keeps the format of the line. -/
theorem format_adopt (p : Port) (ring : ByteRing w) (s : Device.Step Device)
    (h : s.next.protocol = p.device.protocol) : (p.adopt ring s).port.format = p.format := by
  rw [format, format]
  exact congrArg Protocol.format h

/-- An action offers the word of its command after what was offered already. -/
theorem offered_perform (accepts : UInt32 → Bool) (byte : UInt8) (s : PortStep w) (a : Action) :
    (perform accepts byte s a).offered =
      s.offered ++ (a.command?.bind (Wire.encode? s.port.format)).toList := by
  cases a <;> simp [perform, Action.command?, offered_transmit, restart, format]

/-- A good frame has the port offer what the session sends. -/
theorem offered_receive (ring : ByteRing w) (accepts : UInt32 → Bool)
    (h : Wire.decode p.format word = .ok byte) :
    (p.receive ring accepts word).offered =
      ((p.device.receive byte).action.command?.bind (Wire.encode? p.format)).toList := by
  obtain ⟨device, log, stats⟩ := p
  have h' : Wire.decode device.protocol.format word = .ok byte := h
  simp only [receive, format, h']
  rw [offered_perform, format_adopt _ _ _ (device.regular_receive byte).protocol_eq]
  rfl

/-- A look at the time has the port offer what the session sends. -/
theorem offered_tick (p : Port) (ring : ByteRing w) (accepts : UInt32 → Bool) (now : UInt32)
    (idle : Bool) :
    (p.tick ring accepts now idle).offered =
      ((p.device.tick now idle).action.command?.bind (Wire.encode? p.format)).toList := by
  have hformat := format_adopt p ring _ (p.device.regular_tick now idle).protocol_eq
  have hfeeds := p.device.feeds_tick now idle
  simp only [tick]
  cases ha : (p.device.tick now idle).action with
  | none | restart => rfl
  | send c =>
    simp only [offered_transmit, hformat, Action.command?, Option.bind_some]
    rfl
  | pass | passAndSend | queue => simp [ha, Action.feeds] at hfeeds

/-! ## What a step does to the ring -/

/-- The ring at a moment, emptied if the session loses the device or begins an epoch. -/
def keptAt (p : Port) (m : Moment w) : ByteRing w :=
  match m.move with
  | .frame word =>
    match Wire.decode p.format word with
    | .ok byte => emptied p.device m.ring (p.device.receive byte)
    | .error e => if e.losesPosition then m.ring.discard else m.ring
  | .tick now idle => emptied p.device m.ring (p.device.tick now idle)
  | .leds _ | .drain => m.ring

/-- Then the bytes of the move are put into it, one after the other. -/
theorem ring_step (p : Port) (m : Moment w) :
    (p.step m).ring = (p.keptAt m).putAll (p.puts m.move) := by
  obtain ⟨move, ring, accepts⟩ := m
  cases move with
  | frame word =>
    simp only [step, keptAt, puts, input?]
    cases h : Wire.decode p.format word with
    | ok byte => exact (receive_of_ok ring accepts h).2.1
    | error e => cases e <;> exact (receive_of_error ring accepts h).2.1
  | tick now idle => exact ring_tick
  | leds wanted | drain => rfl

end KeyBridge.Port
