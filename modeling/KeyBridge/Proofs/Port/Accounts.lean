import KeyBridge.Proofs.ByteRing.Ledger
import KeyBridge.Proofs.Port.Records

/-!
# The accounts of a port

A port and the ring that it fills, in which every call and every byte leaves a trace. The counts of
the port are those of what happened, its diagnostics name each word and each byte that it could not
take, and each byte that the session wants decoded is read, still there, dropped with the ring or
refused by it.

## Main definitions

- `Station`: a port with its own ring, from which a reader takes bytes at any time
- `Station.operationsIn`: what a run does to the ring

## Key results

- `ring_operations`: what a call does to the ring, operation by operation
- `restarts_of_frames`: the frames that restart the receiver
- `accounts_balance`: the accounts of a new port, for every run
-/

namespace KeyBridge

open ByteRing (Op Attended Balances Fate performAll droppedBy bytesOf)

variable {w : Nat}

/-! ## Operations on the ring -/

namespace ByteRing

/-- A byte that is put is refused by the reply exactly if the ring refuses it. -/
theorem refused_put (r : ByteRing w) (b : UInt8) :
    [(r.apply (.put b)).2].filterMap Reply.refused? = r.refused [b] := by
  simp only [apply, refused]
  cases h : r.put? b with
  | none => simp [put_of_put?_eq_none h, Reply.refused?]
  | some r' => simp [put_of_put?_eq_some h, Reply.refused?]

/-- Bytes that are put in one after the other. -/
theorem performAll_puts (r : ByteRing w) (bs : List UInt8) :
    (performAll apply r (bs.map .put)).1 = r.putAll bs ∧
      (performAll apply r (bs.map .put)).2.filterMap Reply.refused? = r.refused bs := by
  induction bs generalizing r with
  | nil => exact ⟨rfl, rfl⟩
  | cons b bs ih =>
    obtain ⟨hring, hreplies⟩ := ih (r.put b).1
    refine ⟨hring, ?_⟩
    rw [refused_cons, ← hreplies, ← refused_put, ← List.filterMap_append]
    rfl

/-- No discard refuses a byte. -/
theorem refused_discards (r : ByteRing w) (n : Nat) :
    (performAll apply r (List.replicate n .discard)).2.filterMap Reply.refused? = [] := by
  induction n generalizing r with
  | zero => rfl
  | succ n ih => exact ih r.discard

end ByteRing

namespace Port

open Device (Step)

/-- What a move does to the ring, in order. -/
def operations (p : Port) (m : Moment w) : List Op :=
  List.replicate (discards p (p.step m)) .discard ++ (p.puts m.move).map .put

/-- The discards of a step empty the ring as the step does. -/
theorem discards_emptied (d : Device) (ring : ByteRing w) (s : Step Device) :
    (performAll ByteRing.apply ring (List.replicate (drops d s) .discard)).1 =
      emptied d ring s := by
  simp only [emptied, drops]
  split <;> split <;> rfl

/-- The ring is emptied once for each discard. -/
theorem keptAt_eq (p : Port) (m : Moment w) :
    (performAll ByteRing.apply m.ring (List.replicate (discards p (p.step m)) .discard)).1 =
      p.keptAt m := by
  obtain ⟨move, ring, accepts⟩ := m
  cases move with
  | frame word =>
    cases h : Wire.decode p.format word with
    | ok byte =>
      obtain ⟨hdevice, -, hout⟩ := receive_of_ok ring accepts h
      simp only [keptAt, h, discards, step, hdevice, hout, outcomeOf_eq_restart_iff]
      exact discards_emptied p.device ring _
    | error e =>
      obtain ⟨hdevice, -, hout⟩ := receive_of_error ring accepts h
      simp only [keptAt, h, discards, step, hdevice, hout]
      -- A reset session stays in its epoch, so that there is one discard at most.
      cases e <;> simp [Wire.FrameError.losesPosition, Device.epoch_reset] <;> rfl
  | tick now idle =>
    simp only [keptAt, discards, step, device_tick, outcome_tick, outcomeOf_eq_restart_iff]
    exact discards_emptied p.device ring _
  | leds wanted =>
    have hepoch : (p.setLeds wanted).device.epoch = p.device.epoch :=
      congrArg PortStatus.epoch (p.status_setLeds wanted)
    simp [keptAt, discards, step, hepoch]
    rfl
  | drain =>
    simp [keptAt, discards, step, drainLog]
    rfl

/-- What a move does to the ring is what these operations do, and they refuse the same bytes. -/
theorem ring_operations (p : Port) (m : Moment w) :
    (performAll ByteRing.apply m.ring (p.operations m)).1 = (p.step m).ring ∧
      (performAll ByteRing.apply m.ring (p.operations m)).2.filterMap ByteRing.Reply.refused? =
        p.refused m := by
  obtain ⟨hring, hreplies⟩ := ByteRing.performAll_puts (p.keptAt m) (p.puts m.move)
  rw [operations, ByteRing.performAll_append, keptAt_eq, List.filterMap_append,
    ByteRing.refused_discards]
  exact ⟨hring.trans (p.ring_step m).symm, hreplies⟩

/-- The bytes put by the operations of a moment are those that its move puts. -/
theorem puts_operations (p : Port) (m : Moment w) :
    (p.operations m).filterMap Op.byte? = p.puts m.move := by
  simp [operations, List.filterMap_replicate, List.filterMap_map, Function.comp_def, Op.byte?]

/-! ## Restarts -/

/-- A frame restarts the receiver if it is refused, unless the device is asked for it again. -/
theorem restarting_frames (p : Port) (m : Moment w) :
    (p.restarting m).countP Move.isFrame + (p.rejection? m.move).toList.count .badParity =
      (p.rejection? m.move).toList.length := by
  obtain ⟨move, ring, accepts⟩ := m
  cases move with
  | frame word =>
    cases h : Wire.decode p.format word with
    | ok byte =>
      simp [restarting, rejection?, step, h, outcome_of_good ring accepts h]
    | error e =>
      -- Only wrong parity leaves the position, so that exactly the other errors restart.
      have hout := (receive_of_error ring accepts h).2.2
      simp only [restarting, rejection?, step, h, hout]
      cases e <;> rfl
  | tick now idle =>
    simp only [restarting, rejection?]
    split <;> rfl
  | leds wanted | drain => rfl

/-- Each frame that is rejected is a parity error or restarts the interface. -/
theorem restarts_of_frames (p : Port) (moments : List (Moment w)) :
    (p.restartsIn moments).countP Move.isFrame + (p.rejectionsIn moments).count .badParity =
      (p.rejectionsIn moments).length := by
  induction moments generalizing p with
  | nil => rfl
  | cons m moments ih =>
    have hm := p.restarting_frames m
    have hrest := ih (p.step m).port
    simp only [restartsIn, rejectionsIn, trace, List.countP_append, List.count_append,
      List.length_append] at hrest ⊢
    omega

end Port

/-! ## Stations -/

/-- A port with a ring that nothing else fills. -/
structure Station (w : Nat) where
  port : Port
  ring : ByteRing w := .empty

namespace Station

/-- What can happen to a port and its ring. The service of a port is a look at the time with the log
drained after it. -/
inductive Event where
  /-- The port is called; the transmitter takes some words. -/
  | call (move : Port.Move) (accepts : UInt32 → Bool)
  /-- The reader takes a byte. -/
  | read

/-- A station after an event. -/
def step (s : Station w) : Event → Station w
  | .call move accepts =>
    let s' := s.port.step ⟨move, s.ring, accepts⟩
    { port := s'.port, ring := s'.ring }
  | .read => { s with ring := s.ring.get.2 }

/-- A station after a run. -/
def run (s : Station w) (events : List Event) : Station w := events.foldl step s

/-- The calls of a run, with what the port meets at each. -/
def calls (s : Station w) : List Event → List (Port.Moment w)
  | [] => []
  | .call move accepts :: events =>
    ⟨move, s.ring, accepts⟩ :: (s.step (.call move accepts)).calls events
  | .read :: events => (s.step .read).calls events

/-- What an event does to the ring. -/
def operations (s : Station w) : Event → List Op
  | .call move accepts => s.port.operations ⟨move, s.ring, accepts⟩
  | .read => [.get]

/-- What a run does to the ring. -/
def operationsIn (s : Station w) : List Event → List Op
  | [] => []
  | e :: events => s.operations e ++ (s.step e).operationsIn events

/-- The port of a station goes through the calls that its events make. -/
theorem port_run (s : Station w) (events : List Event) :
    (s.run events).port = s.port.run (s.calls events) := by
  induction events generalizing s with
  | nil => rfl
  | cons e events ih => cases e <;> exact ih _

/-- The ring of a station goes through the operations of its event. -/
theorem ring_step (s : Station w) (e : Event) :
    (performAll ByteRing.apply s.ring (s.operations e)).1 = (s.step e).ring := by
  cases e with
  | call move accepts => exact (s.port.ring_operations ⟨move, s.ring, accepts⟩).1
  | read => rfl

/-- The ring is the one that these operations make of it. -/
theorem ring_run (s : Station w) (events : List Event) :
    (performAll ByteRing.apply s.ring (s.operationsIn events)).1 = (s.run events).ring := by
  induction events generalizing s with
  | nil => rfl
  | cons e events ih =>
    rw [operationsIn, ByteRing.performAll_append, ring_step]
    exact ih (s.step e)

/-- The operations of a run refuse the bytes that its calls find no room for. -/
theorem refused_run (s : Station w) (events : List Event) :
    (performAll ByteRing.apply s.ring (s.operationsIn events)).2.filterMap ByteRing.Reply.refused? =
      s.port.refusedIn (s.calls events) := by
  induction events generalizing s with
  | nil => rfl
  | cons e events ih =>
    rw [operationsIn, ByteRing.performAll_append, ring_step, List.filterMap_append, ih]
    cases e with
    | call move accepts =>
      rw [operations, (s.port.ring_operations ⟨move, s.ring, accepts⟩).2]
      rfl
    | read => rfl

/-- The operations of a run put in the bytes that the session wants decoded. -/
theorem puts_run (s : Station w) (events : List Event) :
    (s.operationsIn events).filterMap Op.byte? = s.port.putsIn (s.calls events) := by
  induction events generalizing s with
  | nil => rfl
  | cons e events ih =>
    rw [operationsIn, List.filterMap_append, ih]
    cases e with
    | call move accepts =>
      rw [operations, s.port.puts_operations ⟨move, s.ring, accepts⟩]
      rfl
    | read => rfl

/-- The accounts of a new port with a ring of its own balance, whatever calls are made, whatever the
transmitter takes and whenever the reader takes a byte. The port has counted, modulo 2^32, the
frames, the words refused, those of wrong parity, the bytes that the ring had no room for and the
restarts; frames have restarted the receiver as often as words were refused for something else than
their parity. Each word refused and each byte without room was put into the log once. And each byte
that the session wanted decoded stands in a ledger once, as one that was read, still waits, was
dropped by a discard or was refused, unless the ring discarded `2^w` times without being read. -/
theorem accounts_balance (c : Config) (events : List Event) :
    let s : Station w := { port := .ofConfig c }
    let s' := s.run events
    let calls := s.calls events
    let rejections := s.port.rejectionsIn calls
    let refused := s.port.refusedIn calls
    let restarts := s.port.restartsIn calls
    let pushes := s.port.pushesIn calls
    let ops := s.operationsIn events
    let replies := (performAll ByteRing.apply s.ring ops).2
    s'.port.stats =
        { frames := .ofNat (calls.countP (·.move.isFrame))
          frameErrors := .ofNat rejections.length
          resends := .ofNat (rejections.count .badParity)
          overflows := .ofNat refused.length
          restarts := .ofNat restarts.length } ∧
      restarts.countP Port.Move.isFrame + rejections.count .badParity = rejections.length ∧
      (∀ m : Port.Moment w, m.move ≠ .drain →
        (s'.port.step m).port.log = s'.port.log.pushAll (s'.port.pushes m)) ∧
      pushes.filterMap Diagnostic.frame? = rejections ∧
      pushes.filterMap Diagnostic.overflow? = refused ∧
      (performAll ByteRing.apply s.ring ops).1 = s'.ring ∧
      replies.filterMap ByteRing.Reply.refused? = refused ∧
      (Attended w 0 ops → ∃ ledger : List (UInt8 × Fate),
        ledger.map Prod.fst = s.port.putsIn calls ∧
          Balances ledger replies s'.ring.contents
            (droppedBy ByteRing.apply ByteRing.contents s.ring ops)) := by
  intro s s' calls rejections refused restarts pushes ops replies
  have hring : (performAll ByteRing.apply s.ring ops).1 = s'.ring := s.ring_run events
  refine ⟨?_, s.port.restarts_of_frames calls, fun m => s'.port.log_step,
    s.port.rejectionsIn_pushed calls, s.port.refusedIn_pushed calls, hring, s.refused_run events,
    fun hops => ?_⟩
  · have hstats := s.port.stats_run calls
    rw [← s.port_run events] at hstats
    exact hstats.trans (by simp [s, Port.ofConfig, rejections, refused, restarts, calls])
  -- The ring keeps the ledger, and the run only says which bytes were put.
  · obtain ⟨ledger, hledger, hbalance⟩ := ByteRing.exists_ledger ops hops
    refine ⟨ledger, hledger.trans (s.puts_run events), ?_⟩
    rw [← hring]
    exact hbalance

/-- A keyboard is set up, and a key of it is read. Then come a frame with wrong parity, more bytes
than the ring has room for, and a frame out of step, after which nothing waits any more. -/
def busy : List Event :=
  let frame word : Event := .call (.frame word) fun _ => true
  [0x754, 0x556, 0x506, 0x438].map frame ++ [.read, frame 0x638] ++
    List.replicate 32 (frame 0x438) ++ [.read, frame 0x439, .call .drain fun _ => true]

/-- A parity error, an overflow and a stall, with a transmitter that refuses. -/
theorem accounts_balance_busy :
    let s : Station 8 := { port := .ofConfig {} }
    let ops := s.operationsIn busy
    let replies := (performAll ByteRing.apply s.ring ops).2
    (s.run busy).port.stats =
        { frames := 38, frameErrors := 2, resends := 1, overflows := 1, restarts := 1 } ∧
      Attended 8 0 ops ∧
      ∃ ledger : List (UInt8 × Fate), ledger.map Prod.fst = List.replicate 33 0x1C ∧
        Balances ledger replies (s.run busy).ring.contents
          (droppedBy ByteRing.apply ByteRing.contents s.ring ops) := by
  intro s ops replies
  have hops : Attended 8 0 ops := ByteRing.attended_of_length_lt (by decide +kernel)
  obtain ⟨hstats, -, -, -, -, -, -, hledger⟩ := accounts_balance (w := 8) {} busy
  obtain ⟨ledger, hputs, hbalance⟩ := hledger hops
  refine ⟨?_, hops, ledger, ?_, hbalance⟩
  · rw [hstats]
    decide +kernel
  · rw [hputs]
    decide +kernel

end Station

end KeyBridge
