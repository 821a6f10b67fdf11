import KeyBridge.Proofs.Bridge.Turn
import KeyBridge.Proofs.Port.Accounts

/-!
# What a bridge does to its ring

Each move of a bridge is a number of operations on the ring: bytes are put in, what waits is
discarded, and a byte is taken out. The ring is what these operations make of it, so that what is
known of rings holds in every run.

## Main definitions

- `operations`, `operationsIn`: what a move and a run do to the ring
- `serviced`: a turn of the coordinator up to the point where it reads the ring
- `dropsAt`: how often a look at the time empties the ring

## Key results

- `ring_run`: the ring of a run is what its operations make of it
- `tickOperations_eq`: a look at the time does nothing but discard
-/

namespace KeyBridge.Bridge

open ByteRing (Op Attended performAll)

variable {w : Nat} {b : Bridge w} {n : Nat}

/-! ## Turns up to the ring -/

/-- The bridge when the coordinator is about to move a byte. -/
def serviced (b : Bridge w) (now : UInt32) : Bridge w :=
  (b.service now).1.follow (b.service now).1.port.status

/-- With a port, a turn ends with `drainOne` on what `serviced` has left. -/
theorem poll_of_attached (hb : b.attached = true) (now : UInt32) :
    (b.poll now).1 = ((b.serviced now).drainOne b.ring.generation).1 ∧
      (b.poll now).2.1 = ((b.serviced now).drainOne b.ring.generation).2 := by
  rw [b.poll_eq hb]
  exact ⟨rfl, rfl⟩

/-- Before a byte is taken, the ring is the one after the look at the time. -/
theorem ring_serviced (b : Bridge w) (now : UInt32) :
    (b.serviced now).ring = (b.tick now).1.ring := by
  rw [serviced, ring_follow]
  rfl

/-- `serviced` does not touch the readiness of the host. -/
theorem ready_serviced (b : Bridge w) (now : UInt32) : (b.serviced now).ready = b.ready := by
  rw [serviced, ready_follow]
  exact b.ready_settle _

/-- `serviced` hands no event over. -/
theorem events_serviced (b : Bridge w) (now : UInt32) :
    (b.serviced now).trace.events = b.trace.events := by
  rw [serviced, events_follow]
  exact b.events_settle _

/-! ## Operations -/

/-- What a look at the time does to the ring. -/
def tickOperations (b : Bridge w) (now : UInt32) : List Op :=
  b.port.operations ⟨.tick now b.idle, b.ring, b.accepts⟩

/-- Whether a turn reads the ring: the host is ready, and nothing was discarded meanwhile. -/
def reads (b : Bridge w) (now : UInt32) : Bool :=
  b.ready && (b.tick now).1.ring.generation == b.ring.generation

/-- What a move does to the ring, in order. -/
def operations (b : Bridge w) : Move → List Op
  | .frame word => b.port.operations ⟨.frame word, b.ring, b.accepts⟩
  | .tick now => b.tickOperations now
  | .poll now =>
    if b.attached then b.tickOperations now ++ if b.reads now then [.get] else [] else []
  | .leds _ | .ready _ | .idle _ | .flush => []

/-- What a run does to the ring. -/
def operationsIn (b : Bridge w) : List Move → List Op
  | [] => []
  | m :: moves => b.operations m ++ (b.step m).operationsIn moves

/-- The ring after a look at the time is what `tickOperations` make of it. -/
theorem ring_tickOperations (b : Bridge w) (now : UInt32) :
    (performAll ByteRing.apply b.ring (b.tickOperations now)).1 = (b.tick now).1.ring := by
  exact (b.port.ring_operations ⟨.tick now b.idle, b.ring, b.accepts⟩).1.trans
    (b.ring_settle _).symm

/-- The ring after a move is what its operations make of it. -/
theorem ring_step (b : Bridge w) (m : Move) :
    (performAll ByteRing.apply b.ring (b.operations m)).1 = (b.step m).ring := by
  cases m with
  | frame word =>
    exact (b.port.ring_operations ⟨.frame word, b.ring, b.accepts⟩).1.trans
      (b.ring_settle _).symm
  | tick now => exact b.ring_tickOperations now
  | poll now =>
    rw [operations, step]
    by_cases hb : b.attached = true
    · rw [if_pos hb, ByteRing.performAll_append, ring_tickOperations, (poll_of_attached hb now).1]
      by_cases hreads : b.reads now = true
      -- The coordinator reads the ring.
      · rw [if_pos hreads]
        rw [reads, Bool.and_eq_true, beq_iff_eq, ← ring_serviced, ← ready_serviced b now] at hreads
        rw [(drainOne_of_ready _ hreads.1 hreads.2).1, ring_serviced]
        rfl
      -- It does not: the host is not ready, or something was discarded in this turn.
      · rw [if_neg hreads]
        rw [reads, Bool.and_eq_true, beq_iff_eq, ← ring_serviced, ← ready_serviced b now] at hreads
        rw [drainOne_of_waits _ hreads, ring_serviced]
        rfl
    -- Without a port nothing is done.
    · rw [if_neg hb, Bridge.poll, if_neg hb]
      rfl
  | leds wanted | ready value | idle value | flush => rfl

/-- The ring of a run is what these operations make of it. -/
theorem ring_run (b : Bridge w) (moves : List Move) :
    (performAll ByteRing.apply b.ring (b.operationsIn moves)).1 = (b.run moves).ring := by
  induction moves generalizing b with
  | nil => rfl
  | cons m moves ih =>
    rw [operationsIn, ByteRing.performAll_append, ring_step]
    exact ih (b.step m)

/-! ## Discards -/

/-- How often the port discards what is in the ring when it looks at the time. -/
def dropsAt (b : Bridge w) (now : UInt32) : Nat :=
  Port.drops b.port.device (b.port.device.tick now b.idle)

/-- A look at the time empties the ring for a new epoch or a restart, and does nothing else to it.
-/
theorem ring_tick_eq (b : Bridge w) (now : UInt32) :
    (b.tick now).1.ring = Port.emptied b.port.device b.ring (b.port.device.tick now b.idle) := by
  rw [tick, ring_settle, Port.ring_tick]

/-- A look at the time does nothing to the ring but discard, `dropsAt` times. -/
theorem tickOperations_eq (b : Bridge w) (now : UInt32) :
    b.tickOperations now = List.replicate (b.dropsAt now) .discard := by
  have hdiscards : Port.discards b.port (b.port.tick b.ring b.accepts now b.idle) =
      b.dropsAt now := by
    simp only [Port.discards, Port.device_tick, Port.outcome_tick, Port.outcomeOf_eq_restart_iff]
    rfl
  rw [tickOperations, Port.operations]
  show List.replicate (Port.discards b.port (b.port.tick b.ring b.accepts now b.idle)) _ ++ [] = _
  rw [hdiscards, List.append_nil]

/-- Each discard adds one to those that the reader has yet to notice. -/
theorem unread_discards (n k : Nat) : (List.replicate k Op.discard).foldl Op.unread n = n + k := by
  induction k generalizing n with
  | zero => rfl
  | succ k ih =>
    show (List.replicate k Op.discard).foldl Op.unread (n + 1) = n + (k + 1)
    rw [ih]
    omega

/-- A look at the time empties the ring twice at most: for a restart and for a new epoch. -/
theorem dropsAt_le (b : Bridge w) (now : UInt32) : b.dropsAt now ≤ 2 := by
  unfold dropsAt Port.drops
  split <;> split <;> omega

/-- In an attended run the discards of a turn do not make the counters of the ring meet. -/
theorem lt_of_attended (hb : b.attached = true) {now : UInt32}
    (hops : Attended w n (b.operations (.poll now))) : n + b.dropsAt now < 2 ^ w := by
  rw [operations, if_pos hb, tickOperations_eq] at hops
  rw [← unread_discards]
  exact hops _ (List.prefix_append _ _)

end KeyBridge.Bridge
