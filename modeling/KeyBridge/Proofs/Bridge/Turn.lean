import KeyBridge.Bridge

/-!
# The parts of a turn

A turn of the coordinator replaces the port and the ring, offers words, follows a status, reports a
change and hands over an event. Each of these touches its own fields only; the lemmas below say of
every other one that later proofs look at that it stays.

## Key results

- `port_settle`, `ring_settle` and those after them: a step of the port is taken over and touches
  neither coordinator nor events
- `drainOne_of_waits` / `drainOne_of_nil` / `drainOne_of_byte`: what becomes of the oldest byte
- `poll_eq`: a turn is made of its parts
- `pollUpTo_of_takes` / `pollUpTo_of_waits`: whether draining goes on after a turn
-/

namespace KeyBridge.Bridge

variable {w : Nat} (b : Bridge w)

/-! ## Offers and reports -/

/-- `report` does not touch the port. -/
@[simp] theorem port_report (i : Bool) : (b.report i).port = b.port := by
  unfold report
  split <;> rfl

/-- `report` does not touch the ring. -/
@[simp] theorem ring_report (i : Bool) : (b.report i).ring = b.ring := by
  unfold report
  split <;> rfl

/-- `report` does not touch the coordinator. -/
@[simp] theorem coordinator_report (i : Bool) : (b.report i).coordinator = b.coordinator := by
  unfold report
  split <;> rfl

/-- `report` does not touch the readiness of the host. -/
@[simp] theorem ready_report (i : Bool) : (b.report i).ready = b.ready := by
  unfold report
  split <;> rfl

/-- `report` does not touch whether the host takes movements of a mouse. -/
@[simp] theorem takesMouse_report (i : Bool) : (b.report i).takesMouse = b.takesMouse := by
  unfold report
  split <;> rfl

/-- `report` does not touch whether the coordinator sees the port. -/
@[simp] theorem attached_report (i : Bool) : (b.report i).attached = b.attached := by
  unfold report
  split <;> rfl

/-- `report` does not touch the events handed over. -/
@[simp] theorem events_report (i : Bool) : (b.report i).trace.events = b.trace.events := by
  unfold report
  split <;> rfl

/-! ## Steps of the port -/

/-- What no offer touches, no number of them touches. -/
theorem foldl_offer {α : Type} (f : Bridge w → α) (hf : ∀ b word, f (offer b word) = f b)
    (words : List UInt32) : f (words.foldl offer b) = f b := by
  induction words generalizing b with
  | nil => rfl
  | cons word words ih => exact (ih (b.offer word)).trans (hf b word)

variable (s : PortStep w)

/-- The port after a step is taken over. -/
@[simp] theorem port_settle : (b.settle s).port = s.port :=
  foldl_offer _ port (fun _ _ => rfl) s.offered

/-- The ring after a step is taken over. -/
@[simp] theorem ring_settle : (b.settle s).ring = s.ring :=
  foldl_offer _ ring (fun _ _ => rfl) s.offered

/-- `settle` does not touch the coordinator. -/
@[simp] theorem coordinator_settle : (b.settle s).coordinator = b.coordinator :=
  foldl_offer _ coordinator (fun _ _ => rfl) s.offered

/-- `settle` does not touch the readiness of the host. -/
@[simp] theorem ready_settle : (b.settle s).ready = b.ready :=
  foldl_offer _ ready (fun _ _ => rfl) s.offered

/-- `settle` does not touch whether the host takes movements of a mouse. -/
@[simp] theorem takesMouse_settle : (b.settle s).takesMouse = b.takesMouse :=
  foldl_offer _ takesMouse (fun _ _ => rfl) s.offered

/-- `settle` does not touch whether the coordinator sees the port. -/
@[simp] theorem attached_settle : (b.settle s).attached = b.attached :=
  foldl_offer _ attached (fun _ _ => rfl) s.offered

/-- `settle` does not touch the events handed over. -/
@[simp] theorem events_settle : (b.settle s).trace.events = b.trace.events :=
  foldl_offer _ (fun b => b.trace.events) (fun _ _ => rfl) s.offered

/-! ## Statuses for the coordinator -/

/-- The coordinator follows a status, and whether the device is ready is reported. -/
def follow (st : PortStatus) : Bridge w :=
  let (b, change) := b.sync st
  { change.elim b b.report with log := .empty }

variable (st : PortStatus)

/-- `follow` does not touch the port. -/
@[simp] theorem port_follow : (b.follow st).port = b.port := by
  simp only [follow, sync]
  cases (b.coordinator.sync st).2 <;> simp [Option.elim]

/-- `follow` does not touch the ring. -/
@[simp] theorem ring_follow : (b.follow st).ring = b.ring := by
  simp only [follow, sync]
  cases (b.coordinator.sync st).2 <;> simp [Option.elim]

/-- `follow` leaves the coordinator with the decoder of the status. -/
@[simp] theorem coordinator_follow :
    (b.follow st).coordinator = (b.coordinator.sync st).1 := by
  simp only [follow, sync]
  cases (b.coordinator.sync st).2 <;> simp [Option.elim]

/-- `follow` does not touch the readiness of the host. -/
@[simp] theorem ready_follow : (b.follow st).ready = b.ready := by
  simp only [follow, sync]
  cases (b.coordinator.sync st).2 <;> simp [Option.elim]

/-- `follow` does not touch whether the host takes movements of a mouse. -/
@[simp] theorem takesMouse_follow : (b.follow st).takesMouse = b.takesMouse := by
  simp only [follow, sync]
  cases (b.coordinator.sync st).2 <;> simp [Option.elim]

/-- `follow` does not touch whether the coordinator sees the port. -/
@[simp] theorem attached_follow : (b.follow st).attached = b.attached := by
  simp only [follow, sync]
  cases (b.coordinator.sync st).2 <;> simp [Option.elim]

/-- `follow` does not touch the events handed over. -/
@[simp] theorem events_follow : (b.follow st).trace.events = b.trace.events := by
  simp only [follow, sync]
  cases (b.coordinator.sync st).2 <;> simp [Option.elim]

/-! ## Bytes for the host -/

/-- `deliver` does not touch the ring. -/
@[simp] theorem ring_deliver (e : Event) : (b.deliver e).ring = b.ring := by
  unfold deliver
  split <;> rfl

/-- `deliver` does not touch the readiness of the host. -/
@[simp] theorem ready_deliver (e : Event) : (b.deliver e).ready = b.ready := by
  unfold deliver
  split <;> rfl

/-- `drainOne` does not touch the readiness of the host. -/
@[simp] theorem ready_drainOne (g : BitVec w) : (b.drainOne g).1.ready = b.ready := by
  simp only [drainOne]
  cases (b.coordinator.drainOne b.ring g b.ready).event <;> simp [Option.elim]

/-- Whatever the host makes of an event, its byte leaves the ring. -/
theorem drainOne_of_ready {g : BitVec w} (hready : b.ready = true) (hg : b.ring.generation = g) :
    (b.drainOne g).1.ring = b.ring.get.2 ∧ (b.drainOne g).2 = b.ring.get.1.isSome := by
  simp only [drainOne, Coordinator.drainOne, hready, hg, beq_self_eq_true, Bool.and_self, if_true]
  rcases b.ring.get with ⟨_ | byte, ring⟩
  · exact ⟨rfl, rfl⟩
  · cases hfeed : (b.coordinator.decoder.feed byte).2 <;> simp [hfeed, Option.elim]

/-- Nothing moves while the host is not ready, nor after a discard. -/
theorem drainOne_of_waits {g : BitVec w} (h : ¬(b.ready = true ∧ b.ring.generation = g)) :
    b.drainOne g = (b, false) := by
  have h' : (b.ready && b.ring.generation == g) = false := by simpa using h
  simp only [drainOne, Coordinator.drainOne, h', Bool.false_eq_true, if_false]
  rfl

/-- Nothing moves out of an empty ring, but its reader takes notice of discards. -/
theorem drainOne_of_nil {g : BitVec w} (hready : b.ready = true) (hg : b.ring.generation = g)
    (h : b.ring.get.1 = none) : b.drainOne g = ({ b with ring := b.ring.get.2 }, false) := by
  have hget : b.ring.get = (none, b.ring.get.2) := by rw [← h]
  simp only [drainOne, Coordinator.drainOne, hready, hg, beq_self_eq_true, Bool.and_self, if_true]
  rw [hget]
  rfl

/-- The oldest byte goes through the decoder, and what comes out of it to the host. -/
theorem drainOne_of_byte {g : BitVec w} {byte : UInt8}
    (htakes : ∀ e, (b.coordinator.decoder.feed byte).2 = some e → (e.isKey || b.takesMouse) = true)
    (hready : b.ready = true) (hg : b.ring.generation = g) (h : b.ring.get.1 = some byte) :
    b.drainOne g =
      ({ b with
        ring := b.ring.get.2
        coordinator := { b.coordinator with decoder := (b.coordinator.decoder.feed byte).1 }
        trace := { b.trace with
          events := b.trace.events ++ (b.coordinator.decoder.feed byte).2.toList } }, true) := by
  have hget : b.ring.get = (some byte, b.ring.get.2) := by rw [← h]
  simp only [drainOne, Coordinator.drainOne, hready, hg, beq_self_eq_true, Bool.and_self, if_true]
  rw [hget]
  cases hfeed : (b.coordinator.decoder.feed byte).2 with
  | none => simp [hfeed]
  | some e =>
    have := htakes e hfeed
    simp [hfeed, deliver, this]

/-! ## Turns -/

/-- A turn is made of its parts. -/
theorem poll_eq (hb : b.attached = true) (now : UInt32) :
    b.poll now =
      let d := ((b.service now).1.follow (b.service now).1.port.status).drainOne b.ring.generation
      (d.1, d.2, (b.service now).2) := by
  simp only [poll, hb, if_true, Coordinator.poll, service, tick, settle, drainLog, follow, sync,
    drainOne, Port.drainLog, Log.drainInto]
  clear hb
  obtain ⟨port, ring, coordinator, _, transmitter, idle, _, _, watched, _, trace⟩ := b
  generalize port.tick ring _ now idle = s
  generalize s.offered = words
  -- What is given away goes into different parts of the trace, so that its order does not matter.
  induction words generalizing transmitter trace with
  | nil =>
    simp only [List.foldl_nil]
    -- Whether a change is reported depends on the watcher.
    rcases coordinator.sync _ with ⟨coordinator, change⟩
    cases change <;> cases watched <;> rfl
  | cons word words ih => exact ih (transmitter.offer word) _

/-! ## Turns one after the other -/

/-- After a turn that takes a byte there are more turns. -/
theorem pollUpTo_of_takes {b : Bridge w} {now : UInt32} (h : (b.poll now).2.1 = true) (k : Nat) :
    b.pollUpTo now (k + 1) = ((b.poll now).1.pollUpTo now k).map id (· + 1) := by
  rw [pollUpTo]
  rcases hpoll : b.poll now with ⟨b', took, outcome⟩
  rw [hpoll] at h
  obtain rfl : took = true := h
  rfl

/-- A turn that takes none is the last one. -/
theorem pollUpTo_of_waits {b : Bridge w} {now : UInt32} (h : (b.poll now).2.1 = false) (k : Nat) :
    b.pollUpTo now (k + 1) = ((b.poll now).1, 0) := by
  rw [pollUpTo]
  rcases hpoll : b.poll now with ⟨b', took, outcome⟩
  rw [hpoll] at h
  obtain rfl : took = false := h
  rfl

end KeyBridge.Bridge
