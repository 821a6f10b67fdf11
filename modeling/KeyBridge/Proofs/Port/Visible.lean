import KeyBridge.Proofs.Port.Ring

/-!
# What a port does whatever becomes of its bytes and commands

The ring may be full and the transmitter may refuse a command. Either is counted or noted in the
log, and that is all: the session after a step, what is offered, what the receiver is to do and
every other count depend on neither. `PortStep.Alike` relates two steps that differ in nothing else.

## Key results

- `Port.Alike.receive` / `Port.Alike.tick`: two ports whose sessions and counts are the same take
  steps that are alike, with any rings and transmitters
-/

namespace KeyBridge

variable {w : Nat}

/-- The counts apart from that of the bytes dropped. -/
def PortStats.withoutOverflows (s : PortStats) : PortStats := { s with overflows := 0 }

/-- Two ports with the same session and, up to the bytes dropped, the same counts. Their logs may
differ. -/
structure Port.Alike (p p' : Port) : Prop where
  device_eq : p.device = p'.device
  stats_eq : p.stats.withoutOverflows = p'.stats.withoutOverflows

/-- Two steps that come to the same for the session, the device and the receiver. Their rings may
differ. -/
structure PortStep.Alike (s s' : PortStep w) : Prop where
  port : s.port.Alike s'.port
  offered_eq : s.offered = s'.offered
  outcome_eq : s.outcome = s'.outcome

namespace Port

open Device (Step Action)

variable {p p' : Port} {s s' : PortStep w} {ring ring' : ByteRing w}
  {accepts accepts' : UInt32 → Bool}

theorem Alike.format_eq (h : p.Alike p') : p.format = p'.format := by
  rw [format, format, h.device_eq]

theorem Alike.status_eq (h : p.Alike p') : p.status = p'.status := by
  simp only [status, h.device_eq]

/-! ## Parts of a step -/

@[simp] theorem stats_note (p : Port) (d : Diagnostic) : (p.note d).stats = p.stats := rfl

@[simp] theorem offered_enqueue (s : PortStep w) (b : UInt8) :
    (enqueue s b).offered = s.offered := by
  simp only [enqueue]
  split <;> rfl

/-- A byte that finds no room shows in one count only. -/
@[simp] theorem stats_enqueue (s : PortStep w) (b : UInt8) :
    (enqueue s b).port.stats.withoutOverflows = s.port.stats.withoutOverflows := by
  simp only [enqueue]
  split <;> rfl

@[simp] theorem stats_transmit (s : PortStep w) (c : UInt8) :
    (transmit accepts s c).port.stats = s.port.stats := by
  simp only [transmit]
  split
  · split <;> rfl
  · rfl

/-- A command is offered whether or not it is accepted. -/
theorem offered_transmit (s : PortStep w) (c : UInt8) :
    (transmit accepts s c).offered = s.offered ++ (Wire.encode? s.port.format c).toList := by
  simp only [transmit]
  cases Wire.encode? s.port.format c with
  | none => exact (List.append_nil _).symm
  | some word =>
    simp only
    split <;> rfl

end Port

namespace PortStep.Alike

open Port
open Device (Action)

variable {s s' : PortStep w} {accepts accepts' : UInt32 → Bool}

/-- Steps that are alike stay so with a byte for the ring. -/
protected theorem enqueue (h : s.Alike s') (b : UInt8) : (enqueue s b).Alike (enqueue s' b) where
  port := ⟨by simpa using h.port.device_eq, by simpa using h.port.stats_eq⟩
  offered_eq := by simpa using h.offered_eq
  outcome_eq := by simpa using h.outcome_eq

/-- Steps that are alike stay so with a command, whichever the transmitter takes. -/
protected theorem transmit (h : s.Alike s') (c : UInt8) :
    (transmit accepts s c).Alike (transmit accepts' s' c) where
  port := ⟨by simpa using h.port.device_eq, by simpa using h.port.stats_eq⟩
  offered_eq := by rw [offered_transmit, offered_transmit, h.port.format_eq, h.offered_eq]
  outcome_eq := by simpa using h.outcome_eq

/-- Steps that are alike stay so with a restart. -/
protected theorem restart (h : s.Alike s') : (restart s).Alike (restart s') where
  port := ⟨h.port.device_eq, by
    have := h.port.stats_eq
    simp_all [Port.restart, PortStats.withoutOverflows]⟩
  offered_eq := h.offered_eq
  outcome_eq := rfl

/-- What a session asks for is done alike. -/
protected theorem perform (h : s.Alike s') (b : UInt8) (a : Action) :
    (perform accepts b s a).Alike (perform accepts' b s' a) := by
  cases a with
  | none => exact h
  | send c => exact h.transmit c
  | pass => exact h.enqueue b
  | passAndSend c => exact (h.enqueue b).transmit c
  | queue first second => exact (h.enqueue first).enqueue second
  | restart => exact h.restart

end PortStep.Alike

namespace Port.Alike

open Device (Step Action)

variable {p p' : Port} {ring ring' : ByteRing w} {accepts accepts' : UInt32 → Bool}

/-! ## Steps -/

/-- Ports that are alike stay so with the same step of their sessions. -/
protected theorem adopt (h : p.Alike p') (s : Step Device) :
    (p.adopt ring s).Alike (p'.adopt ring' s) where
  port := ⟨rfl, h.stats_eq⟩
  offered_eq := rfl
  outcome_eq := rfl

/-- A frame is refused alike. -/
protected theorem refuse (h : p.Alike p') (e : Wire.FrameError) :
    (p.refuse accepts ring e).Alike (p'.refuse accepts' ring' e) := by
  have hstats := h.stats_eq
  simp only [Port.refuse]
  split
  · apply PortStep.Alike.restart
    refine ⟨⟨?_, ?_⟩, rfl, rfl⟩
    · simp [note, h.device_eq]
    · simp_all [note, PortStats.withoutOverflows]
  · apply PortStep.Alike.transmit
    refine ⟨⟨?_, ?_⟩, rfl, rfl⟩
    · simp [note, h.device_eq]
    · simp_all [note, PortStats.withoutOverflows]

/-- One frame more is counted. -/
theorem counted (h : p.Alike p') :
    Port.Alike { p with stats := { p.stats with frames := p.stats.frames + 1 } }
      { p' with stats := { p'.stats with frames := p'.stats.frames + 1 } } := by
  have hstats := h.stats_eq
  exact ⟨h.device_eq, by simp_all [PortStats.withoutOverflows]⟩

/-- A word is taken in alike. -/
protected theorem receive (h : p.Alike p') (word : UInt32) :
    (p.receive ring accepts word).Alike (p'.receive ring' accepts' word) := by
  obtain ⟨device, log, stats⟩ := p
  obtain ⟨device', log', stats'⟩ := p'
  obtain rfl : device = device' := h.device_eq
  -- Both ports read the word in the same way.
  simp only [Port.receive, Port.format]
  cases Wire.decode device.protocol.format word with
  | error e => exact h.counted.refuse e
  | ok byte => exact (h.counted.adopt _).perform byte _

/-- Time passes alike. -/
protected theorem tick (h : p.Alike p') (now : UInt32) (idle : Bool) :
    (p.tick ring accepts now idle).Alike (p'.tick ring' accepts' now idle) := by
  unfold Port.tick
  simp only [h.device_eq]
  split
  · exact (h.adopt _).transmit _
  · exact (h.adopt _).restart
  · exact h.adopt _
  · exact h.adopt _
  · exact h.adopt _
  · exact h.adopt _

end Port.Alike

end KeyBridge
