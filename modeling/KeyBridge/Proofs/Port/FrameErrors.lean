import KeyBridge.Proofs.ByteRing.Queue
import KeyBridge.Proofs.Port.Commands

/-!
# What a port does with a frame

A word from the receiver is a byte or it is refused, and a port deals with it in one of three ways.
It asks for the byte again if just the parity is wrong; it starts over if the position in the bit
stream is lost; and it has the session take in a good byte. Here everything is written down that
each of them touches, and what it leaves alone: the session, the ring, the transmitter, the log and
the receiver.

## Main definitions

- `Drained`: a ring with nothing in it, as its reader and its writer see it
- `AsksAgain`, `StartsOver`, `TakesIn`: the three ways

## Key results

- `Valid.drained`: a ring without contents is empty to both sides
- `asksAgain_of_badParity`, `startsOver_of_lost`, `takesIn_of_ok`: the way of each frame
- `frame_policy`: all ports, all rings in use and all words
-/

namespace KeyBridge

variable {w : Nat}

/-! ## Rings -/

namespace ByteRing

variable {r : ByteRing w} {n : Nat}

/-- Bytes for which there is room are all taken in. -/
theorem Valid.admitted_eq (hv : r.Valid) {bs : List UInt8}
    (h : r.contents.length + bs.length ≤ capacity) : r.admitted bs = bs := by
  -- On the bytes: the first one gets in, and leaves room for the others.
  induction bs generalizing r with
  | nil => rfl
  | cons b bs ih =>
    rw [List.length_cons] at h
    cases hput : r.put? b with
    | none =>
      have hfull := hv.put?_eq_none_iff.mp hput
      omega
    | some r' =>
      have hroom : r'.contents.length + bs.length ≤ capacity := by
        rw [hv.contents_put? hput, List.length_append, List.length_singleton]
        omega
      simp only [admitted, hput]
      rw [ih (hv.put? hput) hroom]

/-- Nothing waits in a ring, to its reader as well as to its writer. -/
structure Drained (r : ByteRing w) : Prop where
  contents_eq : r.contents = []
  isEmpty : r.isEmpty
  /-- There is nothing to read. -/
  get_eq : r.get.1 = none
  /-- All the room is there to write. -/
  admitted_eq : ∀ bs : List UInt8, bs.length ≤ capacity → r.admitted bs = bs

/-- A ring without contents is drained. -/
theorem Valid.drained (hv : r.Valid) (h : r.contents = []) : r.Drained where
  contents_eq := h
  isEmpty := hv.isEmpty_iff.mpr (by rw [← length_contents, h, List.length_nil])
  get_eq := by rw [hv.get_of_contents_nil h]
  admitted_eq bs hbs := hv.admitted_eq (by rw [h, List.length_nil]; omega)

end ByteRing

namespace Port

variable {p : Port} {ring : ByteRing w} {accepts : UInt32 → Bool} {word : UInt32} {byte : UInt8}
  {e : Wire.FrameError} {n : Nat}

/-! ## The three ways -/

/-- The device is asked for the byte again. The session does not hear of it, nor does the ring. -/
structure AsksAgain (p : Port) (ring : ByteRing w) (accepts : UInt32 → Bool) (s : PortStep w) :
    Prop where
  device_eq : s.port.device = p.device
  ring_eq : s.ring = ring
  /-- The request is offered, and offered once: with a transmitter that does not take it there is
  one note of that in the log. -/
  offered : ∃ request, Wire.encode? p.format Command.Ps2.resend = some request ∧
    s.offered = [request] ∧
      s.port.log = p.log.pushAll (.frame .badParity ::
        if accepts request then [] else [.transmitFailed Command.Ps2.resend])
  outcome_eq : s.outcome = .proceed

/-- The session is reset in the middle of its epoch and the ring is empty. Nothing is offered, and
nothing is noted of a command. -/
structure StartsOver (p : Port) (e : Wire.FrameError) (s : PortStep w) : Prop where
  device_eq : s.port.device = p.device.reset
  epoch_eq : s.port.device.epoch = p.device.epoch
  drained : s.ring.Drained
  offered_eq : s.offered = []
  log_eq : s.port.log = p.log.pushAll [.frame e]
  outcome_eq : s.outcome = .restart

/-- The session takes in a byte and may want a few things in turn. -/
structure TakesIn (p : Port) (ring : ByteRing w) (accepts : UInt32 → Bool) (byte : UInt8)
    (s : PortStep w) : Prop where
  device_eq : s.port.device = (p.device.receive byte).next
  /-- Two bytes at most are queued, behind those that wait or in place of them. -/
  queued : ∃ bytes, bytes.length ≤ 2 ∧
    (s.ring = ring.putAll bytes ∨ s.ring = ring.discard.putAll bytes)
  /-- One command at most is offered, and no other one is noted as not sent. -/
  offered : ∃ command? notes, s.offered = (command?.bind (Wire.encode? p.format)).toList ∧
    s.port.log = p.log.pushAll notes ∧
      notes.filterMap Diagnostic.transmitFailed? = (unsentOf p.format accepts command?).toList
  outcome_eq : s.outcome = .proceed

/-! ## The way of each frame -/

/-- Only a device that can be told something sends a parity bit. -/
theorem format_of_badParity (h : Wire.decode p.format word = .error .badParity) :
    p.format = .atPs2 := by
  cases hf : p.format with
  | atPs2 => rfl
  | xt | amiga => exact absurd (hf ▸ h) (decode_ne_badParity rfl word)
  | m0110 =>
    rw [hf] at h
    exact nomatch h

/-- A command with a word is not sent if the transmitter does not take that. -/
theorem unsentOf_of_encode? {f : Wire.Format} {command : UInt8} {request : UInt32}
    (h : Wire.encode? f command = some request) :
    unsentOf f accepts (some command) = if accepts request then none else some command := by
  rw [unsentOf, Option.filter_some]
  cases haccepts : accepts request <;> simp [sends, h, haccepts]

/-- A frame with wrong parity is asked for again. -/
theorem asksAgain_of_badParity (ring : ByteRing w) (accepts : UInt32 → Bool)
    (h : Wire.decode p.format word = .error .badParity) :
    p.AsksAgain ring accepts (p.receive ring accepts word) := by
  obtain ⟨hdevice, hring, houtcome⟩ := receive_of_error ring accepts h
  have hlog := (receive_of_bad ring accepts h).2
  have hoffered := offered_refused ring accepts h
  obtain ⟨request, hrequest⟩ : ∃ request,
      Wire.encode? p.format Command.Ps2.resend = some request := by
    rw [format_of_badParity h]
    exact ⟨_, rfl⟩
  rw [hrequest] at hoffered
  refine ⟨hdevice, hring, ⟨request, hrequest, hoffered, ?_⟩, houtcome⟩
  -- What is noted of the request depends on the transmitter, and the note of the frame does not.
  rw [hlog, Wire.FrameError.losesPosition, if_neg Bool.false_ne_true, unsentOf_of_encode? hrequest]
  cases accepts request <;> rfl

/-- The ring may have been left unread for long, as long as one discard more does not make its
counters meet. -/
theorem startsOver_of_lost (accepts : UInt32 → Bool) (h : Wire.decode p.format word = .error e)
    (hlost : e.losesPosition = true) (hv : ring.Valid) (hl : ring.Lag n) (hw : n + 1 < 2 ^ w) :
    p.StartsOver e (p.receive ring accepts word) := by
  obtain ⟨hdevice, hring, houtcome⟩ := receive_of_error ring accepts h
  have hlog := (receive_of_bad ring accepts h).2
  have hoffered := offered_refused ring accepts h
  rw [hlost, if_pos rfl] at hdevice hring houtcome hlog hoffered
  refine ⟨hdevice, ?_, ?_, hoffered, hlog, houtcome⟩
  · rw [hdevice]
    exact Device.epoch_reset p.device
  · rw [hring]
    exact hv.discard.drained (hl.contents_discard hv hw)

/-- A byte brings two bytes for decoding at most. -/
theorem length_queued_le (byte : UInt8) (a : Device.Action) : (a.queued byte).length ≤ 2 := by
  cases a <;> simp [Device.Action.queued]

/-- A byte that is right is taken in. -/
theorem takesIn_of_ok (ring : ByteRing w) (accepts : UInt32 → Bool)
    (h : Wire.decode p.format word = .ok byte) :
    p.TakesIn ring accepts byte (p.receive ring accepts word) := by
  let m : Moment w := ⟨.frame word, ring, accepts⟩
  obtain ⟨hdevice, hring, -⟩ := receive_of_ok ring accepts h
  have hlog : (p.step m).port.log = p.log.pushAll (p.pushes m) :=
    p.log_step (show Move.frame word ≠ .drain from nofun)
  have hrestart : (p.device.receive byte).action ≠ .restart := p.device.receive_ne_restart byte
  refine ⟨hdevice, ⟨_, length_queued_le byte (p.device.receive byte).action, ?_⟩,
    ⟨p.command? m.move, p.pushes m, p.offered_eq m, hlog, p.unsent_pushed m⟩,
    outcome_of_good ring accepts h⟩
  -- No byte restarts the receiver, so that the ring is emptied for a new epoch only.
  rw [hring, emptied, if_neg hrestart]
  split
  · exact .inl rfl
  · exact .inr rfl

/-- What a port does with each word, whatever the port has been through, whatever its ring and
whatever the transmitter takes. After wrong parity the session and the ring are as before, the
request to send the byte again is offered once, and the receiver goes on. After a wrong start or
stop bit the session is as after a reset and in its old epoch, the ring is empty to both sides,
nothing is offered and the receiver starts over; for this the ring must have been emptied fewer than
`2^w - 1` times since it was last read. After a good frame the receiver goes on, and at most two
bytes are queued and one command offered. -/
theorem frame_policy (p : Port) (ops : List ByteRing.Op) (accepts : UInt32 → Bool)
    (word : UInt32) :
    let ring := (ByteRing.performAll ByteRing.apply (.empty : ByteRing w) ops).1
    let s := p.receive ring accepts word
    (Wire.decode p.format word = .error .badParity → p.AsksAgain ring accepts s) ∧
    (∀ e ∈ [Wire.FrameError.badStart, .badStop], Wire.decode p.format word = .error e →
      ops.foldl ByteRing.Op.unread 0 + 1 < 2 ^ w → p.StartsOver e s) ∧
    ∀ byte, Wire.decode p.format word = .ok byte → p.TakesIn ring accepts byte s := by
  intro ring s
  obtain ⟨hvalid, hlag⟩ := ByteRing.sound_performAll ops ByteRing.valid_empty
    (ByteRing.lag_empty (w := w))
  refine ⟨asksAgain_of_badParity ring accepts, fun e he h hw => ?_,
    fun byte => takesIn_of_ok ring accepts⟩
  -- A wrong start or stop bit loses the position, wrong parity does not.
  have hlost : e.losesPosition = true := by
    simp only [List.mem_cons, List.not_mem_nil, or_false] at he
    obtain rfl | rfl := he <;> rfl
  exact startsOver_of_lost accepts h hlost hvalid hlag hw

/-- The same key with wrong parity, out of step at either end and right. -/
theorem frame_policy_keys :
    let p := ofConfig {}
    let ops : List ByteRing.Op := [.put 0x1C, .discard, .put 0x32]
    let ring := (ByteRing.performAll ByteRing.apply (.empty : ByteRing 8) ops).1
    let busy : UInt32 → Bool := fun _ => false
    p.AsksAgain ring busy (p.receive ring busy 0x638) ∧
      p.StartsOver .badStart (p.receive ring busy 0x439) ∧
      p.StartsOver .badStop (p.receive ring busy 0x038) ∧
      p.TakesIn ring busy 0x1C (p.receive ring busy 0x438) := by
  intro p ops ring busy
  refine ⟨(frame_policy p ops busy 0x638).1 (by decide),
    (frame_policy p ops busy 0x439).2.1 _ (by decide) (by decide) (by decide),
    (frame_policy p ops busy 0x038).2.1 _ (by decide) (by decide) (by decide),
    (frame_policy p ops busy 0x438).2.2 _ (by decide)⟩

end Port

end KeyBridge
