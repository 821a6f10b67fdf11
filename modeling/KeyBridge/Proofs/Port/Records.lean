import KeyBridge.Proofs.Device.Notes
import KeyBridge.Proofs.Port.Runs

/-!
# What a port counts and records

Of what happens at a `Moment`, a port counts the frame, whether it was refused, the bytes that found
no room in the ring and the restart of the receiver, and it puts diagnostics into its log. This is
so with any ring and any transmitter.

## Main definitions

- `rejection?`: the reason for which a word is refused
- `command?`: the command that a move calls for
- `refused`, `unsent`: what the ring and the transmitter did not take
- `pushes`: the diagnostics that a move puts into the log

## Key results

- `stats_step`, `log_step`: the counts and the log after a move
- `stats_run`: the counts after a run
- `rejectionsIn_pushed`, `refusedIn_pushed`, `unsentIn_pushed`: the diagnostics of each kind
-/

namespace KeyBridge

variable {w : Nat}

namespace ByteRing

/-- Those of several bytes that a ring has no room for when they are offered one after the other. -/
def refused (r : ByteRing w) : List UInt8 → List UInt8
  | [] => []
  | b :: bs =>
    match r.put? b with
    | some r' => r'.refused bs
    | none => b :: r.refused bs

/-- What is refused of several bytes is the first one, if it is, and what is refused of the others.
-/
theorem refused_cons (r : ByteRing w) (b : UInt8) (bs : List UInt8) :
    r.refused (b :: bs) = r.refused [b] ++ (r.put b).1.refused bs := by
  simp only [refused, put]
  cases r.put? b <;> rfl

end ByteRing

namespace Diagnostic

/-- The reason for which a frame was refused, in a diagnostic that says so. -/
def frame? : Diagnostic → Option Wire.FrameError
  | frame cause => some cause
  | _ => none

/-- The byte that found no room, in a diagnostic that says so. -/
def overflow? : Diagnostic → Option UInt8
  | overflow byte => some byte
  | _ => none

/-- The command that was not sent, in a diagnostic that says so. -/
def transmitFailed? : Diagnostic → Option UInt8
  | transmitFailed command => some command
  | _ => none

end Diagnostic

namespace Port

open Device (Action)

variable {p : Port} {ring : ByteRing w} {accepts : UInt32 → Bool} {word : UInt32} {byte : UInt8}

/-! ## What a move comes to -/

/-- The reason for which the word of a move is refused. -/
def rejection? (p : Port) : Move → Option Wire.FrameError
  | .frame word =>
    match Wire.decode p.format word with
    | .ok _ => none
    | .error e => some e
  | .tick _ _ | .leds _ | .drain => none

/-- The command that a move calls for: that of the session, or after a wrong parity bit the one that
asks for the byte again. -/
def command? (p : Port) (move : Move) : Option UInt8 :=
  match p.rejection? move with
  | some .badParity => some Command.Ps2.resend
  | some .badStart | some .badStop => none
  | none => (p.input? move).bind fun i => (p.device.step i).action.command?

/-- The bytes of a move that the ring has no room for. -/
def refused (p : Port) (m : Moment w) : List UInt8 := (p.keptAt m).refused (p.puts m.move)

/-- Whether a command has a word that the transmitter takes. -/
def sends (f : Wire.Format) (accepts : UInt32 → Bool) (command : UInt8) : Bool :=
  (Wire.encode? f command).any accepts

/-- A command that is called for, if it cannot be sent. -/
def unsentOf (f : Wire.Format) (accepts : UInt32 → Bool) (command? : Option UInt8) : Option UInt8 :=
  command?.filter fun c => !sends f accepts c

/-- The command of a move, if it is not sent. -/
def unsent (p : Port) (m : Moment w) : Option UInt8 :=
  unsentOf p.format m.accepts (p.command? m.move)

/-- The moves after which the receiver is restarted. -/
def restarting (p : Port) (m : Moment w) : List Move :=
  if (p.step m).outcome = .restart then [m.move] else []

/-- What a move puts into the log, in order. -/
def pushes (p : Port) (m : Moment w) : List Diagnostic :=
  (p.rejection? m.move).toList.map .frame ++ p.notes m.move ++ (p.refused m).map .overflow ++
    (p.unsent m).toList.map .transmitFailed

/-! ## Parts of a step -/

/-- A byte that is refused is logged as an overflow. -/
theorem log_enqueue (s : PortStep w) (b : UInt8) :
    (enqueue s b).port.log = s.port.log.pushAll ((s.ring.refused [b]).map .overflow) := by
  simp only [enqueue, ByteRing.refused]
  cases s.ring.put? b <;> rfl

/-- A byte that is refused is counted as an overflow. -/
theorem overflows_enqueue (s : PortStep w) (b : UInt8) :
    (enqueue s b).port.stats =
      { s.port.stats with
        overflows := s.port.stats.overflows + .ofNat (s.ring.refused [b]).length } := by
  simp only [enqueue, ByteRing.refused]
  cases s.ring.put? b <;> simp

/-- A command that is refused is logged. -/
theorem log_transmit (s : PortStep w) (c : UInt8) :
    (transmit accepts s c).port.log =
      s.port.log.pushAll
        ((unsentOf s.port.format accepts (some c)).toList.map .transmitFailed) := by
  unfold transmit unsentOf sends
  rw [Option.filter_some]
  split
  · next word h =>
    rw [h]
    cases hword : accepts word <;> simp [hword, note]
  · next h =>
    rw [h]
    rfl

/-- What the session asks for adds to two counts. -/
theorem stats_perform (s : PortStep w) (a : Action) :
    (perform accepts byte s a).port.stats =
      { s.port.stats with
        overflows := s.port.stats.overflows + .ofNat (s.ring.refused (a.queued byte)).length
        restarts := s.port.stats.restarts + if a = .restart then 1 else 0 } := by
  cases a with
  | none => simp [perform, Action.queued, ByteRing.refused]
  | send c => simp [perform, Action.queued, ByteRing.refused]
  | pass => simp [perform, Action.queued, overflows_enqueue]
  | passAndSend c => simp [perform, Action.queued, overflows_enqueue]
  | queue first second =>
    rw [Action.queued, ByteRing.refused_cons, List.length_append, UInt32.ofNat_add]
    simp [perform, overflows_enqueue, UInt32.add_assoc]
  | restart => simp [perform, restart, Action.queued, ByteRing.refused]

/-- An action has the bytes noted that the ring refuses and the command that the transmitter does.
-/
theorem log_perform (s : PortStep w) (a : Action) :
    (perform accepts byte s a).port.log =
      s.port.log.pushAll ((s.ring.refused (a.queued byte)).map .overflow ++
        (unsentOf s.port.format accepts a.command?).toList.map .transmitFailed) := by
  have hformat : ∀ b, (enqueue s b).port.format = s.port.format := by simp [format]
  cases a with
  | none | restart => rfl
  | send c => exact log_transmit s c
  | pass => simp [perform, log_enqueue, Action.queued, Action.command?, unsentOf]
  | passAndSend c =>
    -- The byte is queued first, and what is noted of it stands in front.
    rw [perform, log_transmit, log_enqueue, hformat, Log.pushAll_append]
    rfl
  | queue first second =>
    rw [Action.queued, ByteRing.refused_cons]
    simp [perform, log_enqueue, Action.command?, unsentOf, Log.pushAll_append]

/-! ## Steps -/

/-- After a good frame the receiver goes on: no session has it restarted because of a byte. -/
theorem outcome_of_good (ring : ByteRing w) (accepts : UInt32 → Bool)
    (h : Wire.decode p.format word = .ok byte) :
    (p.receive ring accepts word).outcome = .proceed :=
  (receive_of_ok ring accepts h).2.2.trans (if_neg (p.device.receive_ne_restart byte))

/-- A good frame is counted, and what the session asks for is recorded. -/
theorem receive_of_good (ring : ByteRing w) (accepts : UInt32 → Bool)
    (h : Wire.decode p.format word = .ok byte) :
    let s := p.device.receive byte
    let missed := (emptied p.device ring s).refused (s.action.queued byte)
    (p.receive ring accepts word).port.stats =
        { p.stats with
          frames := p.stats.frames + 1
          overflows := p.stats.overflows + .ofNat missed.length } ∧
      (p.receive ring accepts word).port.log =
        p.log.pushAll (s.notes ++ (missed.map .overflow ++
          (unsentOf p.format accepts s.action.command?).toList.map .transmitFailed)) := by
  intro s missed
  obtain ⟨device, log, stats⟩ := p
  have h' : Wire.decode device.protocol.format word = .ok byte := h
  have hrestart : s.action ≠ .restart := device.receive_ne_restart byte
  -- Counting the frame changes neither the ring nor the format.
  have hring : ∀ stats, (({ device, log, stats } : Port).adopt ring s).ring =
      emptied device ring s := by
    intro stats
    rw [emptied, if_neg hrestart]
    rfl
  have hformat := fun stats => format_adopt { device, log, stats } ring s
    (device.regular_receive byte).protocol_eq
  simp only [receive, format, h']
  rw [stats_perform, log_perform, hring, hformat, if_neg hrestart]
  exact ⟨by simp [adopt, missed, s], (Log.pushAll_append _ _ _).symm⟩

/-- A bad frame is counted and noted, and it is asked for again or has the receiver restarted. -/
theorem receive_of_bad (ring : ByteRing w) (accepts : UInt32 → Bool) {e : Wire.FrameError}
    (h : Wire.decode p.format word = .error e) :
    (p.receive ring accepts word).port.stats =
        { p.stats with
          frames := p.stats.frames + 1
          frameErrors := p.stats.frameErrors + 1
          resends := p.stats.resends + if e.losesPosition then 0 else 1
          restarts := p.stats.restarts + if e.losesPosition then 1 else 0 } ∧
      (p.receive ring accepts word).port.log =
        p.log.pushAll (.frame e ::
          (unsentOf p.format accepts
            (if e.losesPosition then none else some Command.Ps2.resend)).toList.map
              .transmitFailed) := by
  obtain ⟨device, log, stats⟩ := p
  have h' : Wire.decode device.protocol.format word = .error e := h
  -- Out of step the receiver restarts and nothing is sent; otherwise a repetition is asked for.
  simp only [receive, refuse, format, h']
  split
  · simp [restart, note, unsentOf]
  · rw [stats_transmit, log_transmit]
    exact ⟨by simp [note], rfl⟩

/-- A look at the time leads to a restart, a command or neither. -/
theorem tick_records (p : Port) (ring : ByteRing w) (accepts : UInt32 → Bool) (now : UInt32)
    (idle : Bool) :
    let s := p.device.tick now idle
    (p.tick ring accepts now idle).port.stats =
        { p.stats with restarts := p.stats.restarts + if s.action = .restart then 1 else 0 } ∧
      (p.tick ring accepts now idle).port.log =
        p.log.pushAll (s.notes ++
          (unsentOf p.format accepts s.action.command?).toList.map .transmitFailed) := by
  have hformat := format_adopt p ring _ (p.device.regular_tick now idle).protocol_eq
  have hfeeds := p.device.feeds_tick now idle
  unfold tick
  generalize p.device.tick now idle = s at *
  obtain ⟨next, action, notes⟩ := s
  cases action with
  | none => simp [adopt, Action.command?, unsentOf]
  | send c =>
    dsimp only
    rw [stats_transmit, log_transmit, hformat, Log.pushAll_append]
    exact ⟨by simp [adopt], rfl⟩
  | restart => simp [adopt, restart, Action.command?, unsentOf]
  -- No byte was received, so that there is none to pass on.
  | pass | passAndSend | queue => contradiction

section

attribute [local simp] rejection? command? refused unsent unsentOf restarting notes puts input?
  keptAt ByteRing.refused Move.isFrame Wire.FrameError.losesPosition Device.step Action.command?

/-- What a move adds to the counts. -/
theorem stats_step (p : Port) (m : Moment w) :
    (p.step m).port.stats =
      { frames := p.stats.frames + if m.move.isFrame then 1 else 0
        frameErrors := p.stats.frameErrors + .ofNat (p.rejection? m.move).toList.length
        resends := p.stats.resends + .ofNat ((p.rejection? m.move).toList.count .badParity)
        overflows := p.stats.overflows + .ofNat (p.refused m).length
        restarts := p.stats.restarts + .ofNat (p.restarting m).length } := by
  obtain ⟨move, ring, accepts⟩ := m
  cases move with
  | frame word =>
    cases h : Wire.decode p.format word with
    | ok byte =>
      -- A good frame never restarts the receiver.
      have hout : (p.step ⟨.frame word, ring, accepts⟩).outcome = _ :=
        outcome_of_good ring accepts h
      exact (receive_of_good ring accepts h).1.trans (by simp [h, hout])
    | error e =>
      have hout : (p.step ⟨.frame word, ring, accepts⟩).outcome = _ :=
        (receive_of_error ring accepts h).2.2
      refine (receive_of_bad ring accepts h).1.trans ?_
      cases e <;> simp [h, hout]
  | tick now idle =>
    have hout : (p.step ⟨.tick now idle, ring, accepts⟩).outcome = _ := outcome_tick
    refine (tick_records p ring accepts now idle).1.trans ?_
    simp only [restarting, hout, outcomeOf_eq_restart_iff]
    split <;> simp
  | leds wanted | drain => simp [step, setLeds, drainLog]

/-- What a move puts into the log. -/
theorem log_step (p : Port) {m : Moment w} (hm : m.move ≠ .drain) :
    (p.step m).port.log = p.log.pushAll (p.pushes m) := by
  obtain ⟨move, ring, accepts⟩ := m
  cases move with
  | frame word =>
    cases h : Wire.decode p.format word with
    | ok byte => exact (receive_of_good ring accepts h).2.trans (by simp [pushes, h])
    | error e =>
      refine (receive_of_bad ring accepts h).2.trans ?_
      cases e <;> simp [pushes, h]
  | tick now idle =>
    exact (tick_records p ring accepts now idle).2.trans (by simp [pushes])
  | leds wanted => simp [pushes, step, setLeds]
  | drain => contradiction

end

/-! ## Runs -/

/-- The reasons for which words of a run are refused. -/
def rejectionsIn (p : Port) (moments : List (Moment w)) : List Wire.FrameError :=
  p.trace (fun p m => (p.rejection? m.move).toList) moments

/-- The bytes of a run that the ring has no room for. -/
def refusedIn (p : Port) (moments : List (Moment w)) : List UInt8 :=
  p.trace (fun p m => p.refused m) moments

/-- The moves of a run after which the receiver is restarted. -/
def restartsIn (p : Port) (moments : List (Moment w)) : List Move :=
  p.trace (fun p m => p.restarting m) moments

/-- What a run puts into the log. -/
def pushesIn (p : Port) (moments : List (Moment w)) : List Diagnostic :=
  p.trace (fun p m => p.pushes m) moments

/-- The commands of a run that are not sent. -/
def unsentIn (p : Port) (moments : List (Moment w)) : List UInt8 :=
  p.trace (fun p m => (p.unsent m).toList) moments

/-- What a run adds to the counts. -/
theorem stats_run (p : Port) (moments : List (Moment w)) :
    (p.run moments).stats =
      { frames := p.stats.frames + .ofNat (moments.countP (·.move.isFrame))
        frameErrors := p.stats.frameErrors + .ofNat (p.rejectionsIn moments).length
        resends := p.stats.resends + .ofNat ((p.rejectionsIn moments).count .badParity)
        overflows := p.stats.overflows + .ofNat (p.refusedIn moments).length
        restarts := p.stats.restarts + .ofNat (p.restartsIn moments).length } := by
  induction moments generalizing p with
  | nil => simp [rejectionsIn, refusedIn, restartsIn, trace]
  | cons m moments ih =>
    rw [run_cons, ih, stats_step]
    simp only [rejectionsIn, refusedIn, restartsIn, trace, List.length_append, List.count_append,
      List.countP_cons, UInt32.ofNat_add, UInt32.add_assoc, PortStats.mk.injEq, and_true]
    split <;> simp [UInt32.add_comm]

/-! ## Diagnostics -/

/-- What is picked from a record is the record of what is picked. -/
theorem filterMap_trace {α β : Type} (g : α → Option β) (f : Port → Moment w → List α) (p : Port)
    (moments : List (Moment w)) :
    (p.trace f moments).filterMap g = p.trace (fun p m => (f p m).filterMap g) moments := by
  induction moments generalizing p with
  | nil => rfl
  | cons m moments ih => rw [trace, trace, List.filterMap_append, ih]

variable {α : Type} {f : Diagnostic → Option α}

/-- A session notes nothing that is for the port to note. -/
theorem filterMap_notes (hf : ∀ d, d.isOfPort = false → f d = none) (p : Port) (move : Move) :
    (p.notes move).filterMap f = [] := by
  rw [List.filterMap_eq_nil_iff]
  intro d hd
  rw [notes] at hd
  cases hi : p.input? move with
  -- The session does not hear of the move.
  | none => simp [hi] at hd
  | some i =>
    rw [hi] at hd
    exact hf d (p.device.notesOwn_step i d hd)

/-- The diagnostics of a move of a kind that sessions do not note. -/
theorem filterMap_pushes (hf : ∀ d, d.isOfPort = false → f d = none) (p : Port) (m : Moment w) :
    (p.pushes m).filterMap f =
      (p.rejection? m.move).toList.filterMap (f ∘ .frame) ++
        (p.refused m).filterMap (f ∘ .overflow) ++
          (p.unsent m).toList.filterMap (f ∘ .transmitFailed) := by
  simp only [pushes, List.filterMap_append, List.filterMap_map, filterMap_notes hf,
    List.append_nil]

/-- A move has its rejected frame logged. -/
theorem rejections_pushed (p : Port) (m : Moment w) :
    (p.pushes m).filterMap Diagnostic.frame? = (p.rejection? m.move).toList := by
  rw [filterMap_pushes fun d hd => by cases d <;> first | rfl | contradiction]
  simp [Function.comp_def, Diagnostic.frame?]

/-- A move has its refused bytes logged. -/
theorem refused_pushed (p : Port) (m : Moment w) :
    (p.pushes m).filterMap Diagnostic.overflow? = p.refused m := by
  rw [filterMap_pushes fun d hd => by cases d <;> first | rfl | contradiction]
  simp [Function.comp_def, Diagnostic.overflow?]

/-- A move has its refused command logged. -/
theorem unsent_pushed (p : Port) (m : Moment w) :
    (p.pushes m).filterMap Diagnostic.transmitFailed? = (p.unsent m).toList := by
  rw [filterMap_pushes fun d hd => by cases d <;> first | rfl | contradiction]
  simp [Function.comp_def, Diagnostic.transmitFailed?]

/-- Each refused word is noted once, and nothing else is noted as one. -/
theorem rejectionsIn_pushed (p : Port) (moments : List (Moment w)) :
    (p.pushesIn moments).filterMap Diagnostic.frame? = p.rejectionsIn moments := by
  simp only [pushesIn, rejectionsIn, filterMap_trace, rejections_pushed]

/-- Each byte that the ring has no room for is put into the log once. -/
theorem refusedIn_pushed (p : Port) (moments : List (Moment w)) :
    (p.pushesIn moments).filterMap Diagnostic.overflow? = p.refusedIn moments := by
  simp only [pushesIn, refusedIn, filterMap_trace, refused_pushed]

/-- Each command that is not sent is put into the log once. -/
theorem unsentIn_pushed (p : Port) (moments : List (Moment w)) :
    (p.pushesIn moments).filterMap Diagnostic.transmitFailed? = p.unsentIn moments := by
  simp only [pushesIn, unsentIn, filterMap_trace, unsent_pushed]

end Port

end KeyBridge
