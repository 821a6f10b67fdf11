import KeyBridge.Proofs.Port.Records

/-!
# What becomes of commands

A port is to send a command for what its session asks for, and to ask again for a byte whose parity
is wrong. Each of these commands is taken by the transmitter or noted as one that was not, whatever
the transmitter takes; and the transmitter is offered nothing else.

An XT or Amiga keyboard has no way to be told anything, and its port never tries.

## Key results

- `offered_eq`: what is offered is the word of the command of the move, once
- `settled_step`: a command is sent or noted, and not both
- `verdicts_run`: so are those of a run, one by one
- `commands_settled`: the commands of a new port, for every run
-/

namespace KeyBridge.Port

open Device (Action)

variable {w : Nat} {p : Port}

/-! ## Moves -/

/-- A frame that is wrong has a request to repeat it offered, unless the position is lost. -/
theorem offered_refused {word : UInt32} (ring : ByteRing w) (accepts : UInt32 → Bool)
    {e : Wire.FrameError} (h : Wire.decode p.format word = .error e) :
    (p.receive ring accepts word).offered =
      if e.losesPosition then [] else (Wire.encode? p.format Command.Ps2.resend).toList := by
  obtain ⟨device, log, stats⟩ := p
  have h' : Wire.decode device.protocol.format word = .error e := h
  simp only [receive, refuse, format, h']
  split
  · rfl
  · rw [offered_transmit]
    rfl

/-- The transmitter is offered the word of the command that a move calls for, once, and nothing
else. -/
theorem offered_eq (p : Port) (m : Moment w) :
    (p.step m).offered = ((p.command? m.move).bind (Wire.encode? p.format)).toList := by
  obtain ⟨move, ring, accepts⟩ := m
  cases move with
  | frame word =>
    simp only [step, command?, rejection?, input?]
    cases h : Wire.decode p.format word with
    | ok byte => exact offered_receive ring accepts h
    | error e =>
      rw [offered_refused ring accepts h]
      cases e <;> rfl
  | tick now idle => exact offered_tick p ring accepts now idle
  | leds wanted | drain => rfl

/-- The commands of a move that are noted as not sent. -/
def failures (p : Port) (m : Moment w) : List UInt8 :=
  (p.pushes m).filterMap Diagnostic.transmitFailed?

/-- Without a command nothing is offered and nothing noted. -/
theorem silent_step {m : Moment w} (h : p.command? m.move = none) :
    (p.step m).offered = [] ∧ p.failures m = [] := by
  rw [offered_eq, failures, unsent_pushed, unsent, h]
  exact ⟨rfl, rfl⟩

/-- A command is sent or noted, and not both. -/
theorem settled_step {m : Moment w} {command : UInt8} (h : p.command? m.move = some command) :
    (∃ word, Wire.encode? p.format command = some word ∧ (p.step m).offered = [word] ∧
        m.accepts word = true ∧ p.failures m = []) ∨
      ((∀ word ∈ (p.step m).offered, m.accepts word = false) ∧ p.failures m = [command]) := by
  rw [offered_eq, failures, unsent_pushed, unsent, h, unsentOf, Option.filter_some,
    Option.bind_some]
  cases hword : Wire.encode? p.format command with
  | none => exact .inr ⟨nofun, by simp [sends, hword]⟩
  | some word =>
    cases haccepts : m.accepts word with
    | true => exact .inl ⟨word, rfl, rfl, haccepts, by simp [sends, hword, haccepts]⟩
    | false =>
      refine .inr ⟨?_, by simp [sends, hword, haccepts]⟩
      intro offered hoffered
      rwa [List.mem_singleton.mp hoffered]

/-- The command of a move with whether it is sent. -/
def verdict (p : Port) (m : Moment w) : List (UInt8 × Bool) :=
  (p.command? m.move).toList.map fun c => (c, sends p.format m.accepts c)

/-- A verdict agrees with what the transmitter takes and with what is noted. -/
theorem verdict_eq (p : Port) (m : Moment w) :
    ((p.verdict m).filter (·.2)).map (fun v => Wire.encode? p.format v.1) =
        ((p.step m).offered.filter m.accepts).map some ∧
      ((p.verdict m).filter (!·.2)).map Prod.fst = (p.unsent m).toList := by
  rw [verdict, offered_eq, unsent, unsentOf]
  cases p.command? m.move with
  | none => exact ⟨rfl, rfl⟩
  | some command =>
    rw [Option.filter_some, Option.bind_some]
    cases hword : Wire.encode? p.format command with
    | none => simp [sends, hword]
    | some word => cases haccepts : m.accepts word <;> simp [sends, hword, haccepts]

/-! ## Runs -/

/-- The commands that a run calls for. -/
def commandsIn (p : Port) (moments : List (Moment w)) : List UInt8 :=
  p.trace (fun p m => (p.command? m.move).toList) moments

/-- The words of a run that the transmitter takes. -/
def sentIn (p : Port) (moments : List (Moment w)) : List UInt32 :=
  p.trace (fun p m => (p.step m).offered.filter m.accepts) moments

/-- The commands of a run, each with whether it was sent. -/
def verdictsIn (p : Port) (moments : List (Moment w)) : List (UInt8 × Bool) :=
  p.trace (fun p m => p.verdict m) moments

theorem format_step (p : Port) (m : Moment w) : (p.step m).port.format = p.format :=
  congrArg Protocol.format (p.protocol_step m)

/-- A run keeps the format of the line. -/
theorem format_run (p : Port) (moments : List (Moment w)) : (p.run moments).format = p.format :=
  run_kept (P := fun p' => p'.format = p.format) (fun p' m h => (p'.format_step m).trans h) rfl
    moments

/-- What a run offers are the words of its commands. -/
theorem offersIn_eq (p : Port) (moments : List (Moment w)) :
    p.offersIn moments = (p.commandsIn moments).filterMap (Wire.encode? p.format) := by
  rw [offersIn, commandsIn, filterMap_trace]
  refine trace_congr (P := fun p' => p'.format = p.format)
    (fun p' m h => (p'.format_step m).trans h) (fun p' m h => ?_) rfl moments
  rw [offered_eq, h]
  cases p'.command? m.move with
  | none => rfl
  | some command => cases h : Wire.encode? p.format command <;> simp [h]

/-- The words that are sent are those of the commands that are said to be, in order, and the others
are not sent. -/
theorem verdicts_run (p : Port) (moments : List (Moment w)) :
    (p.verdictsIn moments).map Prod.fst = p.commandsIn moments ∧
      ((p.verdictsIn moments).filter (·.2)).map (fun v => Wire.encode? p.format v.1) =
        (p.sentIn moments).map some ∧
      ((p.verdictsIn moments).filter (!·.2)).map Prod.fst = p.unsentIn moments := by
  induction moments generalizing p with
  | nil => exact ⟨rfl, rfl, rfl⟩
  | cons m moments ih =>
    obtain ⟨hcommands, hsent, hunsent⟩ := ih (p.step m).port
    obtain ⟨hsent', hunsent'⟩ := p.verdict_eq m
    have hcommand : (p.verdict m).map Prod.fst = (p.command? m.move).toList := by
      simp [verdict, Function.comp_def]
    -- The rest of the run has frames of the same format.
    rw [format_step] at hsent
    simp only [verdictsIn, commandsIn, sentIn, unsentIn, trace, List.map_append,
      List.filter_append] at hcommands hsent hunsent ⊢
    exact ⟨by rw [hcommands, hcommand], by rw [hsent, hsent'], by rw [hunsent, hunsent']⟩

/-! ## Devices that only speak -/

/-- A line that only receives has no parity errors. -/
theorem decode_ne_badParity {f : Wire.Format} (h : f.bidirectional = false) (word : UInt32) :
    Wire.decode f word ≠ .error .badParity := by
  cases f with
  | xt =>
    rw [Wire.decode]
    split <;> simp
  | amiga => exact nofun
  | atPs2 | m0110 => contradiction

/-- No move calls for a command to a device that cannot be sent one. -/
theorem command?_eq_none (h : p.format.bidirectional = false) (move : Move) :
    p.command? move = none := by
  have hsession : ∀ i, (p.device.step i).action.command? = none := p.device.command?_of_oneWay h
  unfold command?
  split
  · next hr =>
    cases move with
    | frame word =>
      simp only [rejection?] at hr
      split at hr
      · contradiction
      -- The frames of these devices have no parity bit.
      · next hdecode =>
        cases hr
        exact absurd hdecode (decode_ne_badParity h word)
    | tick | leds | drain => contradiction
  · rfl
  · rfl
  · cases p.input? move with
    | none => rfl
    | some i => exact hsession i

/-- A line that only receives has no commands. -/
theorem commandsIn_eq_nil (h : p.format.bidirectional = false) (moments : List (Moment w)) :
    p.commandsIn moments = [] := by
  induction moments generalizing p with
  | nil => rfl
  | cons m moments ih =>
    rw [commandsIn, trace, command?_eq_none h]
    exact ih (by rwa [format_step])

/-! ## All ports -/

/-- No command of a new port vanishes, whatever words come to it, whenever it looks at the time,
whatever the host wants of the LEDs, and whatever the ring and the transmitter take. At each moment
of a run, the command that the session sends or that asks for a byte with wrong parity again is
either taken by the transmitter or noted as not sent; and the transmitter is offered nothing else.
For a whole run, the commands are those sent together with those noted. An XT or Amiga keyboard is
sent nothing, and nothing is noted about it. -/
theorem commands_settled (c : Config) (moments : List (Moment w)) :
    let p := ofConfig c
    let p' := p.run moments
    let f := c.protocol.format
    (∀ m : Moment w,
      (m.move ≠ .drain → (p'.step m).port.log = p'.log.pushAll (p'.pushes m)) ∧
      (p'.command? m.move = none → (p'.step m).offered = [] ∧ p'.failures m = []) ∧
      ∀ command, p'.command? m.move = some command →
        (∃ word, Wire.encode? f command = some word ∧ (p'.step m).offered = [word] ∧
            m.accepts word = true ∧ p'.failures m = []) ∨
          ((∀ word ∈ (p'.step m).offered, m.accepts word = false) ∧
            p'.failures m = [command])) ∧
      p.offersIn moments = (p.commandsIn moments).filterMap (Wire.encode? f) ∧
      (∃ verdicts : List (UInt8 × Bool), verdicts.map Prod.fst = p.commandsIn moments ∧
        (verdicts.filter (·.2)).map (fun v => Wire.encode? f v.1) =
          (p.sentIn moments).map some ∧
        (verdicts.filter (!·.2)).map Prod.fst =
          (p.pushesIn moments).filterMap Diagnostic.transmitFailed?) ∧
      (c.protocol = .xt ∨ c.protocol = .amiga →
        p.offersIn moments = [] ∧
          (p.pushesIn moments).filterMap Diagnostic.transmitFailed? = []) := by
  intro p p' f
  have hf : p.format = f := by
    simp only [p, f, format, ofConfig, Device.ofConfig]
    cases c.protocol <;> rfl
  have hf' : p'.format = f := (p.format_run moments).trans hf
  -- Each command of the run has a verdict, which splits the list in two.
  obtain ⟨hcommands, hsent, hunsent⟩ := p.verdicts_run moments
  have hoffers := p.offersIn_eq moments
  rw [hf] at hsent hoffers
  refine ⟨fun m => ⟨p'.log_step, silent_step, fun command h => ?_⟩, hoffers,
    ⟨p.verdictsIn moments, hcommands, hsent, ?_⟩, fun honeway => ?_⟩
  · rw [← hf']
    exact settled_step h
  · rw [unsentIn_pushed, hunsent]
  -- A line that only receives has no command at all, and so nothing sent or noted.
  · have hbidirectional : p.format.bidirectional = false := by
      rw [hf]
      rcases honeway with h | h <;> simp only [f, h] <;> rfl
    have hnone := commandsIn_eq_nil hbidirectional moments
    rw [hoffers, unsentIn_pushed, ← hunsent]
    rw [hnone] at hcommands ⊢
    rw [List.map_eq_nil_iff.mp hcommands]
    exact ⟨rfl, rfl⟩

/-- A keyboard is asked for its id. The transmitter is busy when the answer comes with wrong parity,
and free again the next time. An XT keyboard sends a key. -/
theorem commands_settled_busy :
    let p := ofConfig {}
    let moments : List (Moment 8) :=
      [⟨.frame 0x754, .empty, fun _ => true⟩, ⟨.frame 0x638, .empty, fun _ => false⟩]
    let m : Moment 8 := ⟨.frame 0x638, .empty, fun _ => true⟩
    let keys : List (Moment 8) :=
      [⟨.frame 0x155, .empty, fun _ => true⟩, ⟨.frame 0x39, .empty, fun _ => true⟩]
    p.offersIn moments = [0x2F2, 0x2FE] ∧
      (p.pushesIn moments).filterMap Diagnostic.transmitFailed? = [Command.Ps2.resend] ∧
      (∃ word, Wire.encode? .atPs2 Command.Ps2.resend = some word ∧
        ((p.run moments).step m).offered = [word] ∧ m.accepts word = true ∧
          (p.run moments).failures m = []) ∧
      ((p.run moments).step m).port.log = (p.run moments).log.pushAll ((p.run moments).pushes m) ∧
      (ofConfig { protocol := .xt }).offersIn keys = [] := by
  intro p moments m keys
  obtain ⟨hmoment, hoffers, -, -⟩ := commands_settled {} moments
  obtain ⟨hlog, -, hcommand⟩ := hmoment m
  have hm : (p.run moments).command? m.move = some Command.Ps2.resend := by decide +kernel
  obtain ⟨-, -, -, honeway⟩ := commands_settled { protocol := .xt } keys
  refine ⟨hoffers.trans (by decide +kernel), by decide +kernel, ?_, hlog nofun,
    (honeway (.inl rfl)).1⟩
  -- The transmitter is free, so that the second way is closed.
  refine (hcommand _ hm).resolve_right fun ⟨hrefused, _⟩ => ?_
  exact nomatch hrefused 0x2FE (by decide +kernel)

end KeyBridge.Port
