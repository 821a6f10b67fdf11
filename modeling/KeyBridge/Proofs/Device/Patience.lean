import KeyBridge.Proofs.Device.Steps
import KeyBridge.Proofs.Device.Watch

/-!
# No session gives up too early

A session whose device does not answer in time starts over or makes do with an assumption. That is
right only after a true silence: the device must have had its whole time, and its clock line must
have been idle at enough ticks. It is shown for runs in which time is a natural number and the
session is given its remainder modulo 2^32.

The number of received bytes is compared modulo 2^32 as well, and a device that sent that many
bytes between two ticks would pass for silent. The first tick of an M0110 session after its creation
or a reset only has the model asked for and compares nothing, so that bytes before and after that
tick count together: `byteGaps`.

## Main definitions

- `patience`: how long a session waits in each of its states
- `quietTicks`: the ticks since a device was last heard

## Key results

- `watch?_receive`, `watch?_reset`, `looks_tick`, `asks_tick`: what becomes of a session's timer
- `patience_eq`: what the session compares is what the table says
- `Kept.justified`: the invariant of every run, at the tick that ends the wait
- `timedOut_of_silence`: after every run, a wait ends only after a silence that was long enough
- `timedOut_early`: what a wait does not keep to
-/

namespace KeyBridge

/-- Whether a diagnostic says that a device did not answer. -/
def Diagnostic.isTimeout : Diagnostic → Bool
  | .timeout _ _ => true
  | _ => false

namespace Device

/-- Whether a step ends the wait for a device: it is noted, and an XT keyboard is made to test
itself again. -/
def Step.timesOut {σ : Type} (s : Step σ) : Bool :=
  s.action == .restart || s.notes.any Diagnostic.isTimeout

/-- The length of a stall. -/
def period : Device → UInt32
  | atKeyboard k => k.timing.stallPeriod
  | ps2Mouse m => m.timing.stallPeriod
  | xt k => k.timing.stallPeriod
  | m0110 k => k.timing.responseTimeout
  | amiga _ => 0

/-- How many stalls end the wait of a session. XT keyboards are waited for at power-up only. -/
def stallLimit : Device → UInt8
  | atKeyboard k => k.stallLimit
  | ps2Mouse m => m.stallLimit
  | xt k => k.timing.ackStalls
  | m0110 _ => 1
  | amiga _ => 0

/-- Whether the next tick looks at the timer. That of an M0110 session which has yet to ask for the
model only asks for it. -/
def looks : Device → Bool
  | m0110 k => k.state != .uninitialised
  | atKeyboard _ | ps2Mouse _ | xt _ | amiga _ => true

/-! ## The timer of a session -/

/-- The timer of a session and what it looks at. Amiga keyboards are not waited for. -/
def watch? : Device → Option Watch
  | atKeyboard k => some ⟨k.timer, k.activity, k.timing.stallPeriod⟩
  | ps2Mouse m => some ⟨m.timer, m.activity, m.timing.stallPeriod⟩
  | xt k => some ⟨k.timer, k.activity, k.timing.stallPeriod⟩
  | m0110 k => some ⟨k.timer, k.activity, k.timing.responseTimeout⟩
  | amiga _ => none

/-- A tick that looks at the timer: it may restart it after that, and ends a wait only after as many
stalls as it takes. -/
structure Looks (d : Device) (now : UInt32) (idle : Bool) (s : Step Device) : Prop where
  watch : s.next.watch? = d.watch?.map (·.looked now idle) ∨
    s.next.watch? = d.watch?.map fun w => (w.looked now idle).restarted now
  patient : s.timesOut → ∃ w ∈ d.watch?, d.stallLimit ≤ (w.looked now idle).timer.stalls

variable {d : Device}

/-- A tick that ends no wait asks nothing of the stalls. -/
theorem Looks.of_waiting {now : UInt32} {idle : Bool} {s : Step Device}
    (hwatch : s.next.watch? = d.watch?.map (·.looked now idle) ∨
      s.next.watch? = d.watch?.map fun w => (w.looked now idle).restarted now)
    (hwait : s.timesOut = false) : Looks d now idle s :=
  ⟨hwatch, fun hout => absurd hout (by simp [hwait])⟩

theorem period_of_watch? {w : Watch} (h : d.watch? = some w) : d.period = w.period := by
  cases d <;> simp only [watch?, Option.some.injEq, reduceCtorEq] at h <;> simp [← h, period]

/-- The timer of a new session has seen nothing. -/
theorem watch?_ofConfig (c : Config) :
    ∀ w ∈ (ofConfig c).watch?, w = ⟨{}, 0, (ofConfig c).period⟩ := by
  unfold ofConfig
  split <;> rintro w ⟨⟩ <;> rfl

/-- A reset clears the timer. -/
theorem watch?_reset (d : Device) : d.reset.watch? = d.watch?.map Watch.cleared := by
  cases d <;> rfl

theorem watch?_setLeds (d : Device) (wanted : LockLeds) :
    (d.setLeds wanted).watch? = d.watch? := by
  cases d <;> rfl

/-! ### AT and PS/2 keyboards -/

namespace AtKeyboard

/-- The timer of a keyboard session and what it looks at. -/
def watch (k : AtKeyboard) : Watch := ⟨k.timer, k.activity, k.timing.stallPeriod⟩

theorem watch_identified (k : AtKeyboard) : k.identified.next.watch = k.watch := by
  unfold identified
  split <;> rfl

theorem watch_repeatCommand (k : AtKeyboard) : k.repeatCommand.next.watch = k.watch := by
  unfold repeatCommand
  split <;> rfl

/-- The end of a wait leaves the timer to the tick. -/
theorem watch_expire (k : AtKeyboard) : k.expire.next.watch = k.watch := by
  unfold expire
  repeat' split
  all_goals rfl

/-- A byte of a keyboard is counted, and the timer is left alone. -/
theorem watch_receive (k : AtKeyboard) (byte : UInt8) :
    (k.receive byte).next.watch = k.watch.heard := by
  simp only [receive]
  repeat' split
  all_goals first | rfl | exact watch_identified _ | exact watch_repeatCommand _

/-- A tick of a keyboard session looks at the timer. -/
theorem looks_tick (k : AtKeyboard) (now : UInt32) (idle : Bool) :
    Looks (.atKeyboard k) now idle ((k.tick now idle).map .atKeyboard) := by
  simp only [tick]
  split
  -- A keyboard that is ready is waited for only when its LEDs are set, from that tick on.
  · unfold updateLeds
    split
    · exact .of_waiting (.inl rfl) rfl
    · exact .of_waiting (.inr rfl) rfl
  · split
    · exact .of_waiting (.inl rfl) rfl
    · next hlimit =>
      exact ⟨.inr (congrArg some (watch_expire _)), fun _ => ⟨_, rfl, UInt8.not_lt.mp hlimit⟩⟩

end AtKeyboard

/-! ### PS/2 mice -/

namespace Ps2Mouse

/-- The timer of a mouse session and what it looks at. -/
def watch (m : Ps2Mouse) : Watch := ⟨m.timer, m.activity, m.timing.stallPeriod⟩

theorem watch_afterId (m : Ps2Mouse) : m.afterId.next.watch = m.watch := by
  unfold afterId
  split <;> rfl

theorem watch_nextRate (m : Ps2Mouse) (index : Nat) : (m.nextRate index).next.watch = m.watch := by
  unfold nextRate
  split <;> rfl

theorem watch_repeatCommand (m : Ps2Mouse) : m.repeatCommand.next.watch = m.watch := by
  unfold repeatCommand
  split <;> rfl

theorem watch_retry (m : Ps2Mouse) : m.retry.next.watch = m.watch := by
  unfold retry
  split <;> rfl

/-- The end of a wait leaves the timer of a mouse to the tick. -/
theorem watch_expire (m : Ps2Mouse) : m.expire.next.watch = m.watch := by
  unfold expire
  repeat' split
  all_goals first | rfl | exact watch_afterId _ | exact watch_retry _

/-- A byte of a mouse is counted, and the timer is left alone. -/
theorem watch_receive (m : Ps2Mouse) (byte : UInt8) :
    (m.receive byte).next.watch = m.watch.heard := by
  simp only [receive]
  repeat' split
  all_goals first
    | rfl
    | exact watch_repeatCommand _
    | exact watch_afterId _
    | exact watch_nextRate _ _

/-- A tick of a mouse session looks at the timer. -/
theorem looks_tick (m : Ps2Mouse) (now : UInt32) (idle : Bool) :
    Looks (.ps2Mouse m) now idle ((m.tick now idle).map .ps2Mouse) := by
  simp only [tick]
  split
  · exact .of_waiting (.inl rfl) rfl
  · next hwait =>
    refine ⟨.inr (congrArg some (watch_expire _)), fun _ => ⟨_, rfl, ?_⟩⟩
    exact UInt8.not_lt.mp fun hlt => hwait (.inr hlt)

end Ps2Mouse

/-! ### PC/XT and M0110 keyboards -/

/-- A byte of an XT keyboard is counted, and the timer is left alone. -/
theorem XtKeyboard.watch?_receive (k : XtKeyboard) (byte : UInt8) :
    (xt (k.receive byte).next).watch? = (xt k).watch?.map Watch.heard := by
  simp only [receive]
  repeat' split
  all_goals rfl

/-- A tick of an XT session looks at the timer. -/
theorem XtKeyboard.looks_tick (k : XtKeyboard) (now : UInt32) (idle : Bool) :
    Looks (.xt k) now idle ((k.tick now idle).map .xt) := by
  simp only [tick]
  split
  · next h => exact ⟨.inr rfl, fun _ => ⟨_, rfl, h.2⟩⟩
  · exact .of_waiting (.inl rfl) rfl

/-- A byte of an M0110 keyboard is counted, and the timer is left alone. -/
theorem M0110Keyboard.watch?_receive (k : M0110Keyboard) (byte : UInt8) :
    (m0110 (k.receive byte).next).watch? = (m0110 k).watch?.map Watch.heard := by
  simp only [receive]
  split <;> rfl

/-- A tick of an M0110 session that has asked for the model looks at the timer. -/
theorem M0110Keyboard.looks_tick {k : M0110Keyboard} (h : k.state ≠ .uninitialised)
    (now : UInt32) (idle : Bool) : Looks (.m0110 k) now idle ((k.tick now idle).map .m0110) := by
  simp only [tick, if_neg h]
  split
  · exact .of_waiting (.inl rfl) rfl
  · next hstalls =>
    refine ⟨.inr rfl, fun _ => ⟨_, rfl, ?_⟩⟩
    exact UInt8.not_lt.mp fun hlt => hstalls (UInt8.lt_one_iff.mp hlt)

/-! ### All devices -/

/-- A byte is counted, and the timer is left alone. -/
theorem watch?_receive (d : Device) (byte : UInt8) :
    (d.receive byte).next.watch? = d.watch?.map Watch.heard := by
  cases d with
  | atKeyboard k => exact congrArg some (k.watch_receive byte)
  | ps2Mouse m => exact congrArg some (m.watch_receive byte)
  | xt k => exact k.watch?_receive byte
  | amiga k => rfl
  | m0110 k => exact k.watch?_receive byte

/-- What a tick does that looks at the timer, for all devices. -/
theorem looks_tick (h : d.looks) (now : UInt32) (idle : Bool) :
    Looks d now idle (d.tick now idle) := by
  cases d with
  | atKeyboard k => exact k.looks_tick now idle
  | ps2Mouse m => exact m.looks_tick now idle
  | xt k => exact k.looks_tick now idle
  | amiga k => exact .of_waiting (.inl rfl) rfl
  | m0110 k => exact M0110Keyboard.looks_tick (by simpa [looks] using h) now idle

/-- A tick that does not look at the timer only restarts it, and ends no wait. -/
theorem asks_tick (h : d.looks = false) (now : UInt32) (idle : Bool) :
    (d.tick now idle).next.watch? = d.watch?.map (·.restarted now) ∧
      (d.tick now idle).timesOut = false := by
  cases d with
  | m0110 k =>
    have hstate : k.state = .uninitialised := by simpa [looks] using h
    simp only [Device.tick, M0110Keyboard.tick, if_pos hstate]
    exact ⟨rfl, rfl⟩
  | atKeyboard | ps2Mouse | xt | amiga => simp [looks] at h

/-! ## How long a session waits -/

/-- The timing of a session. Amiga keyboards are not waited for. -/
def timing? : Device → Option Timing
  | atKeyboard k => some k.timing
  | ps2Mouse m => some m.timing
  | xt k => some k.timing
  | m0110 k => some k.timing
  | amiga _ => none

/-- How many stalls a session waits, and how long each of them is. -/
def patience (t : Timing) (d : Device) : UInt8 × UInt32 :=
  match d with
  | atKeyboard k =>
    match k.state with
    | .uninitialised | .awaitAck | .awaitSelfTest => (t.ackStalls, t.stallPeriod)
    | .readId1 | .readId2 | .setup | .setLeds _ | .initialised => (t.idStalls, t.stallPeriod)
  | ps2Mouse m =>
    match m.state with
    | .uninitialised | .awaitAck | .awaitSelfTest => (t.ackStalls, t.stallPeriod)
    | .awaitId | .knock _ _ | .readWheelId | .awaitEnableAck | .initialised =>
      (t.idStalls, t.stallPeriod)
  | xt k =>
    match k.state with
    | .uninitialised => (t.ackStalls, t.stallPeriod)
    | .initialised => (t.idStalls, t.stallPeriod)
  | m0110 _ => (1, t.responseTimeout)
  | amiga _ => (t.idStalls, t.stallPeriod)

/-- A new session has the timing of its configuration. -/
theorem timing?_ofConfig (c : Config) : ∀ t ∈ (ofConfig c).timing?, t = c.timing := by
  unfold ofConfig
  split <;> rintro t ⟨⟩ <;> rfl

theorem AtKeyboard.Received.timing_eq {k : AtKeyboard} {byte : UInt8} {s : Step AtKeyboard}
    (hs : Received k byte s) : s.next.timing = k.timing := by
  cases hs <;> rfl

theorem AtKeyboard.Ticked.timing_eq {k : AtKeyboard} {s : Step AtKeyboard} (hs : Ticked k s) :
    s.next.timing = k.timing := by
  cases hs <;> rfl

namespace Ps2Mouse

theorem timing_afterId (m : Ps2Mouse) : m.afterId.next.timing = m.timing := by
  unfold afterId
  split <;> rfl

/-- The next command of the knock does not change the timing. -/
theorem timing_nextRate (m : Ps2Mouse) (index : Nat) :
    (m.nextRate index).next.timing = m.timing := by
  unfold nextRate
  split <;> rfl

theorem timing_retry (m : Ps2Mouse) : m.retry.next.timing = m.timing := by
  unfold retry
  split <;> rfl

/-- A byte does not change the timing of a mouse session. -/
theorem Received.timing_eq {m : Ps2Mouse} {byte : UInt8} {s : Step Ps2Mouse}
    (hs : Received m byte s) : s.next.timing = m.timing := by
  cases hs with
  | idTold => exact timing_afterId _
  | rateAcked => exact timing_nextRate _ _
  | _ => rfl

/-- A tick does not change the timing of a mouse session. -/
theorem Ticked.timing_eq {m : Ps2Mouse} {s : Step Ps2Mouse} (hs : Ticked m s) :
    s.next.timing = m.timing := by
  cases hs with
  | idAssumed => exact timing_afterId _
  | knockRepeated => exact timing_retry _
  | _ => rfl

end Ps2Mouse

/-- No step changes the timing of a session. -/
theorem timing?_step (d : Device) (i : Input) : (d.step i).next.timing? = d.timing? := by
  cases d with
  | atKeyboard k =>
    cases i with
    | byte b => exact congrArg some (k.received b).timing_eq
    | tick now idle => exact congrArg some (k.ticked now idle).timing_eq
    | reset | leds => rfl
  | ps2Mouse m =>
    cases i with
    | byte b => exact congrArg some (m.received b).timing_eq
    | tick now idle => exact congrArg some (m.ticked now idle).timing_eq
    | reset | leds => rfl
  | xt k =>
    cases i with
    | byte b =>
      simp only [step, receive, XtKeyboard.receive]
      repeat' split
      all_goals rfl
    | tick now idle =>
      simp only [step, tick, XtKeyboard.tick]
      split <;> rfl
    | reset | leds => rfl
  | m0110 k =>
    cases i with
    | byte b =>
      simp only [step, receive, M0110Keyboard.receive]
      split <;> rfl
    | tick now idle =>
      simp only [step, tick, M0110Keyboard.tick]
      repeat' split
      all_goals rfl
    | reset | leds => rfl
  | amiga k => cases i <;> rfl

/-- No run changes the timing of a session. -/
theorem timing?_run (d : Device) (inputs : List Input) : (d.run inputs).timing? = d.timing? := by
  induction inputs generalizing d with
  | nil => rfl
  | cons i inputs ih => exact (ih _).trans (d.timing?_step i)

/-- An XT keyboard is waited for at power-up only. -/
theorem XtKeyboard.state_of_timesOut {k : XtKeyboard} {now : UInt32} {idle : Bool}
    (hout : (k.tick now idle).timesOut) : k.state = .uninitialised := by
  unfold tick at hout
  dsimp only at hout
  split at hout
  · next h => exact h.1
  · exact nomatch hout

/-- What a session compares when it gives up a wait is what its timing says. -/
theorem patience_eq {t : Timing} (ht : ∀ t' ∈ d.timing?, t' = t) {now : UInt32} {idle : Bool}
    (hout : (d.tick now idle).timesOut) : d.patience t = (d.stallLimit, d.period) := by
  cases d with
  | atKeyboard k =>
    obtain rfl := ht k.timing rfl
    cases hs : k.state <;> simp [patience, stallLimit, AtKeyboard.stallLimit, period, hs]
  | ps2Mouse m =>
    obtain rfl := ht m.timing rfl
    cases hs : m.state <;> simp [patience, stallLimit, Ps2Mouse.stallLimit, period, hs]
  | xt k =>
    obtain rfl := ht k.timing rfl
    simp [patience, stallLimit, period, k.state_of_timesOut hout]
  | m0110 k =>
    obtain rfl := ht k.timing rfl
    rfl
  | amiga k => exact nomatch hout

/-! ## Runs in true time -/

/-- What can happen to a session, in true time. -/
inductive Occurrence where
  | byte (value : UInt8)
  | tick (t : Tick)
  | reset
  | leds (wanted : LockLeds)
deriving DecidableEq, Repr

namespace Occurrence

/-- What the session is given: of the time, the remainder modulo 2^32. -/
def input : Occurrence → Input
  | byte b => .byte b
  | tick t => .tick (.ofNat t.time) t.idle
  | reset => .reset
  | leds wanted => .leds wanted

/-- The time of a tick. -/
def time? : Occurrence → Option Nat
  | tick t => some t.time
  | byte _ | reset | leds _ => none

/-- The ticks since the last byte or reset, after one occurrence more. -/
def extend (quiet : List Tick) : Occurrence → List Tick
  | byte _ | reset => []
  | tick t => quiet ++ [t]
  | leds _ => quiet

end Occurrence

/-- The times of all ticks. -/
def times (occurrences : List Occurrence) : List Nat := occurrences.filterMap Occurrence.time?

/-- The ticks since the last byte or reset. -/
def quietTicks (occurrences : List Occurrence) : List Tick := occurrences.foldl Occurrence.extend []

/-- The numbers of bytes between ticks in a row, `unread` being the number since the last tick if
there was one. With `skip` the next tick is passed over, so that the bytes before and after it count
together, and with `again` the next tick after each reset is. -/
def gapsFrom (again skip : Bool) (unread : Option Nat) : List Occurrence → List Nat
  | [] => []
  | .byte _ :: rest => gapsFrom again skip (unread.map (· + 1)) rest
  | .tick _ :: rest =>
    if skip then gapsFrom again false unread rest
    else unread.toList ++ gapsFrom again false (some 0) rest
  | .reset :: rest => gapsFrom again again unread rest
  | .leds _ :: rest => gapsFrom again skip unread rest

/-- The numbers of bytes between two ticks in a row. -/
def tickGaps (occurrences : List Occurrence) : List Nat := gapsFrom false false none occurrences

/-- The numbers of bytes between two ticks that look at them. For an M0110 keyboard the creation of
the session is one of these, and the first tick after that or after a reset is not. -/
def byteGaps (p : Protocol) (occurrences : List Occurrence) : List Nat :=
  if p = .m0110 then gapsFrom true true (some 0) occurrences else tickGaps occurrences

/-- Which ticks do not look at the timer of a session: with `skip` the next one, and with `again`
the next one after each reset. -/
structure PassesOver (d : Device) (again skip : Bool) : Prop where
  next_eq : d.looks = !skip
  again_eq : (d.protocol == .m0110) = again

namespace PassesOver

variable {again skip : Bool}

/-- A session keeps its protocol with every step. -/
theorem again_step (h : d.PassesOver again skip) (i : Input) :
    ((d.step i).next.protocol == .m0110) = again := by
  rw [step_protocol]
  exact h.again_eq

/-- A new M0110 session passes over the first tick, all others over none. -/
theorem ofConfig (c : Config) :
    PassesOver (.ofConfig c) (c.protocol == .m0110) (c.protocol == .m0110) := by
  cases hp : c.protocol <;> constructor <;> simp [Device.ofConfig, hp, looks, protocol]

/-- A byte does not make a session ask for the model, nor forget that it has. -/
protected theorem byte (h : d.PassesOver again skip) (b : UInt8) :
    (d.receive b).next.PassesOver again skip where
  next_eq := by
    rw [← h.next_eq]
    cases d with
    | m0110 k =>
      obtain ⟨_, state, _, _, _, _⟩ := k
      cases state <;> rfl
    | _ => rfl
  again_eq := h.again_step (.byte b)

/-- After a tick the model has been asked for. -/
protected theorem tick (h : d.PassesOver again skip) (now : UInt32) (idle : Bool) :
    (d.tick now idle).next.PassesOver again false where
  next_eq := by
    cases d with
    | m0110 k =>
      simp only [Device.tick, M0110Keyboard.tick]
      split
      · rfl
      · next hstate =>
        split
        · simpa [looks, Step.map] using hstate
        · rfl
    | _ => rfl
  again_eq := h.again_step (.tick now idle)

/-- After a reset the first tick is passed over again. -/
protected theorem reset (h : d.PassesOver again skip) : d.reset.PassesOver again again where
  next_eq := by
    rw [← h.again_eq]
    cases d <;> rfl
  again_eq := h.again_step .reset

/-- Other LEDs do not change which ticks are passed over. -/
protected theorem leds (h : d.PassesOver again skip) (wanted : LockLeds) :
    (d.setLeds wanted).PassesOver again skip where
  next_eq := by
    rw [← h.next_eq]
    cases d <;> rfl
  again_eq := h.again_step (.leds wanted)

end PassesOver

/-! ## The invariant -/

/-- A session whose timer is faithful to the past. -/
structure Kept (d : Device) (unread : Option Nat) (clock : Nat) (quiet : List Tick) : Prop where
  faithful : ∀ w ∈ d.watch?, w.Faithful unread clock quiet
  counted : d.protocol = .m0110 → unread.isSome

namespace Kept

variable {unread : Option Nat} {clock : Nat} {quiet : List Tick} {last : Tick}

/-- A new session has no past. -/
theorem ofConfig (c : Config) :
    Kept (.ofConfig c) (if (Device.ofConfig c).protocol = .m0110 then some 0 else none) 0 [] where
  faithful w hw := by
    rw [watch?_ofConfig c w hw]
    refine .new _ _ fun n hn => ?_
    split at hn <;> simp_all
  counted h := by simp [h]

/-- Whatever becomes of the timer of a session, it is for the timer to be faithful. -/
theorem of_map {d' : Device} {f : Watch → Watch} (hwatch : d'.watch? = d.watch?.map f)
    (hfaithful : ∀ w ∈ d.watch?, (f w).Faithful unread clock quiet)
    (hcounted : d'.protocol = .m0110 → unread.isSome) : d'.Kept unread clock quiet where
  faithful w' hw' := by
    rw [hwatch] at hw'
    obtain ⟨w, hw, rfl⟩ := Option.map_eq_some_iff.mp hw'
    exact hfaithful w hw
  counted := hcounted

/-- A session keeps its protocol with every step. -/
theorem counted_step (h : d.Kept unread clock quiet) (i : Input)
    (hprotocol : (d.step i).next.protocol = .m0110) : unread.isSome :=
  h.counted ((d.step_protocol i).symm.trans hprotocol)

/-- A byte ends the silence and is one more that was not read. -/
protected theorem byte (h : d.Kept unread clock quiet) (b : UInt8) :
    (d.receive b).next.Kept (unread.map (· + 1)) clock [] :=
  .of_map (d.watch?_receive b) (fun w hw => (h.faithful w hw).heard)
    fun hprotocol => Option.isSome_map.trans (h.counted_step (.byte b) hprotocol)

/-- A reset ends the silence, and the bytes are still to be read. -/
protected theorem reset (h : d.Kept unread clock quiet) : d.reset.Kept unread clock [] :=
  .of_map d.watch?_reset (fun w hw => (h.faithful w hw).cleared) (h.counted_step .reset)

/-- Other LEDs change nothing of the past. -/
protected theorem leds (h : d.Kept unread clock quiet) (wanted : LockLeds) :
    (d.setLeds wanted).Kept unread clock quiet where
  faithful w hw := h.faithful w (d.watch?_setLeds wanted ▸ hw)
  counted := h.counted_step (.leds wanted)

/-- A session stays kept by a tick that looks at the timer, which has read all bytes by then. -/
theorem look (h : d.Kept unread clock quiet) (hlooks : d.looks) (hle : clock ≤ last.time)
    (hunread : ∀ n ∈ unread, n < 2 ^ 32) :
    (d.tick (.ofNat last.time) last.idle).next.Kept (some 0) last.time (quiet ++ [last]) := by
  have hlooked w (hw : w ∈ d.watch?) := (h.faithful w hw).looked hle hunread
  rcases (looks_tick hlooks (.ofNat last.time) last.idle).watch with hwatch | hwatch
  · exact .of_map hwatch hlooked fun _ => rfl
  · exact .of_map hwatch (fun w hw => (hlooked w hw).restarted rfl (by simp)) fun _ => rfl

/-- A session stays kept by a tick that does not look at the timer, which leaves the bytes unread.
-/
theorem ask (h : d.Kept unread clock quiet) (hlooks : d.looks = false)
    (hle : clock ≤ last.time) :
    (d.tick (.ofNat last.time) last.idle).next.Kept unread last.time (quiet ++ [last]) := by
  have hunread : unread.isSome := h.counted (by cases d <;> simp_all [looks, protocol])
  exact .of_map (asks_tick hlooks _ _).1
    (fun w hw => ((h.faithful w hw).waited hle).restarted hunread (by simp)) fun _ => hunread

/-- A session that ends a wait at a tick has seen as many stalls as its limit. -/
theorem tick_justified (h : d.Kept unread clock quiet) (hle : clock ≤ last.time)
    (hunread : d.looks → ∀ n ∈ unread, n < 2 ^ 32)
    (hout : (d.tick (.ofNat last.time) last.idle).timesOut) :
    Watch.Justified d.period.toNat d.stallLimit.toNat last.time (quiet ++ [last]) := by
  cases hlooks : d.looks with
  | false => exact absurd hout (by simp [(asks_tick hlooks _ _).2])
  | true =>
    obtain ⟨w, hw, hlimit⟩ := (looks_tick hlooks (.ofNat last.time) last.idle).patient hout
    have hlooked := (h.faithful w hw).looked hle (hunread hlooks)
    rw [period_of_watch? hw]
    exact (hlooked.stalls_justified (StallTimer.isSome_start_tick _ _ _ _ _)).fewer hlimit

/-- A session that ends a wait after a run has seen as many stalls as its limit, each a period with
the clock idle, since the last byte, reset or start. -/
theorem justified (h : d.Kept unread clock quiet) {again skip : Bool}
    (hpasses : d.PassesOver again skip) {before : List Occurrence}
    (htimes : (clock :: times (before ++ [.tick last])).Pairwise (· ≤ ·))
    (hunread : ∀ gap ∈ gapsFrom again skip unread (before ++ [.tick last]), gap < 2 ^ 32)
    (hout : ((d.run (before.map Occurrence.input)).tick (.ofNat last.time) last.idle).timesOut) :
    Watch.Justified (d.run (before.map Occurrence.input)).period.toNat
      (d.run (before.map Occurrence.input)).stallLimit.toNat last.time
      ((before ++ [Occurrence.tick last]).foldl Occurrence.extend quiet) := by
  induction before generalizing d skip unread clock quiet with
  -- What has been is in `skip`, `unread`, `clock` and `quiet`, and changes with each occurrence.
  | nil =>
    have hle : clock ≤ last.time := by simpa [times, Occurrence.time?] using htimes
    refine h.tick_justified hle (fun hlooks n hn => hunread n ?_) hout
    have hskip : skip = false := by simpa [hlooks] using hpasses.next_eq
    simpa [gapsFrom, hskip] using hn
  | cons o before ih =>
    cases o with
    | byte b => exact ih (h.byte b) (hpasses.byte b) htimes hunread hout
    | reset => exact ih h.reset hpasses.reset htimes hunread hout
    | leds wanted => exact ih (h.leds wanted) (hpasses.leds wanted) htimes hunread hout
    | tick t =>
      obtain ⟨hclock, htimes⟩ := List.pairwise_cons.mp htimes
      have hle : clock ≤ t.time := hclock _ List.mem_cons_self
      have hnext := hpasses.tick (.ofNat t.time) t.idle
      rw [List.cons_append, gapsFrom] at hunread
      cases skip with
      -- The tick passes over the timer, and the bytes before it count on.
      | true =>
        rw [if_pos rfl] at hunread
        exact ih (h.ask hpasses.next_eq hle) hnext htimes hunread hout
      -- The tick looks at the timer, and the bytes are counted anew from here.
      | false =>
        rw [if_neg Bool.false_ne_true] at hunread
        simp only [List.mem_append, Option.mem_toList] at hunread
        refine ih (h.look hpasses.next_eq hle fun n hn => hunread n (.inl hn)) hnext htimes ?_ hout
        exact fun gap hgap => hunread gap (.inr hgap)

end Kept

/-- After every run from the creation of a session, a wait ends at a tick only after a silence that
was long enough. From the first tick after the last byte or reset on, all the stalls that the wait
takes have had their time, and so many ticks had an idle clock line, each a period or more after the
first. A wait that takes a stall at all is never ended for a device that is heard between any two
ticks, or whose clock line is never idle. -/
theorem timedOut_of_silence (c : Config) {before : List Occurrence} {last : Tick}
    (htimes : (times (before ++ [.tick last])).Pairwise (· ≤ ·))
    (hgaps : ∀ gap ∈ byteGaps c.protocol (before ++ [.tick last]), gap < 2 ^ 32)
    (hout : (((ofConfig c).run (before.map Occurrence.input)).tick
      (.ofNat last.time) last.idle).timesOut) :
    let (limit, period) := ((ofConfig c).run (before.map Occurrence.input)).patience c.timing
    ∃ first rest, quietTicks (before ++ [.tick last]) = first :: rest ∧
      first.time + limit.toNat * period.toNat ≤ last.time ∧
      limit.toNat ≤ rest.countP (fun t => t.idle && first.time + period.toNat ≤ t.time) ∧
      (0 < limit → ∃ t ∈ rest, t.idle) := by
  have htiming : ∀ t ∈ ((ofConfig c).run (before.map Occurrence.input)).timing?, t = c.timing := by
    rw [timing?_run]
    exact timing?_ofConfig c
  rw [patience_eq htiming hout]
  -- Before its creation a session has no past: its clock stands at zero.
  have htimes : (0 :: times (before ++ [.tick last])).Pairwise (· ≤ ·) :=
    List.pairwise_cons.mpr ⟨fun _ _ => Nat.zero_le _, htimes⟩
  have hunread : ∀ gap ∈ gapsFrom (c.protocol == .m0110) (c.protocol == .m0110)
      (if (ofConfig c).protocol = .m0110 then some 0 else none) (before ++ [.tick last]),
      gap < 2 ^ 32 := by
    cases hp : c.protocol <;> rw [hp] at hgaps <;> simp only [Device.ofConfig, hp, protocol] <;>
      exact hgaps
  obtain ⟨first, rest, hquiet, htime, hcount⟩ :=
    (Kept.ofConfig c).justified (PassesOver.ofConfig c) htimes hunread hout
  refine ⟨first, rest, hquiet, htime, hcount, fun hpos => ?_⟩
  obtain ⟨t, ht, hidle⟩ := List.countP_pos_iff.mp (Nat.lt_of_lt_of_le hpos hcount)
  exact ⟨t, ht, (Bool.and_eq_true_iff.mp hidle).1⟩

/-- A keyboard says something unknown and is reset. Then it is silent while its clock line is idle,
and the 32 bits of the time overflow. -/
def silence : List Occurrence :=
  [.tick ⟨5, true⟩, .byte 0x00] ++
    [4294967000, 4294967200, 4294967400, 4294967600, 4294967800].map (fun t => .tick ⟨t, true⟩)

/-- It takes five stalls of 200 milliseconds, the acknowledgement of the reset being waited for. -/
theorem timedOut_of_silence_reset :
    (((ofConfig {}).run (silence.map Occurrence.input)).tick 704 true).timesOut ∧
      ((ofConfig {}).run (silence.map Occurrence.input)).patience {} = (5, 200) ∧
      ∃ first rest, quietTicks (silence ++ [.tick ⟨4294968000, true⟩]) = first :: rest ∧
        first.time + 5 * 200 ≤ 4294968000 ∧
        5 ≤ rest.countP (fun t => t.idle && first.time + 200 ≤ t.time) := by
  have hout : (((ofConfig {}).run (silence.map Occurrence.input)).tick 704 true).timesOut := by
    decide +kernel
  have hpatience : ((ofConfig {}).run (silence.map Occurrence.input)).patience {} = (5, 200) := by
    decide +kernel
  have hsilent := @timedOut_of_silence {} silence ⟨4294968000, true⟩ (by decide +kernel)
    (by decide +kernel) hout
  rw [hpatience] at hsilent
  obtain ⟨first, rest, hquiet, htime, hcount, -⟩ := hsilent
  exact ⟨hout, hpatience, first, rest, hquiet, htime, hcount⟩

/-! ## Bytes around the first tick

The first tick of an M0110 session has the model asked for, and does not look at the number of
bytes. Those before it and after it can make 2^32 together and pass for silence. -/

/-- So many bytes, the first tick, and one more byte. -/
def burst (n : Nat) : List Occurrence :=
  List.replicate n (.byte 0x00) ++ [.tick ⟨0, true⟩, .byte 0x00]

/-- Bytes before the first tick are only counted. -/
theorem run_replicate_byte (k : M0110Keyboard) (hstate : k.state = .uninitialised) (n : Nat) :
    (m0110 k).run (List.replicate n (.byte 0x00)) =
      m0110 { k with activity := k.activity + .ofNat n } := by
  induction n generalizing k with
  | zero => simp [run]
  | succ n ih =>
    have hstep : ((m0110 k).step (.byte 0x00)).next =
        m0110 { k with activity := k.activity + 1 } := by
      simp [step, receive, M0110Keyboard.receive, hstate, Step.map]
    -- The count is kept modulo 2^32, where the order of the additions does not matter.
    have hcount : k.activity + 1 + .ofNat n = k.activity + UInt32.ofNat (n + 1) := by
      rw [UInt32.add_assoc, UInt32.ofNat_add, UInt32.add_comm 1]
      rfl
    rw [List.replicate_succ]
    show (((m0110 k).step (.byte 0x00)).next).run _ = _
    rw [hstep, ih { k with activity := k.activity + 1 } hstate, hcount]

/-- With one byte less than 2^32 before the first tick the count is zero again after it, and the
tick half a second later ends the wait. -/
theorem timesOut_burst {n : Nat} (hn : UInt32.ofNat n = 0xFFFFFFFF) :
    (((ofConfig { protocol := .m0110 }).run ((burst n).map Occurrence.input)).tick
      500 true).timesOut := by
  have hbytes : (ofConfig { protocol := .m0110 }).run (List.replicate n (.byte 0x00)) =
      m0110 { timing := {}, activity := 0xFFFFFFFF } := by
    refine (run_replicate_byte { timing := {} } rfl n).trans ?_
    rw [hn]
    rfl
  -- The first tick starts the time, and the byte after it brings the count back to zero.
  have hrun : (ofConfig { protocol := .m0110 }).run ((burst n).map Occurrence.input) =
      (m0110 { timing := {}, activity := 0xFFFFFFFF }).run [.tick 0 true, .byte 0x00] := by
    rw [burst, List.map_append, List.map_replicate, ← hbytes]
    exact List.foldl_append
  rw [hrun]
  decide

/-- Bytes have no times. -/
theorem times_replicate_byte (n : Nat) (b : UInt8) (rest : List Occurrence) :
    times (List.replicate n (.byte b) ++ rest) = times rest := by
  simp [times, Occurrence.time?]

/-- After a burst only the last tick is quiet. -/
theorem quietTicks_burst (n : Nat) (last : Tick) :
    quietTicks (burst n ++ [.tick last]) = [last] := by
  simp [quietTicks, burst, Occurrence.extend]

/-- Bytes before the first tick are between no two ticks. -/
theorem tickGaps_replicate_byte (n : Nat) (b : UInt8) (rest : List Occurrence) :
    tickGaps (List.replicate n (.byte b) ++ rest) = tickGaps rest := by
  induction n with
  | zero => rfl
  | succ n ih => exact ih

/-- A wait can end without any silence where the bytes before the first tick count, although there
are fewer than 2^32 bytes before it and only one after it. And with a period of no length a wait
ends while the clock stands still, so that no time passes from the first tick to the last. -/
theorem timedOut_early :
    let last : Tick := ⟨500, true⟩
    let occurrences := burst (2 ^ 32 - 1) ++ [.tick last]
    let hasty : Config := { protocol := .m0110, timing := { responseTimeout := 0 } }
    ((times occurrences).Pairwise (· ≤ ·) ∧ (∀ gap ∈ tickGaps occurrences, gap < 2 ^ 32) ∧
      (((ofConfig { protocol := .m0110 }).run ((burst (2 ^ 32 - 1)).map Occurrence.input)).tick
        500 true).timesOut ∧
      quietTicks occurrences = [last]) ∧
    ((((ofConfig hasty).run [.tick 0 true]).tick 0 true).timesOut ∧
      quietTicks [.tick ⟨0, true⟩, .tick ⟨0, true⟩] = [⟨0, true⟩, ⟨0, true⟩]) := by
  intro last occurrences hasty
  refine ⟨⟨?_, ?_, ?_, ?_⟩, ?_⟩
  · rw [show occurrences = _ from List.append_assoc .., times_replicate_byte]
    decide
  · rw [show occurrences = _ from List.append_assoc .., tickGaps_replicate_byte]
    decide
  · exact timesOut_burst rfl
  · exact quietTicks_burst _ last
  · decide

end Device

end KeyBridge
