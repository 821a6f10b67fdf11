import KeyBridge.Device.AmigaKeyboard
import Mathlib.Algebra.Group.Nat.Even
import Mathlib.Data.Nat.Bits

/-!
# Caps lock between an Amiga keyboard and the host

An Amiga keyboard latches caps lock itself, and so does the host. A session that sees them differ
makes a tap, at which the host toggles its caps lock and reports the new LEDs. Tap and report take
their time, and until then the session goes by what it heard last. So a press that meets taps or
reports on their way is judged by an old state of the host.

Here keyboard, session and host form a loop whose messages arrive in order but at any time. Once
they have all arrived, keyboard and host agree or not, and that is decided by the last press alone:
by whether the number of messages which it met on their way was even.

## Key results

- `Settles.apart_press`: what a press decides
- `apart_deliverTap`, `apart_deliverReport`: an arrival changes nothing of it
- `caps_agree_iff`: keyboard and host agree unless the last press met an odd number of messages
- `caps_differ`: two presses in quick succession leave them apart
-/

namespace KeyBridge.Device

open Command

/-! ## The loop -/

/-- What can happen in the loop. -/
inductive CapsMove where
  /-- Caps lock is pressed. -/
  | press
  /-- The host gets the oldest tap that is on its way. -/
  | tap
  /-- The session gets the oldest report that is on its way. -/
  | report
deriving DecidableEq, Repr

/-- An Amiga keyboard, its session and the host, with all that is on its way between them. -/
structure CapsLoop where
  /-- Whether the LED of the keyboard is on. -/
  keyboardCaps : Bool := false
  session : AmigaKeyboard
  /-- How many taps are on their way to the host. -/
  taps : Nat := 0
  /-- The lock LEDs of the host. -/
  host : LockLeds := {}
  /-- The reports on their way to the session, the oldest first. -/
  reports : List LockLeds := []
deriving DecidableEq, Repr

namespace CapsLoop

/-- Keyboard and host without caps lock, and a session that is ready and knows so. -/
def start (epoch : UInt16) (host : LockLeds) : CapsLoop where
  session := { state := .initialised, epoch }
  host := { host with caps := false }

/-- What the keyboard sends when its LED has come on or gone out. -/
def pressByte (caps : Bool) : UInt8 :=
  if caps then Amiga.capsLock else Amiga.capsLock ||| AmigaKeyboard.upBit

/-- The keyboard toggles its LED and tells the session, which may make a tap. -/
def press (s : CapsLoop) : CapsLoop :=
  let keyboardCaps := !s.keyboardCaps
  let step := s.session.receive (pressByte keyboardCaps)
  let taps := match step.action with
    | .queue _ _ => s.taps + 1
    | _ => s.taps
  { s with keyboardCaps, session := step.next, taps }

/-- A tap toggles caps lock at the host, which reports it. -/
def deliverTap (s : CapsLoop) : CapsLoop :=
  match s.taps with
  | 0 => s
  | taps + 1 =>
    let host := { s.host with caps := !s.host.caps }
    { s with taps, host, reports := s.reports ++ [host] }

/-- A report tells the session what the lock LEDs of the host were. -/
def deliverReport (s : CapsLoop) : CapsLoop :=
  match s.reports with
  | [] => s
  | leds :: reports => { s with session := s.session.setLeds leds, reports }

/-- One move. Nothing happens where nothing is on its way. -/
def step (s : CapsLoop) : CapsMove → CapsLoop
  | .press => s.press
  | .tap => s.deliverTap
  | .report => s.deliverReport

/-- The loop after a run of moves. -/
def run (s : CapsLoop) (moves : List CapsMove) : CapsLoop := moves.foldl step s

/-- How many messages are on their way. -/
def underway (s : CapsLoop) : Nat := s.taps + s.reports.length

/-- How many messages were on their way at the last press of a run. Before the run the last press
had met some already. -/
def metAtPress (s : CapsLoop) (met : Nat) : List CapsMove → Nat
  | [] => met
  | .press :: moves => (s.step .press).metAtPress s.underway moves
  | .tap :: moves => (s.step .tap).metAtPress met moves
  | .report :: moves => (s.step .report).metAtPress met moves

/-! ## Reports -/

variable {s : CapsLoop} {caps host : Bool} {leds : LockLeds} {reports : List LockLeds}

/-- Reports lead from what the session knows to what the host has, each the opposite of the one
before. -/
def Toggling (caps : Bool) : List LockLeds → Bool → Prop
  | [], host => host = caps
  | leds :: reports, host => leds.caps = !caps ∧ Toggling leds.caps reports host

/-- A report that differs from what the host had adds to the toggling. -/
theorem Toggling.concat (h : Toggling caps reports host) (hleds : leds.caps = !host) :
    Toggling caps (reports ++ [leds]) leds.caps := by
  -- What the session knows is generalised: it changes with each report.
  induction reports generalizing caps with
  | nil => exact ⟨hleds.trans (congrArg _ h), rfl⟩
  | cons first reports ih => exact ⟨h.1, ih h.2⟩

/-- After an odd number of reports the host has the opposite of what the session knows. -/
theorem Toggling.host_eq (h : Toggling caps reports host) :
    host = (caps ^^ reports.length.bodd) := by
  induction reports generalizing caps with
  | nil => simpa [Toggling] using h
  | cons first reports ih => simp [ih h.2, h.1]

/-! ## Where the host ends up -/

/-- What the host has once all taps have arrived. -/
def settledCaps (s : CapsLoop) : Bool := s.host.caps ^^ s.taps.bodd

/-- Whether keyboard and host disagree once all taps have arrived. -/
def apart (s : CapsLoop) : Bool := s.keyboardCaps ^^ s.settledCaps

/-- The session is ready and is told of every toggle of the host. -/
structure Settles (s : CapsLoop) : Prop where
  ready : s.session.state = .initialised
  toggling : Toggling s.session.hostCaps s.reports s.host.caps

/-- The host ends up with the opposite of what the session knows if the number of messages on their
way is odd. -/
theorem Settles.settledCaps_eq (h : s.Settles) :
    s.settledCaps = (s.session.hostCaps ^^ s.underway.bodd) := by
  rw [settledCaps, underway, h.toggling.host_eq, Nat.bodd_add, Bool.xor_assoc,
    Bool.xor_comm s.taps.bodd]

/-! ### Presses -/

/-- What a session that is ready makes of a press. -/
theorem receive_pressByte {k : AmigaKeyboard} (h : k.state = .initialised) (caps : Bool) :
    k.receive (pressByte caps) =
      { next := k
        action := if caps = k.hostCaps then .none
          else .queue Amiga.capsLock (Amiga.capsLock ||| AmigaKeyboard.upBit) } := by
  obtain ⟨state, hostCaps, epoch⟩ := k
  obtain rfl : state = .initialised := h
  cases caps <;> cases hostCaps <;> rfl

/-- A press makes a tap if the keyboard comes to differ from what the session knows of the host. -/
theorem Settles.press_eq (h : s.Settles) :
    s.press =
      { s with
        keyboardCaps := !s.keyboardCaps
        taps := if (!s.keyboardCaps) = s.session.hostCaps then s.taps else s.taps + 1 } := by
  by_cases hsame : (!s.keyboardCaps) = s.session.hostCaps <;>
    simp [press, receive_pressByte h.ready, hsame]

/-- A press keeps the loop settling. -/
theorem Settles.press (h : s.Settles) : s.press.Settles := by
  rw [h.press_eq]
  exact ⟨h.ready, h.toggling⟩

/-- After a press keyboard and host end up apart if the number of messages that it met on their way
is odd, whether it makes a tap or not. -/
theorem Settles.apart_press (h : s.Settles) : s.press.apart = s.underway.bodd := by
  have hsettled : (s.host.caps ^^ s.taps.bodd) = (s.session.hostCaps ^^ s.underway.bodd) :=
    h.settledCaps_eq
  rw [h.press_eq, apart, settledCaps]
  dsimp only
  -- A tap and a keyboard that differs from what the session knows make up for each other.
  by_cases hsame : (!s.keyboardCaps) = s.session.hostCaps
  · rw [if_pos hsame, hsettled, hsame, ← Bool.xor_assoc, Bool.xor_self, Bool.false_xor]
  · have hknown : s.session.hostCaps = s.keyboardCaps := by
      simpa [eq_comm] using hsame
    rw [if_neg hsame, Nat.bodd_succ, Bool.xor_not, hsettled, hknown, Bool.not_xor, Bool.xor_not,
      Bool.not_not, ← Bool.xor_assoc, Bool.xor_self, Bool.false_xor]

/-! ### Arrivals -/

/-- A tap that is delivered keeps the loop settling. -/
theorem Settles.deliverTap (h : s.Settles) : s.deliverTap.Settles := by
  unfold CapsLoop.deliverTap
  split
  · exact h
  · exact ⟨h.ready, h.toggling.concat rfl⟩

/-- A report that is delivered keeps the loop settling. -/
theorem Settles.deliverReport (h : s.Settles) : s.deliverReport.Settles := by
  unfold CapsLoop.deliverReport
  split
  · exact h
  · next leds reports hreports =>
    have htoggling := h.toggling
    rw [hreports] at htoggling
    exact ⟨h.ready, htoggling.2⟩

/-- What arrives was reckoned with. -/
theorem apart_deliverTap (s : CapsLoop) : s.deliverTap.apart = s.apart := by
  unfold deliverTap
  split
  · rfl
  · next taps htaps => simp [apart, settledCaps, htaps]

theorem apart_deliverReport (s : CapsLoop) : s.deliverReport.apart = s.apart := by
  unfold deliverReport
  split <;> rfl

/-! ## Runs -/

/-- Where keyboard and host end up has been decided by the last press. -/
theorem apart_run {met : Nat} (h : s.Settles) (hmet : s.apart = met.bodd)
    (moves : List CapsMove) : (s.run moves).apart = (s.metAtPress met moves).bodd := by
  induction moves generalizing s met with
  | nil => exact hmet
  | cons move moves ih =>
    cases move with
    | press => exact ih h.press h.apart_press
    | tap => exact ih h.deliverTap (s.apart_deliverTap.trans hmet)
    | report => exact ih h.deliverReport (s.apart_deliverReport.trans hmet)

/-- At first keyboard and host agree. -/
theorem apart_start (epoch : UInt16) (host : LockLeds) :
    (start epoch host).apart = Nat.bodd 0 := by
  simp [apart, settledCaps, start]

/-- A loop settles from the start. -/
theorem settles_start (epoch : UInt16) (host : LockLeds) : (start epoch host).Settles :=
  ⟨rfl, rfl⟩

/-- Keyboard and host begin without caps lock. Whenever no tap is on its way any more, they agree
exactly if the number of taps and reports that were on their way at the last press was even, as it
is if no press has met any. -/
theorem caps_agree_iff (epoch : UInt16) (host : LockLeds) (moves : List CapsMove)
    (htaps : ((start epoch host).run moves).taps = 0) :
    let s := (start epoch host).run moves
    s.keyboardCaps = s.host.caps ↔ Even ((start epoch host).metAtPress 0 moves) := by
  intro s
  have hapart : s.apart = ((start epoch host).metAtPress 0 moves).bodd :=
    apart_run (settles_start epoch host) (apart_start epoch host) moves
  have hsettled : s.settledCaps = s.host.caps := by
    rw [settledCaps, htaps, Nat.bodd_zero, Bool.xor_false]
  rw [Nat.even_iff, Nat.mod_two_of_bodd, ← hapart, apart, hsettled]
  cases s.keyboardCaps <;> cases s.host.caps <;> decide

/-- Of four presses in a row two make a tap. The last press meets both on their way, and keyboard
and host agree in the end. -/
theorem caps_agree_iff_fourPresses :
    let moves : List CapsMove := [.press, .press, .press, .press, .tap, .tap, .report, .report]
    let s := (start 1 {}).run moves
    s.taps = 0 ∧ s.reports = [] ∧ (start 1 {}).metAtPress 0 moves = 2 ∧
      s.keyboardCaps = s.host.caps := by
  intro moves s
  exact ⟨by decide, by decide, by decide, (caps_agree_iff 1 {} moves (by decide)).mpr (by decide)⟩

/-- Caps lock is pressed twice. At the second press the tap of the first one has arrived, but the
report of it has not. So the session takes the keyboard, whose LED has gone out, to agree with the
host. In the end nothing is on its way, and caps lock is on at the host only. -/
theorem caps_differ :
    let s := (start 1 {}).run [.press, .tap, .press, .report]
    s.taps = 0 ∧ s.reports = [] ∧ s.keyboardCaps = false ∧ s.host.caps = true := by
  decide

end CapsLoop

end KeyBridge.Device
