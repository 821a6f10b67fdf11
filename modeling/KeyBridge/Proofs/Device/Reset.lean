import KeyBridge.Proofs.Device.Steps
import KeyBridge.Proofs.Device.Watch
import Mathlib.Tactic.SplitIfs

/-!
# A session after a reset

A reset keeps some of what a session has gone through: the number of received bytes, the number
that the timer saw last, the LEDs that were being set and the epoch. None of it can be told from
then on. `erased` takes it away from a session, and a step of the session that is left is the step
itself with the same taken away: `Blind`. So a reset session goes on as a new one does that was told
the same of the LEDs, and only its epochs are other numbers.

## Key results

- `StallTimer.tick_rebased`: a timer compares numbers of bytes and nothing else
- `AtKeyboard.blind_receive`, `AtKeyboard.blind_tick` and those of the other devices
- `blind_step`: no step depends on what is erased
- `erased_reset_run`: what is left of a reset session is a new one
- `reset_like_new`: both go on in the same way
-/

namespace KeyBridge.Device

open Command

/-! ## Timers -/

namespace StallTimer

/-- The timer as it would be if the bytes were counted from now on. What it saw last matters once a
period is under way. -/
def rebased (t : StallTimer) (activity : UInt32) : StallTimer :=
  { t with seen := if t.start.isNone then 0 else t.seen - activity }

variable (t : StallTimer) (activity now : UInt32)

@[simp] theorem start_rebased : (t.rebased activity).start = t.start := rfl

@[simp] theorem stalls_rebased : (t.rebased activity).stalls = t.stalls := rfl

@[simp] theorem rebased_zero : (t.rebased activity).rebased 0 = t.rebased activity := by
  obtain ⟨seen, _ | start, stalls⟩ := t <;> simp [rebased]

@[simp] theorem rebased_one : (t.rebased activity).rebased 1 = t.rebased (activity + 1) := by
  obtain ⟨seen, _ | start, stalls⟩ := t
  · rfl
  · have hseen : seen - activity - 1 = seen - (activity + 1) := by grind
    simp [rebased, hseen]

/-- A timer compares numbers of bytes and nothing else. -/
theorem tick_rebased (idle : Bool) (period : UInt32) :
    (t.rebased activity).tick 0 now idle period =
      (t.tick activity now idle period).rebased activity := by
  obtain ⟨seen, _ | start, stalls⟩ := t
  · simp [rebased, tick]
  · have hseen : 0 ≠ seen - activity ↔ activity ≠ seen := by grind
    simp only [rebased, tick, Option.isNone_some, Bool.false_eq_true, if_false, hseen]
    split
    · simp
    · split <;> simp

/-- A timer that runs can be restarted before or after rebasing. -/
theorem rebased_restart (h : t.start.isSome) :
    (t.restart now).rebased activity = (t.rebased activity).restart now := by
  obtain ⟨start, hstart⟩ := Option.isSome_iff_exists.mp h
  simp [rebased, restart, hstart]

/-- A timer that was cleared is a new one. -/
theorem rebased_clear : t.clear.rebased activity = rebased {} 0 := by
  simp [rebased, clear]

end StallTimer

/-! ## Steps that depend on nothing erased -/

variable {σ : Type} {erase : σ → σ}

/-- A step that is the same of a session and of what is left when something is erased. -/
def Blind (erase : σ → σ) (step : σ → Step σ) : Prop :=
  ∀ x, (step (erase x)).map erase = (step x).map erase

/-- Such a step is the same of any two sessions of which the same is left. -/
theorem Blind.congr {step : σ → Step σ} (h : Blind erase step) {x y : σ}
    (hxy : erase x = erase y) : (step x).map erase = (step y).map erase := by
  rw [← h x, hxy, h y]

/-- A note does not make steps differ. -/
theorem Step.map_note_congr {s s' : Step σ} (h : s.map erase = s'.map erase) (d : Diagnostic) :
    (s.note d).map erase = (s'.note d).map erase :=
  congrArg (Step.note d) h

/-! ### AT and PS/2 keyboards -/

namespace AtKeyboard

/-- What is left of a session: not its epoch, nor the number of bytes, nor LEDs that are not being
set any more. -/
def erased (k : AtKeyboard) : AtKeyboard :=
  { k with
    pendingLeds := match k.state with
      | .setLeds _ => k.pendingLeds
      | _ => {}
    activity := 0, timer := k.timer.rebased k.activity, epoch := 0 }

/-- A byte can be counted before or after erasing a keyboard session. -/
theorem erased_counted (k : AtKeyboard) : k.erased.counted.erased = k.counted.erased := by
  cases hstate : k.state <;> simp [erased, counted, hstate]

/-- A repetition does not depend on what is erased of a keyboard session. -/
theorem blind_repeatCommand : Blind erased repeatCommand := by
  intro k
  cases hrepeat : k.commands.repeat? <;> cases hstate : k.state <;>
    simp [repeatCommand, erased, hrepeat, hstate, Step.map, resetDevice, issue]

/-- What a keyboard session makes of a byte does not depend on what is erased. -/
theorem blind_receive (b : UInt8) : Blind erased (·.receive b) := by
  intro k
  show (k.erased.receive b).map erased = (k.receive b).map erased
  by_cases hbyte : b = Ps2.resendRequest
  · simp only [receive, hbyte, if_true]
    by_cases hstate : k.state = .uninitialised
    · simp [erased, hstate, refuse, resetDevice, issue, Step.map]
    · rw [if_neg hstate, if_neg (show k.erased.state ≠ _ from hstate)]
      exact blind_repeatCommand.congr k.erased_counted
  · obtain ⟨_, _, state, _, _, _, _, _, _, _, _, _, _⟩ := k
    -- One goal for each state and each byte that it tells apart.
    cases state with
    | setLeds stage =>
      simp only [erased]
      cases stage <;> simp only [receive, hbyte, if_false, replugged, requestId, issue] <;>
        split_ifs <;> simp [Step.map, erased]
    | _ =>
      simp only [erased]
      simp only [receive, hbyte, if_false, refuse, resetDevice, replugged, requestId, issue, ready,
        identified]
      split_ifs <;> simp [Step.map, Step.note, erased]

/-- What a keyboard session does after a wait does not depend on what is erased. -/
theorem blind_expire : Blind erased expire := by
  intro k
  obtain ⟨_, _, state, _, _, retried, _, _, _, _, _, _, _⟩ := k
  cases state <;> cases retried <;>
    simp [expire, erased, resetDevice, issue, requestId, ready, Step.map, assumeDefault]

/-- A session when its timer has looked at the time. -/
def looked (k : AtKeyboard) (now : UInt32) (idle : Bool) : AtKeyboard :=
  { k with timer := k.timer.tick k.activity now idle k.timing.stallPeriod }

/-- A tick looks at the timer first. -/
theorem tick_eq (k : AtKeyboard) (now : UInt32) (idle : Bool) :
    let k' := k.looked now idle
    k.tick now idle =
      if k'.state = .initialised then k'.updateLeds now
      else if k'.timer.stalls < k'.stallLimit then { next := k' }
      else
        ({ k' with timer := k'.timer.restart now }.expire).note
          (.timeout k'.timer.stalls k'.givesUp) :=
  rfl

/-- The timer can be looked at before or after erasing a keyboard session. -/
theorem erased_looked (k : AtKeyboard) (now : UInt32) (idle : Bool) :
    k.erased.looked now idle = (k.looked now idle).erased := by
  simp [looked, erased, StallTimer.tick_rebased]

theorem erased_erased (k : AtKeyboard) : k.erased.erased = k.erased := by
  cases hstate : k.state <;> simp [erased, hstate]

/-- A timer is restarted when it has looked at the time only. -/
theorem updateLeds_erased (k : AtKeyboard) (now : UInt32) (h : k.timer.start.isSome) :
    (k.erased.updateLeds now).map erased = (k.updateLeds now).map erased := by
  cases hstate : k.state <;> simp only [updateLeds, erased, hstate] <;> split_ifs <;>
    simp [issue, Step.map, erased, hstate, StallTimer.rebased_restart, h]

/-- What a keyboard session makes of a tick does not depend on what is erased. -/
theorem blind_tick (now : UInt32) (idle : Bool) : Blind erased (·.tick now idle) := by
  intro k
  show (k.erased.tick now idle).map erased = (k.tick now idle).map erased
  -- After a tick the timer runs, so that a restart leaves nothing of the old count.
  have hrunning : (k.looked now idle).timer.start.isSome :=
    k.timer.isSome_start_tick k.activity now idle k.timing.stallPeriod
  rw [tick_eq, tick_eq, erased_looked]
  generalize k.looked now idle = k at hrunning
  show Step.map erased (if k.state = .initialised then _
    else if k.timer.stalls < k.stallLimit then _ else _) = _
  split
  · exact k.updateLeds_erased now hrunning
  · split
    · simp only [Step.map, k.erased_erased]
    · refine Step.map_note_congr (blind_expire.congr ?_) _
      cases hstate : k.state <;> simp [erased, hstate, StallTimer.rebased_restart, hrunning]

end AtKeyboard

/-! ### PS/2 mice -/

namespace Ps2Mouse

/-- What is left of a session: not its epoch, nor the number of bytes. -/
def erased (m : Ps2Mouse) : Ps2Mouse :=
  { m with activity := 0, timer := m.timer.rebased m.activity, epoch := 0 }

/-- A byte can be counted before or after erasing a mouse session. -/
theorem erased_counted (m : Ps2Mouse) : m.erased.counted.erased = m.counted.erased := by
  simp [erased, counted]

theorem erased_erased (m : Ps2Mouse) : m.erased.erased = m.erased := by
  simp [erased]

/-- A repetition does not depend on what is erased of a mouse session. -/
theorem blind_repeatCommand : Blind erased repeatCommand := by
  intro m
  cases hrepeat : m.commands.repeat? <;>
    simp [repeatCommand, erased, hrepeat, Step.map, resetDevice, enter]

/-- What follows the id does not depend on what is erased. -/
theorem blind_afterId : Blind erased afterId := by
  intro m
  cases hdetect : m.detectWheel <;> simp [afterId, enable, enter, erased, hdetect, Step.map]

/-- A retry does not depend on what is erased. -/
theorem blind_retry : Blind erased retry := by
  intro m
  cases hrepeat : m.commands.repeat? <;> simp [retry, erased, hrepeat, Step.map]

/-- What a mouse session makes of a byte does not depend on what is erased. -/
theorem blind_receive (b : UInt8) : Blind erased (·.receive b) := by
  intro m
  show (m.erased.receive b).map erased = (m.receive b).map erased
  by_cases hstate : m.state = .initialised
  · simp [receive, erased, hstate, Step.map]
  by_cases hbyte : b = Ps2.resendRequest
  · have hstate' : m.erased.state ≠ .initialised := hstate
    simp only [receive, hbyte, if_true, if_neg hstate, if_neg hstate']
    -- A request to repeat is unknown to a session that has sent nothing.
    by_cases hnew : m.state = .uninitialised
    · simp [erased, hnew, refuse, resetDevice, enter, Step.map]
    · rw [if_neg hnew, if_neg (show m.erased.state ≠ _ from hnew)]
      exact blind_repeatCommand.congr m.erased_counted
  · obtain ⟨_, _, state, _, _, _, _, _, _⟩ := m
    cases state with
    | awaitId =>
      simp only [receive, hbyte, reduceCtorEq, if_false]
      exact Step.map_note_congr (blind_afterId.congr (erased_counted _)) _
    | _ =>
      simp only [erased]
      simp only [receive, hbyte, reduceCtorEq, if_false, refuse, resetDevice, enter, enable, ready,
        nextRate, sendRate]
      split_ifs <;> simp [Step.map, Step.note, erased]

/-- What a mouse session does after a wait does not depend on what is erased. -/
theorem blind_expire : Blind erased expire := by
  intro m
  cases hstate : m.state with
  | uninitialised | awaitAck | awaitSelfTest =>
    simp [expire, erased, hstate, resetDevice, enter, Step.map]
  | awaitId =>
    simp only [expire, hstate, show m.erased.state = _ from hstate]
    exact blind_afterId m
  -- Within the knock a wait is tried once more, then the mouse is taken to have no wheel.
  | knock index sent | readWheelId =>
    simp only [expire, hstate, show m.erased.state = _ from hstate]
    cases hretried : m.retried with
    | true => simp [erased, hretried, enable, enter, Step.map]
    | false =>
      rw [if_neg (by simp [erased, hretried]), if_neg (by simp)]
      exact blind_retry m
  | awaitEnableAck =>
    cases hretried : m.retried <;> simp [expire, erased, hstate, hretried, ready, Step.map]
  | initialised => simp [expire, erased, hstate, Step.map]

/-- A session when its timer has looked at the time. -/
def looked (m : Ps2Mouse) (now : UInt32) (idle : Bool) : Ps2Mouse :=
  { m with timer := m.timer.tick m.activity now idle m.timing.stallPeriod }

/-- A tick of a mouse looks at the timer first. -/
theorem tick_eq (m : Ps2Mouse) (now : UInt32) (idle : Bool) :
    let m' := m.looked now idle
    m.tick now idle =
      if m'.state = .initialised ∨ m'.timer.stalls < m'.stallLimit then { next := m' }
      else
        ({ m' with timer := m'.timer.restart now }.expire).note
          (.timeout m'.timer.stalls m'.givesUp) :=
  rfl

/-- The timer can be looked at before or after erasing a mouse session. -/
theorem erased_looked (m : Ps2Mouse) (now : UInt32) (idle : Bool) :
    m.erased.looked now idle = (m.looked now idle).erased := by
  simp [looked, erased, StallTimer.tick_rebased]

/-- What a mouse session makes of a tick does not depend on what is erased. -/
theorem blind_tick (now : UInt32) (idle : Bool) : Blind erased (·.tick now idle) := by
  intro m
  show (m.erased.tick now idle).map erased = (m.tick now idle).map erased
  -- After a tick the timer runs, so that a restart leaves nothing of the old count.
  have hrunning : (m.looked now idle).timer.start.isSome :=
    m.timer.isSome_start_tick m.activity now idle m.timing.stallPeriod
  rw [tick_eq, tick_eq, erased_looked]
  generalize m.looked now idle = m at hrunning
  show Step.map erased
    (if m.state = .initialised ∨ m.timer.stalls < m.stallLimit then _ else _) = _
  split
  · simp only [Step.map, m.erased_erased]
  · refine Step.map_note_congr (blind_expire.congr ?_) _
    simp [erased, StallTimer.rebased_restart, hrunning]

end Ps2Mouse

/-! ### The other keyboards -/

namespace XtKeyboard

/-- What is left of a session: not its epoch, nor the number of bytes. -/
def erased (k : XtKeyboard) : XtKeyboard :=
  { k with activity := 0, timer := k.timer.rebased k.activity, epoch := 0 }

theorem erased_erased (k : XtKeyboard) : k.erased.erased = k.erased := by
  simp [erased]

/-- What an XT session makes of a byte does not depend on what is erased. -/
theorem blind_receive (b : UInt8) : Blind erased (·.receive b) := by
  intro k
  cases hstate : k.state <;> simp only [receive, erased, hstate] <;> split_ifs <;>
    simp [Step.map, erased]

/-- What an XT session makes of a tick does not depend on what is erased. -/
theorem blind_tick (now : UInt32) (idle : Bool) : Blind erased (·.tick now idle) := by
  intro k
  have hrunning := k.timer.isSome_start_tick k.activity now idle k.timing.stallPeriod
  simp only [tick, erased, StallTimer.tick_rebased]
  show Step.map erased
    (if k.state = .uninitialised ∧ _ ≤ (k.timer.tick _ _ _ _).stalls then _ else _) = _
  split <;> simp [Step.map, erased, StallTimer.rebased_restart, hrunning]

end XtKeyboard

namespace AmigaKeyboard

/-- What is left of a session: not its epoch. -/
def erased (k : AmigaKeyboard) : AmigaKeyboard := { k with epoch := 0 }

/-- What an Amiga session makes of a byte does not depend on what is erased. -/
theorem blind_receive (b : UInt8) : Blind erased (·.receive b) := by
  intro k
  cases hstate : k.state <;> simp only [receive, erased, hstate] <;> split_ifs <;>
    simp [Step.map, erased, hstate, ready, keyAction]

end AmigaKeyboard

/-! ### All devices -/

/-- What is left of a session. Of one for an M0110 nothing is erased: after a reset its first tick
restarts the timer without a look at the number of bytes, so that the number seen last matters. -/
def erased : Device → Device
  | atKeyboard k => atKeyboard k.erased
  | ps2Mouse m => ps2Mouse m.erased
  | xt k => xt k.erased
  | amiga k => amiga k.erased
  | m0110 k => m0110 k

/-- A step that nothing comes of. -/
theorem blind_still {x y : Device} (h : x.erased = y.erased) :
    Step.map erased { next := x } = Step.map erased { next := y } :=
  congrArg (Step.mk · .none []) h

/-- No step depends on what is erased. -/
theorem blind_step (i : Input) : Blind erased (·.step i) := by
  intro d
  cases d with
  | atKeyboard k =>
    cases i with
    | byte b => exact congrArg (Step.map atKeyboard) (AtKeyboard.blind_receive b k)
    | tick now idle => exact congrArg (Step.map atKeyboard) (AtKeyboard.blind_tick now idle k)
    | reset => rfl
    -- Other LEDs do nothing that could be seen.
    | leds wanted => exact blind_still (congrArg atKeyboard (k.setLeds wanted).erased_erased)
  | ps2Mouse m =>
    cases i with
    | byte b => exact congrArg (Step.map ps2Mouse) (Ps2Mouse.blind_receive b m)
    | tick now idle => exact congrArg (Step.map ps2Mouse) (Ps2Mouse.blind_tick now idle m)
    | reset => rfl
    | leds wanted => exact blind_still (congrArg ps2Mouse m.erased_erased)
  | xt k =>
    cases i with
    | byte b => exact congrArg (Step.map xt) (XtKeyboard.blind_receive b k)
    | tick now idle => exact congrArg (Step.map xt) (XtKeyboard.blind_tick now idle k)
    | reset => rfl
    | leds wanted => exact blind_still (congrArg xt k.erased_erased)
  | amiga k =>
    cases i with
    | byte b => exact congrArg (Step.map amiga) (AmigaKeyboard.blind_receive b k)
    | tick now idle | reset | leds wanted => rfl
  | m0110 k => rfl

/-! ## Runs -/

/-- The state that a session is in. -/
inductive Phase where
  | atKeyboard (state : AtKeyboard.State)
  | ps2Mouse (state : Ps2Mouse.State)
  | xt (state : XtKeyboard.State)
  | amiga (state : AmigaKeyboard.State)
  | m0110 (state : M0110Keyboard.State)
deriving DecidableEq, Repr

/-- What a session tells of its device. The epoch is told as well, but it is just a number. -/
structure Account where
  phase : Phase
  initialised : Bool
  codeSet? : Option CodeSet
  /-- The id of an AT or PS/2 keyboard. -/
  id? : Option UInt16
  wheel? : Option Bool
deriving DecidableEq, Repr

/-- The state of a session, whatever its device. -/
def phase : Device → Phase
  | atKeyboard k => .atKeyboard k.state
  | ps2Mouse m => .ps2Mouse m.state
  | xt k => .xt k.state
  | amiga k => .amiga k.state
  | m0110 k => .m0110 k.state

/-- The id of a device that tells one. -/
def id? : Device → Option UInt16
  | atKeyboard k => some k.id
  | ps2Mouse _ | xt _ | amiga _ | m0110 _ => none

/-- All that can be asked of a session, but for its epoch. -/
def account (d : Device) : Account :=
  ⟨d.phase, d.isInitialised, d.codeSet?, d.id?, d.wheel?⟩

variable {d d' : Device}

theorem isInitialised_erased (d : Device) : d.erased.isInitialised = d.isInitialised := by
  cases d <;> rfl

theorem account_erased (d : Device) : d.erased.account = d.account := by
  cases d <;> rfl

/-- Sessions that are equal but for what is erased stay so with every input. -/
theorem erased_step (h : d.erased = d'.erased) (i : Input) :
    (d.step i).next.erased = (d'.step i).next.erased :=
  congrArg Step.next ((blind_step i).congr h)

/-- Sessions of which the same is left go on so. -/
theorem erased_run (h : d.erased = d'.erased) (inputs : List Input) :
    (d.run inputs).erased = (d'.run inputs).erased := by
  induction inputs generalizing d d' with
  | nil => exact h
  | cons i inputs ih => exact ih (erased_step h i)

/-- Sessions that are equal but for what is erased are ready together. -/
theorem isInitialised_of_erased (h : d.erased = d'.erased) :
    d.isInitialised = d'.isInitialised := by
  rw [← d.isInitialised_erased, h, d'.isInitialised_erased]

/-- Sessions that are equal but for what is erased become ready at the same inputs. -/
theorem entries_of_erased (h : d.erased = d'.erased) (inputs : List Input) :
    d.entries inputs = d'.entries inputs := by
  induction inputs generalizing d d' with
  | nil => rfl
  | cons i inputs ih =>
    have hnext := erased_step h i
    have henters : d.enters (d.step i).next = d'.enters (d'.step i).next := by
      simp only [enters, isInitialised_of_erased h, isInitialised_of_erased hnext]
    rw [entries, entries, henters, ih hnext]

/-! ## After a reset -/

/-- A new session with the same settings that is told what the host wants of the LEDs. -/
def anew : Device → Device
  | atKeyboard k =>
    atKeyboard { timing := k.timing, defaultSet := k.defaultSet, hostLeds := k.hostLeds }
  | ps2Mouse m => ps2Mouse { timing := m.timing, detectWheel := m.detectWheel }
  | xt k => xt { timing := k.timing }
  | amiga k => amiga { hostCaps := k.hostCaps }
  | m0110 k => m0110 { timing := k.timing }

/-- A new session is as it was when it was new. -/
theorem anew_ofConfig (c : Config) : (ofConfig c).anew = ofConfig c := by
  unfold ofConfig
  split <;> rfl

/-- What is left after a reset is a new session. -/
theorem erased_reset (hd : d.protocol ≠ .m0110) : d.reset.erased = d.anew.erased := by
  cases d with
  | m0110 k => exact absurd rfl hd
  | atKeyboard k =>
    simp [reset, AtKeyboard.reset, erased, AtKeyboard.erased, anew, StallTimer.rebased_clear]
  | ps2Mouse m =>
    simp [reset, Ps2Mouse.reset, erased, Ps2Mouse.erased, anew, StallTimer.rebased_clear]
  | xt k =>
    simp [reset, XtKeyboard.reset, erased, XtKeyboard.erased, anew, StallTimer.rebased_clear]
  | amiga k => rfl

theorem AtKeyboard.Received.anew_eq {k : AtKeyboard} {byte : UInt8} {s : Step AtKeyboard}
    (hs : Received k byte s) : (atKeyboard s.next).anew = (atKeyboard k).anew := by
  cases hs <;> rfl

theorem AtKeyboard.Ticked.anew_eq {k : AtKeyboard} {s : Step AtKeyboard} (hs : Ticked k s) :
    (atKeyboard s.next).anew = (atKeyboard k).anew := by
  cases hs <;> rfl

/-- What follows the id does not change what a mouse session was when it was new. -/
theorem Ps2Mouse.anew_afterId (m : Ps2Mouse) :
    (ps2Mouse m.afterId.next).anew = (ps2Mouse m).anew := by
  unfold afterId
  split <;> rfl

/-- A byte does not change what a mouse session was when it was new. -/
theorem Ps2Mouse.Received.anew_eq {m : Ps2Mouse} {byte : UInt8} {s : Step Ps2Mouse}
    (hs : Received m byte s) : (ps2Mouse s.next).anew = (ps2Mouse m).anew := by
  cases hs with
  | idTold => exact m.counted.anew_afterId
  | rateAcked index =>
    show (ps2Mouse (m.counted.nextRate index).next).anew = _
    unfold nextRate
    split <;> rfl
  | _ => rfl

/-- A tick does not change what a mouse session was when it was new. -/
theorem Ps2Mouse.Ticked.anew_eq {m : Ps2Mouse} {s : Step Ps2Mouse} (hs : Ticked m s) :
    (ps2Mouse s.next).anew = (ps2Mouse m).anew := by
  cases hs with
  | idAssumed timer => exact ({ m with timer } : Ps2Mouse).anew_afterId
  | knockRepeated timer =>
    show (ps2Mouse ({ m with timer } : Ps2Mouse).retry.next).anew = _
    unfold retry
    split <;> rfl
  | _ => rfl

/-- A byte does not change what a session was when it was new. -/
theorem anew_receive (d : Device) (b : UInt8) : (d.receive b).next.anew = d.anew := by
  cases d with
  | atKeyboard k => exact (k.received b).anew_eq
  | ps2Mouse m => exact (m.received b).anew_eq
  | xt k =>
    simp only [receive, XtKeyboard.receive]
    repeat' split
    all_goals rfl
  | amiga k =>
    simp only [receive, AmigaKeyboard.receive, AmigaKeyboard.ready]
    repeat' split
    all_goals rfl
  | m0110 k =>
    simp only [receive, M0110Keyboard.receive]
    repeat' split
    all_goals rfl

/-- A tick does not change what a session was when it was new. -/
theorem anew_tick (d : Device) (now : UInt32) (idle : Bool) :
    (d.tick now idle).next.anew = d.anew := by
  cases d with
  | atKeyboard k => exact (k.ticked now idle).anew_eq
  | ps2Mouse m => exact (m.ticked now idle).anew_eq
  | xt k =>
    simp only [tick, XtKeyboard.tick]
    split <;> rfl
  | amiga k => rfl
  | m0110 k =>
    simp only [tick, M0110Keyboard.tick]
    repeat' split
    all_goals rfl

/-- The settings of a session stay the same, and only the host changes what it wants. -/
theorem anew_step (d : Device) (i : Input) :
    (d.step i).next.anew = match i with
      | .leds wanted => d.anew.setLeds wanted
      | .byte _ | .tick _ _ | .reset => d.anew := by
  cases i with
  | byte b => exact d.anew_receive b
  | tick now idle => exact d.anew_tick now idle
  | reset | leds wanted => cases d <;> rfl

/-- What the host has said last of the lock LEDs, if it has said anything. -/
def lastLeds? (inputs : List Input) : Option LockLeds :=
  (inputs.filterMap fun
    | .leds wanted => some wanted
    | .byte _ | .tick _ _ | .reset => none).getLast?

/-- Of two wishes for the LEDs the latter counts. -/
theorem setLeds_setLeds (d : Device) (leds leds' : LockLeds) :
    (d.setLeds leds).setLeds leds' = d.setLeds leds' := by
  cases d <;> rfl

/-- All that a run changes of what a session was when it was new is what the host wants of the LEDs.
-/
theorem anew_run (d : Device) (inputs : List Input) :
    (d.run inputs).anew = (lastLeds? inputs).elim d.anew d.anew.setLeds := by
  induction inputs generalizing d with
  | nil => rfl
  | cons i inputs ih =>
    rw [run_cons, ih, anew_step]
    cases i with
    | leds wanted =>
      -- This wish counts unless a later one comes.
      simp only [lastLeds?, List.filterMap_cons, List.getLast?_cons]
      cases (List.filterMap _ inputs).getLast? with
      | none => rfl
      | some leds => exact setLeds_setLeds _ _ _
    | byte | tick | reset => rfl

/-- What is left of a reset session is a new one. -/
theorem erased_reset_run {c : Config} (hc : c.protocol ≠ .m0110) (before : List Input) :
    (((ofConfig c).run before).reset).erased =
      ((lastLeds? before).elim (ofConfig c) (ofConfig c).setLeds).erased := by
  have hprotocol : ((ofConfig c).run before).protocol ≠ .m0110 := by
    rw [protocol_run]
    unfold ofConfig
    split <;> simp_all [protocol]
  rw [erased_reset hprotocol, anew_run, anew_ofConfig]

/-- Let a session for any device but an M0110 keyboard be reset after any run, and let another one
be new and be told what the host has said last of the lock LEDs. Whatever both go through from then
on, they answer in the same way, note the same and tell the same of the device. Their epochs differ
by the epoch in which the reset came. -/
theorem reset_like_new {c : Config} (hc : c.protocol ≠ .m0110) (before after : List Input)
    (i : Input) :
    let d := (ofConfig c).run before
    let old := d.reset.run after
    let new := ((lastLeds? before).elim (ofConfig c) (ofConfig c).setLeds).run after
    (old.step i).action = (new.step i).action ∧ (old.step i).notes = (new.step i).notes ∧
      old.account = new.account ∧ old.epoch = new.epoch + d.epoch := by
  intro d old new
  -- After the reset both sessions are equal but for counts that nothing depends on.
  have hstart := erased_reset_run hc before
  have herased : old.erased = new.erased := erased_run hstart after
  obtain ⟨-, haction, hnotes⟩ := Step.mk.inj ((blind_step i).congr herased)
  refine ⟨haction, hnotes, ?_, ?_⟩
  · rw [← account_erased, herased, account_erased]
  · -- Both become ready as often, and the new session has not been ready before.
    have hnew : ((lastLeds? before).elim (ofConfig c) (ofConfig c).setLeds).epoch = 0 := by
      unfold ofConfig
      split <;> cases lastLeds? before <;> rfl
    calc old.epoch = d.epoch + UInt16.ofNat (d.reset.entries after) :=
          (epoch_run _ after).trans (by rw [epoch_reset])
      _ = d.epoch + new.epoch :=
          congrArg (d.epoch + ·)
            (by rw [epoch_run, hnew, entries_of_erased hstart, UInt16.zero_add])
      _ = new.epoch + d.epoch := UInt16.add_comm ..

/-- A keyboard is reset in the middle of its LEDs being set and does not answer, like one that is
new. -/
theorem reset_like_new_silent :
    let before : List Input := [.byte 0xAA, .byte 0xAB, .byte 0x83, .leds { caps := true },
      .tick 0 true, .tick 100 true, .byte 0x1C, .byte 0x1C]
    let after : List Input := [1000, 1200, 1400, 1600, 1800].map (.tick · true)
    let d := (ofConfig {}).run before
    let old := d.reset.run after
    let new := ((ofConfig {}).setLeds { caps := true }).run after
    d.phase = .atKeyboard (.setLeds .command) ∧ d.epoch = 1 ∧
      (old.step (.tick 2000 true)).action = .send Ps2.reset ∧
      (old.step (.tick 2000 true)).notes = [.timeout 5 false] ∧
      old.account = new.account ∧ old.epoch = new.epoch + 1 := by
  intro before after d old new
  obtain ⟨haction, hnotes, haccount, hepoch⟩ :=
    reset_like_new (c := {}) (by decide) before after (.tick 2000 true)
  exact ⟨by decide, by decide, haction.trans (by decide), hnotes.trans (by decide), haccount,
    hepoch⟩

end KeyBridge.Device
