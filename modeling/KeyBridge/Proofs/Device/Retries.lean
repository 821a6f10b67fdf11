import KeyBridge.Proofs.Device.Steps

/-!
# A second try, and no third

A keyboard that does not tell its id in time is asked for it again, and one that does not
acknowledge its set-up is set up again. After that it is taken as it is. The try that is left is
used up by the session's own clock only, and comes back only with the step that it belongs to: with
the self test that begins identification, or with the id of a terminal keyboard. So it is whatever
bytes, requests, resets and changes of the LEDs come in between.

## Key results

- `exists_step_of_run`: what is so after a run and was not before came about in one of its steps
- `begins_of_mayAskAgain`, `completes_of_maySetUpAgain`: where the try comes from
- `Ticked.mayAskAgain`, `Ticked.maySetUpAgain`: how it is used up
- `tick_of_over`: what becomes of a wait that has lasted too long
- `tried_again_once`: between two tries, the step that they belong to was begun again
-/

namespace KeyBridge.Device.AtKeyboard

open Command

variable {k : AtKeyboard} {i : Input} {now : UInt32} {idle : Bool}

/-! ## Runs -/

/-- What is so after a run and was not before it came about in one of its steps. -/
theorem exists_step_of_run {p : AtKeyboard → Prop} {inputs : List Input} (h : ¬ p k)
    (hrun : p (k.run inputs)) :
    ∃ earlier i later, inputs = earlier ++ i :: later ∧
      ¬ p (k.run earlier) ∧ p ((k.run earlier).step i).next := by
  induction inputs generalizing k with
  | nil => exact absurd hrun h
  | cons i inputs ih =>
    by_cases hstep : p (k.step i).next
    · exact ⟨[], i, inputs, rfl, h, hstep⟩
    · obtain ⟨earlier, j, later, rfl, hbefore, hafter⟩ := ih hstep hrun
      exact ⟨i :: earlier, j, later, rfl, hbefore, hafter⟩

/-! ## The try that is left -/

/-- Whether the id is waited for and can be asked for once more. -/
structure MayAskAgain (k : AtKeyboard) : Prop where
  reading : k.state = .readId1 ∨ k.state = .readId2
  untried : k.retried = false

/-- Whether the set-up is waited for and can be sent once more. -/
structure MaySetUpAgain (k : AtKeyboard) : Prop where
  settingUp : k.state = .setup
  untried : k.retried = false

/-- The end of a self test, with which identification begins. -/
structure BeginsIdentification (k : AtKeyboard) (i : Input) : Prop where
  passed : i = .byte Ps2.selfTestPassed
  asked : (k.step i).action = .send Ps2.getId
  reading : (k.step i).next.state = .readId1

/-- The byte that completes the id of a terminal keyboard. -/
structure CompletesTerminalId (k : AtKeyboard) (i : Input) : Prop where
  reading : k.state = .readId2
  completed : ∃ byte, i = .byte byte ∧ (k.step i).next.id = k.id ||| byte.toUInt16
  terminal : isTerminalId (k.step i).next.id
  setUp : (k.step i).action = .send Ps2.setAllMakeBreak

/-! ### Where it comes from -/

theorem not_mayAskAgain (h : k.state ≠ .readId1) (h' : k.state ≠ .readId2) : ¬ k.MayAskAgain :=
  fun hk => hk.reading.elim h h'

/-- A byte that allows another request for the id is a self test that was passed. -/
theorem Received.begins {byte : UInt8} {s : Step AtKeyboard} (hs : Received k byte s)
    (h : ¬ k.MayAskAgain) (hnext : s.next.MayAskAgain) :
    byte = Ps2.selfTestPassed ∧ s.action = .send Ps2.getId ∧ s.next.state = .readId1 := by
  cases hs with
  | tested _ hbyte => exact ⟨hbyte, rfl, rfl⟩
  | replugged _ _ hbyte => exact ⟨hbyte, rfl, rfl⟩
  -- Within the exchange the try stays as it is.
  | repeated | ackIgnored | kept => exact absurd ⟨hnext.reading, hnext.untried⟩ h
  | idBegun hstate => exact absurd ⟨.inl hstate, hnext.untried⟩ h
  | refused | repeatedEnough | resetAcked | identified | identifiedTerminal | setupAcked
    | ledsAcked | bitmapAcked =>
    exact absurd hnext (not_mayAskAgain (State.noConfusion ·) (State.noConfusion ·))

/-- No tick allows another request for the id. -/
theorem Ticked.not_mayAskAgain {s : Step AtKeyboard} (hs : Ticked k s) (h : ¬ k.MayAskAgain) :
    ¬ s.next.MayAskAgain := by
  cases hs with
  | waited => exact fun hnext => h ⟨hnext.reading, hnext.untried⟩
  | idAskedAgain => exact fun hnext => Bool.noConfusion hnext.untried
  | setupRepeated _ _ hstate =>
    exact AtKeyboard.not_mayAskAgain (by simp [issue, hstate]) (by simp [issue, hstate])
  | ledsBegun | resetAgain | idAssumed | setupAssumed | ledsAssumed =>
    exact AtKeyboard.not_mayAskAgain (State.noConfusion ·) (State.noConfusion ·)

/-- The id can be asked for once more only after a self test. -/
theorem begins_of_mayAskAgain (h : ¬ k.MayAskAgain) (hnext : (k.step i).next.MayAskAgain) :
    k.BeginsIdentification i := by
  cases i with
  | byte b =>
    obtain ⟨rfl, hasked, hreading⟩ := (k.received b).begins h hnext
    exact ⟨rfl, hasked, hreading⟩
  | tick now idle => exact absurd hnext ((k.ticked now idle).not_mayAskAgain h)
  | reset => exact absurd hnext (not_mayAskAgain (State.noConfusion ·) (State.noConfusion ·))
  | leds wanted => exact absurd ⟨hnext.reading, hnext.untried⟩ h

/-- A byte that allows another setup is the last one of a terminal id. -/
theorem Received.completes {byte : UInt8} {s : Step AtKeyboard} (hs : Received k byte s)
    (h : ¬ k.MaySetUpAgain) (hnext : s.next.MaySetUpAgain) :
    k.state = .readId2 ∧ s.next.id = k.id ||| byte.toUInt16 ∧ isTerminalId s.next.id ∧
      s.action = .send Ps2.setAllMakeBreak := by
  cases hs with
  | identifiedTerminal id hstate _ hid hterminal => exact ⟨hstate, hid, hterminal, rfl⟩
  | repeated | kept => exact absurd ⟨hnext.settingUp, hnext.untried⟩ h
  | ackIgnored => exact absurd ⟨hnext.settingUp, hnext.untried⟩ h
  | refused | repeatedEnough | tested | resetAcked | idBegun | identified | setupAcked | ledsAcked
    | bitmapAcked | replugged => exact State.noConfusion hnext.settingUp

/-- No tick allows another setup. -/
theorem Ticked.not_maySetUpAgain {s : Step AtKeyboard} (hs : Ticked k s) (h : ¬ k.MaySetUpAgain) :
    ¬ s.next.MaySetUpAgain := by
  intro hnext
  cases hs with
  | waited => exact h ⟨hnext.settingUp, hnext.untried⟩
  | setupRepeated => exact Bool.noConfusion hnext.untried
  | ledsBegun | resetAgain | idAskedAgain | idAssumed | setupAssumed | ledsAssumed =>
    exact State.noConfusion hnext.settingUp

/-- The set-up can be sent once more only after the id of a terminal keyboard. -/
theorem completes_of_maySetUpAgain (h : ¬ k.MaySetUpAgain) (hnext : (k.step i).next.MaySetUpAgain) :
    k.CompletesTerminalId i := by
  cases i with
  | byte b =>
    obtain ⟨hreading, hid, hterminal, hsetUp⟩ := (k.received b).completes h hnext
    exact ⟨hreading, ⟨b, rfl, hid⟩, hterminal, hsetUp⟩
  | tick now idle => exact absurd hnext ((k.ticked now idle).not_maySetUpAgain h)
  | reset => exact State.noConfusion hnext.settingUp
  | leds wanted => exact absurd ⟨hnext.settingUp, hnext.untried⟩ h

/-! ### How it is used up -/

/-- A tick that asks for the id uses up the try. -/
theorem Ticked.mayAskAgain {s : Step AtKeyboard} (hs : Ticked k s)
    (hsent : s.action = .send Ps2.getId) : k.MayAskAgain ∧ ¬ s.next.MayAskAgain := by
  cases hs with
  | idAskedAgain _ _ hstate hretried =>
    exact ⟨⟨hstate, hretried⟩, fun hnext => Bool.noConfusion hnext.untried⟩
  | waited | ledsBegun | resetAgain | idAssumed | setupRepeated | setupAssumed | ledsAssumed =>
    exact nomatch hsent

/-- A tick that sends the set-up uses up the try. -/
theorem Ticked.maySetUpAgain {s : Step AtKeyboard} (hs : Ticked k s)
    (hsent : s.action = .send Ps2.setAllMakeBreak) : k.MaySetUpAgain ∧ ¬ s.next.MaySetUpAgain := by
  cases hs with
  | setupRepeated _ _ hstate hretried =>
    exact ⟨⟨hstate, hretried⟩, fun hnext => Bool.noConfusion hnext.untried⟩
  | waited | ledsBegun | resetAgain | idAskedAgain | idAssumed | setupAssumed | ledsAssumed =>
    exact nomatch hsent

/-! ## Waits that have lasted too long -/

/-- How many stalls a tick counts. -/
def stallsAt (k : AtKeyboard) (now : UInt32) (idle : Bool) : UInt8 :=
  (k.timer.tick k.activity now idle k.timing.stallPeriod).stalls

/-- A step that goes on without an answer: it is noted, and the keyboard is ready. One that has not
told its id is taken for one of the configured kind. -/
structure GivesUp (k : AtKeyboard) (stalls : UInt8) (s : Step AtKeyboard) : Prop where
  noted : .timeout stalls true ∈ s.notes
  ready : s.next.state = .initialised
  assumed : k.state ≠ .setup → s.next.id = unknownId ∧ s.next.codeSet = k.defaultSet

/-- A tick at which the stalls are used up ends the wait. -/
theorem tick_of_over (hstate : k.state ≠ .initialised)
    (hover : k.stallLimit ≤ k.stallsAt now idle) :
    k.tick now idle =
      ({ k with timer := (k.timer.tick k.activity now idle k.timing.stallPeriod).restart now } :
        AtKeyboard).expire.note (.timeout (k.stallsAt now idle) k.givesUp) :=
  (if_neg hstate).trans (if_neg (UInt8.not_lt.mpr hover))

/-- The id is asked for again, or it is done without. -/
theorem tick_reading (hstate : k.state = .readId1 ∨ k.state = .readId2)
    (hover : k.stallLimit ≤ k.stallsAt now idle) :
    (k.tick now idle).action = .send Ps2.getId ∨
      k.GivesUp (k.stallsAt now idle) (k.tick now idle) := by
  have hwaits : k.state ≠ .initialised := by rcases hstate with h | h <;> simp [h]
  rw [tick_of_over hwaits hover]
  cases hretried : k.retried with
  | false =>
    -- The id is asked for once more,
    refine .inl ?_
    rcases hstate with h | h <;> simp [expire, h, Step.map, requestId, issue]
  | true =>
    -- or taken to be that of an ordinary keyboard.
    have hgives : k.givesUp = true := by rcases hstate with h | h <;> simp [givesUp, h, hretried]
    refine .inr ⟨?_, ?_, ?_⟩ <;>
      rcases hstate with h | h <;> simp [expire, h, hgives, assumeDefault, ready]

/-- The set-up is sent again, or it is done without. -/
theorem tick_setup (hstate : k.state = .setup) (hover : k.stallLimit ≤ k.stallsAt now idle) :
    (k.tick now idle).action = .send Ps2.setAllMakeBreak ∨
      k.GivesUp (k.stallsAt now idle) (k.tick now idle) := by
  rw [tick_of_over (by simp [hstate]) hover]
  cases hretried : k.retried with
  | false => exact .inl (by simp [expire, hstate, issue])
  | true =>
    have hgives : k.givesUp = true := by simp [givesUp, hstate, hretried]
    refine .inr ⟨?_, ?_, fun h => absurd hstate h⟩ <;>
      simp [expire, hstate, hgives, ready]

/-! ## One second try -/

/-- Let any keyboard look at the time twice, with any inputs in between. If it asks for the id both
times, a self test has begun identification anew in between. If it sends the set-up both times, the
id of a terminal keyboard was completed in between. And if a wait for one of them has lasted too
long, and it is not asked for or sent again, then that is noted, and the keyboard is ready: without
its id, as one of the configured kind. -/
theorem tried_again_once (k : AtKeyboard) (now : UInt32) (idle : Bool) (between : List Input)
    (now' : UInt32) (idle' : Bool) :
    let first := k.tick now idle
    let second := (first.next.run between).tick now' idle'
    (first.action = .send Ps2.getId → second.action = .send Ps2.getId →
      ∃ earlier i later, between = earlier ++ i :: later ∧
        (first.next.run earlier).BeginsIdentification i) ∧
    (first.action = .send Ps2.setAllMakeBreak → second.action = .send Ps2.setAllMakeBreak →
      ∃ earlier i later, between = earlier ++ i :: later ∧
        (first.next.run earlier).CompletesTerminalId i) ∧
    (k.stallLimit ≤ k.stallsAt now idle →
      (k.state = .readId1 ∨ k.state = .readId2 → first.action ≠ .send Ps2.getId →
        k.GivesUp (k.stallsAt now idle) first) ∧
      (k.state = .setup → first.action ≠ .send Ps2.setAllMakeBreak →
        k.GivesUp (k.stallsAt now idle) first)) := by
  intro first second
  refine ⟨fun hfirst hsecond => ?_, fun hfirst hsecond => ?_, fun hover => ⟨?_, ?_⟩⟩
  -- The first request used the retry up, and the second one had it: some input between them gave it
  -- back.
  · obtain ⟨-, hused⟩ := (k.ticked now idle).mayAskAgain hfirst
    obtain ⟨hopen, -⟩ := ((first.next.run between).ticked now' idle').mayAskAgain hsecond
    obtain ⟨earlier, i, later, hbetween, hbefore, hafter⟩ := exists_step_of_run hused hopen
    exact ⟨earlier, i, later, hbetween, begins_of_mayAskAgain hbefore hafter⟩
  · obtain ⟨-, hused⟩ := (k.ticked now idle).maySetUpAgain hfirst
    obtain ⟨hopen, -⟩ := ((first.next.run between).ticked now' idle').maySetUpAgain hsecond
    obtain ⟨earlier, i, later, hbetween, hbefore, hafter⟩ := exists_step_of_run hused hopen
    exact ⟨earlier, i, later, hbetween, completes_of_maySetUpAgain hbefore hafter⟩
  · exact fun hstate hsent => (tick_reading hstate hover).resolve_left hsent
  · exact fun hstate hsent => (tick_setup hstate hover).resolve_left hsent

/-- Between two requests for the id a keyboard passes its self test, and between two setups it tells
a terminal id. -/
theorem tried_again_once_replugged :
    let timing : Timing := { idStalls := 1 }
    let k := ({ timing, defaultSet := .set2 } : AtKeyboard).run [.byte 0xAA, .tick 0 true]
    let between := [.tick 400 true, .byte 0xAA, .tick 600 true]
    let t := ({ timing, defaultSet := .set2 } : AtKeyboard).run
      [.byte 0xAA, .byte 0xBF, .byte 0x00, .tick 0 true]
    let again := [.byte 0xAA, .byte 0xAA, .byte 0xBF, .byte 0x01, .tick 600 true]
    (k.tick 200 true).action = .send Ps2.getId ∧
      (((k.tick 200 true).next.run between).tick 800 true).action = .send Ps2.getId ∧
      (∃ earlier i later, between = earlier ++ i :: later ∧
        ((k.tick 200 true).next.run earlier).BeginsIdentification i) ∧
      (t.tick 200 true).action = .send Ps2.setAllMakeBreak ∧
      (∃ earlier i later, again = earlier ++ i :: later ∧
        ((t.tick 200 true).next.run earlier).CompletesTerminalId i) ∧
      (k.tick 200 true).next.GivesUp 1 ((k.tick 200 true).next.tick 400 true) := by
  intro timing k between t again
  have hover : (k.tick 200 true).next.stallLimit ≤ (k.tick 200 true).next.stallsAt 400 true := by
    decide
  exact ⟨by decide, by decide,
    (tried_again_once k 200 true between 800 true).1 (by decide) (by decide), by decide,
    (tried_again_once t 200 true again 800 true).2.1 (by decide) (by decide),
    ((tried_again_once (k.tick 200 true).next 400 true [] 0 true).2.2 hover).1 (.inl (by decide))
      (by decide)⟩

end KeyBridge.Device.AtKeyboard
