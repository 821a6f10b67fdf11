import KeyBridge.Proofs.Device.Patience
import KeyBridge.Proofs.Device.Steps

/-!
# Lock LEDs in any run

A keyboard session keeps three copies of the lock LEDs: what the host wants, what is being set and
what the keyboard has. They change at different points of an exchange that keys, timeouts, replugs,
resets and the host itself can interrupt. A `LedHistory` tells what they should be from what has
happened alone, and so they are after every run: no wish of the host is lost, and none is sent
twice.

## Key results

- `Received.ledEffect`, `Ticked.ledEffect`: what a step can do to the LEDs
- `recalls_run`: the copies of a session agree with its history, after every run
- `leds_set`: when the LEDs are set, and to what
-/

namespace KeyBridge.Device.AtKeyboard

open Command

variable {k : AtKeyboard} {s : Step AtKeyboard} {i : Input}

/-! ## What has happened to the LEDs -/

/-- What is known of the lock LEDs from what a session has taken in and how it has answered. -/
structure LedHistory where
  /-- What the host wanted last. -/
  wanted : LockLeds := {}
  /-- What it wanted at the tick that last began an exchange. -/
  begun : Option LockLeds := none
  /-- What it wanted at the tick that began the exchange which finished last, if one has since the
  keyboard became ready. -/
  finished : Option LockLeds := none
deriving DecidableEq, Repr

/-- Whether a step begins an exchange: it is a tick that sends the command. -/
def beginsLeds (s : Step AtKeyboard) : Input → Bool
  | .tick _ _ => s.action == .send Ps2.setLockLeds
  | .byte _ | .reset | .leds _ => false

/-- Whether a step finishes an exchange: its bitmap is acknowledged, or it has lasted too long. -/
def finishesLeds (k : AtKeyboard) (s : Step AtKeyboard) : Input → Bool
  | .byte b => k.state == .setLeds .value && b == Ps2.ack
  | .tick _ _ => (k.state == .setLeds .command || k.state == .setLeds .value) && s.timesOut
  | .reset | .leds _ => false

/-- What the host wants after an input. -/
def wantedAfter (wanted : LockLeds) : Input → LockLeds
  | .leds wanted => wanted
  | .byte _ | .tick _ _ | .reset => wanted

/-- What is known after a step. -/
def LedHistory.observe (h : LedHistory) (k : AtKeyboard) (s : Step AtKeyboard) (i : Input) :
    LedHistory where
  wanted := wantedAfter h.wanted i
  begun := if beginsLeds s i then some h.wanted else h.begun
  finished :=
    if !k.isInitialised && s.next.isInitialised then none
    else if k.finishesLeds s i then h.begun
    else h.finished

/-- What is known after a run. -/
def ledHistory (k : AtKeyboard) (h : LedHistory) : List Input → LedHistory
  | [] => h
  | i :: inputs => (k.step i).next.ledHistory (h.observe k (k.step i) i) inputs

/-! ## What a step does to the LEDs -/

/-- What a step can do to the copies of a session. -/
inductive LedEffect (k : AtKeyboard) (i : Input) (s : Step AtKeyboard) : Prop where
  /-- The exchange goes on, or there is none. -/
  | kept (hbegins : beginsLeds s i = false) (hfinishes : k.finishesLeds s i = false)
      (hpending : s.next.pendingLeds = k.pendingLeds) (hdevice : s.next.deviceLeds = k.deviceLeds)
      (hready : s.next.isInitialised = k.isInitialised)
      (hsetting : ∀ stage, s.next.state = .setLeds stage → ∃ before, k.state = .setLeds before)
  | begun (hbegins : beginsLeds s i = true) (hfinishes : k.finishesLeds s i = false)
      (hpending : s.next.pendingLeds = k.hostLeds) (hdevice : s.next.deviceLeds = k.deviceLeds)
      (hready : k.isInitialised = true)
  | finished (stage : LedStage) (hstate : k.state = .setLeds stage)
      (hfinishes : k.finishesLeds s i = true) (hdevice : s.next.deviceLeds = some k.pendingLeds)
      (hnext : s.next.state = .initialised)
  | readied (hready : k.isInitialised = false) (hdevice : s.next.deviceLeds = none)
      (hnext : s.next.state = .initialised)
  | unready (hnext : s.next.isInitialised = false)

/-- A session that sets the LEDs is initialised. -/
theorem isInitialised_of_setLeds {stage : LedStage} (h : k.state = .setLeds stage) :
    k.isInitialised := by
  rw [isInitialised, h]

/-- What a byte means for the LEDs. -/
theorem Received.ledEffect {byte : UInt8} (hs : Received k byte s) :
    LedEffect k (.byte byte) s := by
  cases hs with
  | repeated _ _ _ hbyte =>
    have hfinishes : (byte == Ps2.ack) = false := hbyte ▸ rfl
    exact .kept rfl (by simp [finishesLeds, hfinishes]) rfl rfl rfl fun stage h => ⟨stage, h⟩
  -- An acknowledgement that is not for the bitmap finishes nothing.
  | ackIgnored hstate =>
    have hfinishes : (k.state == .setLeds .value) = false := by
      rcases hstate with h | h <;> rw [h] <;> rfl
    exact .kept rfl (by simp [finishesLeds, hfinishes]) rfl rfl rfl fun stage h => ⟨stage, h⟩
  | kept _ _ _ _ hack =>
    exact .kept rfl (by simp [finishesLeds, hack]) rfl rfl rfl fun stage h => ⟨stage, h⟩
  | ledsAcked hstate =>
    exact .kept rfl (by simp [finishesLeds, hstate]) rfl rfl
      (isInitialised_of_setLeds hstate).symm fun _ _ => ⟨_, hstate⟩
  | bitmapAcked hstate hbyte =>
    exact .finished .value hstate (by simp [finishesLeds, hstate, hbyte]) rfl rfl
  -- The session becomes ready, and it is not known what the keyboard shows.
  | identified _ hstate => exact .readied (by rw [isInitialised, hstate]) rfl rfl
  | setupAcked hstate => exact .readied (by rw [isInitialised, hstate]) rfl rfl
  | refused | repeatedEnough | tested | resetAcked | idBegun | identifiedTerminal | replugged =>
    exact .unready rfl

/-- What a look at the time means for the LEDs. -/
theorem Ticked.ledEffect {now : UInt32} {idle : Bool} (hs : Ticked k s) :
    LedEffect k (.tick now idle) s := by
  cases hs with
  | waited =>
    exact .kept rfl (Bool.and_false _) rfl rfl rfl fun stage h => ⟨stage, h⟩
  | ledsBegun _ hstate =>
    exact .begun rfl (Bool.and_false _) rfl rfl (by rw [isInitialised, hstate])
  | ledsAssumed _ _ stage hstate =>
    exact .finished stage hstate (by cases stage <;> simp [finishesLeds, hstate] <;> rfl) rfl rfl
  | idAssumed _ _ hstate =>
    exact .readied (by rcases hstate with h | h <;> rw [isInitialised, h]) rfl rfl
  | setupAssumed _ _ hstate => exact .readied (by rw [isInitialised, hstate]) rfl rfl
  | setupRepeated _ _ hstate => exact .unready (by simp [issue, isInitialised, hstate])
  | resetAgain | idAskedAgain => exact .unready rfl

/-- What any input means for the LEDs. -/
theorem ledEffect_step (k : AtKeyboard) (i : Input) : LedEffect k i (k.step i) := by
  cases i with
  | byte b => exact (k.received b).ledEffect
  | tick now idle => exact (k.ticked now idle).ledEffect
  | reset => exact .unready rfl
  | leds wanted => exact .kept rfl rfl rfl rfl rfl fun stage h => ⟨stage, h⟩

/-! ## The copies and the history -/

/-- A session whose copies of the LEDs are what its history says. What is being set matters during
an exchange only, and what the keyboard has while it is ready. -/
structure Recalls (h : LedHistory) (k : AtKeyboard) : Prop where
  host : k.hostLeds = h.wanted
  pending : ∀ stage, k.state = .setLeds stage → h.begun = some k.pendingLeds
  device : k.isInitialised → k.deviceLeds = h.finished

theorem Received.hostLeds_eq {byte : UInt8} (hs : Received k byte s) :
    s.next.hostLeds = k.hostLeds := by
  cases hs <;> rfl

theorem Ticked.hostLeds_eq (hs : Ticked k s) : s.next.hostLeds = k.hostLeds := by
  cases hs <;> rfl

/-- Only the host changes what it wants. -/
theorem hostLeds_step (k : AtKeyboard) (i : Input) :
    (k.step i).next.hostLeds = wantedAfter k.hostLeds i := by
  cases i with
  | byte b => exact (k.received b).hostLeds_eq
  | tick now idle => exact (k.ticked now idle).hostLeds_eq
  | reset | leds wanted => rfl

/-- A step keeps the LEDs of the session those of the history. -/
theorem LedEffect.recalls {h : LedHistory} (hs : LedEffect k i s) (hk : Recalls h k)
    (hhost : s.next.hostLeds = wantedAfter k.hostLeds i) : Recalls (h.observe k s i) s.next := by
  have hhost' : s.next.hostLeds = wantedAfter h.wanted i := hk.host ▸ hhost
  cases hs with
  | kept hbegins hfinishes hpending hdevice hready hsetting =>
    refine ⟨hhost', fun stage hstage => ?_, fun hnext => ?_⟩
    · obtain ⟨before, hbefore⟩ := hsetting stage hstage
      simpa [LedHistory.observe, hbegins, hpending] using hk.pending before hbefore
    · have := hk.device (hready ▸ hnext)
      simpa [LedHistory.observe, hfinishes, hready, hdevice] using this
  -- What the host wants now is what will be sent.
  | begun hbegins hfinishes hpending hdevice hready =>
    refine ⟨hhost', fun stage _ => ?_, fun _ => ?_⟩
    · simp [LedHistory.observe, hbegins, hpending, hk.host]
    · simpa [LedHistory.observe, hfinishes, hready, hdevice] using hk.device hready
  | finished stage hstate hfinishes hdevice hnext =>
    refine ⟨hhost', fun stage hstage => ?_, fun _ => ?_⟩
    · exact State.noConfusion (hnext.symm.trans hstage)
    -- It was ready already, and is taken to have what it was told.
    · simp [LedHistory.observe, hfinishes, isInitialised_of_setLeds hstate, hdevice,
        hk.pending stage hstate]
  | readied hready hdevice hnext =>
    refine ⟨hhost', fun stage hstage => ?_, fun hnext => ?_⟩
    · exact State.noConfusion (hnext.symm.trans hstage)
    · simp [LedHistory.observe, hready, hnext, hdevice]
  | unready hnext =>
    -- Only what the host wants is remembered until it is ready again.
    refine ⟨hhost', fun stage hstage => ?_, fun hready => ?_⟩
    · exact absurd (isInitialised_of_setLeds hstage) (by simp [hnext])
    · exact absurd hready (by simp [hnext])

/-- A new session has no history. -/
theorem recalls_new (timing : Timing) (defaultSet : CodeSet) :
    Recalls {} { timing, defaultSet } :=
  ⟨rfl, nofun, nofun⟩

/-- The copies agree with the history after every run. -/
theorem recalls_run {h : LedHistory} (hk : Recalls h k) (inputs : List Input) :
    Recalls (k.ledHistory h inputs) (k.run inputs) := by
  induction inputs generalizing k h with
  | nil => exact hk
  | cons i inputs ih => exact ih ((k.ledEffect_step i).recalls hk (k.hostLeds_step i))

/-! ## Setting the LEDs -/

/-- After any run, a tick sets the LEDs of a keyboard that is ready exactly unless an exchange has
finished since it became ready, and the last one was begun with what the host wants now. What the
keyboard is told, when it acknowledges the command, is what the host wanted at the tick that began
the exchange: in the byte that is sent bit 0 is scroll lock, bit 1 num lock and bit 2 caps lock, and
no other bit is set. -/
theorem leds_set (timing : Timing) (defaultSet : CodeSet) (inputs : List Input) :
    let k₀ : AtKeyboard := { timing, defaultSet }
    let k := k₀.run inputs
    let h := k₀.ledHistory {} inputs
    (k.state = .initialised → ∀ now idle, (k.tick now idle).action =
      if h.finished = some h.wanted then .none else .send Ps2.setLockLeds) ∧
    (k.state = .setLeds .command →
      ∃ leds value, h.begun = some leds ∧ (k.receive Ps2.ack).action = .send value ∧
        value.toNat = leds.scroll.toNat + 2 * leds.num.toNat + 4 * leds.caps.toNat) := by
  intro k₀ k h
  have hrecalls : Recalls h k := recalls_run (recalls_new timing defaultSet) inputs
  refine ⟨fun hstate now idle => ?_, fun hstate => ?_⟩
  -- What the session takes the keyboard to show is what the last exchange has told it.
  · have hdevice := hrecalls.device (by rw [isInitialised, hstate])
    rw [← hrecalls.host, ← hdevice]
    simp only [tick, hstate, if_true, updateLeds]
    split <;> rfl
  -- The bitmap is that of the LEDs with which the exchange began.
  · have hsent : (k.receive Ps2.ack).action = .send k.pendingLeds.bitmap := by
      simp [receive, hstate, issue, show Ps2.ack ≠ Ps2.resendRequest by decide]
    exact ⟨k.pendingLeds, k.pendingLeds.bitmap, hrecalls.pending _ hstate, hsent,
      k.pendingLeds.toNat_bitmap⟩

/-- The host changes its mind while the LEDs are set, and the second time nothing answers. -/
theorem leds_set_changed :
    let caps : LockLeds := { caps := true }
    let begun : List Input := [.byte 0xAA, .byte 0xAB, .byte 0x83, .leds caps, .tick 0 true,
      .leds { num := true }, .byte 0x1C]
    let acked := begun ++ [.byte 0xFA, .byte 0xFA]
    let unanswered := acked ++ [.tick 10 true, .tick 500 true, .tick 1000 true]
    let run (inputs : List Input) := ({ timing := {}, defaultSet := .set2 } : AtKeyboard).run inputs
    (run begun).state = .setLeds .command ∧
      ((run begun).receive 0xFA).action = .send 0x04 ∧
      (run acked).state = .initialised ∧
      ((run acked).tick 10 true).action = .send 0xED ∧
      (run unanswered).state = .initialised ∧ ((run unanswered).tick 2000 true).action = .none := by
  intro caps begun acked unanswered run
  let known (inputs : List Input) :=
    ({ timing := {}, defaultSet := .set2 } : AtKeyboard).ledHistory {} inputs
  have hbegun : (run begun).state = .setLeds .command := by decide
  have hacked : (run acked).state = .initialised := by decide
  have hunanswered : (run unanswered).state = .initialised := by decide
  have hcaps : (known begun).begun = some caps := by decide
  have hbehind : (known acked).finished ≠ some (known acked).wanted := by decide
  have hassumed : (known unanswered).finished = some (known unanswered).wanted := by decide
  obtain ⟨leds, value, hleds, hsent, hvalue⟩ := (leds_set {} .set2 begun).2 hbegun
  obtain rfl : leds = caps := Option.some.inj (hleds.symm.trans hcaps)
  -- Of the three, only caps lock is on.
  obtain rfl : value = 0x04 := UInt8.toNat_inj.mp hvalue
  exact ⟨hbegun, hsent, hacked, ((leds_set {} .set2 acked).1 hacked 10 true).trans (if_neg hbehind),
    hunanswered, ((leds_set {} .set2 unanswered).1 hunanswered 2000 true).trans (if_pos hassumed)⟩

end KeyBridge.Device.AtKeyboard
