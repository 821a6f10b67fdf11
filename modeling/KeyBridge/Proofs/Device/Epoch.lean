import KeyBridge.Proofs.Device.Visible

/-!
# Epochs and what is passed on

An epoch is the time from one entry into readiness to the next. A step begins one exactly when it
takes the session from not ready to ready, so that the epoch of a run counts its entries. Bytes for
the decoder come from bytes of the device only, and only from a session that is ready: none is
passed on before its epoch has begun.

## Key results

- `protocol_run`: a session never changes its protocol
- `epoch_run`: the epoch after a run is the number of entries into readiness
- `AtKeyboard.device_run`, `Ps2Mouse.device_run`: a session of a keyboard or of a mouse alone goes
  through the same
- `step_epoch_and_feeding`: what one step may do to the epoch and may pass on
-/

namespace KeyBridge.Device

variable {d : Device}

/-! ## Steps -/

/-- Whether a step from one session to another is an entry into readiness. -/
def enters (d d' : Device) : Bool := !d.isInitialised && d'.isInitialised

/-- A session keeps its protocol with every step. -/
theorem step_protocol (d : Device) (i : Input) : (d.step i).next.protocol = d.protocol := by
  cases i with
  | byte b => exact (d.regular_receive b).protocol_eq
  | tick now idle => exact (d.regular_tick now idle).protocol_eq
  | reset => exact d.protocol_reset
  | leds wanted => cases d <;> rfl

/-- The epoch counts the entries into readiness. -/
theorem step_epoch (d : Device) (i : Input) :
    (d.step i).next.epoch = if d.enters (d.step i).next then d.epoch + 1 else d.epoch := by
  cases i with
  | byte b => exact (d.regular_receive b).epoch_eq
  | tick now idle => exact (d.regular_tick now idle).epoch_eq
  | reset =>
    -- A reset session is not ready, so that this is no entry.
    simp [step, enters, isInitialised_reset, epoch_reset]
  | leds wanted =>
    have hready : (d.setLeds wanted).isInitialised = d.isInitialised := by cases d <;> rfl
    have hepoch : (d.setLeds wanted).epoch = d.epoch := by cases d <;> rfl
    simp [step, enters, hready, hepoch]

/-! ## Bytes for the decoder -/

/-- A look at the time brings the decoder nothing from a keyboard. -/
theorem AtKeyboard.feeds_tick (k : AtKeyboard) (now : UInt32) (idle : Bool) :
    (k.tick now idle).action.feeds = false := by
  have hexpire : ∀ k : AtKeyboard, k.expire.action.feeds = false := by
    intro k
    unfold expire
    repeat' split
    all_goals rfl
  simp only [tick]
  split
  · unfold updateLeds
    split <;> rfl
  · split
    · rfl
    · exact hexpire _

/-- A look at the time brings the decoder nothing from a mouse. -/
theorem Ps2Mouse.feeds_tick (m : Ps2Mouse) (now : UInt32) (idle : Bool) :
    (m.tick now idle).action.feeds = false := by
  -- All that can follow a timeout sends a command, or does nothing.
  have hafterId : ∀ m : Ps2Mouse, m.afterId.action.feeds = false := by
    intro m
    unfold afterId
    split <;> rfl
  have hretry : ∀ m : Ps2Mouse, m.retry.action.feeds = false := by
    intro m
    unfold retry
    split <;> rfl
  have hexpire : ∀ m : Ps2Mouse, m.expire.action.feeds = false := by
    intro m
    unfold expire
    repeat' split
    all_goals first | rfl | exact hafterId m | exact hretry m
  simp only [tick]
  split
  · rfl
  · exact hexpire _

/-- A look at the time brings the decoder nothing from an XT keyboard. -/
theorem XtKeyboard.feeds_tick (k : XtKeyboard) (now : UInt32) (idle : Bool) :
    (k.tick now idle).action.feeds = false := by
  simp only [tick]
  split <;> rfl

/-- A look at the time brings the decoder nothing from an M0110 keyboard. -/
theorem M0110Keyboard.feeds_tick (k : M0110Keyboard) (now : UInt32) (idle : Bool) :
    (k.tick now idle).action.feeds = false := by
  simp only [tick]
  split
  · rfl
  · split <;> rfl

/-- No byte is received when the time is looked at, and none is passed on. -/
theorem feeds_tick (d : Device) (now : UInt32) (idle : Bool) :
    (d.tick now idle).action.feeds = false := by
  cases d with
  | atKeyboard k => exact k.feeds_tick now idle
  | ps2Mouse m => exact m.feeds_tick now idle
  | xt k => exact k.feeds_tick now idle
  | amiga k => rfl
  | m0110 k => exact k.feeds_tick now idle

/-! ## Runs -/

@[simp] theorem run_nil (d : Device) : d.run [] = d := rfl

@[simp] theorem run_cons (d : Device) (i : Input) (inputs : List Input) :
    d.run (i :: inputs) = (d.step i).next.run inputs := rfl

/-- A session never changes its protocol. -/
theorem protocol_run (d : Device) (inputs : List Input) :
    (d.run inputs).protocol = d.protocol := by
  induction inputs generalizing d with
  | nil => rfl
  | cons i inputs ih => exact (ih _).trans (d.step_protocol i)

/-- How often a run enters readiness. -/
def entries (d : Device) : List Input → Nat
  | [] => 0
  | i :: inputs =>
    (if d.enters (d.step i).next then 1 else 0) + (d.step i).next.entries inputs

/-- The epoch counts the entries into readiness, modulo 2^16. -/
theorem epoch_run (d : Device) (inputs : List Input) :
    (d.run inputs).epoch = d.epoch + UInt16.ofNat (d.entries inputs) := by
  induction inputs generalizing d with
  | nil => simp [entries]
  | cons i inputs ih =>
    rw [run_cons, ih, step_epoch, entries, UInt16.ofNat_add]
    split
    · exact UInt16.add_assoc ..
    · simp

/-! ### Keyboards -/

/-- Takes in whatever happens to a keyboard. -/
def AtKeyboard.step (k : AtKeyboard) : Input → Step AtKeyboard
  | .byte b => k.receive b
  | .tick now idle => k.tick now idle
  | .reset => { next := k.reset }
  | .leds wanted => { next := k.setLeds wanted }

/-- A keyboard after a run of inputs. -/
def AtKeyboard.run (k : AtKeyboard) (inputs : List Input) : AtKeyboard :=
  inputs.foldl (fun k i => (k.step i).next) k

theorem AtKeyboard.device_step (k : AtKeyboard) (i : Input) :
    (atKeyboard k).step i = (k.step i).map .atKeyboard := by
  cases i <;> rfl

/-- The run of a keyboard is the run of its device. -/
theorem AtKeyboard.device_run (k : AtKeyboard) (inputs : List Input) :
    (atKeyboard k).run inputs = atKeyboard (k.run inputs) := by
  induction inputs generalizing k with
  | nil => rfl
  | cons i inputs ih =>
    rw [run_cons, device_step]
    exact ih _

/-! ### Mice -/

/-- Takes in whatever happens to a mouse. A mouse has no LEDs. -/
def Ps2Mouse.step (m : Ps2Mouse) : Input → Step Ps2Mouse
  | .byte b => m.receive b
  | .tick now idle => m.tick now idle
  | .reset => { next := m.reset }
  | .leds _ => { next := m }

/-- A mouse after a run of inputs. -/
def Ps2Mouse.run (m : Ps2Mouse) (inputs : List Input) : Ps2Mouse :=
  inputs.foldl (fun m i => (m.step i).next) m

theorem Ps2Mouse.device_step (m : Ps2Mouse) (i : Input) :
    (ps2Mouse m).step i = (m.step i).map .ps2Mouse := by
  cases i <;> rfl

/-- The run of a mouse is the run of its device. -/
theorem Ps2Mouse.device_run (m : Ps2Mouse) (inputs : List Input) :
    (ps2Mouse m).run inputs = ps2Mouse (m.run inputs) := by
  induction inputs generalizing m with
  | nil => rfl
  | cons i inputs ih =>
    rw [run_cons, device_step]
    exact ih _

/-! ## One step -/

/-- A step begins an epoch exactly when it makes the session ready. Only a byte from the device can
be passed on or have others queued in its place, and only by a session that is then ready. -/
theorem step_epoch_and_feeding (d : Device) (i : Input) :
    ((d.step i).next.epoch =
      if !d.isInitialised && (d.step i).next.isInitialised then d.epoch + 1 else d.epoch) ∧
    ((d.step i).action.feeds → (∃ b, i = .byte b) ∧ (d.step i).next.isInitialised) := by
  refine ⟨d.step_epoch i, fun hfeeds => ?_⟩
  cases i with
  | byte b => exact ⟨⟨b, rfl⟩, (d.regular_receive b).feeds hfeeds⟩
  | tick now idle => exact absurd hfeeds (by simp [step, d.feeds_tick now idle])
  | reset | leds wanted => exact absurd hfeeds (by simp [step, Action.feeds])

end KeyBridge.Device
