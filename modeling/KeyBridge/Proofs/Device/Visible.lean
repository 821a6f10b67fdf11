import KeyBridge.Device

/-!
# What can be seen of a session

A port shows of its session the protocol, whether the device is ready, the epoch, the scan code set
and the wheel. `Regular` bounds what one step may do to them: the epoch counts the entries into
readiness, nothing is passed on by a session that is not ready, and the way in which bytes are to be
decoded stays the same as long as the device is ready.

## Key results

- `regular_receive`: so it is when a byte is taken in
- `regular_tick`: and when the time is looked at
- `isInitialised_reset` / `epoch_reset`: a reset session is not ready and begins no epoch
-/

namespace KeyBridge.Device

/-- What a step does to that which can be seen of a session. -/
structure Regular (d : Device) (s : Step Device) : Prop where
  protocol_eq : s.next.protocol = d.protocol
  /-- The epoch counts the entries into readiness. -/
  epoch_eq : s.next.epoch =
    if !d.isInitialised && s.next.isInitialised then d.epoch + 1 else d.epoch
  feeds : s.action.feeds → s.next.isInitialised
  restart : s.action = .restart → s.next.isInitialised = false
  /-- A device that stays ready goes on in the same way. -/
  kept : d.isInitialised → s.next.isInitialised →
    s.next.codeSet? = d.codeSet? ∧ s.next.wheel? = d.wheel?
  /-- A mouse stays ready until it is reset. -/
  lost : d.isInitialised → s.next.isInitialised = false →
    s.next.codeSet? = d.codeSet? ∧ d.wheel? = none
  /-- A device that is not ready can turn out to be a terminal keyboard. -/
  waiting : d.isInitialised = false → s.next.isInitialised = false →
    s.next.codeSet? = d.codeSet? ∨ s.next.codeSet? = some .set3

variable {d : Device} {s : Step Device}

/-- A new epoch begins with a device that is ready now and was not before. -/
theorem Regular.entered (h : Regular d s) (he : s.next.epoch ≠ d.epoch) :
    d.isInitialised = false ∧ s.next.isInitialised := by
  have := h.epoch_eq
  -- Only one of the four cases has another epoch.
  cases hd : d.isInitialised <;> cases hs : s.next.isInitialised <;> simp_all

/-- Without a new epoch a device that is not ready does not become ready. -/
theorem Regular.not_ready (h : Regular d s) (he : s.next.epoch = d.epoch)
    (hd : d.isInitialised = false) : s.next.isInitialised = false := by
  have := h.epoch_eq
  cases hs : s.next.isInitialised
  · rfl
  · simp [hd, hs, he] at this

/-- A session and the same session after a step, or after none. -/
def Follows (d d' : Device) : Prop := d' = d ∨ ∃ s, Regular d s ∧ s.next = d'

/-- A session keeps its protocol. -/
theorem Follows.protocol_eq {d d' : Device} (h : Follows d d') : d'.protocol = d.protocol := by
  obtain rfl | ⟨s, hs, rfl⟩ := h
  · rfl
  · exact hs.protocol_eq

/-- A session does not become ready without a new epoch. -/
theorem Follows.not_ready {d d' : Device} (h : Follows d d') (he : d'.epoch = d.epoch)
    (hd : d.isInitialised = false) : d'.isInitialised = false := by
  obtain rfl | ⟨s, hs, rfl⟩ := h
  · exact hd
  · exact hs.not_ready he hd

section Steps

attribute [local simp] Step.map Step.note Device.protocol Device.epoch Device.isInitialised
  Device.codeSet? Device.wheel? Action.feeds AtKeyboard.isInitialised Ps2Mouse.isInitialised
  XtKeyboard.isInitialised AmigaKeyboard.isInitialised M0110Keyboard.isInitialised

/-! ## AT and PS/2 keyboards -/

namespace AtKeyboard

/-- A byte taken in by a keyboard is a step as `Regular` bounds it. -/
theorem regular_receive (k : AtKeyboard) (b : UInt8) :
    Regular (.atKeyboard k) ((k.receive b).map .atKeyboard) := by
  obtain ⟨_, _, state, _, _, _, _, _, _, _, _, _, _⟩ := k
  -- One goal for each state and each byte that it tells apart.
  cases state <;>
    simp only [receive, refuse, resetDevice, issue, requestId, replugged, ready, identified,
      repeatCommand] <;>
    repeat' split
  all_goals constructor <;> simp_all

/-- A tick of a keyboard is a step as `Regular` bounds it. -/
theorem regular_tick (k : AtKeyboard) (now : UInt32) (idle : Bool) :
    Regular (.atKeyboard k) ((k.tick now idle).map .atKeyboard) := by
  obtain ⟨_, _, state, _, _, _, _, _, _, _, _, _, _⟩ := k
  -- One goal for each state, before and after its stall limit.
  cases state <;>
    simp only [tick, updateLeds, expire, resetDevice, issue, requestId, ready, assumeDefault] <;>
    repeat' split
  all_goals constructor <;> simp_all

end AtKeyboard

/-! ## PS/2 mice -/

namespace Ps2Mouse

/-- A byte taken in by a mouse is a step as `Regular` bounds it. -/
theorem regular_receive (m : Ps2Mouse) (b : UInt8) :
    Regular (.ps2Mouse m) ((m.receive b).map .ps2Mouse) := by
  obtain ⟨_, _, state, _, _, _, _, _, _⟩ := m
  cases state <;>
    simp only [receive, refuse, resetDevice, enter, afterId, enable, ready, repeatCommand, sendRate,
      nextRate] <;>
    repeat' split
  all_goals constructor <;> simp_all

/-- A tick of a mouse is a step as `Regular` bounds it. -/
theorem regular_tick (m : Ps2Mouse) (now : UInt32) (idle : Bool) :
    Regular (.ps2Mouse m) ((m.tick now idle).map .ps2Mouse) := by
  obtain ⟨_, _, state, _, _, _, _, _, _⟩ := m
  cases state <;>
    simp only [tick, expire, resetDevice, enter, afterId, enable, ready, retry] <;>
    repeat' split
  all_goals constructor <;> simp_all

end Ps2Mouse

/-! ## The other keyboards -/

/-- A byte taken in by an XT keyboard is a step as `Regular` bounds it. -/
theorem XtKeyboard.regular_receive (k : XtKeyboard) (b : UInt8) :
    Regular (.xt k) ((k.receive b).map .xt) := by
  obtain ⟨_, state, _, _, _⟩ := k
  cases state <;> simp only [receive] <;> split
  all_goals constructor <;> simp_all

/-- A tick of an XT keyboard is a step as `Regular` bounds it. -/
theorem XtKeyboard.regular_tick (k : XtKeyboard) (now : UInt32) (idle : Bool) :
    Regular (.xt k) ((k.tick now idle).map .xt) := by
  simp only [tick]
  split <;> constructor <;> simp_all

/-- A byte taken in by an Amiga keyboard is a step as `Regular` bounds it. -/
theorem AmigaKeyboard.regular_receive (k : AmigaKeyboard) (b : UInt8) :
    Regular (.amiga k) ((k.receive b).map .amiga) := by
  obtain ⟨state, _, _⟩ := k
  cases state <;> simp only [receive, ready, keyAction] <;> repeat' split
  all_goals constructor <;> simp_all

/-- A byte taken in by an M0110 is a step as `Regular` bounds it. -/
theorem M0110Keyboard.regular_receive (k : M0110Keyboard) (b : UInt8) :
    Regular (.m0110 k) ((k.receive b).map .m0110) := by
  obtain ⟨_, state, _, _, _, _⟩ := k
  cases state <;> simp only [receive] <;> repeat' split
  all_goals constructor <;> simp_all

/-- A tick of an M0110 is a step as `Regular` bounds it. -/
theorem M0110Keyboard.regular_tick (k : M0110Keyboard) (now : UInt32) (idle : Bool) :
    Regular (.m0110 k) ((k.tick now idle).map .m0110) := by
  simp only [tick, queryModel]
  repeat' split
  all_goals constructor <;> simp_all

/-! ## All devices -/

/-- A byte taken in by a session is a step as `Regular` bounds it. -/
theorem regular_receive (d : Device) (b : UInt8) : Regular d (d.receive b) := by
  cases d with
  | atKeyboard k => exact k.regular_receive b
  | ps2Mouse m => exact m.regular_receive b
  | xt k => exact k.regular_receive b
  | amiga k => exact k.regular_receive b
  | m0110 k => exact k.regular_receive b

/-- A tick of a session is a step as `Regular` bounds it. -/
theorem regular_tick (d : Device) (now : UInt32) (idle : Bool) : Regular d (d.tick now idle) := by
  cases d with
  | atKeyboard k => exact k.regular_tick now idle
  | ps2Mouse m => exact m.regular_tick now idle
  | xt k => exact k.regular_tick now idle
  | amiga k => constructor <;> simp_all [tick]
  | m0110 k => exact k.regular_tick now idle

/-- A session is not ready after a reset. -/
theorem isInitialised_reset (d : Device) : d.reset.isInitialised = false := by
  cases d <;> rfl

theorem epoch_reset (d : Device) : d.reset.epoch = d.epoch := by
  cases d <;> rfl

theorem protocol_reset (d : Device) : d.reset.protocol = d.protocol := by
  cases d <;> rfl

/-- There is a wheel to be told about for mice only. -/
theorem wheel?_eq_none_iff (d : Device) : d.wheel? = none ↔ d.protocol ≠ .ps2Mouse := by
  cases d <;> simp

end Steps

end KeyBridge.Device
