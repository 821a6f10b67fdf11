import KeyBridge.Device

/-!
# What sessions leave to the port

Frames, the ring and the transmitter are the port's own: no session notes anything about them. Nor
does one have the receiver restarted because of a byte, since the frame was good. A device that can
only speak is never sent a command.

## Key results

- `notesOwn_step`: a session notes nothing that is for the port to record
- `receive_ne_restart`: only a look at the time has a session restart the receiver
- `command?_of_oneWay`: nothing is sent to an XT or Amiga keyboard
-/

namespace KeyBridge

/-- Whether a diagnostic is for the port to record. -/
def Diagnostic.isOfPort : Diagnostic → Bool
  | frame _ | overflow _ | transmitFailed _ => true
  | _ => false

namespace Device

/-- A step that records nothing in place of the port. -/
def Step.NotesOwn {σ : Type} (s : Step σ) : Prop := ∀ note ∈ s.notes, note.isOfPort = false

section Steps

attribute [local simp] Step.NotesOwn Step.note Step.map Diagnostic.isOfPort

/-! ## AT and PS/2 keyboards -/

namespace AtKeyboard

/-- A keyboard session notes nothing that is for the port to note, and no byte restarts the
receiver. -/
theorem notesOwn_receive (k : AtKeyboard) (b : UInt8) :
    (k.receive b).NotesOwn ∧ (k.receive b).action ≠ .restart := by
  obtain ⟨_, _, state, _, _, _, _, _, _, _, _, _, _⟩ := k
  -- One goal for each state and each byte that it tells apart.
  cases state <;>
    simp only [receive, refuse, resetDevice, issue, requestId, replugged, ready, identified,
      repeatCommand] <;>
    repeat' split
  all_goals simp

/-- A keyboard session notes nothing that is for the port to note as time passes. -/
theorem notesOwn_tick (k : AtKeyboard) (now : UInt32) (idle : Bool) :
    (k.tick now idle).NotesOwn := by
  obtain ⟨_, _, state, _, _, _, _, _, _, _, _, _, _⟩ := k
  cases state <;>
    simp only [tick, updateLeds, expire, resetDevice, issue, requestId, ready, assumeDefault] <;>
    repeat' split
  all_goals simp

end AtKeyboard

/-! ## PS/2 mice -/

namespace Ps2Mouse

/-- A mouse session notes nothing that is for the port to note, and no byte restarts the receiver.
-/
theorem notesOwn_receive (m : Ps2Mouse) (b : UInt8) :
    (m.receive b).NotesOwn ∧ (m.receive b).action ≠ .restart := by
  obtain ⟨_, _, state, _, _, _, _, _, _⟩ := m
  cases state <;>
    simp only [receive, refuse, resetDevice, enter, afterId, enable, ready, repeatCommand, sendRate,
      nextRate] <;>
    repeat' split
  all_goals simp

/-- A mouse session notes nothing that is for the port to note as time passes. -/
theorem notesOwn_tick (m : Ps2Mouse) (now : UInt32) (idle : Bool) : (m.tick now idle).NotesOwn := by
  obtain ⟨_, _, state, _, _, _, _, _, _⟩ := m
  cases state <;>
    simp only [tick, expire, resetDevice, enter, afterId, enable, ready, retry] <;>
    repeat' split
  all_goals simp

end Ps2Mouse

/-! ## The other keyboards -/

/-- An XT session notes nothing that is for the port to note, and a byte neither restarts the
receiver nor sends a command. -/
theorem XtKeyboard.notesOwn_receive (k : XtKeyboard) (b : UInt8) :
    (k.receive b).NotesOwn ∧ (k.receive b).action ≠ .restart ∧
      (k.receive b).action.command? = none := by
  obtain ⟨_, state, _, _, _⟩ := k
  cases state <;> simp only [receive] <;> split
  all_goals simp [Action.command?]

/-- An XT session notes nothing that is for the port to note as time passes, and sends no command.
-/
theorem XtKeyboard.notesOwn_tick (k : XtKeyboard) (now : UInt32) (idle : Bool) :
    (k.tick now idle).NotesOwn ∧ (k.tick now idle).action.command? = none := by
  simp only [tick]
  split <;> simp [Action.command?]

/-- An Amiga session notes nothing that is for the port to note, and a byte neither restarts the
receiver nor sends a command. -/
theorem AmigaKeyboard.notesOwn_receive (k : AmigaKeyboard) (b : UInt8) :
    (k.receive b).NotesOwn ∧ (k.receive b).action ≠ .restart ∧
      (k.receive b).action.command? = none := by
  obtain ⟨state, _, _⟩ := k
  cases state <;> simp only [receive, ready, keyAction] <;> repeat' split
  all_goals simp [Action.command?]

/-- An M0110 session notes nothing that is for the port to note, and no byte restarts the receiver.
-/
theorem M0110Keyboard.notesOwn_receive (k : M0110Keyboard) (b : UInt8) :
    (k.receive b).NotesOwn ∧ (k.receive b).action ≠ .restart := by
  obtain ⟨_, state, _, _, _, _⟩ := k
  cases state <;> simp only [receive] <;> repeat' split
  all_goals simp

/-- An M0110 session notes nothing that is for the port to note as time passes. -/
theorem M0110Keyboard.notesOwn_tick (k : M0110Keyboard) (now : UInt32) (idle : Bool) :
    (k.tick now idle).NotesOwn := by
  simp only [tick, queryModel]
  repeat' split
  all_goals simp

/-! ## All devices -/

variable (d : Device)

/-- No session notes what is for the port to note when a byte comes in. -/
theorem notesOwn_receive (b : UInt8) : (d.receive b).NotesOwn := by
  cases d with
  | atKeyboard k => exact (k.notesOwn_receive b).1
  | ps2Mouse m => exact (m.notesOwn_receive b).1
  | xt k => exact (k.notesOwn_receive b).1
  | amiga k => exact (k.notesOwn_receive b).1
  | m0110 k => exact (k.notesOwn_receive b).1

/-- No session notes what is for the port to note as time passes. -/
theorem notesOwn_tick (now : UInt32) (idle : Bool) : (d.tick now idle).NotesOwn := by
  cases d with
  | atKeyboard k => exact k.notesOwn_tick now idle
  | ps2Mouse m => exact m.notesOwn_tick now idle
  | xt k => exact (k.notesOwn_tick now idle).1
  | amiga k => simp [tick]
  | m0110 k => exact k.notesOwn_tick now idle

/-- A session notes nothing that is for the port to record. -/
theorem notesOwn_step (i : Input) : (d.step i).NotesOwn := by
  cases i with
  | byte b => exact d.notesOwn_receive b
  | tick now idle => exact d.notesOwn_tick now idle
  | reset | leds wanted => exact List.forall_mem_nil _

/-- A session does not have the receiver restarted because of a byte. -/
theorem receive_ne_restart (b : UInt8) : (d.receive b).action ≠ .restart := by
  cases d with
  | atKeyboard k => exact (k.notesOwn_receive b).2
  | ps2Mouse m => exact (m.notesOwn_receive b).2
  | xt k => exact (k.notesOwn_receive b).2.1
  | amiga k => exact (k.notesOwn_receive b).2.1
  | m0110 k => exact (k.notesOwn_receive b).2

/-- Nothing is sent to a device that can only speak. -/
theorem command?_of_oneWay (h : d.protocol.format.bidirectional = false) (i : Input) :
    (d.step i).action.command? = none := by
  cases d with
  | xt k =>
    cases i with
    | byte b => exact (k.notesOwn_receive b).2.2
    | tick now idle => exact (k.notesOwn_tick now idle).2
    | reset | leds => rfl
  | amiga k =>
    cases i with
    | byte b => exact (k.notesOwn_receive b).2.2
    | tick | reset | leds => rfl
  | atKeyboard | ps2Mouse | m0110 => contradiction

end Steps

end Device

end KeyBridge
