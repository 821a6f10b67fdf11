import KeyBridge.Proofs.Decoder.Keys
import KeyBridge.Proofs.Device.Epoch

/-!
# A keyboard that is ready

While nothing but the bytes of keys and acknowledgements comes in, a keyboard that is ready stays
so: the lock LEDs can be set any number of times, or fail to be set, without a key being lost.

## Key results

- `typing_key`: the byte of a key is passed on and changes nothing
- `typing_ack` / `typing_tick`: nothing else passes anything on or restarts the receiver
- `typing_run`: the epoch does not end, however long it goes on like this
- `keys_passed_amid_leds`: of all that comes in, exactly the bytes of keys are passed on
-/

namespace KeyBridge.Device

open Command

/-! ## What comes in -/

namespace Input

/-- The byte of a key. -/
def IsKey : Input → Prop
  | byte b => b ∉ replies
  | tick _ _ | reset | leds _ => False

/-- All that comes in while a keyboard is typed on and its LEDs are set: the bytes of keys and
acknowledgements, the time, and what the host wants of the LEDs. -/
def IsTyping : Input → Prop
  | byte b => b ∉ replies ∨ b = Ps2.ack
  | tick _ _ | leds _ => True
  | reset => False

instance : DecidablePred IsKey
  | byte b => inferInstanceAs (Decidable (b ∉ replies))
  | tick _ _ | reset | leds _ => inferInstanceAs (Decidable False)

instance : DecidablePred IsTyping
  | byte b => inferInstanceAs (Decidable (b ∉ replies ∨ b = Ps2.ack))
  | tick _ _ | leds _ => inferInstanceAs (Decidable True)
  | reset => inferInstanceAs (Decidable False)

end Input

/-- The bytes that are queued are there for the decoder. -/
theorem Action.queued_eq_nil_iff (a : Action) (byte : UInt8) :
    a.queued byte = [] ↔ a.feeds = false := by
  cases a <;> simp [queued, feeds]

namespace AtKeyboard

variable {k : AtKeyboard} {byte : UInt8}

/-- A step that a keyboard which is ready takes without an end of its epoch. -/
structure Types (k : AtKeyboard) (s : Step AtKeyboard) : Prop where
  ready : s.next.isInitialised
  epoch_eq : s.next.epoch = k.epoch
  id_eq : s.next.id = k.id
  codeSet_eq : s.next.codeSet = k.codeSet

/-! ## Steps -/

/-- The byte of a key is passed on and changes nothing. -/
theorem typing_key (hk : k.isInitialised) (hb : byte ∉ replies) :
    Types k (k.receive byte) ∧ (k.receive byte).action = .pass := by
  simp only [replies, List.mem_cons, List.not_mem_nil, or_false, not_or] at hb
  obtain ⟨hack, hresend, htest, hecho, herror, hoverrun⟩ := hb
  cases hs : k.state with
  -- While the LEDs are set, the keyboard is ready as well.
  | initialised | setLeds stage =>
    simp only [receive, hresend, hack, htest, hecho, herror, hoverrun, hs, false_and, or_self,
      if_false]
    exact ⟨⟨by simp [isInitialised], rfl, rfl, rfl⟩, trivial⟩
  | _ => simp [isInitialised, hs] at hk

/-- An acknowledgement is never passed on. -/
theorem typing_ack (hk : k.isInitialised) :
    Types k (k.receive Ps2.ack) ∧ (k.receive Ps2.ack).action.queued Ps2.ack = [] ∧
      (k.receive Ps2.ack).action ≠ .restart := by
  have hresend : Ps2.ack ≠ Ps2.resendRequest := by decide
  cases hs : k.state with
  | initialised =>
    simp only [receive, hresend, hs, true_or, if_true, if_false]
    exact ⟨⟨by simp [isInitialised], rfl, rfl, rfl⟩, rfl, by simp⟩
  | setLeds stage =>
    simp only [receive, hresend, hs, if_true, if_false]
    cases stage with
    | command => exact ⟨⟨rfl, rfl, rfl, rfl⟩, rfl, by simp [issue]⟩
    | value => exact ⟨⟨rfl, rfl, rfl, rfl⟩, rfl, by simp⟩
  | _ => simp [isInitialised, hs] at hk

/-- Time passes without an end of the epoch. -/
theorem typing_tick (hk : k.isInitialised) (now : UInt32) (idle : Bool) :
    Types k (k.tick now idle) ∧ (k.tick now idle).action ≠ .restart := by
  cases hs : k.state with
  | initialised =>
    simp only [tick, hs, if_true, updateLeds]
    split
    · exact ⟨⟨by simp [isInitialised], rfl, rfl, rfl⟩, by simp⟩
    · exact ⟨⟨rfl, rfl, rfl, rfl⟩, by simp [issue]⟩
  | setLeds stage =>
    simp only [tick, hs, expire, reduceCtorEq, if_false]
    split
    · exact ⟨⟨by simp [isInitialised], rfl, rfl, rfl⟩, by simp⟩
    · exact ⟨⟨rfl, rfl, rfl, rfl⟩, by simp⟩
  | _ => simp [isInitialised, hs] at hk

/-! ## Runs -/

/-- Steps that leave the keyboard its decoder do so together. -/
theorem Types.trans {s s' : Step AtKeyboard} (h : Types k s) (h' : Types s.next s') :
    Types k s' where
  ready := h'.ready
  epoch_eq := h'.epoch_eq.trans h.epoch_eq
  id_eq := h'.id_eq.trans h.id_eq
  codeSet_eq := h'.codeSet_eq.trans h.codeSet_eq

/-- Whatever happens while somebody types leaves the keyboard its decoder. -/
theorem typing_step (hk : k.isInitialised) {i : Input} (hi : i.IsTyping) : Types k (k.step i) := by
  cases i with
  | byte b =>
    rcases hi with hkey | rfl
    · exact (typing_key hk hkey).1
    · exact (typing_ack hk).1
  | tick now idle => exact (typing_tick hk now idle).1
  | reset => exact False.elim hi
  | leds wanted => exact ⟨hk, rfl, rfl, rfl⟩

/-- The epoch does not end, however long it goes on like this. -/
theorem typing_run (hk : k.isInitialised) {inputs : List Input} (h : ∀ i ∈ inputs, i.IsTyping) :
    Types k { next := k.run inputs } := by
  induction inputs generalizing k with
  | nil => exact ⟨hk, rfl, rfl, rfl⟩
  | cons i inputs ih =>
    obtain ⟨hi, hinputs⟩ := List.forall_mem_cons.mp h
    have hstep := typing_step hk hi
    exact hstep.trans (ih hstep.ready hinputs)

/-- Nothing but the byte of a key is passed on. -/
theorem typing_feeds (hk : k.isInitialised) {i : Input} (hi : i.IsTyping) (hkey : ¬ i.IsKey) :
    (k.step i).action.feeds = false := by
  cases i with
  | byte b =>
    obtain rfl : b = Ps2.ack := hi.resolve_left hkey
    exact (Action.queued_eq_nil_iff _ _).mp (typing_ack hk).2.1
  | tick now idle => exact k.feeds_tick now idle
  | reset | leds wanted => rfl

/-- From any keyboard that is ready on, whatever has come in of keys, acknowledgements, ticks and
changes of the LEDs: if the next input is the byte of a key, it is passed on, and if it is not,
nothing is. The keyboard stays ready, in the same epoch and with the same id and code set. -/
theorem keys_passed_amid_leds (hk : k.isInitialised) {before : List Input} {i : Input}
    (hbefore : ∀ j ∈ before, j.IsTyping) (hi : i.IsTyping) :
    let s := (k.run before).step i
    (i.IsKey → s.action = .pass) ∧ (¬ i.IsKey → s.action.feeds = false) ∧
      s.next.isInitialised ∧ s.next.epoch = k.epoch ∧ s.next.id = k.id ∧
      s.next.codeSet = k.codeSet := by
  -- The run leaves the keyboard as it is described, so that one step can be looked at.
  have hrun := typing_run hk hbefore
  have hstep := hrun.trans (typing_step hrun.ready hi)
  refine ⟨fun hkey => ?_, typing_feeds hrun.ready hi, hstep.ready, hstep.epoch_eq, hstep.id_eq,
    hstep.codeSet_eq⟩
  cases i with
  | byte b => exact (typing_key hrun.ready hkey).2
  | tick | reset | leds => exact False.elim hkey

/-- A key goes down while the LEDs are set for the second time. -/
theorem keys_passed_amid_leds_again :
    let k := ({ timing := {}, defaultSet := .set2 } : AtKeyboard).run
      [.byte 0xAA, .byte 0xAB, .byte 0x83]
    let before := [.tick 0 true, .byte 0x1C, .byte 0xFA, .leds { caps := true }, .byte 0xF0,
      .byte 0xFA, .tick 5 true]
    let s := (k.run before).step (.byte 0x1C)
    k.isInitialised ∧ (∀ j ∈ before, j.IsTyping) ∧ (k.run before).state = .setLeds .command ∧
      s.action = .pass ∧ s.next.isInitialised ∧ s.next.epoch = k.epoch := by
  intro k before s
  have hk : k.isInitialised := by decide
  have hbefore : ∀ j ∈ before, j.IsTyping := by decide
  have hkey : (Input.byte 0x1C).IsKey := by decide
  have hi : (Input.byte 0x1C).IsTyping := by decide
  obtain ⟨hpass, -, hready, hepoch, -⟩ := keys_passed_amid_leds hk hbefore hi
  exact ⟨hk, hbefore, by decide, hpass hkey, hready, hepoch⟩

end AtKeyboard

end KeyBridge.Device
