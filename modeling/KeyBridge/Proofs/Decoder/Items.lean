import KeyBridge.Proofs.Byte
import KeyBridge.Proofs.Decoder.Keys

/-!
# Streams of scan codes

What keyboards send is a stream of items: a key that goes down or up, or a shift that the keyboard
makes up around a navigation key and that stands for nothing. An item takes one byte to five, and
the same byte can belong to items of several kinds. Here the items of scan code sets 1 and 2 are
written down as the keyboards send them, and the decoder of each set reads back any number of them.

## Key results

- `Set1.Item.reads`, `Set2.Item.reads`: an item gives its event and leaves the decoder as it was
- `set1_read_back`, `set2_read_back`: so does any number of items, one after the other
-/

namespace KeyBridge.Scan

/-! ## The release bit -/

/-- A code below 128 consists of key bits only. -/
theorem keyBits_of_lt {code : UInt8} (h : code < 0x80) : keyBits code = code := by
  apply UInt8.toNat_inj.mp
  exact (toNat_and_not_highBit code).trans (Nat.mod_eq_of_lt (UInt8.lt_iff_toNat_lt.mp h))

/-- A code below 128 is that of a key going down. -/
theorem isMake_of_lt {code : UInt8} (h : code < 0x80) : isMake code :=
  beq_iff_eq.mpr (and_highBit_eq_zero_iff.mpr h)

/-- The release bit is no key bit. -/
theorem keyBits_release (code : UInt8) : keyBits (code ||| releaseBit) = keyBits code :=
  or_highBit_and_not code

/-- With the release bit a byte is that of a key coming up. -/
theorem isMake_release (code : UInt8) : isMake (code ||| releaseBit) = false := by
  rw [isMake, show releaseBit = 0x80 from rfl, or_highBit_and]
  rfl

/-! ## Set 1 -/

namespace Set1

/-- What a keyboard that speaks set 1 sends. -/
inductive Item where
  | press (code : UInt8) (h : 0x01 ≤ code ∧ code ≤ 0x7F)
  /-- The codes left out become E0, E1, F1 and F2 with the release bit. -/
  | release (code : UInt8) (h : 0x01 ≤ code ∧ code ≤ 0x7F)
      (hfree : code ∉ [0x60, 0x61, 0x71, 0x72])
  /-- A key that sends E0 first. -/
  | extended (byte code : UInt8) (hbyte : byte < 0x80) (h : extendedCode? byte = some code)
      (make : Bool)
  | pause (make : Bool)
  | hanja
  | hangul
  | fakeShift (right make : Bool)

namespace Item

/-- The bytes of an item in set 1. -/
def bytes : Item → List UInt8
  | press code _ => [code]
  | release code _ _ => [code ||| releaseBit]
  | extended byte _ _ _ make => [0xE0, if make then byte else byte ||| releaseBit]
  | pause make => if make then [0xE1, 0x1D, 0x45] else [0xE1, 0x9D, 0xC5]
  | hanja => [0xF1]
  | hangul => [0xF2]
  | fakeShift right make =>
    let shift := if right then 0x36 else 0x2A
    [0xE0, if make then shift else shift ||| releaseBit]

/-- What the host is told of an item: one event at most. -/
def events : Item → List Event
  | press code _ => [.press code]
  | release code _ _ => [.release code]
  | extended _ code _ _ make => [.key ⟨code, make⟩]
  | pause make => [.key ⟨Set1.pause, make⟩]
  | hanja => [.press Set1.hanja]
  | hangul => [.press Set1.hangul]
  | fakeShift _ _ => []

end Item

section Steps

attribute [local simp] Decoder.step Set1.step Reading.key? Reading.key

/-- A byte names the key of its key bits. -/
theorem baseCode?_of_keyBits {byte code : UInt8} (h : 0x01 ≤ code) (hbits : keyBits byte = code) :
    baseCode? byte = some code := by
  have hne : keyBits byte ≠ 0 := by
    rw [hbits]
    rintro rfl
    exact absurd h (by decide)
  rw [baseCode?, if_neg hne, hbits]

/-- A make code of set 1 is read as the press of its key. -/
theorem step_press {code : UInt8} (h : 0x01 ≤ code ∧ code ≤ 0x7F) :
    (Decoder.set1 .init).step code = (.set1 .init, .event (.press code)) := by
  have hlt : code < 0x80 := UInt8.lt_of_le_of_lt h.2 (by decide)
  -- Whatever stands for something else has the release bit.
  have hplain : code ≠ 0xE0 ∧ code ≠ 0xE1 ∧ code ≠ 0xF1 ∧ code ≠ 0xF2 := by
    refine ⟨?_, ?_, ?_, ?_⟩ <;> rintro rfl <;> exact absurd hlt (by decide)
  simp [hplain, baseCode?_of_keyBits h.1 (keyBits_of_lt hlt), isMake_of_lt hlt, Event.press]

/-- A break code of set 1 is read as the release of its key, but for the four bytes with another
use. -/
theorem step_release {code : UInt8} (h : 0x01 ≤ code ∧ code ≤ 0x7F)
    (hfree : code ∉ [0x60, 0x61, 0x71, 0x72]) :
    (Decoder.set1 .init).step (code ||| releaseBit) = (.set1 .init, .event (.release code)) := by
  have hbits : keyBits (code ||| releaseBit) = code :=
    (keyBits_release code).trans (keyBits_of_lt (UInt8.lt_of_le_of_lt h.2 (by decide)))
  -- Whatever stands for something else has one of the codes left out.
  have hplain : ∀ b ∈ [0xE0, 0xE1, 0xF1, 0xF2], code ||| releaseBit ≠ b := by
    have hbytes : ∀ b ∈ [0xE0, 0xE1, 0xF1, 0xF2], keyBits b ∈ [0x60, 0x61, 0x71, 0x72] :=
      forall_mem_of_all (by decide)
    rintro b hb rfl
    exact hfree (hbits ▸ hbytes _ hb)
  simp only [List.forall_mem_cons, List.not_mem_nil, false_implies, implies_true, and_true]
    at hplain
  simp [hplain, baseCode?_of_keyBits h.1 hbits, isMake_release, Event.release]

/-- After `E0` a byte is read as the extended key in it, going down or coming up. -/
theorem step_afterE0 {byte code : UInt8} (hbyte : byte < 0x80)
    (h : extendedCode? byte = some code) (make : Bool) :
    (Decoder.set1 .afterE0).step (if make then byte else byte ||| releaseBit) =
      (.set1 .init, .event (.key ⟨code, make⟩)) := by
  cases make with
  | true => simp [h, isMake_of_lt hbyte]
  | false =>
    have hrelease : extendedCode? (byte ||| releaseBit) = some code := by
      rw [extendedCode?, keyBits_release]
      exact h
    simp [hrelease, isMake_release]

end Steps

/-- An item gives its event and leaves the decoder as it was. -/
theorem Item.reads (item : Item) :
    (Decoder.set1 .init).Reads item.bytes item.events (.set1 .init) := by
  cases item with
  | press code h => exact .event (step_press h) .nil
  | release code h hfree => exact .event (step_release h hfree) .nil
  | extended byte code hbyte h make => exact .silent rfl (.event (step_afterE0 hbyte h make) .nil)
  | pause make => cases make <;> exact .silent rfl (.silent rfl (.event rfl .nil))
  | hanja | hangul => exact .event rfl .nil
  | fakeShift right make =>
    cases right <;> cases make <;> exact .silent rfl (.silent rfl .nil)

end Set1

/-- A new decoder of set 1 reads any number of items one after the other: no byte is unexpected,
the events are those of the items in their order, and the decoder is as it was at the start. So it
is when it is fed with them. -/
theorem set1_read_back (items : List Set1.Item) :
    let d := Decoder.set1 .init
    let bytes := items.flatMap Set1.Item.bytes
    let events := items.flatMap Set1.Item.events
    d.Reads bytes events d ∧ d.outputs bytes = events ∧ d.fed bytes = d := by
  intro d bytes events
  have hreads : d.Reads bytes events d := .flatMap fun item _ => item.reads
  exact ⟨hreads, hreads.outputs_eq, hreads.fed_eq⟩

/-! ## Set 2 -/

namespace Set2

/-- The keys of a keyboard that speaks set 2. -/
inductive Key where
  /-- A key that sends its code. -/
  | base (code : UInt8) (h : 0x01 ≤ code ∧ code ≤ 0x7F)
  | f7
  /-- Print screen with alt held down, as some keyboards send it. -/
  | altPrintScreen
  /-- A key that sends E0 first. -/
  | extended (byte code : UInt8) (h : extendedCode? byte = some code)
  | pause

namespace Key

/-- The code of a key. -/
def code : Key → UInt8
  | base code _ => code
  | f7 => 0x02
  | altPrintScreen => 0x7F
  | extended _ code _ => code
  | pause => Set2.pause

/-- The bytes with which a key goes down or comes up in set 2. -/
def bytes (make : Bool) : Key → List UInt8
  | base code _ => if make then [code] else [0xF0, code]
  | f7 => if make then [0x83] else [0xF0, 0x83]
  | altPrintScreen => if make then [0x84] else [0xF0, 0x84]
  | extended byte _ _ => if make then [0xE0, byte] else [0xE0, 0xF0, byte]
  | pause => if make then [0xE1, 0x14, 0x77] else [0xE1, 0xF0, 0x14, 0xF0, 0x77]

end Key

/-- What a keyboard that speaks set 2 sends. -/
inductive Item where
  | key (key : Key) (make : Bool)
  | fakeShift (right make : Bool)

namespace Item

/-- The bytes of an item in set 2. -/
def bytes : Item → List UInt8
  | key k make => k.bytes make
  | fakeShift right make =>
    let shift := if right then 0x59 else 0x12
    if make then [0xE0, shift] else [0xE0, 0xF0, shift]

/-- What the host is told of an item: one event at most. -/
def events : Item → List Event
  | key k make => [.key ⟨k.code, make⟩]
  | fakeShift _ _ => []

end Item

/-- The bytes of a key are those of its code. -/
theorem Key.encodes (k : Key) (make : Bool) : Encodes .set2 ⟨k.code, make⟩ (k.bytes make) := by
  -- The items of set 2 are among the encodings, key by key.
  cases k with
  | base code h =>
    cases make with
    | true => exact .make (.same (.inl rfl) h)
    | false => exact .release (.same (.inl rfl) h)
  | f7 =>
    cases make with
    | true => exact .make (.f7 (.inl rfl))
    | false => exact .release (.f7 (.inl rfl))
  | altPrintScreen =>
    cases make with
    | true => exact .make (.x84 (.inl rfl))
    | false => exact .release (.x84 (.inl rfl))
  | extended byte code h =>
    cases make with
    | true => exact .extendedMake (mem_extendedCodes_iff.mpr h)
    | false => exact .extendedRelease (mem_extendedCodes_iff.mpr h)
  | pause =>
    cases make with
    | true => exact .pauseMake
    | false => exact .pauseRelease

/-- An item gives its event and leaves the decoder as it was. -/
theorem Item.reads (item : Item) :
    (Decoder.set2 .init).Reads item.bytes item.events (.set2 .init) := by
  cases item with
  | key k make => exact (k.encodes make).reads
  | fakeShift right make =>
    cases make with
    | true => cases right <;> exact .silent rfl (.silent rfl .nil)
    | false => cases right <;> exact .silent rfl (.silent rfl (.silent rfl .nil))

end Set2

/-- A new decoder of set 2 reads any number of items one after the other: no byte is unexpected,
the events are those of the items in their order, and the decoder is as it was at the start. So it
is when it is fed with them. -/
theorem set2_read_back (items : List Set2.Item) :
    let d := Decoder.set2 .init
    let bytes := items.flatMap Set2.Item.bytes
    let events := items.flatMap Set2.Item.events
    d.Reads bytes events d ∧ d.outputs bytes = events ∧ d.fed bytes = d := by
  intro d bytes events
  have hreads : d.Reads bytes events d := .flatMap fun item _ => item.reads
  exact ⟨hreads, hreads.outputs_eq, hreads.fed_eq⟩

end KeyBridge.Scan
