import Mathlib.Data.List.Chain
import KeyBridge.Proofs.Byte
import KeyBridge.Proofs.Decoder.Readings

/-!
# Streams of M0110 keys

An M0110 keyboard sends a key of its main block as one byte and a key of the keypad as two, and the
operator keys of the keypad as a shift transition with a key of the keypad behind it. A shift is
therefore a key of its own and the beginning of another one, and all blocks have the same six bits
for their keys.

A shift that is followed by a key of the keypad with the code of an operator is sent with the same
bytes as the operator key. In all other streams the decoder tells the keys apart again.

## Key results

- `Item.reads_after`: what an item gives, whichever other one it does not merge with comes before
- `Key.event_injective`: no two keys are reported the same
- `items_eq_of_keys`: keys stand for one stream of items only
- `m0110_read_back`: streams are read back, and known from their events
-/

namespace KeyBridge.Scan

namespace M0110

/-! ## Keys -/

/-- Where a key stands. -/
inductive Block where
  /-- Among the letters, with the shifts. -/
  | main
  | keypad
  /-- On the keypad, and sent with a shift. -/
  | operator
deriving DecidableEq, Repr

/-- A key that goes down or up. -/
@[ext]
structure Key where
  block : Block
  /-- The six bits of the code that the keyboard sends. -/
  code : UInt8
  code_lt : code < 0x40
  make : Bool

/-- The code in a byte is in the six bits above the lowest. -/
theorem toNat_keyCode (b : UInt8) : (keyCode b).toNat = b.toNat / 2 % 64 := by
  rw [keyCode, toNat_and_lowBits _ 6 rfl, UInt8.toNat_shiftRight]
  rfl

/-- The code in a byte has six bits. -/
theorem keyCode_lt (b : UInt8) : keyCode b < 0x40 := by
  rw [UInt8.lt_iff_toNat_lt, toNat_keyCode]
  exact Nat.mod_lt _ (by decide)

namespace Key

/-- The key of a byte. -/
def ofByte (block : Block) (b : UInt8) : Key where
  block
  code := (b >>> 1) &&& 0x3F
  code_lt := keyCode_lt b
  make := b &&& 0x80 == 0

/-- A shift. -/
def shift (make : Bool) : Key := ⟨.main, 0x38, by decide, make⟩

/-- The code by which the host knows a key. -/
def interfaceCode (k : Key) : UInt8 :=
  match k.block with
  | .main => k.code
  | .keypad => 0x40 ||| k.code
  | .operator => 0x80 ||| k.code

/-- The event of a key for the host. -/
def event (k : Key) : Event := .key ⟨k.interfaceCode, k.make⟩

end Key

/-! ## Items -/

/-- Whether a byte has the code of an operator. -/
def isOperator (b : UInt8) : Bool :=
  ([0x06, 0x0D, 0x02, 0x08] : List UInt8).contains ((b >>> 1) &&& 0x3F)

/-- What an M0110 keyboard sends. -/
inductive Item where
  /-- A key of the main block other than a shift. -/
  | plain (b : UInt8) (hodd : b &&& 1 ≠ 0) (hmark : b ≠ 0x79) (hshift : b &&& 0x7F ≠ 0x71)
  | shift (make : Bool)
  | keypad (b : UInt8) (hodd : b &&& 1 ≠ 0)
  | operator (shiftMake : Bool) (b : UInt8) (hodd : b &&& 1 ≠ 0) (hcode : isOperator b)

/-- The byte of a shift. -/
def shiftByte (make : Bool) : UInt8 := if make then 0x71 else 0xF1

namespace Item

/-- The bytes of an item. -/
def bytes : Item → List UInt8
  | plain b _ _ _ => [b]
  | shift make => [shiftByte make]
  | keypad b _ => [0x79, b]
  | operator shiftMake b _ _ => [shiftByte shiftMake, 0x79, b]

/-- The keys of an item. With an operator key, a shift is reported as well. -/
def keys : Item → List Key
  | plain b _ _ _ => [.ofByte .main b]
  | shift make => [.shift make]
  | keypad b _ => [.ofByte .keypad b]
  | operator shiftMake b _ _ => [.shift shiftMake, .ofByte .operator b]

/-- The events of an item. -/
def events (item : Item) : List Event := item.keys.map Key.event

/-- Whether two items in a row have the bytes of an operator key. -/
def merges : Item → Item → Bool
  | shift _, keypad b _ => isOperator b
  | _, _ => false

/-- What the decoder has read after an item. -/
def after : Item → State
  | shift _ => .shift
  | plain _ _ _ _ | keypad _ _ | operator _ _ _ _ => .init

end Item

/-! ## Reading items -/

section Steps

attribute [local simp] Decoder.step step begin

variable {s : State} {b : UInt8}

/-- A byte of the main block is read as its key, unless it is a mark or shift. -/
theorem step_plain (hs : s = .init ∨ s = .shift) (hodd : b &&& 1 ≠ 0) (hmark : b ≠ 0x79)
    (hshift : b &&& 0x7F ≠ 0x71) :
    (Decoder.m0110 s).step b = (.m0110 .init, .event (Key.ofByte .main b).event) := by
  have hmark' : b ≠ Command.M0110.keypadMark := hmark
  have hshift' : keyBits b ≠ Command.M0110.shiftMark := hshift
  obtain rfl | rfl := hs
  · simp [hodd, hmark', hshift']
    rfl
  · simp [hodd, hmark', hshift']
    rfl

/-- A byte of shift is read as shift, and may turn out to belong to an operator. -/
theorem step_shiftByte (hs : s = .init ∨ s = .shift) (make : Bool) :
    (Decoder.m0110 s).step (shiftByte make) = (.m0110 .shift, .event (Key.shift make).event) := by
  obtain rfl | rfl := hs <;> cases make <;> rfl

/-- After the mark of the keypad a byte is read as a key of the keypad. -/
theorem step_keypad (hodd : b &&& 1 ≠ 0) :
    (Decoder.m0110 .keypad).step b = (.m0110 .init, .event (Key.ofByte .keypad b).event) := by
  simp [hodd]
  rfl

/-- The operators are the keys in the table of them. -/
theorem mem_operators_iff : keyCode b ∈ operators ↔ isOperator b := List.contains_iff_mem.symm

/-- After shift and the mark a byte of an operator is read as that operator. -/
theorem step_operator (hodd : b &&& 1 ≠ 0) (hcode : isOperator b) :
    (Decoder.m0110 .shiftKeypad).step b =
      (.m0110 .init, .event (Key.ofByte .operator b).event) := by
  simp [hodd, shiftedKeypadCode, mem_operators_iff.mpr hcode]
  rfl

/-- A key of the keypad that is no operator is read the same after a shift. -/
theorem step_shiftKeypad (hodd : b &&& 1 ≠ 0) (hcode : ¬isOperator b) :
    (Decoder.m0110 .shiftKeypad).step b =
      (.m0110 .init, .event (Key.ofByte .keypad b).event) := by
  simp [hodd, shiftedKeypadCode, mt mem_operators_iff.mp hcode]
  rfl

end Steps

/-- What an item gives to a decoder that has read nothing of it, or a shift just before. -/
theorem Item.reads {s : State} (item : Item) (hs : s = .init ∨ s = .shift)
    (hmerge : s = .shift → ∀ make, (Item.shift make).merges item = false) :
    (Decoder.m0110 s).Reads item.bytes item.events (.m0110 item.after) := by
  cases item with
  | plain b hodd hmark hshift => exact .event (step_plain hs hodd hmark hshift) .nil
  | shift make => exact .event (step_shiftByte hs make) .nil
  -- A keypad key is told from all others by its block.
  | keypad b hodd =>
    obtain rfl | rfl := hs
    · exact .silent rfl (.event (step_keypad hodd) .nil)
    -- After shift the mark of the keypad could be that of an operator, if the key were one.
    · have hcode : ¬isOperator b := by simpa [merges] using hmerge rfl true
      exact .silent rfl (.event (step_shiftKeypad hodd hcode) .nil)
  | operator shiftMake b hodd hcode =>
    exact .event (step_shiftByte hs shiftMake)
      (.silent rfl (.event (step_operator hodd hcode) .nil))

/-- What an item gives after one that it does not merge with. -/
theorem Item.reads_after {before item : Item} (h : before.merges item = false) :
    (Decoder.m0110 before.after).Reads item.bytes item.events (.m0110 item.after) := by
  -- After an item the decoder has read nothing, or a shift.
  apply item.reads
  · cases before <;> simp [after]
  · intro hshift make
    cases before with
    | shift => cases item <;> exact h
    | _ => exact nomatch hshift

/-- Items of which none merges with the one after it. -/
def Item.Apart (items : List Item) : Prop := items.IsChain fun a b => a.merges b = false

instance (items : List Item) : Decidable (Item.Apart items) :=
  inferInstanceAs (Decidable (items.IsChain _))

/-- Items one after the other are read one after the other if none merges with the next. -/
theorem reads_chain {before : Item} {items : List Item} (h : Item.Apart (before :: items)) :
    ∃ s, (Decoder.m0110 before.after).Reads (items.flatMap Item.bytes) (items.flatMap Item.events)
      (.m0110 s) := by
  induction items generalizing before with
  | nil => exact ⟨_, .nil⟩
  | cons item items ih =>
    obtain ⟨hmerge, hrest⟩ := List.isChain_cons_cons.mp h
    obtain ⟨s, hs⟩ := ih hrest
    exact ⟨s, (Item.reads_after hmerge).append hs⟩

/-- A list of items without a merging shift is read from the initial state. -/
theorem reads_items {items : List Item} (h : Item.Apart items) :
    ∃ s, (Decoder.m0110 .init).Reads (items.flatMap Item.bytes) (items.flatMap Item.events)
      (.m0110 s) := by
  cases items with
  | nil => exact ⟨_, .nil⟩
  | cons item items =>
    obtain ⟨s, hs⟩ := reads_chain h
    exact ⟨s, (item.reads (.inl rfl) nofun).append hs⟩

/-! ## Keys and their events -/

section Codes

variable {block : Block} {b c : UInt8}

/-- The number of a block. -/
def Block.index : Block → Nat
  | main => 0
  | keypad => 1
  | operator => 2

/-- Blocks with the same number are the same. -/
theorem Block.index_injective : Function.Injective Block.index := by
  intro x y h
  cases x <;> cases y <;> first | rfl | exact nomatch h

/-- Every block has its own codes for the host. -/
theorem Key.toNat_interfaceCode (k : Key) :
    k.interfaceCode.toNat = 64 * k.block.index + k.code.toNat := by
  obtain ⟨block, code, hlt, make⟩ := k
  rw [UInt8.lt_iff_toNat_lt] at hlt
  have hbits : code.toNat < 2 ^ 6 := hlt
  cases block with
  -- The number of the block stands in the bits above the code.
  | main => simp [interfaceCode, Block.index]
  | keypad =>
    rw [interfaceCode, UInt8.toNat_or]
    exact (Nat.two_pow_add_eq_or_of_lt hbits 1).symm
  | operator =>
    rw [interfaceCode, UInt8.toNat_or]
    exact (Nat.two_pow_add_eq_or_of_lt hbits 2).symm

/-- The code for the host tells block and code of a key. -/
theorem Key.eq_of_interfaceCode {k k' : Key} (h : k.interfaceCode = k'.interfaceCode) :
    k.block = k'.block ∧ k.code = k'.code := by
  have hnat := congrArg UInt8.toNat h
  rw [toNat_interfaceCode, toNat_interfaceCode] at hnat
  have hlt := UInt8.lt_iff_toNat_lt.mp k.code_lt
  have hlt' := UInt8.lt_iff_toNat_lt.mp k'.code_lt
  simp only [UInt8.reduceToNat] at hlt hlt'
  exact ⟨Block.index_injective (by omega), UInt8.toNat_inj.mp (by omega)⟩

/-- No two keys are reported the same. -/
theorem Key.event_injective : Function.Injective Key.event := by
  intro k k' h
  injection h with hevent
  injection hevent with hcode hmake
  obtain ⟨hblock, hcode⟩ := eq_of_interfaceCode hcode
  exact Key.ext hblock hcode hmake

/-- A byte whose lowest bit is set is odd. -/
theorem toNat_mod_two_of_odd (hodd : b &&& 1 ≠ 0) : b.toNat % 2 = 1 := by
  have hbit : (b &&& 1).toNat = b.toNat % 2 := toNat_and_lowBits b 1 rfl
  have hne : (b &&& 1).toNat ≠ 0 := fun h => hodd (UInt8.toNat_inj.mp h)
  omega

/-- A byte is known from its key. -/
theorem Key.eq_of_ofByte (hb : b &&& 1 ≠ 0) (hc : c &&& 1 ≠ 0)
    (h : ofByte block b = ofByte block c) : b = c := by
  have hcode := congrArg (UInt8.toNat ∘ Key.code) h
  have hmake := congrArg Key.make h
  change (keyCode b).toNat = (keyCode c).toNat at hcode
  change (b &&& 0x80 == 0) = (c &&& 0x80 == 0) at hmake
  rw [toNat_keyCode, toNat_keyCode] at hcode
  rw [Bool.eq_iff_iff, beq_iff_eq, beq_iff_eq, and_highBit_eq_zero_iff, and_highBit_eq_zero_iff,
    UInt8.lt_iff_toNat_lt, UInt8.lt_iff_toNat_lt] at hmake
  have hb' := toNat_mod_two_of_odd hb
  have hc' := toNat_mod_two_of_odd hc
  have hb256 := b.toNat_lt
  have hc256 := c.toNat_lt
  simp only [UInt8.reduceToNat] at hmake
  -- Bit 0 is set, the code is the next six bits, and the key goes down or up by bit 7.
  exact UInt8.toNat_inj.mp (by omega)

/-- A byte of the main block that is not the one of shift is another key than shift. -/
theorem Key.ofByte_ne_shift (hodd : b &&& 1 ≠ 0) (hshift : b &&& 0x7F ≠ 0x71) (make : Bool) :
    ofByte .main b ≠ shift make := by
  intro h
  have hcode := congrArg (UInt8.toNat ∘ Key.code) h
  -- The codes would be the same, and with the lowest bit set so would the bytes.
  change (keyCode b).toNat = 56 at hcode
  rw [toNat_keyCode] at hcode
  have hb := toNat_mod_two_of_odd hodd
  have hbits : (b &&& 0x7F).toNat = b.toNat % 128 := toNat_and_lowBits b 7 rfl
  refine hshift (UInt8.toNat_inj.mp ?_)
  rw [hbits]
  change b.toNat % 128 = 113
  omega

end Codes

/-! ## Keys and their items -/

/-- A stream that does not begin with an operator, which has its shift in front. -/
def Begins (keys : List Key) : Prop := ∀ k ∈ keys.head?, k.block ≠ .operator

/-- The keys of a list of items do not begin with an operator. -/
theorem begins_items (items : List Item) : Begins (items.flatMap Item.keys) := by
  cases items with
  | nil => exact nofun
  | cons item items =>
    cases item <;> rintro _ ⟨⟩ <;> exact nofun

/-- The first keys of a stream stand for one item only. -/
theorem Item.eq_of_keys {item item' : Item} {rest rest' : List Key} (hrest : Begins rest)
    (hrest' : Begins rest') (h : item.keys ++ rest = item'.keys ++ rest') :
    item = item' ∧ rest = rest' := by
  cases item with
  | plain b hodd hmark hshift =>
    cases item' with
    | plain c hodd' hmark' hshift' =>
      obtain ⟨hkey, htail⟩ := List.cons.inj h
      cases Key.eq_of_ofByte hodd hodd' hkey
      exact ⟨rfl, htail⟩
    | shift | operator => exact absurd (List.cons.inj h).1 (Key.ofByte_ne_shift hodd hshift _)
    | keypad => exact nomatch congrArg Key.block (List.cons.inj h).1
  | shift make =>
    cases item' with
    | plain c hodd' hmark' hshift' =>
      exact absurd (List.cons.inj h).1.symm (Key.ofByte_ne_shift hodd' hshift' _)
    | shift make' =>
      obtain ⟨hkey, htail⟩ := List.cons.inj h
      cases congrArg Key.make hkey
      exact ⟨rfl, htail⟩
    | keypad => exact nomatch congrArg Key.block (List.cons.inj h).1
    -- The shift of an operator has the operator behind it, this one has not.
    | operator =>
      obtain rfl := (List.cons.inj h).2
      exact absurd rfl (hrest _ rfl)
  | keypad b hodd =>
    cases item' with
    | keypad c hodd' =>
      obtain ⟨hkey, htail⟩ := List.cons.inj h
      cases Key.eq_of_ofByte hodd hodd' hkey
      exact ⟨rfl, htail⟩
    | _ => exact nomatch congrArg Key.block (List.cons.inj h).1
  | operator make b hodd hcode =>
    cases item' with
    | plain c hodd' hmark' hshift' =>
      exact absurd (List.cons.inj h).1.symm (Key.ofByte_ne_shift hodd' hshift' _)
    | shift =>
      obtain rfl := (List.cons.inj h).2
      exact absurd rfl (hrest' _ rfl)
    | keypad => exact nomatch congrArg Key.block (List.cons.inj h).1
    | operator make' c hodd' hcode' =>
      obtain ⟨hshift, hmore⟩ := List.cons.inj h
      obtain ⟨hkey, htail⟩ := List.cons.inj hmore
      cases congrArg Key.make hshift
      cases Key.eq_of_ofByte hodd hodd' hkey
      exact ⟨rfl, htail⟩

/-- Keys stand for one stream of items only. -/
theorem items_eq_of_keys {items items' : List Item}
    (h : items.flatMap Item.keys = items'.flatMap Item.keys) : items = items' := by
  -- Every item has a key, so that streams with the same keys end together.
  have hne : ∀ (item : Item) (rest : List Key), item.keys ++ rest ≠ [] := by
    rintro (_ | _ | _ | _) rest <;> exact List.cons_ne_nil _ _
  induction items generalizing items' with
  | nil =>
    cases items' with
    | nil => rfl
    | cons item' items' => exact absurd h.symm (hne _ _)
  | cons item items ih =>
    cases items' with
    | nil => exact absurd h (hne _ _)
    | cons item' items' =>
      obtain ⟨rfl, hrest⟩ := Item.eq_of_keys (begins_items items) (begins_items items') h
      rw [ih hrest]

/-- The events of items are those of their keys. -/
theorem flatMap_events (items : List Item) :
    items.flatMap Item.events = (items.flatMap Item.keys).map Key.event :=
  List.map_flatMap.symm

end M0110

/-- A new decoder of an M0110 keyboard reads any number of items one after the other, if no shift is
followed by a key of the keypad that it would make an operator: no byte is unexpected, and the
events are those of the items in their order. Streams with the same events have the same keys in
the same blocks, and so the same items, as no two blocks share a code for the host. -/
theorem m0110_read_back (items : List M0110.Item) (h : M0110.Item.Apart items) :
    let d := Decoder.m0110 .init
    let bytes := items.flatMap M0110.Item.bytes
    (∃ d', d.Reads bytes (items.flatMap M0110.Item.events) d') ∧
    d.outputs bytes = items.flatMap M0110.Item.events ∧
    (∀ items' : List M0110.Item, M0110.Item.Apart items' →
      d.outputs (items'.flatMap M0110.Item.bytes) = d.outputs bytes →
      items'.flatMap M0110.Item.keys = items.flatMap M0110.Item.keys ∧ items' = items) ∧
    ∀ k k' : M0110.Key, k.interfaceCode = k'.interfaceCode → k.block = k'.block := by
  intro d bytes
  obtain ⟨s, hreads⟩ := M0110.reads_items h
  refine ⟨⟨_, hreads⟩, hreads.outputs_eq, fun items' h' heq => ?_, fun k k' hcode =>
    (M0110.Key.eq_of_interfaceCode hcode).1⟩
  -- Other items with the same events have the same keys, from which the items can be told.
  obtain ⟨s', hreads'⟩ := M0110.reads_items h'
  rw [hreads.outputs_eq, hreads'.outputs_eq, M0110.flatMap_events, M0110.flatMap_events] at heq
  have hkeys := List.map_injective_iff.mpr M0110.Key.event_injective heq
  exact ⟨hkeys, M0110.items_eq_of_keys hkeys⟩

/-- A shift stands before a key, before a key of the keypad, and before an operator as a part of it;
at the end, the keypad has a key with the code of an operator, and no shift before it. -/
theorem m0110_read_back_shifts :
    let items : List M0110.Item :=
      [.shift true, .plain 0x81 (by decide) (by decide) (by decide), .shift false,
        .keypad 0x5D (by decide), .operator true 0x05 (by decide) (by decide),
        .keypad 0x85 (by decide)]
    M0110.Item.Apart items ∧
      (Decoder.m0110 .init).outputs (items.flatMap M0110.Item.bytes) =
        [.press 0x38, .release 0x00, .release 0x38, .press 0x6E, .press 0x38, .press 0x82,
          .release 0x42] := by
  intro items
  have hapart : M0110.Item.Apart items := by decide
  exact ⟨hapart, (m0110_read_back items hapart).2.1⟩

/-- The bytes of an operator are those of a shift and a key of the keypad. -/
example : M0110.Item.bytes (.operator true 0x05 (by decide) (by decide)) =
    M0110.Item.bytes (.shift true) ++ M0110.Item.bytes (.keypad 0x05 (by decide)) := rfl

end KeyBridge.Scan
