import KeyBridge.Proofs.Decoder.Errors
import KeyBridge.Proofs.Decoder.Items

/-!
# Back in step after two keys

A decoder that has taken in anything at all can be in the middle of a sequence when the next key
comes, and takes some of its bytes for the rest of that sequence. In sets 1 and 2 it is back in step
after two keys at the latest, whatever they are.

Both sets put their sequences together in the same way: a key is some marks and then a byte of its
own, and the pause key has a sequence of its own that begins with E1 (all codes here are
hexadecimal). Only what can follow E1 is hard. From a state that is not right behind it, the
*settled* ones, each key leads back to the initial state; and from any state at all each key leads
to a settled one. The pause key leads back from everywhere, as its E1 fits in nowhere else.

## Main definitions

- `Layout`, `Layout.Sequence`: the sequences of a code set
- `Settles`: what the states and the sequences of a code set have to do with each other
- `Set1.Burst`, `Set2.Burst`: what a keyboard sends, keys that have no code among it
- `CatchesUp`: a decoder goes on like a fresh one after some bytes

## Key results

- `Settles.after_of_settled`, `Settles.settled_after`: one key, from a settled state and from any
- `Set1.settles`, `Set2.settles`: so it is in both sets
- `back_in_step`: the state and the events after two keys
-/

namespace KeyBridge

open Scan

namespace Scan

/-! ## Sequences and settled states -/

/-- The sequences of a code set. -/
structure Layout where
  /-- The bytes that can come before the byte of a key. -/
  marks : List UInt8
  /-- The sequences of the pause key, which begin with E1. -/
  pauses : List (List UInt8)
  /-- Nothing below 80 is a mark. -/
  not_lt : ∀ m ∈ marks, ¬ m < (0x80 : UInt8)

/-- A byte below 128 is neither a mark nor the start of Pause. -/
theorem Layout.not_mark_of_lt (l : Layout) {byte : UInt8} (h : byte < 0x80) :
    byte ∉ 0xE1 :: l.marks := by
  intro hmem
  obtain rfl | hmem := List.mem_cons.mp hmem
  · exact absurd h (by decide)
  · exact l.not_lt byte hmem h

/-- The bytes of one key that goes down or up: marks and a byte that is none, or pause. -/
inductive Layout.Sequence (l : Layout) : List UInt8 → Prop where
  | key (marks : List UInt8) {byte : UInt8} (hmarks : ∀ m ∈ marks, m ∈ l.marks)
      (hbyte : byte ∉ 0xE1 :: l.marks) : Sequence l (marks ++ [byte])
  | pause {bytes : List UInt8} (h : bytes ∈ l.pauses) : Sequence l bytes

/-- The states of a decoder, of which some are settled, and what the bytes of its code set make of
them. -/
structure Settles {σ : Type} (next : σ → UInt8 → σ) (init : σ) (settled : σ → Prop) (l : Layout) :
    Prop where
  settled_init : settled init
  mark : ∀ {s m}, settled s → m ∈ l.marks → settled (next s m)
  key : ∀ {s byte}, settled s → byte ∉ 0xE1 :: l.marks → next s byte = init
  /-- Right behind E1, the byte of a key can be taken for that of pause. -/
  key_any : ∀ s {byte}, byte ∉ 0xE1 :: l.marks → settled (next s byte)
  pause_any : ∀ s, ∀ bytes ∈ l.pauses, bytes.foldl next s = init

namespace Settles

variable {σ : Type} {next : σ → UInt8 → σ} {init : σ} {settled : σ → Prop} {l : Layout}
  {bytes bytes' : List UInt8} {s : σ}

/-- Marks keep a decoder settled. -/
theorem settled_marks (h : Settles next init settled l) (hs : settled s) {marks : List UInt8}
    (hmarks : ∀ m ∈ marks, m ∈ l.marks) : settled (marks.foldl next s) := by
  induction marks generalizing s with
  | nil => exact hs
  | cons m marks ih =>
    obtain ⟨hm, hmarks⟩ := List.forall_mem_cons.mp hmarks
    exact ih (h.mark hs hm) hmarks

/-- From a settled state, a key leads to the initial one. -/
theorem after_of_settled (h : Settles next init settled l) (hs : settled s)
    (hbytes : l.Sequence bytes) : bytes.foldl next s = init := by
  cases hbytes with
  | key marks hmarks hbyte =>
    rw [List.foldl_append]
    exact h.key (h.settled_marks hs hmarks) hbyte
  | pause hpause => exact h.pause_any s _ hpause

/-- From any state, a key leads to a settled one. -/
theorem settled_after (h : Settles next init settled l) (s : σ) (hbytes : l.Sequence bytes) :
    settled (bytes.foldl next s) := by
  cases hbytes with
  | key marks hmarks hbyte =>
    -- Whatever the marks are taken for, the byte behind them is no E1.
    rw [List.foldl_append]
    exact h.key_any _ hbyte
  | pause hpause =>
    rw [h.pause_any s _ hpause]
    exact h.settled_init

/-- From any state, two keys lead to the initial one. -/
theorem after_two (h : Settles next init settled l) (s : σ) (hbytes : l.Sequence bytes)
    (hbytes' : l.Sequence bytes') : (bytes ++ bytes').foldl next s = init := by
  rw [List.foldl_append]
  exact h.after_of_settled (h.settled_after s hbytes) hbytes'

/-- From the initial state, any number of keys lead back to it. -/
theorem after_all (h : Settles next init settled l) {keys : List (List UInt8)}
    (hkeys : ∀ key ∈ keys, l.Sequence key) : keys.flatten.foldl next init = init := by
  induction keys with
  | nil => rfl
  | cons key keys ih =>
    obtain ⟨hkey, hkeys⟩ := List.forall_mem_cons.mp hkeys
    rw [List.flatten_cons, List.foldl_append, h.after_of_settled h.settled_init hkey]
    exact ih hkeys

end Settles

/-! ## Set 1 -/

namespace Set1

/-- What a keyboard that speaks set 1 sends for a key, with or without a code. -/
inductive Burst where
  | item (item : Item)
  /-- A key that sends E0 first and that nothing is known of. The bytes left out become E0, E1, F1
  and F2 with the release bit. -/
  | unknown (byte : UInt8) (h : byte < 0x80) (hfree : byte ∉ [0x60, 0x61, 0x71, 0x72])
      (make : Bool)

/-- The bytes of a burst in set 1. -/
def Burst.bytes : Burst → List UInt8
  | item i => i.bytes
  | unknown byte _ _ make => [0xE0, if make then byte else byte ||| releaseBit]

/-- The layout of set 1: one mark, and two ways in which Pause goes on. -/
def layout : Layout where
  marks := [0xE0]
  pauses := [[0xE1, 0x1D, 0x45], [0xE1, 0x9D, 0xC5]]
  not_lt := forall_mem_of_all (by decide)

/-- How the decoder of set 1 settles: marks and keys bring it back to its initial state, unless it
is within Pause. -/
theorem settles : Settles (fun s b => (step s b).1) .init (· ≠ .afterE1) layout where
  settled_init := by decide
  mark {s m} _ hm := by
    obtain rfl : m = 0xE0 := List.mem_singleton.mp hm
    cases s <;> decide
  key {s byte} hs hbyte := by
    simp only [layout, List.mem_cons, List.not_mem_nil, or_false, not_or] at hbyte
    cases s with
    | init =>
      simp only [step, hbyte, if_false]
      repeat' split
      all_goals rfl
    | afterE0 => rfl
    | afterE1 => exact absurd rfl hs
    | afterE1x1D | afterE1x9D => simp only [step]; split <;> rfl
  key_any s {byte} hbyte := by
    simp only [layout, List.mem_cons, List.not_mem_nil, or_false, not_or] at hbyte
    cases s <;> simp only [step, hbyte, if_false] <;> repeat' split
    all_goals simp
  -- Pause is read in any state: what is wrong at its start is made up for at its end.
  pause_any s bytes hbytes := by
    simp only [layout, List.mem_cons, List.not_mem_nil, or_false] at hbytes
    obtain rfl | rfl := hbytes <;> cases s <;> rfl

/-- The bytes left out are those that become E0 and E1, and two more. -/
theorem not_mark_of_free {byte : UInt8} (h : byte < 0x80)
    (hfree : byte ∉ [0x60, 0x61, 0x71, 0x72]) : byte ||| releaseBit ∉ 0xE1 :: layout.marks := by
  intro hmem
  have hmarks : ∀ b ∈ [0xE1, 0xE0], keyBits b ∈ [0x60, 0x61, 0x71, 0x72] :=
    forall_mem_of_all (by decide)
  have hbyte := hmarks _ hmem
  rw [keyBits_release, keyBits_of_lt h] at hbyte
  exact hfree hbyte

/-- None of the bytes left out has a code. -/
theorem free_of_extendedCode {byte code : UInt8} (h : extendedCode? byte = some code) :
    byte ∉ [0x60, 0x61, 0x71, 0x72] := by
  intro hmem
  have hnone : ∀ b ∈ [0x60, 0x61, 0x71, 0x72], extendedCode? b = none :=
    forall_mem_of_all (by decide)
  rw [hnone byte hmem] at h
  exact nomatch h

/-- A byte behind E0, when the key goes down or up. -/
theorem sequence_afterE0 {byte : UInt8} (h : byte < 0x80)
    (hfree : byte ∉ [0x60, 0x61, 0x71, 0x72]) (make : Bool) :
    layout.Sequence [0xE0, if make then byte else byte ||| releaseBit] := by
  refine .key [0xE0] (fun _ hm => hm) ?_
  cases make with
  | true => exact layout.not_mark_of_lt h
  | false => exact not_mark_of_free h hfree

/-- The bytes of an item of set 1 are marks and a key, or Pause. -/
theorem Item.sequence (item : Item) : layout.Sequence item.bytes := by
  -- Most items are a single byte without a mark.
  have hnil : ∀ m ∈ [], m ∈ layout.marks := fun _ hm => nomatch hm
  cases item with
  | press code h =>
    exact .key [] hnil (layout.not_mark_of_lt (UInt8.lt_of_le_of_lt h.2 (by decide)))
  | release code h hfree =>
    exact .key [] hnil (not_mark_of_free (UInt8.lt_of_le_of_lt h.2 (by decide)) hfree)
  | extended byte code hbyte h make =>
    exact sequence_afterE0 hbyte (free_of_extendedCode h) make
  | pause make => cases make <;> exact .pause (by decide)
  | hanja | hangul => exact .key [] hnil (by decide)
  | fakeShift right make =>
    cases right <;> exact sequence_afterE0 (by decide) (by decide) make

/-- The bytes of a burst of set 1 are marks and a key, or Pause. -/
theorem Burst.sequence (burst : Burst) : layout.Sequence burst.bytes := by
  cases burst with
  | item i => exact i.sequence
  | unknown byte h hfree make => exact sequence_afterE0 h hfree make

end Set1

/-! ## Set 2 -/

namespace Set2

/-- What a keyboard that speaks set 2 sends for a key, with or without a code. -/
inductive Burst where
  | item (item : Item)
  /-- A key that sends E0 first and that nothing is known of. -/
  | unknown (byte : UInt8) (h : byte < 0x80) (make : Bool)

/-- The bytes of a burst in set 2. -/
def Burst.bytes : Burst → List UInt8
  | item i => i.bytes
  | unknown byte _ make => if make then [0xE0, byte] else [0xE0, 0xF0, byte]

/-- The layout of set 2: two marks, and two ways in which Pause goes on. -/
def layout : Layout where
  marks := [0xE0, 0xF0]
  pauses := [[0xE1, 0x14, 0x77], [0xE1, 0xF0, 0x14, 0xF0, 0x77]]
  not_lt := forall_mem_of_all (by decide)

/-- How the decoder of set 2 settles: marks and keys bring it back to its initial state, unless it
is within Pause. -/
theorem settles :
    Settles (fun s b => (step s b).1) .init (fun s => s ≠ .afterE1 ∧ s ≠ .afterE1xF0) layout where
  settled_init := by decide
  mark {s m} hs hm := by
    simp only [layout, List.mem_cons, List.not_mem_nil, or_false] at hm
    cases s with
    | afterE1 => exact absurd rfl hs.1
    | _ => obtain rfl | rfl := hm <;> decide
  key {s byte} hs hbyte := by
    simp only [layout, List.mem_cons, List.not_mem_nil, or_false, not_or] at hbyte
    cases s with
    | init => simp only [step, hbyte, if_false]
    | afterF0 => simp only [step]; split <;> rfl
    | afterE0 => simp only [step, hbyte, if_false]
    | afterE0xF0 => rfl
    | afterE1 => exact absurd rfl hs.1
    | afterE1xF0 => exact absurd rfl hs.2
    | afterE1x14 | afterE1xF0x14xF0 => simp only [step, expect]; split <;> rfl
    | afterE1xF0x14 => simp only [step, expect, hbyte, if_false]
  key_any s {byte} hbyte := by
    simp only [layout, List.mem_cons, List.not_mem_nil, or_false, not_or] at hbyte
    cases s <;> simp only [step, expect, hbyte, if_false] <;> repeat' split
    all_goals simp
  -- Pause is read in any state: what is wrong at its start is made up for at its end.
  pause_any s bytes hbytes := by
    simp only [layout, List.mem_cons, List.not_mem_nil, or_false] at hbytes
    obtain rfl | rfl := hbytes <;> cases s <;> rfl

/-- The byte of an extended key is neither a mark nor the start of Pause. -/
theorem not_mark_of_extendedCode {byte code : UInt8} (h : extendedCode? byte = some code) :
    byte ∉ 0xE1 :: layout.marks := by
  intro hmem
  have hnone : ∀ b ∈ [0xE1, 0xE0, 0xF0], extendedCode? b = none := forall_mem_of_all (by decide)
  rw [hnone byte hmem] at h
  exact nomatch h

/-- A byte that stands alone or behind F0. -/
theorem sequence_base {byte : UInt8} (h : byte ∉ 0xE1 :: layout.marks) (make : Bool) :
    layout.Sequence (if make then [byte] else [0xF0, byte]) := by
  cases make with
  | true => exact .key [] (fun _ hm => nomatch hm) h
  | false => exact .key [0xF0] (forall_mem_of_all (by decide)) h

/-- A byte behind E0, with F0 or without. -/
theorem sequence_afterE0 {byte : UInt8} (h : byte ∉ 0xE1 :: layout.marks) (make : Bool) :
    layout.Sequence (if make then [0xE0, byte] else [0xE0, 0xF0, byte]) := by
  cases make with
  | true => exact .key [0xE0] (forall_mem_of_all (by decide)) h
  | false => exact .key [0xE0, 0xF0] (forall_mem_of_all (by decide)) h

/-- The bytes of a key of set 2 are marks and a key, or Pause. -/
theorem Key.sequence (key : Key) (make : Bool) : layout.Sequence (key.bytes make) := by
  cases key with
  | base code h =>
    have hlt : code < 0x80 := UInt8.lt_of_le_of_lt h.2 (by decide)
    exact sequence_base (layout.not_mark_of_lt hlt) make
  | f7 | altPrintScreen => exact sequence_base (by decide) make
  | extended byte code h => exact sequence_afterE0 (not_mark_of_extendedCode h) make
  | pause => cases make <;> exact .pause (by decide)

/-- The bytes of a burst of set 2 are marks and a key, or Pause. -/
theorem Burst.sequence (burst : Burst) : layout.Sequence burst.bytes := by
  cases burst with
  | item i =>
    cases i with
    | key key make => exact key.sequence make
    | fakeShift right make => cases right <;> exact sequence_afterE0 (by decide) make
  | unknown byte h make => exact sequence_afterE0 (layout.not_mark_of_lt h) make

end Set2

end Scan

/-! ## Decoders -/

namespace Decoder

variable {d d' : Decoder}

/-- A keyboard's decoder is like no other one. -/
theorem Alike.eq_of_not_isMouse (h : d.Alike d') (hd' : d'.isMouse = false) : d = d' := by
  cases h with
  | refl => rfl
  | mouse => exact nomatch hd'

/-- A byte gives one event at most. -/
theorem length_outputs_le (d : Decoder) (bytes : List UInt8) :
    (d.outputs bytes).length ≤ bytes.length := by
  induction bytes generalizing d with
  | nil => exact Nat.le_refl 0
  | cons b bytes ih =>
    have hrest := ih (d.feed b).1
    have hone : (d.feed b).2.toList.length ≤ 1 := Option.length_toList_le
    rw [outputs, List.length_append, List.length_cons]
    omega

/-- A decoder that is fed with the bytes of `start` is like a fresh one after that, for those of
`later` as well. -/
structure CatchesUp (d fresh : Decoder) (start later : List UInt8) : Prop where
  fed_start : d.fed start = fresh
  fed_later : d.fed (start ++ later) = fresh
  outputs_later : d.outputs (start ++ later) = d.outputs start ++ fresh.outputs later
  /-- What `start` gives may be wrong, but is not more than an event for each byte. -/
  outputs_start : (d.outputs start).length ≤ start.length

/-- A decoder has caught up once it is fed into the initial state, where later bursts leave it. -/
theorem CatchesUp.of_fed {start later : List UInt8} (hstart : d.fed start = d')
    (hlater : d'.fed later = d') : d.CatchesUp d' start later where
  fed_start := hstart
  fed_later := by rw [fed_append, hstart, hlater]
  outputs_later := by rw [outputs_append, hstart]
  outputs_start := d.length_outputs_le start

section Settles

variable {σ : Type} {next : σ → UInt8 → σ} {init : σ} {settled : σ → Prop} {l : Layout}

/-- A decoder that is nothing but a state takes in bytes as the state does. -/
theorem fed_wrap {wrap : σ → Decoder} (hkeyboard : ∀ s, (wrap s).isMouse = false)
    (hstep : ∀ s b, ((wrap s).step b).1 = wrap (next s b)) (s : σ) (bytes : List UInt8) :
    (wrap s).fed bytes = wrap (bytes.foldl next s) := by
  have hstepped : (wrap s).stepped bytes = wrap (bytes.foldl next s) := by
    induction bytes generalizing s with
    | nil => rfl
    | cons b bytes ih => rw [stepped, hstep, ih, List.foldl_cons]
  -- Feeding differs from the steps in what a mouse has left, and in nothing else.
  have hlike := (Alike.refl (wrap s)).fed bytes
  rw [hstepped] at hlike
  exact hlike.eq_of_not_isMouse (hkeyboard _)

/-- From any state, two keys are enough. -/
theorem CatchesUp.of_settles (wrap : σ → Decoder) (h : Settles next init settled l)
    (hkeyboard : ∀ s, (wrap s).isMouse = false)
    (hstep : ∀ s b, ((wrap s).step b).1 = wrap (next s b)) (s : σ) {first second : List UInt8}
    (hfirst : l.Sequence first) (hsecond : l.Sequence second) {rest : List (List UInt8)}
    (hrest : ∀ key ∈ rest, l.Sequence key) :
    (wrap s).CatchesUp (wrap init) (first ++ second) rest.flatten := by
  have hstart : (wrap s).fed (first ++ second) = wrap init := by
    rw [fed_wrap hkeyboard hstep, h.after_two s hfirst hsecond]
  have hlater : (wrap init).fed rest.flatten = wrap init := by
    rw [fed_wrap hkeyboard hstep, h.after_all hrest]
  exact .of_fed hstart hlater

end Settles

end Decoder

/-- The decoders of set 1 and set 2 are back in step after two keys. Whatever state the decoder is
in, and whatever two keys go down or up, it is in its initial state after them, and so it is after
all keys that follow. These give just the events that they give with a new decoder. -/
theorem back_in_step :
    (∀ (s : Set1.State) (first second : Set1.Burst) (rest : List Set1.Burst),
      (Decoder.set1 s).CatchesUp (.set1 .init) (first.bytes ++ second.bytes)
        (rest.flatMap Set1.Burst.bytes)) ∧
    (∀ (s : Set2.State) (first second : Set2.Burst) (rest : List Set2.Burst),
      (Decoder.set2 s).CatchesUp (.set2 .init) (first.bytes ++ second.bytes)
        (rest.flatMap Set2.Burst.bytes)) := by
  refine ⟨fun s first second rest => ?_, fun s first second rest => ?_⟩
  · have hrest : ∀ key ∈ rest.map Set1.Burst.bytes, Set1.layout.Sequence key :=
      List.forall_mem_map.mpr fun burst _ => burst.sequence
    rw [List.flatMap_def]
    exact .of_settles Decoder.set1 Set1.settles (fun _ => rfl) (fun _ _ => rfl) s
      first.sequence second.sequence hrest
  · have hrest : ∀ key ∈ rest.map Set2.Burst.bytes, Set2.layout.Sequence key :=
      List.forall_mem_map.mpr fun burst _ => burst.sequence
    rw [List.flatMap_def]
    exact .of_settles Decoder.set2 Set2.settles (fun _ => rfl) (fun _ _ => rfl) s
      first.sequence second.sequence hrest

/-- One key is not enough: behind E1, left control is taken for the start of the pause key. -/
example : (Decoder.set2 .afterE1).fed [0x14] ≠ .set2 .init := by decide

end KeyBridge
