import KeyBridge.Proofs.Decoder.Readings
import KeyBridge.Proofs.List

/-!
# Keys on the wire

How keyboards that speak scan code set 2 or 3 send that a key goes down or up, and that the decoder
of the set reads it back. The bytes and the codes are written out here once more, apart from the
tables of the decoders.

## Main definitions

- `Names`, `extendedCodes`: the bytes that name keys, with the codes that the host is told
- `Encodes`: the bytes that tell of a key going down or up

## Key results

- `names_set2_iff`, `names_set3_iff`, `mem_extendedCodes_iff`: these are the keys of the decoders
- `Encodes.reads`: the bytes of a key give its event, and nothing of them is left behind
- `outputs_flatten`: so do the bytes of any number of keys, one after the other
- `Encodes.passes`: none of the bytes means anything to the session
-/

namespace KeyBridge

open Scan

/-! ## Codes -/

/-- A byte of set 2 or 3 that names a key alone or after F0, with the code that the host is told. -/
inductive Names : CodeSet → UInt8 → UInt8 → Prop where
  /-- Most keys have a byte that the host is told as it is. -/
  | same {s : CodeSet} (hs : s = .set2 ∨ s = .set3) {c : UInt8} (h : 0x01 ≤ c ∧ c ≤ 0x7F) :
      Names s c c
  | f7 {s : CodeSet} (hs : s = .set2 ∨ s = .set3) : Names s 0x83 0x02
  /-- Print screen with alt in set 2, minus of the keypad in set 3. -/
  | x84 {s : CodeSet} (hs : s = .set2 ∨ s = .set3) : Names s 0x84 0x7F
  | f13 : Names .set3 0x85 0x68

/-- The bytes that name a key of set 2 after E0, with the codes that the host is told. -/
def extendedCodes : List (UInt8 × UInt8) :=
  [(0x11, 0x0F), (0x14, 0x17), (0x1F, 0x19), (0x21, 0x65), (0x23, 0x6F), (0x27, 0x1F),
    (0x2F, 0x5C), (0x32, 0x6E), (0x4A, 0x60), (0x5A, 0x62), (0x69, 0x27), (0x6B, 0x53),
    (0x6C, 0x2F), (0x70, 0x39), (0x71, 0x37), (0x72, 0x3F), (0x74, 0x47), (0x75, 0x4F),
    (0x7A, 0x56), (0x7C, 0x7F), (0x7D, 0x5E), (0x7E, 0x80)]

/-- The bytes that tell of a key going down or up. -/
inductive Encodes : CodeSet → KeyEvent → List UInt8 → Prop where
  | make {s : CodeSet} {c code : UInt8} (h : Names s c code) : Encodes s ⟨code, true⟩ [c]
  | release {s : CodeSet} {c code : UInt8} (h : Names s c code) :
      Encodes s ⟨code, false⟩ [0xF0, c]
  | extendedMake {c code : UInt8} (h : (c, code) ∈ extendedCodes) :
      Encodes .set2 ⟨code, true⟩ [0xE0, c]
  | extendedRelease {c code : UInt8} (h : (c, code) ∈ extendedCodes) :
      Encodes .set2 ⟨code, false⟩ [0xE0, 0xF0, c]
  | pauseMake : Encodes .set2 ⟨0x80, true⟩ [0xE1, 0x14, 0x77]
  | pauseRelease : Encodes .set2 ⟨0x80, false⟩ [0xE1, 0xF0, 0x14, 0xF0, 0x77]

/-- The decoder of set 2 knows just these bytes. -/
theorem names_set2_iff {c code : UInt8} : Names .set2 c code ↔ Set2.baseCode? c = some code := by
  constructor
  · intro h
    cases h with
    | same hs h =>
      -- The two keys outside the range have their own codes, which come first.
      have hne : c ≠ 0x83 ∧ c ≠ 0x84 := by
        constructor <;> rintro rfl <;> exact absurd h.2 (by decide)
      rw [Set2.baseCode?, if_neg hne.1, if_neg hne.2, if_pos h]
    | f7 | x84 => rfl
  · intro h
    unfold Set2.baseCode? at h
    split at h
    · next hc =>
      cases h
      exact hc ▸ .f7 (.inl rfl)
    · split at h
      · next hc =>
        cases h
        exact hc ▸ .x84 (.inl rfl)
      · split at h
        · next hrange =>
          cases h
          exact .same (.inl rfl) hrange
        · exact nomatch h

/-- The decoder of set 3 knows just these bytes. -/
theorem names_set3_iff {c code : UInt8} : Names .set3 c code ↔ Set3.code? c = some code := by
  constructor
  · intro h
    cases h with
    | same hs h =>
      -- The three keys outside the range have their own codes, which come first.
      have hne : c ≠ 0x83 ∧ c ≠ 0x84 ∧ c ≠ 0x85 := by
        refine ⟨?_, ?_, ?_⟩ <;> rintro rfl <;> exact absurd h.2 (by decide)
      rw [Set3.code?, if_neg hne.1, if_neg hne.2.1, if_neg hne.2.2, if_pos h]
    | f7 | x84 | f13 => rfl
  · intro h
    unfold Set3.code? at h
    split at h
    · next hc =>
      cases h
      exact hc ▸ .f7 (.inr rfl)
    · split at h
      · next hc =>
        cases h
        exact hc ▸ .x84 (.inr rfl)
      · split at h
        · next hc =>
          cases h
          exact hc ▸ .f13
        · split at h
          · next hrange =>
            cases h
            exact .same (.inr rfl) hrange
          · exact nomatch h

/-- The decoder of set 2 knows just these extended keys. -/
theorem mem_extendedCodes_iff {c code : UInt8} :
    (c, code) ∈ extendedCodes ↔ Set2.extendedCode? c = some code := by
  constructor
  · have hall : ∀ p ∈ extendedCodes, Set2.extendedCode? p.1 = some p.2 :=
      forall_mem_of_all (by decide)
    exact hall (c, code)
  · intro h
    have hall : ∀ p ∈ Set2.extendedKeys, p ∈ extendedCodes := forall_mem_of_all (by decide)
    obtain ⟨l, r, hkeys, -⟩ := List.lookup_eq_some_iff.mp h
    exact hall (c, code) (hkeys ▸ by simp)

/-- The prefixes name no keys. -/
theorem Names.ne {s : CodeSet} {c code : UInt8} (h : Names s c code) :
    c ≠ 0xE0 ∧ c ≠ 0xE1 ∧ c ≠ 0xF0 := by
  cases h with
  | same hs h => refine ⟨?_, ?_, ?_⟩ <;> rintro rfl <;> exact absurd h.2 (by decide)
  | f7 | x84 | f13 => decide

/-- The bytes of extended keys have no release bit, and are none of the shifts. -/
theorem lt_of_mem_extendedCodes {c code : UInt8} (h : (c, code) ∈ extendedCodes) :
    c < 0x80 ∧ Set2.isFakeShift c = false := by
  have hall : ∀ p ∈ extendedCodes, p.1 < 0x80 ∧ Set2.isFakeShift p.1 = false :=
    forall_mem_of_all (by decide)
  exact hall (c, code) h

/-! ## Decoding -/

section Steps

attribute [local simp] Decoder.step Reading.key? Reading.key

/-- A byte of set 2 that names a key tells that it goes down. -/
theorem step_base {c code : UInt8} (h : Names .set2 c code) :
    (Decoder.set2 .init).step c = (.set2 .init, .event (.key ⟨code, true⟩)) := by
  obtain ⟨hE0, hE1, hF0⟩ := h.ne
  simp [Set2.step, hE0, hE1, hF0, names_set2_iff.mp h]

/-- After F0 it tells that the key comes up. -/
theorem step_afterF0 {c code : UInt8} (h : Names .set2 c code) :
    (Decoder.set2 .afterF0).step c = (.set2 .init, .event (.key ⟨code, false⟩)) := by
  simp [Set2.step, names_set2_iff.mp h]

/-- The byte that names an extended key. -/
theorem extended_of_mem {c code : UInt8} (h : (c, code) ∈ extendedCodes) (make : Bool) :
    Set2.extended c make = .event (.key ⟨code, make⟩) := by
  obtain ⟨hlt, hshift⟩ := lt_of_mem_extendedCodes h
  simp [Set2.extended, hshift, UInt8.not_le.mpr hlt, mem_extendedCodes_iff.mp h]

/-- After E0 it tells that the key goes down. -/
theorem step_afterE0 {c code : UInt8} (h : (c, code) ∈ extendedCodes) :
    (Decoder.set2 .afterE0).step c = (.set2 .init, .event (.key ⟨code, true⟩)) := by
  have hF0 : c ≠ 0xF0 := by
    rintro rfl
    exact absurd (lt_of_mem_extendedCodes h).1 (by decide)
  simp [Set2.step, hF0, extended_of_mem h]

/-- After E0 and F0 it tells that the key comes up. -/
theorem step_afterE0xF0 {c code : UInt8} (h : (c, code) ∈ extendedCodes) :
    (Decoder.set2 .afterE0xF0).step c = (.set2 .init, .event (.key ⟨code, false⟩)) := by
  simp [Set2.step, extended_of_mem h]

/-- A byte of set 3 that names a key tells that it goes down. -/
theorem step_set3 {c code : UInt8} (h : Names .set3 c code) :
    (Decoder.set3 .init).step c = (.set3 .init, .event (.key ⟨code, true⟩)) := by
  simp [Set3.step, h.ne.2.2, names_set3_iff.mp h]

/-- After F0 it tells that the key comes up. -/
theorem step_set3_afterF0 {c code : UInt8} (h : Names .set3 c code) :
    (Decoder.set3 .afterF0).step c = (.set3 .init, .event (.key ⟨code, false⟩)) := by
  simp [Set3.step, names_set3_iff.mp h]

end Steps

/-- No byte names a key of set 1 here. -/
theorem not_names_set1 {c code : UInt8} : ¬ Names .set1 c code := by
  intro h
  cases h with
  | same hs | f7 hs | x84 hs => rcases hs with hs | hs <;> exact nomatch hs

/-- The bytes of a key give its event, and nothing of them is left behind. -/
theorem Encodes.reads {s : CodeSet} {e : KeyEvent} {bytes : List UInt8} (h : Encodes s e bytes) :
    (Decoder.ofCodeSet s).Reads bytes [.key e] (Decoder.ofCodeSet s) := by
  cases h with
  | make h =>
    cases s with
    | set1 => exact absurd h not_names_set1
    | set2 => exact .event (step_base h) .nil
    | set3 => exact .event (step_set3 h) .nil
  -- A release has one byte in front of it, which the decoder takes in silently.
  | release h =>
    cases s with
    | set1 => exact absurd h not_names_set1
    | set2 => exact .silent rfl (.event (step_afterF0 h) .nil)
    | set3 => exact .silent rfl (.event (step_set3_afterF0 h) .nil)
  | extendedMake h => exact .silent rfl (.event (step_afterE0 h) .nil)
  | extendedRelease h => exact .silent rfl (.silent rfl (.event (step_afterE0xF0 h) .nil))
  -- Pause has a sequence of its own in set 2, of which only the last byte is read.
  | pauseMake => exact .silent rfl (.silent rfl (.event rfl .nil))
  | pauseRelease =>
    exact .silent rfl (.silent rfl (.silent rfl (.silent rfl (.event rfl .nil))))

/-- The bytes of any number of keys, one after the other, give the events of these keys. -/
theorem outputs_flatten {s : CodeSet} {keys : List (KeyEvent × List UInt8)}
    (h : ∀ p ∈ keys, Encodes s p.1 p.2) :
    (Decoder.ofCodeSet s).outputs (keys.map (·.2)).flatten = keys.map (.key ·.1) := by
  have hreads := Decoder.Reads.flatMap fun p hp => (h p hp).reads
  rw [← List.flatMap_def, hreads.outputs_eq, List.map_eq_flatMap]

/-! ## Bytes that mean something to the session -/

/-- The bytes that a keyboard that is ready does not send for a key. -/
def replies : List UInt8 :=
  [Command.Ps2.ack, Command.Ps2.resendRequest, Command.Ps2.selfTestPassed, Command.Ps2.echoReply,
    Command.Ps2.keyError, Command.Ps2.bufferOverrun]

/-- A byte that names a key is no reply. -/
theorem Names.not_mem_replies {s : CodeSet} {c code : UInt8} (h : Names s c code) :
    c ∉ replies := by
  cases h with
  | same hs h =>
    -- All replies but 00 have the highest bit set.
    have hreplies : ∀ b ∈ replies, ¬ (0x01 ≤ b ∧ b ≤ 0x7F) := forall_mem_of_all (by decide)
    exact fun hc => hreplies c hc h
  | f7 | x84 | f13 => decide

/-- None of the bytes of a key means anything to the session. -/
theorem Encodes.passes {s : CodeSet} {e : KeyEvent} {bytes : List UInt8} (h : Encodes s e bytes) :
    ∀ b ∈ bytes, b ∉ replies := by
  have hextended : ∀ p ∈ extendedCodes, p.1 ∉ replies := forall_mem_of_all (by decide)
  have hmarks : 0xF0 ∉ replies ∧ 0xE0 ∉ replies := by decide
  cases h with
  | make h => simpa using h.not_mem_replies
  | release h => simpa using ⟨hmarks.1, h.not_mem_replies⟩
  | extendedMake h => simpa using ⟨hmarks.2, hextended _ h⟩
  | extendedRelease h => simpa using ⟨hmarks.2, hmarks.1, hextended _ h⟩
  | pauseMake => exact forall_mem_of_all (by decide)
  | pauseRelease => exact forall_mem_of_all (by decide)

end KeyBridge
