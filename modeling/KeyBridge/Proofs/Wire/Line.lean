import KeyBridge.Wire.Frame
import KeyBridge.Wire.ShiftRegister
import Mathlib.Data.Nat.Bitwise

/-!
# Frames on the line

A frame is a sequence of bits on the data line. On its way to a byte it goes through the shift
register of the receiver, is aligned, and is decoded as one word; a command goes the other way. For
each format `lineBits` says which bits carry a byte, in the order of time, and all these parts
together read exactly those and send exactly those, whatever an earlier frame has left in the
register.

## Key results

- `window_receive`: the register shows the last 32 bits that have arrived
- `bitsUp_align_receive`: the aligned word holds the frame and nothing else
- `decode_eq_ok_iff`: the words that carry a byte
- `count_zipWith_xor`: an odd number of flipped bits changes the parity
- `frames_carry_bytes`: frames in both directions, for every format
-/

namespace KeyBridge.Wire

variable {f : Format} {w register : UInt32} {b c : UInt8} {bit : Bool} {line : List Bool}
  {i n : Nat}

/-! ## Bits of words and bytes -/

@[simp] theorem length_bitsUp (w : UInt32) (n : Nat) : (bitsUp w n).length = n := by simp [bitsUp]

@[simp] theorem length_bitsDown (w : UInt32) (n : Nat) : (bitsDown w n).length = n := by
  simp [bitsDown]

/-- One bit more upwards is the next one. -/
theorem bitsUp_succ (w : UInt32) (n : Nat) :
    bitsUp w (n + 1) = bitsUp w n ++ [w.toNat.testBit n] := by
  simp [bitsUp, List.range_succ]

/-- The bits of a shifted word are those above the ones that were shifted out. -/
theorem bitsUp_shiftRight (w : UInt32) {k : UInt32} (hk : k.toNat < 32) (n : Nat) :
    bitsUp (w >>> k) n = (bitsUp w (k.toNat + n)).drop k.toNat := by
  apply List.ext_getElem
  · simp
  · intro i _ _
    simp [bitsUp, UInt32.toNat_shiftRight, Nat.mod_eq_of_lt hk, Nat.testBit_shiftRight]

/-- The bits of the lowest byte of a word are its first eight. -/
theorem bits_toUInt8 (w : UInt32) : bits w.toUInt8 = bitsUp w 8 := by
  apply List.map_congr_left
  intro i hi
  have hlt : i < 8 := List.mem_range.mp hi
  simp [UInt32.toNat_toUInt8, Nat.testBit_mod_two_pow (j := 8), hlt]

theorem testBit_of_le (b : UInt8) (hi : 8 ≤ i) : b.toNat.testBit i = false :=
  Nat.testBit_lt_two_pow (Nat.lt_of_lt_of_le b.toNat_lt (Nat.pow_le_pow_right (by decide) hi))

/-- A byte is known by its bits. -/
theorem bits_inj : bits b = bits c ↔ b = c := by
  refine ⟨fun h => ?_, congrArg bits⟩
  apply UInt8.toNat_inj.mp
  apply Nat.eq_of_testBit_eq
  intro i
  by_cases hi : i < 8
  · exact List.map_inj_left.mp h i (List.mem_range.mpr hi)
  · rw [testBit_of_le b (by omega), testBit_of_le c (by omega)]

/-- A row of bits that moved by one has lost its first bit and has a new last one. -/
theorem map_range_shifted {g h : Nat → Bool} (hshift : ∀ i < n, h i = g (i + 1))
    (hlast : h n = bit) :
    (List.range (n + 1)).map h = ((List.range (n + 1)).map g).tail ++ [bit] := by
  have hfirst : (List.range n).map h = (List.range n).map (fun i => g (i + 1)) :=
    List.map_congr_left fun i hi => hshift i (List.mem_range.mp hi)
  have htail : ((List.range (n + 1)).map g).tail = (List.range n).map (fun i => g (i + 1)) := by
    simp [List.range_succ_eq_map]
  rw [htail, ← hfirst, List.range_succ, List.map_append, List.map_singleton, hlast]

/-! ## The shift register -/

/-- A flag is a word with this bit at the bottom. -/
theorem testBit_toUInt32 (bit : Bool) (i : Nat) :
    bit.toUInt32.toNat.testBit i = (bit && i == 0) := by
  cases bit with
  | false => simp [Bool.toUInt32]
  | true => cases i <;> simp [Bool.toUInt32, Nat.testBit_succ]

theorem testBit_thirtyTwo (w : UInt32) : w.toNat.testBit 32 = false :=
  Nat.testBit_lt_two_pow w.toNat_lt

/-- A bit enters at the top, and the others move down. -/
theorem testBit_enter_top (hi : i < 32) :
    ((register >>> 1) ||| (bit.toUInt32 <<< 31)).toNat.testBit i =
      if i = 31 then bit else register.toNat.testBit (i + 1) := by
  simp only [UInt32.toNat_or, Nat.testBit_or, UInt32.toNat_shiftRight, UInt32.toNat_shiftLeft,
    UInt32.reduceToNat, Nat.reduceMod, Nat.testBit_shiftRight, Nat.testBit_mod_two_pow,
    Nat.testBit_shiftLeft, testBit_toUInt32, hi, decide_true, Bool.true_and, Nat.add_comm 1 i]
  split
  · next h =>
    subst h
    simp [testBit_thirtyTwo]
  · next h =>
    have hlow : ¬ 31 ≤ i := by omega
    simp [hlow]

/-- A bit enters at the bottom, and the others move up. -/
theorem testBit_enter_bottom (hi : i < 32) :
    ((register <<< 1) ||| bit.toUInt32).toNat.testBit i =
      if i = 0 then bit else register.toNat.testBit (i - 1) := by
  simp only [UInt32.toNat_or, Nat.testBit_or, UInt32.toNat_shiftLeft, UInt32.reduceToNat,
    Nat.reduceMod, Nat.testBit_mod_two_pow, Nat.testBit_shiftLeft, testBit_toUInt32, hi,
    decide_true, Bool.true_and]
  cases i with
  | zero => simp
  | succ i => simp

namespace Format

/-- The bits of a register, the one that arrived first in front. -/
def window (f : Format) (register : UInt32) : List Bool :=
  if f.shiftsRight then bitsUp register 32 else bitsDown register 32

/-- The window on a register has 32 bits. -/
theorem length_window (f : Format) (register : UInt32) : (f.window register).length = 32 := by
  unfold window
  split <;> simp

/-- A bit that arrives pushes the oldest one out. -/
theorem window_shiftIn (f : Format) (register : UInt32) (bit : Bool) :
    f.window (f.shiftIn register bit) = (f.window register).tail ++ [bit] := by
  cases hf : f.shiftsRight with
  | true =>
    simp only [window, shiftIn, hf, if_true]
    refine map_range_shifted (fun i hi => ?_) ?_
    · rw [testBit_enter_top (by omega), if_neg (by omega)]
    · rw [testBit_enter_top (by omega), if_pos rfl]
  | false =>
    simp only [window, shiftIn, hf, Bool.false_eq_true, if_false]
    refine map_range_shifted (fun i hi => ?_) ?_
    · rw [testBit_enter_bottom (by omega), if_neg (by omega), Nat.sub_sub]
    · rw [testBit_enter_bottom (by omega), if_pos rfl]

/-- The register shows the last bits that have arrived. -/
theorem window_receive (f : Format) (register : UInt32) (line : List Bool) :
    f.window (f.receive register line) = (f.window register ++ line).drop line.length := by
  induction line generalizing register with
  | nil => simp [receive]
  | cons bit line ih =>
    have hne : f.window register ≠ [] := List.ne_nil_of_length_pos (by simp [length_window])
    have hreceive :
        f.receive register (bit :: line) = f.receive (f.shiftIn register bit) line := rfl
    rw [hreceive, ih, window_shiftIn, List.append_assoc, List.singleton_append, List.length_cons,
      ← List.drop_tail, List.tail_append_of_ne_nil hne]

/-- The bits of a frame in the order of its word, the lowest in front. -/
def upwards (f : Format) (line : List Bool) : List Bool :=
  if f.shiftsRight then line else line.reverse

theorem frameBits_le (f : Format) : f.frameBits ≤ 32 := by cases f <;> decide

/-- The last bits downwards, turned round, are the first ones upwards. -/
theorem reverse_drop_bitsDown (w : UInt32) (hn : n ≤ 32) :
    ((bitsDown w 32).drop (32 - n)).reverse = bitsUp w n := by
  apply List.ext_getElem
  · simp [Nat.sub_sub_self hn]
  · intro i hi _
    have hlt : i < n := by simpa [Nat.sub_sub_self hn] using hi
    have hindex : 31 - (32 - n + (32 - (32 - n) - 1 - i)) = i := by omega
    simp [bitsUp, bitsDown, List.getElem_reverse, hindex]

/-- The mask keeps the bits of the lowest byte. -/
theorem bitsUp_and_lowByte (w : UInt32) : bitsUp (w &&& 0xFF) 8 = bitsUp w 8 := by
  apply List.map_congr_left
  intro i hi
  have hmask : (0xFF : UInt32).toNat = 2 ^ 8 - 1 := rfl
  rw [UInt32.toNat_and, Nat.testBit_and, hmask, Nat.testBit_two_pow_sub_one,
    decide_eq_true (List.mem_range.mp hi), Bool.and_true]

/-- Aligned, the register shows the bits that arrived last. -/
theorem bitsUp_align (f : Format) (register : UInt32) :
    bitsUp (f.align register) f.frameBits =
      f.upwards ((f.window register).drop (32 - f.frameBits)) := by
  cases f with
  | atPs2 => exact bitsUp_shiftRight register (k := 21) (by decide) 11
  | xt => exact bitsUp_shiftRight register (k := 23) (by decide) 9
  | amiga | m0110 =>
    exact (bitsUp_and_lowByte register).trans (reverse_drop_bitsDown register (by decide)).symm

/-- Of the register of a whole frame, the aligned word has its bits and no others. -/
theorem bitsUp_align_receive (f : Format) (register : UInt32) (hline : line.length = f.frameBits) :
    bitsUp (f.align (f.receive register line)) f.frameBits = f.upwards line := by
  have hle := f.frameBits_le
  rw [bitsUp_align, window_receive, List.drop_drop, hline, Nat.add_sub_cancel' hle,
    List.drop_left' (f.length_window register)]

end Format

/-! ## Frames -/

/-- The bits of the frame that carries a byte, in the order of time. -/
def Format.lineBits : Format → UInt8 → List Bool
  | .atPs2, b => false :: [0, 1, 2, 3, 4, 5, 6, 7].map b.toNat.testBit ++ [oddParity b, true]
  | .xt, b => true :: [0, 1, 2, 3, 4, 5, 6, 7].map b.toNat.testBit
  | .amiga, b => [6, 5, 4, 3, 2, 1, 0, 7].map fun i => !b.toNat.testBit i
  | .m0110, b => [7, 6, 5, 4, 3, 2, 1, 0].map b.toNat.testBit

namespace Frame

variable {fr gr : Frame}

/-- The bits of a frame in the order of time. -/
def toBits (fr : Frame) : List Bool := fr.startBit :: bits fr.data ++ [fr.parityBit, fr.stopBit]

/-- A frame is its bits. -/
theorem toBits_inj : fr.toBits = gr.toBits ↔ fr = gr := by
  refine ⟨fun h => ?_, congrArg toBits⟩
  obtain ⟨startBit, data, parityBit, stopBit⟩ := fr
  obtain ⟨startBit', data', parityBit', stopBit'⟩ := gr
  obtain ⟨hstart, hrest⟩ := List.cons.inj h
  obtain ⟨hdata, hlast⟩ := List.append_inj hrest (by simp)
  obtain rfl := bits_inj.mp hdata
  simp_all

theorem head?_toBits (fr : Frame) : fr.toBits.head? = some fr.startBit := rfl

/-- The stop bit comes last. -/
theorem getLast?_toBits (fr : Frame) : fr.toBits.getLast? = some fr.stopBit := by
  have hconcat : fr.toBits = (fr.startBit :: bits fr.data ++ [fr.parityBit]) ++ [fr.stopBit] := by
    simp [toBits]
  rw [hconcat, List.getLast?_concat]

/-- The frame of a byte has the bits that the byte has on the line. -/
theorem toBits_ofByte (b : UInt8) : (ofByte b).toBits = Format.atPs2.lineBits b := rfl

/-- The frame in a word has the first eleven bits of the word. -/
theorem toBits_ofWord (w : UInt32) : (ofWord w).toBits = bitsUp w 11 := by
  have hdata : bits (ofWord w).data = (bitsUp w 9).drop 1 :=
    (bits_toUInt8 (w >>> 1)).trans (bitsUp_shiftRight w (k := 1) (by decide) 8)
  rw [toBits, hdata, bitsUp_succ, bitsUp_succ]
  simp [bitsUp, List.range_succ_eq_map, ofWord]

/-- A frame is good just if it is the one that carries its byte. -/
theorem validate_eq_ok_iff (fr : Frame) (b : UInt8) : fr.validate = .ok b ↔ fr = ofByte b := by
  constructor
  · intro h
    obtain ⟨startBit, data, parityBit, stopBit⟩ := fr
    cases startBit <;> cases stopBit <;> simp [validate] at h
    split at h
    · next hparity =>
      cases h
      rw [ofByte, hparity]
    · contradiction
  · rintro rfl
    simp [validate, ofByte]

/-- The start bit is what is wrong exactly if it is set. -/
theorem validate_eq_badStart_iff (fr : Frame) :
    fr.validate = .error .badStart ↔ fr.startBit = true := by
  unfold validate
  cases fr.startBit <;> cases fr.stopBit <;> cases oddParity fr.data != fr.parityBit <;> simp

/-- The stop bit is what is wrong exactly if it is clear and so is the start bit. -/
theorem validate_eq_badStop_iff (fr : Frame) :
    fr.validate = .error .badStop ↔ fr.startBit = false ∧ fr.stopBit = false := by
  unfold validate
  cases fr.startBit <;> cases fr.stopBit <;> cases oddParity fr.data != fr.parityBit <;> simp

/-- Of a frame between good start and stop bits only the parity can be wrong. -/
theorem validate_eq_badParity_iff (fr : Frame) :
    fr.validate = .error .badParity ↔
      (fr.startBit = false ∧ fr.stopBit = true) ∧ ∀ b, fr ≠ ofByte b := by
  simp only [ne_eq, ← validate_eq_ok_iff]
  unfold validate
  cases fr.startBit <;> cases fr.stopBit <;> cases oddParity fr.data != fr.parityBit <;> simp

end Frame

/-! ## Words -/

/-- The bits of a complement are inverted. -/
theorem bits_not (b : UInt8) : bits (~~~b) = (bits b).map not := by
  rw [bits, bits, List.map_map]
  apply List.map_congr_left
  intro i hi
  have hnot : (~~~b).toBitVec.getLsbD i = !b.toBitVec.getLsbD i := by
    rw [UInt8.toBitVec_not, BitVec.getLsbD_not, decide_eq_true (List.mem_range.mp hi),
      Bool.true_and]
  exact hnot

/-- A rotation moves the lowest bit to the top and the others down. -/
theorem testBit_rotateDown (hi : i < 8) :
    (rotateDown b).toNat.testBit i =
      if i = 7 then b.toNat.testBit 0 else b.toNat.testBit (i + 1) := by
  have htop : b.toNat.testBit 8 = false := testBit_of_le b (by decide)
  simp only [rotateDown, UInt8.toNat_or, Nat.testBit_or, UInt8.toNat_shiftRight,
    UInt8.toNat_shiftLeft, UInt8.reduceToNat, Nat.reduceMod, Nat.testBit_shiftRight,
    Nat.testBit_mod_two_pow, Nat.testBit_shiftLeft, hi, decide_true, Bool.true_and,
    Nat.add_comm 1 i]
  split
  · next h =>
    subst h
    simp [htop]
  · next h =>
    have hlow : ¬ 7 ≤ i := by omega
    simp [hlow]

/-- A rotation moves the first bit to the end. -/
theorem bits_rotateDown (b : UInt8) :
    bits (rotateDown b) = (bits b).tail ++ [b.toNat.testBit 0] := by
  refine map_range_shifted (fun i hi => ?_) ?_
  · rw [testBit_rotateDown (by omega), if_neg (by omega)]
  · rw [testBit_rotateDown (by omega), if_pos rfl]

/-- The mask tells the lowest bit. -/
theorem and_one_eq_zero_iff (w : UInt32) : w &&& 1 = 0 ↔ w.toNat.testBit 0 = false := by
  have hand : (w &&& 1).toNat = w.toNat % 2 := by
    rw [UInt32.toNat_and]
    exact Nat.and_one_is_mod w.toNat
  rw [← UInt32.toNat_inj, hand, Nat.testBit_zero]
  simp

/-- A word is decoded as a byte if it holds the frame of this byte. -/
theorem decode_eq_ok_iff (f : Format) (w : UInt32) (b : UInt8) :
    decode f w = .ok b ↔ bitsUp w f.frameBits = f.upwards (f.lineBits b) := by
  cases f with
  | atPs2 =>
    rw [decode, Frame.validate_eq_ok_iff, ← Frame.toBits_inj, Frame.toBits_ofWord]
    rfl
  | xt =>
    -- Nine bits were shifted in: the start bit is the lowest one, and the byte is above it.
    have hline : bitsUp w 9 = w.toNat.testBit 0 :: bits (w >>> 1).toUInt8 := by
      rw [bits_toUInt8, bitsUp_shiftRight w (k := 1) (by decide)]
      simp [bitsUp, List.range_succ_eq_map]
    have hbits : bitsUp w 9 = Format.xt.lineBits b ↔
        w.toNat.testBit 0 = true ∧ (w >>> 1).toUInt8 = b := by
      rw [hline, ← bits_inj]
      exact List.cons_eq_cons
    rw [decode]
    refine Iff.trans ?_ hbits.symm
    simp only [and_one_eq_zero_iff]
    cases w.toNat.testBit 0 <;> simp
  | amiga =>
    -- Both lists have the eight bits of the byte, inverted and in the order of the line.
    have hfirst : (~~~w.toUInt8).toNat.testBit 0 = !w.toNat.testBit 0 := by
      -- The first bit of the line ends up at the top, so that it is looked at by itself.
      have h := congrArg List.head? (bits_not w.toUInt8)
      rw [bits_toUInt8] at h
      simpa [bits, bitsUp, List.range_succ_eq_map] using h
    have hrange : List.range 8 = [0, 1, 2, 3, 4, 5, 6, 7] := rfl
    rw [decode, Except.ok.injEq, ← bits_inj, bits_rotateDown, bits_not, bits_toUInt8, hfirst]
    simp only [bits, bitsUp, hrange, Format.upwards, Format.lineBits, Format.shiftsRight,
      Format.frameBits, Bool.false_eq_true, if_false, List.map_cons, List.map_nil, List.tail_cons,
      List.cons_append, List.nil_append, List.reverse_cons, List.reverse_nil, List.cons.injEq,
      and_true, Bool.not_eq_eq_eq_not]
    constructor
    · rintro ⟨h₁, h₂, h₃, h₄, h₅, h₆, h₇, h₀⟩
      exact ⟨h₀, h₁, h₂, h₃, h₄, h₅, h₆, h₇⟩
    · rintro ⟨h₀, h₁, h₂, h₃, h₄, h₅, h₆, h₇⟩
      exact ⟨h₁, h₂, h₃, h₄, h₅, h₆, h₇, h₀⟩
  | m0110 =>
    rw [decode, Except.ok.injEq, ← bits_inj, bits_toUInt8]
    rfl

/-! ## Parity -/

/-- With its parity bit a byte has an odd number of ones. -/
theorem count_bits_oddParity (b : UInt8) : (bits b ++ [oddParity b]).count true % 2 = 1 := by
  have hones := ones_add_oddParity b
  rw [List.count_append, ← ones]
  cases h : oddParity b <;> simp_all

/-- The parity of flipped bits is that of the bits and of the flips together. -/
theorem count_zipWith_xor {xs flips : List Bool} (h : xs.length = flips.length) :
    (List.zipWith xor xs flips).count true % 2 = (xs.count true + flips.count true) % 2 := by
  induction xs generalizing flips with
  | nil => rw [List.eq_nil_of_length_eq_zero h.symm, List.zipWith_nil_left, List.count_nil]
  | cons x xs ih =>
    cases flips with
    | nil => contradiction
    | cons flip flips =>
      have hrest := ih (Nat.succ.inj h)
      rw [List.zipWith_cons_cons, List.count_cons, List.count_cons, List.count_cons]
      cases x <;> cases flip <;> simp <;> omega

/-! ## Commands -/

/-- The word of an `atPs2` command is made of the byte, its parity and the stop bit. -/
theorem testBit_command (b : UInt8) (p : Bool) (hi : i < 32) :
    (b.toUInt32 ||| (p.toUInt32 <<< 8) ||| 0x200).toNat.testBit i =
      (b.toNat.testBit i || (p && i == 8) || i == 9) := by
  -- The three parts of the word do not overlap.
  have hstop : (0x200 : UInt32).toNat.testBit i = (i == 9) := by
    have hpow : (0x200 : UInt32).toNat = 2 ^ 9 := rfl
    rw [hpow, Nat.testBit_two_pow]
    grind
  have hparity : (p.toUInt32 <<< 8).toNat.testBit i = (p && i == 8) := by
    have hshift : (8 : UInt32).toNat % 32 = 8 := rfl
    rw [UInt32.toNat_shiftLeft, hshift, Nat.testBit_mod_two_pow, Nat.testBit_shiftLeft,
      testBit_toUInt32]
    grind
  rw [UInt32.toNat_or, UInt32.toNat_or, Nat.testBit_or, Nat.testBit_or, hstop, hparity,
    UInt8.toNat_toUInt32]

/-- A command goes out as its byte, its parity and a stop bit. -/
theorem bitsUp_command (b : UInt8) (p : Bool) :
    bitsUp (b.toUInt32 ||| (p.toUInt32 <<< 8) ||| 0x200) 10 = bits b ++ [p, true] := by
  have hdata : bitsUp (b.toUInt32 ||| (p.toUInt32 <<< 8) ||| 0x200) 8 = bits b := by
    apply List.map_congr_left
    intro i hi
    have hlt : i < 8 := List.mem_range.mp hi
    rw [testBit_command b p (by omega)]
    grind
  have hbit8 : b.toNat.testBit 8 = false := testBit_of_le b (by decide)
  have hbit9 : b.toNat.testBit 9 = false := testBit_of_le b (by decide)
  rw [bitsUp_succ, bitsUp_succ, hdata, testBit_command b p (by decide),
    testBit_command b p (by decide), hbit8, hbit9]
  simp

/-- The word of an `m0110` command leaves the register at the top. -/
theorem bitsDown_command (b : UInt8) :
    bitsDown ((b.toUInt32 &&& 0xFF) <<< 24) 8 = Format.m0110.lineBits b := by
  have hbit : ∀ i ∈ List.range 8, ((b.toUInt32 &&& 0xFF) <<< 24).toNat.testBit (31 - i) =
      b.toNat.testBit (7 - i) := by
    intro i hi
    have hlt : i < 8 := List.mem_range.mp hi
    have hmask : (0xFF : UInt32).toNat = 2 ^ 8 - 1 := rfl
    have hshift : (24 : UInt32).toNat % 32 = 24 := rfl
    have hindex : 31 - i - 24 = 7 - i := by omega
    rw [UInt32.toNat_shiftLeft, hshift, Nat.testBit_mod_two_pow, Nat.testBit_shiftLeft, hindex,
      UInt32.toNat_and, Nat.testBit_and, hmask, Nat.testBit_two_pow_sub_one, UInt8.toNat_toUInt32]
    grind
  exact List.map_congr_left hbit

/-! ## Frames in both directions -/

/-- No two lines have the same bits in the register. -/
theorem Format.upwards_inj {line' : List Bool} :
    f.upwards line = f.upwards line' ↔ line = line' := by
  unfold upwards
  split <;> simp

/-- A frame that arrives is read as a byte just if its bits are those that carry the byte. -/
theorem decode_receive_eq_ok_iff (register : UInt32) (hline : line.length = f.frameBits)
    (b : UInt8) :
    decode f (f.align (f.receive register line)) = .ok b ↔ line = f.lineBits b := by
  rw [decode_eq_ok_iff, f.bitsUp_align_receive register hline, Format.upwards_inj]

/-- What is wrong with a frame that carries no byte, by its bits. -/
theorem decode_receive_eq_error_iff (register : UInt32) (hline : line.length = 11) :
    let read := decode .atPs2 (Format.align .atPs2 (Format.receive .atPs2 register line))
    (read = .error .badStart ↔ line.head? = some true) ∧
      (read = .error .badStop ↔ line.head? = some false ∧ line.getLast? = some false) ∧
      (read = .error .badParity ↔
        (line.head? = some false ∧ line.getLast? = some true) ∧
          ∀ b, line ≠ Format.atPs2.lineBits b) := by
  intro read
  -- Every line of eleven bits is that of a frame, which tells what is wrong with it.
  obtain ⟨fr, hread, hbits⟩ : ∃ fr : Frame, read = fr.validate ∧ fr.toBits = line :=
    ⟨Frame.ofWord (Format.align .atPs2 (Format.receive .atPs2 register line)), rfl,
      (Frame.toBits_ofWord _).trans (Format.bitsUp_align_receive .atPs2 register hline)⟩
  have hhead : line.head? = some fr.startBit := by rw [← hbits, Frame.head?_toBits]
  have hlast : line.getLast? = some fr.stopBit := by rw [← hbits, Frame.getLast?_toBits]
  have hbyte : ∀ b, fr = Frame.ofByte b ↔ line = Format.atPs2.lineBits b := by
    intro b
    rw [← Frame.toBits_inj, hbits, Frame.toBits_ofByte]
  simp only [hread, hhead, hlast, Option.some.injEq, Frame.validate_eq_badStart_iff,
    Frame.validate_eq_badStop_iff, Frame.validate_eq_badParity_iff, ne_eq, hbyte, and_self]

/-- An odd number of flips among the data and parity bits leaves no frame of any byte. -/
theorem flipped_ne_lineBits {flips : List Bool} (b c : UInt8) (hlength : flips.length = 9)
    (hodd : flips.count true % 2 = 1) :
    false :: List.zipWith xor (bits b ++ [oddParity b]) flips ++ [true] ≠
      Format.atPs2.lineBits c := by
  intro heq
  have hline : Format.atPs2.lineBits c = false :: (bits c ++ [oddParity c]) ++ [true] := by
    simp [Format.lineBits, bits, List.range_succ_eq_map]
  rw [hline] at heq
  have hmiddle : List.zipWith xor (bits b ++ [oddParity b]) flips = bits c ++ [oddParity c] :=
    (List.cons.inj (List.append_cancel_right heq)).2
  -- An odd number of flips turns an odd number of ones into an even one, which no byte has with its
  -- parity.
  have hflips : (List.zipWith xor (bits b ++ [oddParity b]) flips).count true % 2 =
      ((bits b ++ [oddParity b]).count true + flips.count true) % 2 :=
    count_zipWith_xor (by simp [hlength])
  rw [hmiddle] at hflips
  have hb := count_bits_oddParity b
  have hc := count_bits_oddParity c
  omega

/-- A frame of any format is read as a byte just if its bits on the line are those that carry the
byte, whatever the register held before. Of an `atPs2` frame a wrong start bit is found first, then
a wrong stop bit, and of any other frame that carries no byte the parity is wrong; an odd number of
flips among the data and parity bits is always found. A command leaves the transmitter bit by bit as
a frame would arrive, less the start bit, which the transmitter makes itself. -/
theorem frames_carry_bytes (f : Format) (register : UInt32) (line : List Bool)
    (hline : line.length = f.frameBits) :
    let read (line : List Bool) := decode f (f.align (f.receive register line))
    (∀ b, read line = .ok b ↔ line = f.lineBits b) ∧
      (f = .atPs2 →
        (read line = .error .badStart ↔ line.head? = some true) ∧
        (read line = .error .badStop ↔ line.head? = some false ∧ line.getLast? = some false) ∧
        (read line = .error .badParity ↔
          (line.head? = some false ∧ line.getLast? = some true) ∧ ∀ b, line ≠ f.lineBits b) ∧
        (∀ b flips, flips.length = 9 → flips.count true % 2 = 1 →
          read (false :: List.zipWith xor (bits b ++ [oddParity b]) flips ++ [true]) =
            .error .badParity) ∧
        ∀ b, ∃ word, encode? f b = some word ∧
          bitsUp (f.place word) 10 = bits b ++ [oddParity b, true] ∧
          read (false :: bitsUp (f.place word) 10) = .ok b) ∧
      (f = .m0110 → ∀ b, ∃ word, encode? f b = some word ∧
        bitsDown (f.place word) 8 = (bits b).reverse) := by
  intro read
  refine ⟨decode_receive_eq_ok_iff register hline, ?_, ?_⟩
  · rintro rfl
    obtain ⟨hstart, hstop, hparity⟩ := decode_receive_eq_error_iff register hline
    refine ⟨hstart, hstop, hparity, fun b flips hlength hodd => ?_, fun b => ?_⟩
    · refine (decode_receive_eq_error_iff register ?_).2.2.mpr ⟨⟨rfl, ?_⟩, fun c => ?_⟩
      · simp [hlength]
      · exact List.getLast?_concat
      · exact flipped_ne_lineBits b c hlength hodd
    · have hsent := bitsUp_command b (oddParity b)
      refine ⟨_, rfl, hsent, (decode_receive_eq_ok_iff register ?_ b).mpr ?_⟩
      · rw [List.length_cons, length_bitsUp]
        rfl
      · exact congrArg (false :: ·) hsent
  -- An M0110 gets its commands from the top bit down.
  · rintro rfl b
    exact ⟨_, rfl, bitsDown_command b⟩

/-- The frame of the letter A, and three of its bits flipped. -/
theorem frames_carry_bytes_letter :
    let line := [false, false, false, true, true, true, false, false, false, false, true]
    let flips := [true, false, false, false, false, true, true, false, false]
    let read (line : List Bool) :=
      decode .atPs2 (Format.align .atPs2 (Format.receive .atPs2 0xDEADBEEF line))
    line.length = Format.atPs2.frameBits ∧ read line = .ok 0x1C ∧
      read (false :: List.zipWith xor (bits 0x1C ++ [oddParity 0x1C]) flips ++ [true]) =
        .error .badParity := by
  intro line flips read
  obtain ⟨hok, hatPs2, -⟩ := frames_carry_bytes .atPs2 0xDEADBEEF line rfl
  obtain ⟨-, -, -, hflips, -⟩ := hatPs2 rfl
  exact ⟨rfl, (hok 0x1C).mpr rfl, hflips 0x1C flips rfl (by decide)⟩

end KeyBridge.Wire
