import KeyBridge.ByteRing
import Mathlib.Algebra.Group.Nat.Defs
import Mathlib.Data.List.Basic

/-!
# Ring invariant preservation

The positions of a ring stay below `slotCount` under every operation, and every operation acts on
`contents` as one on a queue does. `Lag r n` says that `n` discards have not been accounted for by
the tail; as long as `n` stays below `2^w` the two counters of generations tell whether there are
any.

## Key results

- `Valid`: the positions of a ring are slots, kept by every operation
- `contents_put?`: an accepted byte comes last
- `get_of_contents_nil` / `get_of_contents_cons`: reading takes the oldest byte
- `Lag.contents_discard`: a discard empties the ring, unless the counters meet
-/

namespace KeyBridge.ByteRing

variable {w : Nat} {r r' : ByteRing w} {b : UInt8} {bs : List UInt8} {n : Nat}

/-- The positions of a ring are slots. -/
structure Valid (r : ByteRing w) : Prop where
  head_lt : r.head < slotCount
  tail_lt : r.tail < slotCount
  mark_lt : r.mark < slotCount

/-- `n` discards are not accounted for by the tail. -/
def Lag (r : ByteRing w) (n : Nat) : Prop := r.generation = r.applied + BitVec.ofNat w n

/-! ## Positions -/

/-- The slot after a slot is a slot. -/
theorem after_lt (i : Nat) : after i < slotCount := Nat.mod_lt _ (by decide)

/-- The live tail of a sound ring is a slot: either the tail or the mark. -/
theorem Valid.liveTail_lt (hv : r.Valid) : r.liveTail < slotCount := by
  unfold liveTail
  split
  · exact hv.tail_lt
  · exact hv.mark_lt

/-- The empty ring is sound. -/
theorem valid_empty : (empty : ByteRing w).Valid where
  head_lt := Nat.zero_lt_succ 31
  tail_lt := Nat.zero_lt_succ 31
  mark_lt := Nat.zero_lt_succ 31

/-- `put?` keeps a ring sound. -/
theorem Valid.put? (hv : r.Valid) (h : r.put? b = some r') : r'.Valid := by
  simp only [ByteRing.put?] at h
  split at h
  · exact nomatch h
  · cases h
    exact ⟨after_lt _, hv.tail_lt, hv.mark_lt⟩

theorem Valid.discard (hv : r.Valid) : r.discard.Valid := ⟨hv.head_lt, hv.tail_lt, hv.head_lt⟩

theorem Valid.settle (hv : r.Valid) : r.settle.Valid := ⟨hv.head_lt, hv.liveTail_lt, hv.mark_lt⟩

/-- `get` keeps a ring sound. -/
theorem Valid.get (hv : r.Valid) : r.get.2.Valid := by
  simp only [ByteRing.get]
  split
  · exact hv.settle
  · exact ⟨hv.head_lt, after_lt _, hv.mark_lt⟩

theorem Valid.reset (hv : r.Valid) : r.reset.Valid := ⟨hv.head_lt, hv.head_lt, hv.head_lt⟩

/-! ## Lengths -/

@[simp] theorem length_contents (r : ByteRing w) : r.contents.length = r.length := by
  simp [contents]

/-- No ring is longer than its capacity. -/
theorem length_le (r : ByteRing w) : r.length ≤ capacity :=
  Nat.le_of_lt_succ (Nat.mod_lt _ (by decide))

/-- The head lies as many slots above the tail as there are bytes. -/
theorem Valid.head_eq (hv : r.Valid) : r.head = (r.liveTail + r.length) % slotCount := by
  have hh := hv.head_lt
  have ht := hv.liveTail_lt
  simp only [length, slotCount] at *
  omega

/-- `isEmpty` says that the length is zero. -/
theorem Valid.isEmpty_iff (hv : r.Valid) : r.isEmpty ↔ r.length = 0 := by
  have hh := hv.head_lt
  have ht := hv.liveTail_lt
  simp only [isEmpty, length, slotCount, beq_iff_eq] at *
  omega

/-- `isFull` says that the length is the capacity. -/
theorem Valid.isFull_iff (hv : r.Valid) : r.isFull ↔ r.length = capacity := by
  have hh := hv.head_lt
  have ht := hv.liveTail_lt
  simp only [isFull, after, length, capacity, slotCount, beq_iff_eq] at *
  omega

/-- Nothing waits exactly if head and live tail are the same. -/
theorem Valid.contents_eq_nil_iff (hv : r.Valid) : r.contents = [] ↔ r.head = r.liveTail := by
  rw [← List.length_eq_zero_iff, length_contents, ← hv.isEmpty_iff, isEmpty, beq_iff_eq]

@[simp] theorem contents_empty : (empty : ByteRing w).contents = [] := by
  simp [contents, length, liveTail, empty, slotCount]

/-! ## Putting -/

/-- A byte is refused exactly if the ring is full. -/
theorem Valid.put?_eq_none_iff (hv : r.Valid) :
    r.put? b = none ↔ r.contents.length = capacity := by
  rw [length_contents, ← hv.isFull_iff, ByteRing.put?]
  split <;> simp_all

theorem put_of_put?_eq_none (h : r.put? b = none) : r.put b = (r, false) := by
  simp only [put, h]

/-- `put` gives the ring that takes the byte. -/
theorem put_of_put?_eq_some (h : r.put? b = some r') : r.put b = (r', true) := by
  simp only [put, h]

/-- A byte is put into a ring or leaves it as it is. -/
theorem put_cases (r : ByteRing w) (b : UInt8) :
    r.put? b = some (r.put b).1 ∨ (r.put b).1 = r := by
  cases h : r.put? b with
  | none => exact .inr (by rw [put_of_put?_eq_none h])
  | some r' => exact .inl (by rw [put_of_put?_eq_some h])

/-- `put` keeps a ring sound. -/
theorem Valid.put (hv : r.Valid) (b : UInt8) : (r.put b).1.Valid := by
  rcases r.put_cases b with h | h
  · exact hv.put? h
  · exact h.symm ▸ hv

/-- Putting a byte leaves the tail alone. -/
theorem liveTail_put? (h : r.put? b = some r') : r'.liveTail = r.liveTail := by
  simp only [put?] at h
  split at h
  · exact nomatch h
  · cases h; rfl

/-- A byte that is taken in makes the ring longer by one. -/
theorem Valid.length_put? (hv : r.Valid) (h : r.put? b = some r') : r'.length = r.length + 1 := by
  have hh := hv.head_lt
  have ht := hv.liveTail_lt
  have hfull : r.length ≠ capacity := by
    rw [← length_contents]
    exact fun hc => by simp [hv.put?_eq_none_iff.mpr hc] at h
  have hhead : r'.head = after r.head := by
    simp only [ByteRing.put?] at h
    split at h
    · exact nomatch h
    · cases h; rfl
  -- The head has moved by one slot, perhaps around the end of the storage.
  simp only [length, liveTail_put? h, hhead, after, capacity, slotCount] at *
  omega

/-- `put?` does not touch the generation. -/
theorem generation_put? (h : r.put? b = some r') : r'.generation = r.generation := by
  simp only [put?] at h
  split at h
  · exact nomatch h
  · cases h; rfl

/-- `put` does not touch the generation. -/
theorem generation_put (r : ByteRing w) (b : UInt8) :
    (r.put b).1.generation = r.generation := by
  rcases r.put_cases b with h | h
  · exact generation_put? h
  · rw [h]

/-- The new byte is in the slot of the old head, and every other slot keeps its byte. -/
theorem Valid.slot_put? (hv : r.Valid) (h : r.put? b = some r') (i : Nat) :
    r'.slot i = if i = r.head then b else r.slot i := by
  have hh : r.head < 32 := hv.head_lt
  simp only [ByteRing.put?] at h
  split at h
  · exact nomatch h
  · cases h
    simp only [slot, Vector.getElem?_setIfInBounds]
    split
    · simp_all
    · rw [if_neg (by omega)]

/-- An accepted byte comes last. -/
theorem Valid.contents_put? (hv : r.Valid) (h : r.put? b = some r') :
    r'.contents = r.contents ++ [b] := by
  have ht := hv.liveTail_lt
  have hlen := hv.length_put? h
  have hle := r'.length_le
  simp only [contents, liveTail_put? h, hlen, List.range_succ, List.map_append, List.map_cons,
    List.map_nil]
  congr 1
  · apply List.map_congr_left
    intro i hi
    -- None of the slots in use is that of the head.
    rw [hv.slot_put? h, if_neg]
    rw [hv.head_eq]
    simp only [List.mem_range, slotCount, capacity] at *
    omega
  -- The slot after those in use is that of the head.
  · rw [hv.slot_put? h, if_pos hv.head_eq.symm]

/-! ## Getting -/

/-- `settle` moves the tail to where the live tail was before. -/
theorem liveTail_settle (r : ByteRing w) : r.settle.liveTail = r.liveTail := by
  simp [settle, liveTail]

@[simp] theorem contents_settle (r : ByteRing w) : r.settle.contents = r.contents := by
  simp only [contents, length, liveTail_settle]
  rfl

/-- Reading an empty ring only settles it. -/
theorem Valid.get_of_contents_nil (hv : r.Valid) (h : r.contents = []) :
    r.get = (none, r.settle) := by
  simp only [ByteRing.get]
  exact if_pos (hv.contents_eq_nil_iff.mp h).symm

/-- Reading takes the oldest byte and leaves the others. -/
theorem Valid.get_of_contents_cons (hv : r.Valid) (h : r.contents = b :: bs) :
    ∃ r', r.get = (some b, r') ∧ r'.contents = bs := by
  -- There is a byte, so that the reader has not caught up with the writer.
  have hne : ¬ r.settle.tail = r.settle.head := by
    intro he
    rw [hv.contents_eq_nil_iff.mpr he.symm] at h
    exact nomatch h
  have hlen : r.length = bs.length + 1 := by rw [← length_contents, h]; rfl
  have htail : r.settle.tail = r.liveTail := rfl
  have hh := hv.head_lt
  have ht := hv.liveTail_lt
  simp only [contents, hlen, List.range_succ_eq_map, List.map_cons, List.map_map,
    List.cons.injEq] at h
  -- The settled tail is the live one, so slot `i` after the read is slot `i + 1` before it.
  refine ⟨{ r.settle with tail := after r.settle.tail }, ?_, ?_⟩
  · simp only [ByteRing.get, if_neg hne]
    rw [← h.1, htail, Nat.add_zero, Nat.mod_eq_of_lt ht]
    rfl
  · rw [← h.2]
    have hlive : ({ r.settle with tail := after r.settle.tail } : ByteRing w).liveTail =
        after r.liveTail := by
      rw [← htail]
      exact if_pos rfl
    have hlen' : ({ r.settle with tail := after r.settle.tail } : ByteRing w).length =
        bs.length := by
      have hhead : r.settle.head = r.head := rfl
      rw [ByteRing.length, hlive, hhead]
      simp only [length, after, slotCount] at *
      omega
    simp only [contents, hlive, hlen']
    apply List.map_congr_left
    intro i _
    -- One slot after the tail, counted around the end of the storage.
    have hi : (after r.liveTail + i) % slotCount = (r.liveTail + (i + 1)) % slotCount := by
      simp only [after, slotCount]
      omega
    rw [Function.comp_apply, hi]
    rfl

/-- Reading takes a byte out of the ring unless there is none. -/
theorem Valid.get_eq (hv : r.Valid) :
    r.get.1 = r.contents.head? ∧ r.get.2.contents = r.contents.tail := by
  cases h : r.contents with
  | nil => simp [hv.get_of_contents_nil h, h]
  | cons b bs =>
    obtain ⟨r', hget, hbs⟩ := hv.get_of_contents_cons h
    simp [hget, hbs]

theorem generation_get (r : ByteRing w) : r.get.2.generation = r.generation := by
  simp only [get]
  split <;> rfl

/-! ## Discarding -/

theorem lag_empty : Lag (empty : ByteRing w) 0 := by simp [Lag, empty]

/-- `put?` adds nothing to the discards that the reader has to notice. -/
theorem Lag.put? (hl : Lag r n) (h : r.put? b = some r') : Lag r' n := by
  simp only [ByteRing.put?] at h
  split at h
  · exact nomatch h
  · cases h; exact hl

/-- `put` adds nothing to the discards that the reader has to notice. -/
theorem Lag.put (hl : Lag r n) (b : UInt8) : Lag (r.put b).1 n := by
  rcases r.put_cases b with h | h
  · exact hl.put? h
  · exact h.symm ▸ hl

/-- `discard` adds one to the discards that the reader has to notice. -/
theorem Lag.discard (hl : Lag r n) : Lag r.discard (n + 1) := by
  simp only [Lag, ByteRing.discard] at *
  rw [hl, BitVec.add_assoc, BitVec.ofNat_add]
  rfl

theorem lag_settle (r : ByteRing w) : Lag r.settle 0 := by simp [Lag, settle]

/-- `get` leaves no discard to notice. -/
theorem lag_get (r : ByteRing w) : Lag r.get.2 0 := by
  simp only [ByteRing.get]
  split
  · exact lag_settle r
  · exact lag_settle r

theorem lag_reset (r : ByteRing w) : Lag r.reset 0 := by simp [Lag, reset]

/-- A counter has moved if it was counted up fewer than `2^w` times. -/
theorem add_ofNat_ne (g : BitVec w) (hn : 0 < n) (hw : n < 2 ^ w) : g + BitVec.ofNat w n ≠ g := by
  intro he
  -- Equal counters make the number a multiple of `2^w`, and it is less than that.
  have hzero : BitVec.ofNat w n = 0 := by simpa using he
  have := congrArg BitVec.toNat hzero
  simp [Nat.mod_eq_of_lt hw] at this
  omega

/-- A number of discards below `2^w` shows in the counters. -/
theorem Lag.generation_ne (hl : Lag r n) (hn : 0 < n) (hw : n < 2 ^ w) :
    r.generation ≠ r.applied := by
  rw [hl]
  exact add_ofNat_ne r.applied hn hw

/-- A discard empties the ring, unless the counters meet. -/
theorem Lag.contents_discard (hl : Lag r n) (hv : r.Valid) (hw : n + 1 < 2 ^ w) :
    r.discard.contents = [] := by
  rw [hv.discard.contents_eq_nil_iff]
  -- The counters differ, so the live tail is the mark, which the discard set to the head.
  have hne := hl.discard.generation_ne (Nat.succ_pos n) hw
  simp only [liveTail, if_neg hne]
  rfl

/-- Nothing waits after `reset`. -/
theorem Valid.contents_reset (hv : r.Valid) : r.reset.contents = [] := by
  rw [hv.reset.contents_eq_nil_iff]
  simp only [liveTail]
  split <;> rfl

end KeyBridge.ByteRing
