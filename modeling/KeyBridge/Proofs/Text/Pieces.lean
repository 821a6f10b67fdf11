import KeyBridge.Text

/-!
# Pieces of text

What trimming, cutting and splitting into lines do to a text that is put together from pieces.

## Key results

- `trim_pad`: the blanks around a text whose ends are not blank are taken off
- `trimEnd_append_cons`: what comes before a character that is not blank stays
- `cut?_append` / `cut?_of_not_mem`: a text is cut at the first occurrence of a character
- `lines_append` / `lines_of_not_mem`: a text is split at line feeds
-/

namespace KeyBridge.Text

variable {a b l r s : List Char} {c : Char}

/-! ## Stretches of characters -/

/-- A stretch of characters ends where the first character of another kind stands. -/
theorem takeWhile_stretch {p : Char → Bool} (ha : ∀ c ∈ a, p c = true)
    (hb : ∀ c, b.head? = some c → p c = false) : (a ++ b).takeWhile p = a := by
  rw [List.takeWhile_append_of_pos ha]
  cases b with
  | nil => simp
  | cons c b => simp [hb c rfl]

/-- A stretch of what is dropped is dropped as a whole, up to what is kept. -/
theorem dropWhile_stretch {p : Char → Bool} (ha : ∀ c ∈ a, p c = true)
    (hb : ∀ c, b.head? = some c → p c = false) : (a ++ b).dropWhile p = b := by
  rw [List.dropWhile_append_of_pos ha]
  cases b with
  | nil => simp
  | cons c b => simp [hb c rfl]

/-- Nothing is left of what is dropped. -/
theorem dropWhile_all {p : Char → Bool} (ha : ∀ c ∈ a, p c = true) : a.dropWhile p = [] := by
  simpa using dropWhile_stretch (b := []) ha (by simp)

/-! ## Trimming -/

@[simp] theorem trimEnd_nil : trimEnd [] = [] := rfl

/-- Blanks at the end are trimmed. -/
theorem trimEnd_append (hr : ∀ c ∈ r, isBlank c = true) : trimEnd (s ++ r) = trimEnd s := by
  rw [trimEnd, List.reverse_append, List.dropWhile_append_of_pos (by simpa using hr), trimEnd]

/-- What comes before a character that is not blank stays. -/
theorem trimEnd_append_cons (hc : isBlank c = false) :
    trimEnd (a ++ c :: s) = a ++ c :: trimEnd s := by
  -- Seen from the end, the blanks of `s` come first, and `c` stops them.
  have hstop : (s.reverse ++ c :: a.reverse).dropWhile isBlank =
      s.reverse.dropWhile isBlank ++ c :: a.reverse := by
    rw [List.dropWhile_append]
    split
    · next h =>
      rw [List.isEmpty_iff.mp h]
      simp [hc]
    · rfl
  simp [trimEnd, hstop]

/-- Blanks in front are trimmed. -/
theorem trim_append_left (hl : ∀ c ∈ l, isBlank c = true) : trim (l ++ s) = trim s := by
  rw [trim, List.dropWhile_append_of_pos hl, trim]

/-- Blanks alone are nothing. -/
theorem trim_of_blank (hl : ∀ c ∈ l, isBlank c = true) : trim l = [] := by
  simpa using trim_append_left (s := []) hl

/-- Blanks behind are trimmed. -/
theorem trim_append_right (hr : ∀ c ∈ r, isBlank c = true) : trim (s ++ r) = trim s := by
  rw [trim, List.dropWhile_append]
  split
  · next h =>
    rw [trim, List.isEmpty_iff.mp h, dropWhile_all hr]
  · rw [trimEnd_append hr, trim]

/-- A text without blanks in front is only trimmed at its end. -/
theorem trim_of_head (h : ∀ c, s.head? = some c → isBlank c = false) : trim s = trimEnd s := by
  cases s with
  | nil => rfl
  | cons c s => rw [trim, List.dropWhile_cons_of_neg (by simp [h c rfl])]

/-- A text without blanks at its end is not trimmed there. -/
theorem trimEnd_of_last (h : ∀ c, s.getLast? = some c → isBlank c = false) : trimEnd s = s := by
  obtain rfl | ⟨a, c, rfl⟩ := s.eq_nil_or_concat
  · rfl
  · have hc : isBlank c = false := h c (by simp)
    simpa using trimEnd_append_cons (a := a) (s := []) hc

/-- The blanks around a text whose ends are not blank are taken off. -/
theorem trim_pad (hl : ∀ c ∈ l, isBlank c = true) (hr : ∀ c ∈ r, isBlank c = true)
    (hfirst : ∀ c, s.head? = some c → isBlank c = false)
    (hlast : ∀ c, s.getLast? = some c → isBlank c = false) : trim (l ++ (s ++ r)) = s := by
  rw [trim_append_left hl, trim_append_right hr, trim_of_head hfirst, trimEnd_of_last hlast]

/-! ## Cutting -/

/-- Where a character does not occur, every one is another. -/
theorem mem_takeWhile_ne (h : c ∉ a) : ∀ x ∈ a, (x != c) = true := by
  intro x hx
  simpa using fun hxc : x = c => h (hxc ▸ hx)

/-- A text is cut at the first occurrence of a character. -/
theorem cut?_append (h : c ∉ a) : cut? c (a ++ c :: b) = some (a, b) := by
  have hb : ∀ x, (c :: b).head? = some x → (x != c) = false := by simp
  rw [cut?, dropWhile_stretch (mem_takeWhile_ne h) hb, takeWhile_stretch (mem_takeWhile_ne h) hb]

/-- A text cannot be cut at a character that does not occur. -/
theorem cut?_of_not_mem (h : c ∉ s) : cut? c s = none := by
  rw [cut?, dropWhile_all (mem_takeWhile_ne h)]

/-! ## Lines -/

/-- The first line of a text ends at the first line feed. -/
theorem lines_append (h : '\n' ∉ a) (b : List Char) : lines (a ++ '\n' :: b) = a :: lines b := by
  induction a with
  | nil => exact lines_newline b
  | cons c a ih =>
    simp only [List.mem_cons, not_or] at h
    have hc : c ≠ '\n' := fun hc => h.1 hc.symm
    have := ih h.2
    rw [lines] at this ⊢
    rw [List.cons_append, List.foldr_cons, this, if_neg hc]

/-- A text without line feeds is one line. -/
theorem lines_of_not_mem (h : '\n' ∉ s) : lines s = [s] := by
  induction s with
  | nil => rfl
  | cons c s ih =>
    simp only [List.mem_cons, not_or] at h
    have hc : c ≠ '\n' := fun hc => h.1 hc.symm
    have := ih h.2
    rw [lines] at this ⊢
    rw [List.foldr_cons, this, if_neg hc]

end KeyBridge.Text
