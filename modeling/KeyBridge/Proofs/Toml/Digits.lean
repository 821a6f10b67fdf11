import KeyBridge.Proofs.Text.Pieces
import KeyBridge.Text
import KeyBridge.Toml.Datetime

/-!
# Numbers in decimal

Digits alone are read as an integer in decimal, and are neither a float, a date nor a time of day.

## Key results

- `digits?_of_isDigit` / `ofDigits_digits`: the number that digits stand for
- `isDatetime_of_digits` / `isFloat_of_digits`: they are neither of these
- `plainDigits?_of_isDigit` / `integer?_of_digits`: they are read as an integer in decimal
-/

namespace KeyBridge.Toml

open Text (digitsValue dropWhile_all dropWhile_stretch takeWhile_stretch)

variable {c : Char} {s : List Char}

/-- The value of a digit. -/
def digit (c : Char) : Nat := c.toNat - '0'.toNat

/-- A decimal digit is read as its value. -/
theorem digitValue?_of_isDigit (hc : c.isDigit = true) : digitValue? 10 c = some (digit c) := by
  have hrange : '0' ≤ c ∧ c ≤ '9' := by
    simpa [Char.isDigit, Char.le_def] using hc
  have hlt : c.toNat - '0'.toNat < 10 := by
    have := UInt32.le_iff_toNat_le.mp hrange.2
    have h9 : '9'.val.toNat = 57 := rfl
    have h0 : '0'.toNat = 48 := rfl
    simp only [Char.toNat] at *
    omega
  simp only [digitValue?, hrange, and_self, if_true, hlt]
  rfl

/-- A row of decimal digits is read as the row of their values. -/
theorem digits?_of_isDigit (hs : ∀ c ∈ s, c.isDigit = true) (hne : s ≠ []) :
    digits? 10 s = some (s.map digit) := by
  -- On the digits; no underscore stands between them, so that the next one follows at once.
  induction s with
  | nil => exact absurd rfl hne
  | cons c s ih =>
    have hc := digitValue?_of_isDigit (hs c List.mem_cons_self)
    have hs' : ∀ x ∈ s, x.isDigit = true := fun x hx => hs x (List.mem_cons_of_mem c hx)
    cases s with
    | nil => simp [digits?, hc]
    | cons d s =>
      have hd : d ≠ '_' := by
        rintro rfl
        exact absurd (hs' _ List.mem_cons_self) (by decide)
      rw [digits?, hc, ih hs' (by simp)]
      · rfl
      all_goals simp_all

/-- Digits stand for the same number to both readers. -/
theorem ofDigits_digits (s : List Char) : ofDigits 10 (s.map digit) = digitsValue s := by
  rw [ofDigits, digitsValue, List.foldl_map]
  rfl

/-- Zero is the only digit without a value. -/
theorem digit_eq_zero_iff (hc : c.isDigit = true) : digit c = 0 ↔ c = '0' := by
  constructor
  · intro h
    have hle : '0'.toNat ≤ c.toNat := by
      have hrange : '0' ≤ c := by
        simp only [Char.isDigit, Bool.and_eq_true, decide_eq_true_eq] at hc
        exact hc.1
      exact UInt32.le_iff_toNat_le.mp hrange
    exact Char.toNat_inj.mp (Nat.le_antisymm (Nat.sub_eq_zero_iff_le.mp h) hle)
  · rintro rfl
    rfl

/-- Digits are refused if there is a zero in front of others. -/
theorem plainDigits?_of_isDigit (hs : ∀ c ∈ s, c.isDigit = true) (hne : s ≠ []) :
    plainDigits? s =
      if s.head? = some '0' → s.length = 1 then some (s.map digit) else none := by
  rw [plainDigits?, digits?_of_isDigit hs hne]
  match s, hne with
  | [c], _ => simp
  | c :: d :: s, _ =>
    have hc := digit_eq_zero_iff (hs c List.mem_cons_self)
    by_cases hzero : c = '0'
    · simp [hzero, show digit '0' = 0 from rfl]
    · have hdigit : digit c ≠ 0 := fun h => hzero (hc.mp h)
      simp only [List.map_cons, List.head?_cons, Option.some.injEq, hzero, false_implies, if_true]
      split
      · next heq => exact absurd (List.cons.inj (Option.some.inj heq)).1 hdigit
      · rfl

/-- The integers of 64 bits. -/
theorem inRange?_eq (n : Int) :
    inRange? n =
      if -9223372036854775808 ≤ n ∧ n ≤ 9223372036854775807 then some n else none :=
  rfl

/-! ## Signs -/

/-- A digit is no sign. -/
theorem not_sign_of_isDigit (hc : c.isDigit = true) : c ≠ '-' ∧ c ≠ '+' := by
  constructor <;> rintro rfl <;> exact absurd hc (by decide)

/-- Only the first character can be the sign. -/
theorem mem_unsign_of_mem_drop (h : c ∈ s.drop 1) : c ∈ (unsign s).2 := by
  unfold unsign
  split
  · exact h
  · exact h
  · exact List.mem_of_mem_drop h

/-- A sign that is taken off leaves every other character. -/
theorem mem_unsign_of_mem (h : c ∈ s) (hc : c ≠ '-' ∧ c ≠ '+') : c ∈ (unsign s).2 := by
  unfold unsign
  split
  · exact (List.mem_cons.mp h).resolve_left hc.1
  · exact (List.mem_cons.mp h).resolve_left hc.2
  · exact h

/-! ## Digits with a sign -/

variable (hs : ∀ c ∈ (unsign s).2, c.isDigit = true)

include hs

/-- After its first character, a number holds nothing but digits. -/
theorem isDigit_of_getElem? {i : Nat} (h : s[i + 1]? = some c) : c.isDigit = true := by
  apply hs c
  apply mem_unsign_of_mem_drop
  apply List.mem_of_getElem?
  rw [List.getElem?_drop, Nat.add_comm 1 i]
  exact h

/-- A text that begins like a row of digits is no date, as it has no dash. -/
theorem not_isDate_of_digits (t : List Char)
    (ht : ∀ (i : Nat) c, t[i]? = some c → s[i]? = some c) : isDate t = false := by
  cases h : isDate t with
  | false => rfl
  | true =>
    unfold isDate at h
    split at h
    · simp only [Bool.and_eq_true, beq_iff_eq] at h
      have hdash : t[4]? = some '-' := h.1.1.1.1.1
      exact absurd (isDigit_of_getElem? hs (ht 4 _ hdash)) (by decide)
    · exact nomatch h

/-- Digits alone are neither a date nor a time of day. -/
theorem isDatetime_of_digits : isDatetime s = false := by
  -- A time has a colon where a row of digits has a digit.
  have htime : isTime s = false := by
    cases h : isTime s with
    | false => rfl
    | true =>
      simp only [isTime, Bool.and_eq_true, beq_iff_eq] at h
      exact absurd (isDigit_of_getElem? hs h.1.1.2) (by decide)
  have hprefix : ∀ (i : Nat) c, (s.take 10)[i]? = some c → s[i]? = some c := by
    intro i c h
    rw [List.getElem?_take] at h
    split at h
    · exact h
    · exact nomatch h
  rw [isDatetime, not_isDate_of_digits hs s fun _ _ h => h, htime,
    not_isDate_of_digits hs (s.take 10) hprefix]
  rfl

/-- Digits alone are no float. -/
theorem isFloat_of_digits : isFloat s = false := by
  have hmark : ∀ c ∈ (unsign s).2, (!isExponentMark c) = true := by
    intro c hc
    simp only [isExponentMark, Bool.not_eq_true', Bool.or_eq_false_iff, beq_eq_false_iff_ne]
    constructor <;> rintro rfl <;> exact absurd (hs _ hc) (by decide)
  have hpoint : ∀ c ∈ (unsign s).2, (c != '.') = true := by
    intro c hc
    simp only [bne_iff_ne]
    rintro rfl
    exact absurd (hs _ hc) (by decide)
  -- There is neither an exponent nor a point, so that nothing makes a float of the digits.
  have hmantissa : (unsign s).2.takeWhile (!isExponentMark ·) = (unsign s).2 := by
    simpa using takeWhile_stretch (b := []) hmark (by simp)
  have hname : (unsign s).2 ≠ ['i', 'n', 'f'] ∧ (unsign s).2 ≠ ['n', 'a', 'n'] := by
    constructor <;> intro heq <;> exact absurd (hs 'n' (by simp [heq])) (by decide)
  simp only [isFloat, hname, or_self, if_false, hmantissa, dropWhile_all hmark,
    dropWhile_all hpoint]
  rfl

/-- Digits are read in decimal, since no letter after a zero is the mark of another base. -/
theorem integer?_of_digits : integer? s =
    (plainDigits? (unsign s).2).bind fun ds =>
      inRange? (if (unsign s).1 then - (ofDigits 10 ds : Int) else ofDigits 10 ds) := by
  have hbase : ∀ c rest, s = '0' :: c :: rest → c.isDigit = true := by
    intro c rest heq
    exact isDigit_of_getElem? hs (i := 0) (by rw [heq]; rfl)
  unfold integer?
  split
  · exact absurd (hbase _ _ rfl) (by decide)
  · exact absurd (hbase _ _ rfl) (by decide)
  · exact absurd (hbase _ _ rfl) (by decide)
  · rfl

end KeyBridge.Toml
