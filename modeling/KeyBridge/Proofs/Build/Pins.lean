import KeyBridge.Build.Check
import KeyBridge.Proofs.Config.Written

/-!
# Names of pins

The check before the build and the reader of configurations take the same names for pins. The check
skips the marks in front of a name, all at once, and the reader takes note of them one by one.

## Key results

- `pinNamed?_eq`: both find the same pin under a name, and the marks tell how it is used
- `pin_readers_agree`: they take and refuse the same texts
- `isPinChar_of_pinNumber?`: the characters of the name of a pin
-/

namespace KeyBridge.Build

open Config (inQuotes pinNamed? readPin)
open Text

variable {c : Char} {s start rest : List Char}

/-- Whether a character is a mark in front of the name of a pin. -/
def isMark (c : Char) : Bool := c == '^' || c == '!'

/-- The marks of a pin are those of inversion and of the pull-up. -/
theorem isMark_iff : isMark c = true ↔ c = '!' ∨ c = '^' := by
  simp [isMark, or_comm]

/-- Without marks, what is left is `gpio` and a number up to `maxPin`. -/
theorem pinNamed?_of_not_isMark (i p : Bool) (h : ∀ c, s.head? = some c → isMark c = false) :
    pinNamed? i p s =
      (((after? "gpio".toList s).bind byte?).filter (· ≤ maxPin)).map fun n => ⟨n, i, p⟩ := by
  unfold pinNamed?
  split
  -- The first two branches read a mark, which there is not.
  · exact absurd (h '!' rfl) (by decide)
  · exact absurd (h '^' rfl) (by decide)
  · cases (after? "gpio".toList s).bind byte? with
    | none => rfl
    | some n =>
      dsimp only
      rw [Option.filter_some]
      split <;> simp_all

/-- The marks in front of a name tell how the pin is used, and the rest of it which pin it is. -/
theorem pinNamed?_eq (i p : Bool) (s : List Char) :
    pinNamed? i p s = (pinNumber? s).map fun n =>
      ⟨n, i || (s.takeWhile isMark).contains '!', p || (s.takeWhile isMark).contains '^'⟩ := by
  have hmarks : ∀ m ∈ s.takeWhile isMark, m = '!' ∨ m = '^' :=
    fun m hm => isMark_iff.mp (List.all_eq_true.mp List.all_takeWhile m hm)
  have hrest : ∀ c, (s.dropWhile isMark).head? = some c → isMark c = false := by
    intro c hc
    have hnot := List.head?_dropWhile_not isMark s
    rw [hc] at hnot
    exact hnot
  -- The marks come first: each of them sets its flag, and what follows them is the name of the pin.
  calc pinNamed? i p s
      = pinNamed? i p (s.takeWhile isMark ++ s.dropWhile isMark) := by
        rw [List.takeWhile_append_dropWhile]
    _ = pinNamed? (i || (s.takeWhile isMark).contains '!')
          (p || (s.takeWhile isMark).contains '^') (s.dropWhile isMark) :=
        Config.pinNamed?_marks hmarks i p _
    _ = _ := pinNamed?_of_not_isMark _ _ hrest

/-- The number of a pin does not depend on its marks. -/
theorem pinNamed?_number (i p : Bool) (s : List Char) :
    (pinNamed? i p s).map (·.number) = pinNumber? s := by
  rw [pinNamed?_eq, Option.map_map]
  exact Option.map_id'

/-- A pin in quotes is read as the text between them. -/
theorem readPin_inQuotes (s : List Char) :
    readPin (inQuotes s) = Config.orError .invalidPin (pinNamed? false false s) := by
  rw [readPin, Config.quoted?_inQuotes]

/-- The check and the reader agree on every text in quotes. They find the same pin in it, and it is
inverted or pulled up if `!` or `^` is among the marks in front of its name. Where the check finds
none, the reader refuses the text as that of a pin, and only there. -/
theorem pin_readers_agree (s : List Char) :
    (∀ n, pinNumber? s = some n ↔ ∃ pin, readPin (inQuotes s) = .ok pin ∧ pin.number = n) ∧
    (∀ pin, readPin (inQuotes s) = .ok pin →
      (pin.inverted ↔ '!' ∈ s.takeWhile isMark) ∧ (pin.pullUp ↔ '^' ∈ s.takeWhile isMark)) ∧
    (pinNumber? s = none ↔ readPin (inQuotes s) = .error .invalidPin) := by
  rw [readPin_inQuotes, pinNamed?_eq]
  cases pinNumber? s with
  | none => simp [Config.orError]
  | some n =>
    refine ⟨fun m => ?_, ?_, ?_⟩
    · simp [Config.orError]
    · rintro _ ⟨⟩
      simp
    · simp [Config.orError]

/-- Marks may come twice, and the number may have a plus sign and leading zeros. -/
theorem pin_readers_agree_marks :
    pinNumber? "^!^gpio+007".toList = some 7 ∧
      ∃ pin, readPin (inQuotes "^!^gpio+007".toList) = .ok pin ∧ pin.number = 7 ∧
        pin.inverted ∧ pin.pullUp := by
  obtain ⟨hnumber, hmarks, -⟩ := pin_readers_agree "^!^gpio+007".toList
  have hseven : pinNumber? "^!^gpio+007".toList = some 7 := by decide
  obtain ⟨pin, hpin, hn⟩ := (hnumber 7).mp hseven
  obtain ⟨hinverted, hpullUp⟩ := hmarks pin hpin
  exact ⟨hseven, pin, hpin, hn, hinverted.mpr (by decide), hpullUp.mpr (by decide)⟩

/-! ## Characters -/

/-- `after?` takes a start away and leaves the rest. -/
theorem eq_of_after? (h : after? start s = some rest) : s = start ++ rest := by
  rw [after?] at h
  split at h
  · next hp =>
    obtain ⟨t, rfl⟩ := List.isPrefixOf_iff_prefix.mp hp
    cases h
    simp
  · cases h

/-- Whether a character can stand in the name of a pin. -/
def isPinChar (c : Char) : Bool := isMark c || "gpio+".toList.contains c || c.isDigit

/-- A number of a byte consists of characters of a pin name: digits, and a plus at most. -/
theorem isPinChar_of_byte? {n : UInt8} (h : byte? s = some n) : ∀ c ∈ s, isPinChar c = true := by
  obtain ⟨m, hm, -⟩ := Option.map_eq_some_iff.mp h
  rw [decimal?] at hm
  split at hm
  · next hs =>
    have hdigits : ∀ c ∈ dropPlus s, isPinChar c = true := by
      intro c hc
      simp [isPinChar, List.all_eq_true.mp hs.2.1 c hc]
    intro c hc
    -- A leading plus is dropped before the digits are looked at.
    unfold dropPlus at hdigits
    split at hdigits
    · obtain rfl | hc := List.mem_cons.mp hc
      · decide
      · exact hdigits c hc
    · exact hdigits c hc
  · contradiction

/-- The name of a pin is made of marks, the four letters, digits and perhaps a plus sign. -/
theorem isPinChar_of_pinNumber? {n : UInt8} (h : pinNumber? s = some n) :
    ∀ c ∈ s, isPinChar c = true := by
  have hname : ∃ m, (after? "gpio".toList (s.dropWhile isMark)).bind byte? = some m := by
    obtain ⟨hm, -⟩ := Option.filter_eq_some_iff.mp h
    exact ⟨n, hm⟩
  obtain ⟨m, hm⟩ := hname
  obtain ⟨ds, hds, hm⟩ := Option.bind_eq_some_iff.mp hm
  intro c hc
  rw [← List.takeWhile_append_dropWhile (p := isMark) (l := s), eq_of_after? hds,
    List.mem_append, List.mem_append] at hc
  -- A character is one of the marks, of `gpio` or of the number.
  obtain hc | hc | hc := hc
  · have hmark : isMark c = true := List.all_eq_true.mp List.all_takeWhile c hc
    simp [isPinChar, hmark]
  · have hletters : ∀ c ∈ "gpio".toList, isPinChar c = true := forall_mem_of_all (by decide)
    exact hletters c hc
  · exact isPinChar_of_byte? hm c hc

end KeyBridge.Build
