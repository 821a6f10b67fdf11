import KeyBridge.Proofs.Build.Accepted
import KeyBridge.Proofs.Toml.Plain

/-!
# Accepted values

The reader of configurations takes every plain value that the check before the build accepts.

## Key results

- `hash_not_mem_of_accepted`: such a value holds no `#`
- `apply_of_accepted`: it can be applied
- `readPin_of_isPinName`: the pin that it names
-/

namespace KeyBridge.Build

open Config (Key)
open Plain (isTextChar)
open Text

variable {v : Plain.Value} {x : Toml.Value} {key : Key} {name : List Char} {n : Int} {max : Nat}

/-! ## Plain values -/

/-- A text in quotes is read as what stands between them. -/
theorem quoted?_text (stand : ∀ c ∈ name, isTextChar c = true) :
    Config.quoted? (Plain.Value.text name stand).render = some name := by
  have hrender : (Plain.Value.text name stand).render = '"' :: (name ++ ['"']) := rfl
  rw [hrender, Config.quoted?]
  simp

/-- Only a text is a string of TOML. -/
theorem text_of_string (h : v.toml? = some (.string name)) : ∃ stand, v = .text name stand := by
  cases v with
  | text chars stand =>
    cases h
    exact ⟨stand, rfl⟩
  | number => exact nomatch Plain.Value.integer_of_toml? h
  | truth => exact nomatch h

/-- A string of TOML is read as its name. -/
theorem quoted?_of_string (h : v.toml? = some (.string name)) :
    Config.quoted? v.render = some name := by
  obtain ⟨stand, rfl⟩ := text_of_string h
  exact quoted?_text stand

/-- Digits begin with no plus. -/
theorem dropPlus_of_isDigit {s : List Char} (hs : ∀ c ∈ s, c.isDigit = true) :
    dropPlus s = s := by
  unfold dropPlus
  split
  · exact absurd (hs '+' List.mem_cons_self) (by decide)
  · rfl

/-- A positive integer is the same number to the reader of numbers without a minus sign. -/
theorem decimal?_of_integer (h : v.toml? = some (.integer n)) (hpos : 1 ≤ n) (hmax : n ≤ max) :
    decimal? max v.render = some n.toNat ∧ Config.quoted? v.render = none := by
  cases v with
  | text => exact nomatch h
  | truth => exact nomatch h
  | number sign digits ne_nil areDigits =>
    obtain rfl : n = sign.apply (digitsValue digits) :=
      Toml.Value.integer.inj (Plain.Value.integer_of_toml? h)
    have hplus : dropPlus (sign.render ++ digits) = digits ∧
        (sign.apply (digitsValue digits)).toNat = digitsValue digits := by
      cases sign with
      | none => exact ⟨dropPlus_of_isDigit areDigits, rfl⟩
      | plus => exact ⟨rfl, rfl⟩
      | minus =>
        -- With a minus sign the integer is not positive.
        simp only [Plain.Sign.apply] at hpos
        omega
    have hall : digits.all Char.isDigit = true := List.all_eq_true.mpr areDigits
    constructor
    · simp only [Plain.Value.render, decimal?, hplus.1, hplus.2]
      exact if_pos ⟨ne_nil, hall, by omega⟩
    · -- A number begins with no quote.
      have hquote : ∀ c ∈ sign.render ++ digits, c ≠ '"' := by
        intro c hc
        rw [List.mem_append] at hc
        obtain hc | hc := hc
        · have hrender : ∀ c ∈ sign.render, c ≠ '"' := by
            cases sign <;> simp [Plain.Sign.render]
          exact hrender c hc
        · rintro rfl
          exact absurd (areDigits _ hc) (by decide)
      rw [Plain.Value.render, Config.quoted?]
      intro rest heq
      exact hquote '"' (heq ▸ List.mem_cons_self) rfl

/-! ## Characters -/

/-- No `#` stands in a plain value, unless it is a string with one. -/
theorem hash_not_mem (h : ∀ name, v.toml? = some (.string name) → '#' ∉ name) :
    '#' ∉ v.render := by
  cases v with
  | text chars stand => simp [Plain.Value.render, h chars rfl]
  | number sign digits ne_nil areDigits =>
    have hdigits : '#' ∉ digits := fun hmem => absurd (areDigits _ hmem) (by decide)
    cases sign <;> simp [Plain.Value.render, Plain.Sign.render, hdigits]
  | truth b => cases b <;> decide

/-- An accepted value holds no `#`. -/
theorem hash_not_mem_of_accepted (hv : v.toml? = some x) (h : Accepted key x)
    (hwheel : key = .wheel → v.isTruth = true) : '#' ∉ v.render := by
  apply hash_not_mem
  intro name hname
  -- The names of protocols and code sets are words, and those of pins have their own characters.
  have hamong : ∀ names : List String, (∀ s ∈ names, '#' ∉ s.toList) → IsAmong names x →
      '#' ∉ name := by
    rintro names hnames ⟨s, hs, rfl⟩
    cases hname.symm.trans hv
    exact hnames s hs
  -- An integer is no string, so that there is nothing to show for the keys that want one.
  have hinteger : ∀ max, ¬IsIntegerUpTo max x := by
    rintro max ⟨n, rfl, -⟩
    exact nomatch hname.symm.trans hv
  cases key with
  | protocol => exact hamong protocolNames (by decide) h
  | codeSet => exact h.elim (absurd · (hinteger 3)) (hamong _ (by decide))
  | dataPin | clockPin | ledPin =>
    obtain ⟨_, n, rfl, hn⟩ := h
    cases hname.symm.trans hv
    exact fun hmem => absurd (isPinChar_of_pinNumber? hn _ hmem) (by decide)
  | stallPeriod | responseTimeout => exact absurd h (hinteger 60000)
  | ackStalls | idStalls => exact absurd h (hinteger 255)
  | wheel =>
    obtain ⟨stand, rfl⟩ := text_of_string hname
    exact nomatch hwheel rfl

/-! ## Applying -/

/-- The name of a pin is read as the pin of that number. -/
theorem readPin_of_isPinName (hv : v.toml? = some x) (h : IsPinName x) :
    ∃ pin name, Config.readPin v.render = .ok pin ∧ x = .string name ∧
      pinNumber? name = some pin.number := by
  obtain ⟨name, n, rfl, hn⟩ := h
  have hnumber := (pinNamed?_number false false name).trans hn
  obtain ⟨pin, hpin, rfl⟩ := Option.map_eq_some_iff.mp hnumber
  refine ⟨pin, name, ?_, rfl, hn⟩
  rw [Config.readPin, quoted?_of_string hv]
  simp only [hpin]
  rfl

/-- An integer from 1 to 255 is read as a byte. -/
theorem readPositiveByte_of_isIntegerUpTo (hv : v.toml? = some x) (h : IsIntegerUpTo 255 x) :
    ∃ n, Config.readPositiveByte v.render = .ok n := by
  obtain ⟨n, rfl, hpos, hmax⟩ := h
  have hread := (decimal?_of_integer hv hpos hmax).1
  have hne : UInt8.ofNat n.toNat ≠ 0 := by
    intro h
    -- A number from 1 to 255 is no multiple of 256.
    have hbyte : n.toNat % 256 = 0 := congrArg UInt8.toNat h
    omega
  refine ⟨UInt8.ofNat n.toNat, ?_⟩
  rw [Config.readPositiveByte, byte?, hread, Option.map_some, Option.filter_some,
    if_pos (bne_iff_ne.mpr hne)]
  rfl

/-- An integer from 1 to 60000 is read as a word. -/
theorem readPositiveWord_of_isIntegerUpTo (hv : v.toml? = some x) (h : IsIntegerUpTo 60000 x) :
    ∃ n, Config.readPositiveWord v.render = .ok n := by
  obtain ⟨n, rfl, hpos, hmax⟩ := h
  have hlimit : n ≤ (4294967295 : Nat) := by omega
  have hread := (decimal?_of_integer hv hpos hlimit).1
  -- The integer is not zero, and neither is the word, which is wide enough.
  have hne : UInt32.ofNat n.toNat ≠ 0 := by
    intro h
    have hword : n.toNat % 4294967296 = 0 := congrArg UInt32.toNat h
    omega
  refine ⟨UInt32.ofNat n.toNat, ?_⟩
  rw [Config.readPositiveWord, word?, hread, Option.map_some, Option.filter_some,
    if_pos (bne_iff_ne.mpr hne)]
  rfl

/-- An integer from 1 to 3 is read as a code set. -/
theorem codeSet?_of_isIntegerUpTo (hv : v.toml? = some x) (h : IsIntegerUpTo 3 x) :
    ∃ s, Config.codeSet? v.render = some s := by
  obtain ⟨n, rfl, hpos, hmax⟩ := h
  have hlimit : n ≤ (255 : Nat) := by omega
  obtain ⟨hread, hquoted⟩ := decimal?_of_integer hv hpos hlimit
  rw [Config.codeSet?, hquoted, byte?, hread]
  -- There are three code sets, each with its number.
  have hn : n = 1 ∨ n = 2 ∨ n = 3 := by omega
  obtain rfl | rfl | rfl := hn
  · exact ⟨.set1, rfl⟩
  · exact ⟨.set2, rfl⟩
  · exact ⟨.set3, rfl⟩

/-- The name of a code set is read as one. -/
theorem codeSet?_of_isAmong (hv : v.toml? = some x) (h : IsAmong ["set1", "set2", "set3"] x) :
    ∃ s, Config.codeSet? v.render = some s := by
  obtain ⟨name, hname, rfl⟩ := h
  rw [Config.codeSet?, quoted?_of_string hv]
  have hnames : ∀ s ∈ ["set1", "set2", "set3"], (((after? "set".toList s.toList).bind byte?).bind
      Config.CodeSet.ofNumber?).isSome = true := by decide
  exact Option.isSome_iff_exists.mp (hnames name hname)

/-- An accepted value can be applied. -/
theorem apply_of_accepted (hv : v.toml? = some x) (h : Accepted key x)
    (hwheel : key = .wheel → v.isTruth = true) (c : Config) :
    ∃ c', c.apply key v.render = .ok c' := by
  cases key with
  | protocol =>
    obtain ⟨name, hname, rfl⟩ := h
    -- Both programs have a table of names: each name in the one is in the other.
    have hnames : ∀ s ∈ protocolNames, (Config.Protocol.ofName? s.toList).isSome = true := by
      decide
    obtain ⟨p, hp⟩ := Option.isSome_iff_exists.mp (hnames name hname)
    exact ⟨_, by rw [Config.apply, quoted?_of_string hv, Option.bind_some, hp]; rfl⟩
  | codeSet =>
    obtain ⟨s, hs⟩ := h.elim (codeSet?_of_isIntegerUpTo hv) (codeSet?_of_isAmong hv)
    exact ⟨_, by rw [Config.apply, hs]; rfl⟩
  | dataPin | clockPin | ledPin =>
    obtain ⟨pin, -, hpin, -⟩ := readPin_of_isPinName hv h
    exact ⟨_, by rw [Config.apply, hpin]; rfl⟩
  | stallPeriod | responseTimeout =>
    obtain ⟨n, hn⟩ := readPositiveWord_of_isIntegerUpTo hv h
    exact ⟨_, by rw [Config.apply, hn]; rfl⟩
  | ackStalls | idStalls =>
    obtain ⟨n, hn⟩ := readPositiveByte_of_isIntegerUpTo hv h
    exact ⟨_, by rw [Config.apply, hn]; rfl⟩
  | wheel =>
    cases v with
    | truth b => cases b <;> exact ⟨_, rfl⟩
    | _ => exact absurd (hwheel rfl) Bool.false_ne_true

end KeyBridge.Build
