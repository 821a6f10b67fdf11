import KeyBridge.Config.Reader

/-!
# Ranges of settings

The reader of configurations looks at each value by itself as it comes, and at the pins together
when the whole text has been read. Whatever comes in whatever order, the values are in their ranges
all along: the default ones are, and a setting replaces one of them by another one.

## Key results

- `InRange.apply`, `InRange.next`: a setting and a line keep the values in their ranges
- `InRange.readLines`: so do any lines that can be read
- `sound_of_read`: and the pins fit together after a whole text
-/

namespace KeyBridge.Config

/-- The values of a configuration are in their ranges. -/
structure InRange (c : Config) : Prop where
  stallPeriod_ne : c.timing.stallPeriod ≠ 0
  ackStalls_ne : c.timing.ackStalls ≠ 0
  idStalls_ne : c.timing.idStalls ≠ 0
  responseTimeout_ne : c.timing.responseTimeout ≠ 0
  dataPin_le : c.dataPin.number ≤ maxPin
  clockPin_le : c.clockPin.number ≤ maxPin
  ledPin_le : ∀ led ∈ c.ledPin, led.number ≤ maxPin

/-- A configuration that the converter can run with. -/
structure Sound (c : Config) : Prop extends InRange c where
  clockPin_eq : c.clockPin.number.toNat = c.dataPin.number.toNat + 1
  ledPin_ne : ∀ led ∈ c.ledPin, led.number ≠ c.dataPin.number ∧ led.number ≠ c.clockPin.number

variable {c c' : Config} {value : List Char}

/-- The default configuration is in range. -/
theorem inRange_default : InRange {} where
  stallPeriod_ne := by decide
  ackStalls_ne := by decide
  idStalls_ne := by decide
  responseTimeout_ne := by decide
  dataPin_le := by decide
  clockPin_le := by decide
  ledPin_le := nofun

/-! ## Values -/

/-- A mapped result is good only if there was one to map. -/
theorem map_eq_ok {α β : Type} {f : α → β} {r : Except ReadError α} {b : β}
    (h : r.map f = .ok b) : ∃ a, r = .ok a ∧ f a = b := by
  cases r with
  | error => exact nomatch h
  | ok a => exact ⟨a, rfl, Except.ok.inj h⟩

/-- A sequence is good only if both of its parts are. -/
theorem bind_eq_ok {α β : Type} {r : Except ReadError α} {f : α → Except ReadError β} {b : β}
    (h : r >>= f = .ok b) : ∃ a, r = .ok a ∧ f a = .ok b := by
  cases r with
  | error => exact nomatch h
  | ok a => exact ⟨a, rfl, h⟩

/-- `orError` is good only if there is something. -/
theorem orError_eq_ok {α : Type} {e : ReadError} {o : Option α} {a : α}
    (h : orError e o = .ok a) : o = some a := by
  cases o with
  | none => exact nomatch h
  | some b => exact congrArg some (Except.ok.inj h)

/-- A pin that is named is one of the chip. -/
theorem number_le_of_pinNamed? {inverted pullUp : Bool} {name : List Char} {pin : Pin}
    (h : pinNamed? inverted pullUp name = some pin) : pin.number ≤ maxPin := by
  -- The marks change only how the pin is used; its number is compared behind the last of them.
  fun_induction pinNamed? inverted pullUp name with
  | case1 _ _ rest ih => exact ih h
  | case2 _ _ rest ih => exact ih h
  | case3 _ _ _ _ _ _ _ hle =>
    cases h
    exact hle
  | case4 => exact nomatch h
  | case5 => exact nomatch h

/-- A pin that is read is within the chip. -/
theorem number_le_of_readPin {pin : Pin} (h : readPin value = .ok pin) : pin.number ≤ maxPin := by
  unfold readPin at h
  split at h
  · exact number_le_of_pinNamed? (orError_eq_ok h)
  · exact nomatch h

/-- A positive byte that is read is not zero. -/
theorem readPositiveByte_ne {n : UInt8} (h : readPositiveByte value = .ok n) : n ≠ 0 := by
  simpa using (Option.filter_eq_some_iff.mp (orError_eq_ok h)).2

/-- A positive word that is read is not zero. -/
theorem readPositiveWord_ne {n : UInt32} (h : readPositiveWord value = .ok n) : n ≠ 0 := by
  simpa using (Option.filter_eq_some_iff.mp (orError_eq_ok h)).2

/-! ## Settings -/

/-- A setting keeps the values in their ranges. -/
theorem InRange.apply {key : Key} (hc : c.InRange) (h : c.apply key value = .ok c') :
    c'.InRange := by
  cases key <;> obtain ⟨x, hx, rfl⟩ := map_eq_ok h
  case protocol | codeSet | wheel => exact { hc with }
  case dataPin => exact { hc with dataPin_le := number_le_of_readPin hx }
  case clockPin => exact { hc with clockPin_le := number_le_of_readPin hx }
  case ledPin =>
    refine { hc with ledPin_le := ?_ }
    rintro led ⟨⟩
    exact number_le_of_readPin hx
  case stallPeriod => exact { hc with stallPeriod_ne := readPositiveWord_ne hx }
  case ackStalls => exact { hc with ackStalls_ne := readPositiveByte_ne hx }
  case idStalls => exact { hc with idStalls_ne := readPositiveByte_ne hx }
  case responseTimeout => exact { hc with responseTimeout_ne := readPositiveWord_ne hx }

/-! ## Lines -/

variable {p p' : Progress}

/-- A line that is taken in keeps the configuration in range. -/
theorem InRange.next {line : Line} (hp : p.config.InRange) (h : p.next line = .ok p') :
    p'.config.InRange := by
  cases line with
  | blank | header =>
    cases h
    exact hp
  | setting name value =>
    simp only [Progress.next] at h
    split at h
    · exact nomatch h
    -- The key is one of the section, and its value applies.
    · obtain ⟨c, hc, rfl⟩ := map_eq_ok h
      exact hp.apply hc

/-- Lines keep the values in their ranges, whatever they say and in whatever order. -/
theorem InRange.readLines {lines : List (List Char)} (hp : p.config.InRange)
    (h : p.readLines lines = .ok p') : p'.config.InRange := by
  induction lines generalizing p with
  | nil =>
    cases h
    exact hp
  | cons line lines ih =>
    -- An error in the line would have ended the text.
    obtain ⟨q, hq, hrest⟩ := bind_eq_ok h
    obtain ⟨l, -, hnext⟩ := bind_eq_ok hq
    exact ih (hp.next hnext) hrest

/-! ## Whole texts -/

/-- A configuration in range whose pins agree is sound. -/
theorem sound_of_pinsAgree (hc : c.InRange) (h : c.pinsAgree = true) : c.Sound := by
  rw [pinsAgree, Bool.and_eq_true, beq_iff_eq] at h
  refine { hc with clockPin_eq := h.1, ledPin_ne := fun led hled => ?_ }
  simpa [Option.mem_def.mp hled] using h.2

/-- A text that is read consists of lines that are taken in, and its pins agree. -/
theorem readLines_of_read {text : List Char} (h : read text = .ok c) :
    ∃ p, ({} : Progress).readLines (Text.lines text) = .ok p ∧ p.config = c ∧
      c.pinsAgree = true := by
  obtain ⟨p, hp, h⟩ := bind_eq_ok h
  split at h
  · next hagree =>
    cases h
    exact ⟨p, hp, rfl, hagree⟩
  · exact nomatch h

/-- A configuration that has been read is one to run with, whatever the text was. -/
theorem sound_of_read {text : List Char} (h : read text = .ok c) : c.Sound := by
  obtain ⟨p, hp, rfl, hagree⟩ := readLines_of_read h
  exact sound_of_pinsAgree (inRange_default.readLines hp) hagree

/-- The default configuration is sound. -/
theorem sound_default : ({} : Config).Sound := sound_of_pinsAgree inRange_default (by decide)

end KeyBridge.Config
