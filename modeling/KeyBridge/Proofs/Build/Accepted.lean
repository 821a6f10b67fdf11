import KeyBridge.Proofs.Build.Pins
import KeyBridge.Proofs.Config.PlainRead

/-!
# Configurations without problems

What is known of a configuration in which the check before the build finds no problem.

## Key results

- `isSection_of_problems`: it is a table of tables with the names of sections
- `accepted_of_problems`: its values
- `order_of_problems`, `led_of_problems`: what is known of its pins together
-/

namespace KeyBridge.Build

open Config (Key Section)
open Toml (Value)

variable {config v x : Value} {key : Key} {name k : List Char}

/-! ## Values -/

/-- The value of a key in its section. -/
def valueAt (config : Value) (key : Key) : Option Value :=
  (config.get? key.section.name.toList).bind (·.get? key.name.toList)

/-- Whether a value is an integer from 1 up to a limit. -/
def IsIntegerUpTo (max : Nat) (x : Value) : Prop := ∃ n : Int, x = .integer n ∧ 1 ≤ n ∧ n ≤ max

/-- Whether a value names a pin. -/
def IsPinName (x : Value) : Prop := ∃ name n, x = .string name ∧ pinNumber? name = some n

/-- Whether a value is among the given names. -/
def IsAmong (names : List String) (x : Value) : Prop := ∃ name ∈ names, x = .string name.toList

/-- The values that pass the check. -/
def Accepted : Key → Value → Prop
  | .protocol, x => IsAmong protocolNames x
  | .codeSet, x => IsIntegerUpTo 3 x ∨ IsAmong ["set1", "set2", "set3"] x
  | .dataPin, x | .clockPin, x | .ledPin, x => IsPinName x
  | .stallPeriod, x | .responseTimeout, x => IsIntegerUpTo 60000 x
  | .ackStalls, x | .idStalls, x => IsIntegerUpTo 255 x
  | .wheel, _ => True

/-! ## Sections -/

/-- An entry of a table is among its sorted entries. -/
theorem mem_sortedEntries_of_get? (h : v.get? k = some x) : (k, x) ∈ v.sortedEntries := by
  cases v with
  | table form es =>
    exact (Toml.sortedEntries_perm form es).mem_iff.mpr (Toml.Value.mem_of_lookup h)
  | _ => exact nomatch h

/-- A configuration without problems has no entries but the tables of sections. -/
theorem isSection_of_problems (h : problems config = []) (hx : config.get? name = some x) :
    (∃ s, Section.ofName? name = some s) ∧ x.isTable = true := by
  simp only [problems, List.append_eq_nil_iff] at h
  have hsection := List.filterMap_eq_nil_iff.mp h.1.1.1 _ (mem_sortedEntries_of_get? hx)
  -- The check and the reader know the same sections.
  have hnames : ∀ s ∈ sectionNames, (Section.ofName? s.toList).isSome = true := by decide
  unfold sectionProblem? at hsection
  split at hsection
  · exact nomatch hsection
  · next hname =>
    split at hsection
    · exact nomatch hsection
    · next htable =>
      simp only [Bool.not_eq_true', Bool.not_eq_false, List.any_eq_true, beq_iff_eq] at hname htable
      obtain ⟨s, hs, rfl⟩ := hname
      exact ⟨Option.isSome_iff_exists.mp (hnames s hs), htable⟩

/-! ## Pins -/

/-- A pin about which `pinField` has nothing to say is the name of one. -/
theorem isPinName_of_pinField {key : String} (h : (pinField v key).2 = [])
    (hx : v.get? key.toList = some x) : IsPinName x := by
  unfold pinField at h
  rw [hx] at h
  cases x with
  | string name =>
    dsimp only at h
    cases hn : pinNumber? name with
    | none =>
      rw [hn] at h
      exact nomatch h
    | some n => exact ⟨name, n, rfl, hn⟩
  | _ => exact nomatch h

/-! ## The interface -/

/-- An interface without problems. -/
structure Interface (config interface : Value) : Prop where
  protocol : protocolProblems interface = []
  codeSet : codeSetProblems interface = []
  data : (pinField interface "data_pin").2 = []
  clock : (pinField interface "clock_pin").2 = []
  order : (pinField interface "clock_pin").1.getD 3 = (pinField interface "data_pin").1.getD 2 + 1
  led : ∀ led, ledPin? config = some led →
    led ≠ (pinField interface "data_pin").1.getD 2 ∧ led ≠ (pinField interface "clock_pin").1.getD 3

/-- In a configuration without problems the parts of `[interface]` have none either. -/
theorem interface_of_problems (h : problems config = [])
    (hi : config.get? "interface".toList = some v) : Interface config v := by
  simp only [problems, List.append_eq_nil_iff] at h
  have hinterface := h.1.1.2
  unfold interfaceProblems at hinterface
  rw [hi] at hinterface
  simp only [List.append_eq_nil_iff] at hinterface
  obtain ⟨⟨⟨⟨⟨hprotocol, hcodeSet⟩, hdata⟩, hclock⟩, horder⟩, hled⟩ := hinterface
  -- The order of the two pins and the LED are each looked at once all pins are known.
  refine ⟨hprotocol, hcodeSet, hdata, hclock, ?_, ?_⟩
  · split at horder
    · next heq => exact heq
    · exact nomatch horder
  · intro led hpin
    rw [hpin] at hled
    dsimp only at hled
    split at hled
    · exact nomatch hled
    · next hne => exact not_or.mp hne

/-- The protocol of an interface without problems is the name of one. -/
theorem Interface.protocol_accepted {i : Value} (h : Interface config i)
    (hx : i.get? "protocol".toList = some x) : Accepted .protocol x := by
  have hprotocol := h.protocol
  unfold protocolProblems at hprotocol
  rw [hx] at hprotocol
  split at hprotocol
  · next name heq =>
    cases heq
    split at hprotocol
    -- The name is one of those in the table.
    · next hname =>
      simp only [List.any_eq_true, beq_iff_eq] at hname
      obtain ⟨s, hs, rfl⟩ := hname
      exact ⟨s, hs, rfl⟩
    · exact nomatch hprotocol
  · exact nomatch hprotocol
  · next heq => exact nomatch heq

/-- The code set of an interface without problems is a number up to three or the name of a set. -/
theorem Interface.codeSet_accepted {i : Value} (h : Interface config i)
    (hx : i.get? "code_set".toList = some x) : Accepted .codeSet x := by
  have hcodeSet := h.codeSet
  unfold codeSetProblems at hcodeSet
  rw [hx] at hcodeSet
  split at hcodeSet
  · next n heq =>
    cases heq
    split at hcodeSet
    · next hn => exact .inl ⟨n, rfl, hn⟩
    · exact nomatch hcodeSet
  · next name heq =>
    cases heq
    split at hcodeSet
    · next hname =>
      -- The names are compared as lists of characters.
      have hnames : ["set1".toList, "set2".toList, "set3".toList] =
          ["set1", "set2", "set3"].map String.toList := rfl
      rw [hnames, List.mem_map] at hname
      obtain ⟨s, hs, rfl⟩ := hname
      exact .inr ⟨s, hs, rfl⟩
    · exact nomatch hcodeSet
  · exact nomatch hcodeSet
  · next heq => exact nomatch heq

/-! ## Timing -/

/-- A number of the timing has one of the keys of the section, and is in its range. -/
theorem timing_of_problems (h : problems config = []) {timing : Value}
    (ht : config.get? "timing".toList = some timing) (hx : timing.get? k = some x) :
    ∃ l ∈ timingLimits, k = l.1.toList ∧ IsIntegerUpTo l.2 x := by
  simp only [problems, List.append_eq_nil_iff] at h
  have htiming := h.1.2
  unfold timingProblems at htiming
  rw [ht] at htiming
  -- The check goes through the entries in order and says nothing about this one.
  have hnone := List.filterMap_eq_nil_iff.mp htiming _ (mem_sortedEntries_of_get? hx)
  unfold timingProblem? at hnone
  split at hnone
  · exact nomatch hnone
  · next name max hfind =>
    have hname := List.find?_some hfind
    refine ⟨(name, max), List.mem_of_find?_eq_some hfind, (beq_iff_eq.mp hname).symm, ?_⟩
    dsimp only at hnone
    split at hnone
    · next n hn =>
      split at hnone
      · next hrange =>
        cases x <;> cases hn
        exact ⟨n, rfl, hrange⟩
      · exact nomatch hnone
    · exact nomatch hnone

/-! ## All values -/

/-- The values of a configuration without problems pass the check. -/
theorem accepted_of_problems (h : problems config = []) (hx : valueAt config key = some x) :
    Accepted key x := by
  obtain ⟨v, hv, hx⟩ := Option.bind_eq_some_iff.mp hx
  -- A key of the timing is one of those in the table of limits.
  have htiming : ∀ max, config.get? "timing".toList = some v →
      (∀ l ∈ timingLimits, key.name = l.1 → l.2 = max) → IsIntegerUpTo max x := by
    intro max hv hmax
    obtain ⟨l, hl, hname, hinteger⟩ := timing_of_problems h hv hx
    exact hmax l hl (String.toList_inj.mp hname) ▸ hinteger
  -- The wheel is the only value that is not looked at.
  cases key with
  | protocol => exact (interface_of_problems h hv).protocol_accepted hx
  | codeSet => exact (interface_of_problems h hv).codeSet_accepted hx
  | dataPin => exact isPinName_of_pinField (interface_of_problems h hv).data hx
  | clockPin => exact isPinName_of_pinField (interface_of_problems h hv).clock hx
  | stallPeriod => exact htiming 60000 hv (by decide)
  | ackStalls => exact htiming 255 hv (by decide)
  | idStalls => exact htiming 255 hv (by decide)
  | responseTimeout => exact htiming 60000 hv (by decide)
  | wheel => trivial
  | ledPin =>
    have hstatus : statusProblems config = [] := by
      simp only [problems, List.append_eq_nil_iff] at h
      exact h.2
    unfold statusProblems at hstatus
    rw [show config.get? "status".toList = some v from hv] at hstatus
    exact isPinName_of_pinField hstatus hx

/-! ## All pins -/

/-- The number of the pin under a key, if there is one. -/
def pinAt? (config : Value) (key : Key) : Option UInt8 :=
  ((valueAt config key).bind (·.string?)).bind pinNumber?

/-- `pinField` gives the number of a pin exactly if the value is the name of one. -/
theorem pinField_fst (v : Value) (key : String) :
    (pinField v key).1 = ((v.get? key.toList).bind (·.string?)).bind pinNumber? := by
  unfold pinField
  split
  · next name hx =>
    rw [hx]
    cases hn : pinNumber? name <;> simp [Value.string?, hn]
  · next x hstring hx =>
    rw [hx]
    cases x <;> first | rfl | exact absurd rfl (hstring _)
  · next hx =>
    rw [hx]
    rfl

/-- No pin that is given is beyond the last one of the chip. -/
theorem pinAt?_le {n : UInt8} (h : pinAt? config key = some n) :
    n ≤ maxPin := by
  obtain ⟨name, -, hn⟩ := Option.bind_eq_some_iff.mp h
  simpa using (Option.filter_eq_some_iff.mp hn).2

/-- The check looks at the data and clock pins under `[interface]`. -/
theorem pinField_interface (hv : config.get? "interface".toList = some v)
    (hkey : key.section = .interface) : (pinField v key.name).1 = pinAt? config key := by
  have hvalue : config.get? key.section.name.toList = some v := by
    rw [hkey]
    exact hv
  rw [pinField_fst, pinAt?, valueAt, hvalue]
  rfl

/-- Without an interface, none of its pins is given. -/
theorem pinAt?_of_no_interface (h : config.get? "interface".toList = none)
    (hkey : key.section = .interface) : pinAt? config key = none := by
  have hget : config.get? key.section.name.toList = none := by
    rw [hkey]
    exact h
  rw [pinAt?, valueAt, hget]
  rfl

/-- Without problems, the clock pin is the one above the data pin, whether they are given or not. -/
theorem order_of_problems (h : problems config = []) :
    (pinAt? config .clockPin).getD 3 = (pinAt? config .dataPin).getD 2 + 1 := by
  cases hi : config.get? "interface".toList with
  | none =>
    rw [pinAt?_of_no_interface hi rfl, pinAt?_of_no_interface hi rfl]
    rfl
  | some v =>
    rw [← pinField_interface hi (rfl : Key.clockPin.section = .interface),
      ← pinField_interface hi (rfl : Key.dataPin.section = .interface)]
    exact (interface_of_problems h hi).order

/-- If there is an interface, the LED is on none of its pins. -/
theorem led_of_problems (h : problems config = [])
    (hi : config.get? "interface".toList = some v) {led : UInt8}
    (hled : pinAt? config .ledPin = some led) :
    led ≠ (pinAt? config .dataPin).getD 2 ∧ led ≠ (pinAt? config .clockPin).getD 3 := by
  rw [← pinField_interface hi (rfl : Key.clockPin.section = .interface),
    ← pinField_interface hi (rfl : Key.dataPin.section = .interface)]
  exact (interface_of_problems h hi).led led hled

end KeyBridge.Build
