import KeyBridge.Build.Script
import KeyBridge.Proofs.Build.Values
import KeyBridge.Proofs.Toml.PlainTree

/-!
# The check before the build and the reader

A configuration that passes the check before the build is taken by the reader in the firmware, if it
is written plainly and its settings are some that the reader knows. The check reads TOML, and the
two readers have nothing in common: of the reader of TOML only `ReadsPlain` is used.

The check is made for all of TOML, and the reader for a part of it. What else the check lets
through is a key that its section does not have, outside of the timing; a wheel setting that is no
truth value; and a status LED on one of the default pins of an interface that is left out.

## Key results

- `applies_of_problems`: every setting of a document without problems can be applied
- `pinsAgree_of_problems`: its pins agree
- `read_of_checkText`: the reader takes a document that passes the check
- `read_error_of_inlineTable`: the reader takes no table in braces
-/

namespace KeyBridge.Build

open Config (Key Section pin?)
open Plain (Document Item Setting Holds ReadsPlain cell)

variable {d : Document} {config x : Toml.Value} {key : Key} {s : Setting} {c : Config}

/-- The settings of a document are some that the reader of configurations knows. -/
structure Supported (d : Document) : Prop where
  /-- Outside of the timing, every key belongs to its section. -/
  known : ∀ s ∈ d.settings, ∀ named ∈ [Section.interface, .mouse, .status],
    s.header.bind Section.ofName? = some named → (named.key? s.key).isSome = true
  /-- The wheel is set to a truth value. -/
  wheel : ∀ s ∈ d.settings, s.target? = some .wheel → s.value.isTruth = true
  /-- There is an interface, or the LED is not on its default pins. -/
  led : Item.header "interface".toList ∈ d.items ∨
    ∀ s ∈ d.settings, s.target? = some .ledPin →
      s.value.text?.bind pinNumber? ≠ some 2 ∧ s.value.text?.bind pinNumber? ≠ some 3

/-! ## Settings -/

/-- The value of a key in a table is that of the setting for it. -/
theorem valueAt_eq_some (hes : Holds config d) :
    valueAt config key = some x ↔
      ∃ s ∈ d.settings, s.target? = some key ∧ s.value.toml? = some x := by
  have hcell : valueAt config key =
      cell config (some key.section.name.toList) key.name.toList := rfl
  rw [hcell]
  constructor
  · intro h
    -- A value in a section is no table, so that a setting has put it there.
    have hx := hes.flat _ _ x h
    obtain ⟨s, hs, hheader, hkey, hvalue⟩ := (hes.cells _ _ x hx).mp h
    exact ⟨s, hs, Setting.target?_eq_some.mpr ⟨hheader, hkey⟩, hvalue⟩
  · rintro ⟨s, hs, htarget, hvalue⟩
    obtain ⟨hheader, hkey⟩ := Setting.target?_eq_some.mp htarget
    exact (hes.cells _ _ x (Plain.Value.isTable_toml? hvalue)).mpr ⟨s, hs, hheader, hkey, hvalue⟩

/-- The headers of a document without problems name sections. -/
theorem ofName?_of_problems (hes : Holds config d) (h : problems config = [])
    {t : List Char} (ht : Item.header t ∈ d.items) : ∃ named, Section.ofName? t = some named := by
  obtain ⟨v, hv, -⟩ := (hes.tables t).mpr ht
  exact (isSection_of_problems h hv).1

/-- Every setting of a document without problems is for a key. -/
theorem target?_of_problems (hd : Supported d) (hes : Holds config d)
    (h : problems config = []) (hs : s ∈ d.settings) :
    ∃ key, s.target? = some key := by
  obtain ⟨x, hx⟩ := hes.values s hs
  have hvalue := Plain.Value.isTable_toml? hx
  have hcell := (hes.cells s.header s.key x hvalue).mpr ⟨s, hs, rfl, rfl, hx⟩
  cases hheader : s.header with
  | none =>
    rw [hheader] at hcell
    -- A value before all headers would be an entry that is no table.
    have hroot : config.get? s.key = some x := hcell
    exact absurd (isSection_of_problems h hroot).2 (by simp [hvalue])
  | some t =>
    have ht : Item.header t ∈ d.items :=
      (Plain.header_mem_of_mem_settings hs hheader).resolve_left nofun
    obtain ⟨named, hnamed⟩ := ofName?_of_problems hes h ht
    have hbind : s.header.bind Section.ofName? = some named := by
      rw [hheader, Option.bind_some, hnamed]
    rw [Setting.target?, hbind, Option.bind_some]
    by_cases htiming : named = .timing
    · subst htiming
      rw [hheader, Section.ofName?_eq_some.mp hnamed] at hcell
      obtain ⟨timing, htable, hvalue⟩ := Option.bind_eq_some_iff.mp hcell
      -- For the timing, the check itself looks at the keys.
      obtain ⟨l, hl, hkey, -⟩ := timing_of_problems h htable hvalue
      have hkeys : ∀ l ∈ timingLimits, (Section.timing.key? l.1.toList).isSome = true := by decide
      rw [hkey]
      exact Option.isSome_iff_exists.mp (hkeys l hl)
    · have hnamed' : named ∈ [Section.interface, .mouse, .status] := by
        cases named <;> first | contradiction | decide
      exact Option.isSome_iff_exists.mp (hd.known s hs named hnamed' hbind)

/-- Every setting of a document without problems has an accepted value. -/
theorem accepted_of_mem_settings (hes : Holds config d) (h : problems config = [])
    (hs : s ∈ d.settings) (htarget : s.target? = some key) :
    ∃ x, s.value.toml? = some x ∧ Accepted key x := by
  obtain ⟨x, hx⟩ := hes.values s hs
  exact ⟨x, hx, accepted_of_problems h ((valueAt_eq_some hes).mpr ⟨s, hs, htarget, hx⟩)⟩

/-- Every setting of a document without problems can be applied, and holds no `#`. -/
theorem applies_of_problems (hd : Supported d) (hes : Holds config d)
    (h : problems config = []) (hs : s ∈ d.settings) :
    '#' ∉ s.value.render ∧ ∀ c, ∃ c', s.apply c = .ok c' := by
  obtain ⟨key, htarget⟩ := target?_of_problems hd hes h hs
  obtain ⟨x, hx, haccepted⟩ := accepted_of_mem_settings hes h hs htarget
  have hwheel : key = .wheel → s.value.isTruth = true := by
    rintro rfl
    exact hd.wheel s hs htarget
  refine ⟨hash_not_mem_of_accepted hx haccepted hwheel, fun c => ?_⟩
  rw [Setting.apply, htarget]
  exact apply_of_accepted hx haccepted hwheel c

/-! ## Pins -/

/-- The pins that the reader comes to are those that the check sees, or the default ones. -/
theorem pin?_eq (hes : Holds config d) (h : problems config = [])
    (hc : d.settings.foldlM Setting.apply {} = .ok c) (hkey : key.isPin = true) :
    (c.pin? key).map (·.number) =
      (pinAt? config key).or ((({} : Config).pin? key).map (·.number)) := by
  obtain ⟨s, hs, htarget, pin, hread, hpin⟩ | ⟨hnone, hpin⟩ := Plain.pinGiven_foldlM hkey hc
  -- A setting for the key: its name is in the table, and gives the same number.
  · obtain ⟨x, hx, haccepted⟩ := accepted_of_mem_settings hes h hs htarget
    have hname : IsPinName x := by
      cases key <;> first | exact haccepted | contradiction
    obtain ⟨pin', name, hread', rfl, hnumber⟩ := readPin_of_isPinName hx hname
    have hvalue := (valueAt_eq_some hes).mpr ⟨s, hs, htarget, hx⟩
    cases hread.symm.trans hread'
    rw [hpin, pinAt?, hvalue]
    simp [Toml.Value.string?, hnumber]
  -- No setting for the key: nor is there a value in the table.
  · have hvalue : valueAt config key = none := by
      rw [Option.eq_none_iff_forall_not_mem]
      intro x hx
      obtain ⟨s, hs, htarget, -⟩ := (valueAt_eq_some hes).mp hx
      exact hnone s hs htarget
    rw [hpin, pinAt?, hvalue]
    rfl

/-- An `[interface]` header opens a table of that name. -/
theorem interface_of_header (hes : Holds config d) (hi : Item.header "interface".toList ∈ d.items) :
    ∃ v, config.get? "interface".toList = some v := by
  obtain ⟨v, hv, -⟩ := (hes.tables _).mpr hi
  exact ⟨v, hv⟩

/-- Without a header for it, there is no interface. -/
theorem no_interface (hes : Holds config d) (h : problems config = [])
    (hno : Item.header "interface".toList ∉ d.items) :
    config.get? "interface".toList = none := by
  rw [Option.eq_none_iff_forall_not_mem]
  intro v hv
  exact hno ((hes.tables _).mp ⟨v, hv, (isSection_of_problems h hv).2⟩)

/-- The LED of a supported document is on none of the pins of the interface. -/
theorem led_free (hd : Supported d) (hes : Holds config d)
    (h : problems config = []) {led : UInt8}
    (hled : pinAt? config .ledPin = some led) :
    led ≠ (pinAt? config .dataPin).getD 2 ∧
      led ≠ (pinAt? config .clockPin).getD 3 := by
  by_cases hi : Item.header "interface".toList ∈ d.items
  · obtain ⟨v, hv⟩ := interface_of_header hes hi
    exact led_of_problems h hv hled
  -- The check looks at no pins together here, so that the LED is free by assumption only.
  · obtain ⟨name, hname, hnumber⟩ := Option.bind_eq_some_iff.mp hled
    obtain ⟨x, hx, hstring⟩ := Option.bind_eq_some_iff.mp hname
    obtain ⟨s, hs, htarget, hvalue⟩ := (valueAt_eq_some hes).mp hx
    obtain rfl : x = .string name := by
      cases x <;> cases hstring
      rfl
    obtain ⟨stand, htext⟩ := text_of_string hvalue
    have hpin : s.value.text?.bind pinNumber? = some led := by
      rw [htext]
      exact hnumber
    obtain ⟨h2, h3⟩ := (hd.led.resolve_left hi) s hs htarget
    have hnone := no_interface hes h hi
    rw [pinAt?_of_no_interface hnone rfl, pinAt?_of_no_interface hnone rfl]
    rw [hpin] at h2 h3
    exact ⟨fun heq => h2 (congrArg some heq), fun heq => h3 (congrArg some heq)⟩

/-- The pins of a document without problems agree. -/
theorem pinsAgree_of_problems (hd : Supported d) (hes : Holds config d)
    (h : problems config = [])
    (hc : d.settings.foldlM Setting.apply {} = .ok c) : c.pinsAgree = true := by
  have hdata : c.dataPin.number = (pinAt? config .dataPin).getD 2 := by
    have hpin := pin?_eq hes h hc (rfl : Key.dataPin.isPin = true)
    cases hat : pinAt? config .dataPin <;> rw [hat] at hpin <;>
      exact Option.some.inj hpin
  have hclock : c.clockPin.number = (pinAt? config .clockPin).getD 3 := by
    have hpin := pin?_eq hes h hc (rfl : Key.clockPin.isPin = true)
    cases hat : pinAt? config .clockPin <;> rw [hat] at hpin <;>
      exact Option.some.inj hpin
  have hled : c.ledPin.map (·.number) = pinAt? config .ledPin := by
    have hpin := pin?_eq hes h hc (rfl : Key.ledPin.isPin = true)
    cases hat : pinAt? config .ledPin <;> rw [hat] at hpin <;> exact hpin
  -- No pin is so high that the pin above it would not fit into a byte.
  have hmax : (pinAt? config .dataPin).getD 2 ≤ maxPin := by
    cases hat : pinAt? config .dataPin with
    | none => decide
    | some n => exact pinAt?_le hat
  have horder : c.clockPin.number.toNat = c.dataPin.number.toNat + 1 := by
    rw [hclock, order_of_problems h, ← hdata, UInt8.toNat_add]
    rw [← hdata, UInt8.le_iff_toNat_le] at hmax
    have hbound : maxPin.toNat = 29 := rfl
    have hone : (1 : UInt8).toNat = 1 := rfl
    omega
  -- The LED has neither of the two pins, as the check has seen or the document is known to say.
  have hfree : ∀ led, c.ledPin = some led →
      led.number ≠ c.dataPin.number ∧ led.number ≠ c.clockPin.number := by
    intro led hpin
    rw [hpin] at hled
    rw [hdata, hclock]
    exact led_free hd hes h hled.symm
  rw [Config.pinsAgree, horder, beq_self_eq_true, Bool.true_and]
  cases hpin : c.ledPin with
  | none => rfl
  | some led => simp [hfree led hpin]

/-! ## Documents -/

/-- Whichever reader of TOML the check uses, as long as it takes plain documents for what TOML says
of them: the reader of configurations takes a plain document that passes the check, if it knows the
settings. -/
theorem read_of_checkText {read : Toml.Reader} (hread : ReadsPlain read) (d : Document)
    (hd : Supported d) (h : checkText read d.render = none) :
    ∃ c, Config.read d.render = .ok c := by
  unfold checkText at h
  split at h
  · exact nomatch h
  · next config hconfig =>
    have hes : Holds config d := hread d config hconfig
    split at h
    · next hnone =>
      -- Each setting is accepted and applies to any configuration, and each header names a section.
      have happlies : ∀ s ∈ d.settings,
          '#' ∉ s.value.render ∧ ∀ c, ∃ c', s.apply c = .ok c' :=
        fun s hs => applies_of_problems hd hes hnone hs
      have hheaders : ∀ t, Item.header t ∈ d.items → ∃ named, Section.ofName? t = some named :=
        fun t ht => ofName?_of_problems hes hnone ht
      -- So the settings make a configuration, and the check of the pins at the end finds nothing.
      obtain ⟨c, hc⟩ := Plain.foldlM_apply (fun s hs => (happlies s hs).2) {}
      refine ⟨c, ?_⟩
      rw [Plain.read_render d (fun s hs => (happlies s hs).1) hheaders, hc]
      exact if_pos (pinsAgree_of_problems hd hes hnone hc)
    · exact nomatch h

/-- A mouse without a wheel, which is wired in another way than by default. -/
def wheelless : Document where
  lines :=
    [({ content := .header {} { chars := "interface".toList } {},
        trail := { chars := " ".toList }, comment := some { chars := " the device".toList } }, .lf),
      ({ content := .setting { chars := "protocol".toList } { chars := " ".toList }
          { chars := " ".toList } (.text "ps2_mouse".toList) }, .crlf),
      ({ content := .setting { chars := "data_pin".toList } {} {} (.text "^gpio4".toList) }, .lf),
      ({ content := .setting { chars := "clock_pin".toList } {} {} (.text "^gpio5".toList) }, .lf),
      ({ content := .nothing }, .lf),
      ({ content := .header {} { chars := "mouse".toList } {} }, .lf)]
  last := { content := .setting { chars := "wheel".toList } {} {} (.truth false) }

/-- With a reader for all of TOML. -/
theorem read_of_checkText_wheelless :
    ReadsPlain Toml.read ∧ Supported wheelless ∧ checkText Toml.read wheelless.render = none ∧
      ∃ c, Config.read wheelless.render = .ok c := by
  have hread : ReadsPlain Toml.read := Plain.readsPlain_read
  have hsupported : Supported wheelless := ⟨by decide, by decide, .inl (by decide)⟩
  have hcheck : checkText Toml.read wheelless.render = none := by decide +kernel
  exact ⟨hread, hsupported, hcheck, read_of_checkText hread wheelless hsupported hcheck⟩

/-- A table in braces. -/
def inlineTable : List Char := "mouse = \x7bwheel = false\x7d\n".toList

/-- What TOML says of it. -/
def inlineTableValue : Toml.Value :=
  .table .header [("mouse".toList, .table .inline [("wheel".toList, .boolean false)])]

/-- The check takes all of TOML, whichever reader it uses, and the reader of configurations takes no
tables in braces. -/
theorem read_error_of_inlineTable :
    (∀ read : Toml.Reader, read inlineTable = some inlineTableValue →
      checkText read inlineTable = none) ∧
    (ReadsPlain Toml.read ∧ checkText Toml.read inlineTable = none) ∧
    Config.read inlineTable = .error .unknownKey := by
  refine ⟨fun read hread => ?_, ⟨Plain.readsPlain_read, by decide +kernel⟩, rfl⟩
  have hproblems : problems inlineTableValue = [] := by decide +kernel
  rw [checkText, hread]
  exact if_pos hproblems

end KeyBridge.Build
