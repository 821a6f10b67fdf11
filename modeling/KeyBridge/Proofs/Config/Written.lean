import KeyBridge.Proofs.Config.PlainRead

/-!
# Written configurations

There are many ways to write a configuration down. The sections may come in any order and so may the
keys of each, a default may be left out, and most values have several spellings; blanks, comments
and the ends of lines are those of any plain document. The reader finds the same configuration in
all of them.

## Main definitions

- `Config.Spells`: the texts that stand for the value of a key
- `Plain.Document.Writes`: a document that says all about a configuration, and nothing else
- `Plain.Document.ofConfig`: one such document

## Key results

- `Config.apply_of_spells`: a value is read back from each of its spellings
- `read_written`: so is a configuration from each document that writes it
-/

namespace KeyBridge

/-! ## Numbers -/

namespace Text

/-- Nothing but digits is in a decimal number. -/
theorem not_mem_toDigits {c : Char} (h : c.isDigit = false) (n : Nat) : c ∉ Nat.toDigits 10 n := by
  intro hmem
  rw [Nat.isDigit_of_mem_toDigits (by decide) (by decide) hmem] at h
  exact nomatch h

/-- A number is read back from its digits. -/
theorem decimal?_toDigits {n max : Nat} (h : n ≤ max) :
    decimal? max (Nat.toDigits 10 n) = some n := by
  have hdigits : ∀ c ∈ Nat.toDigits 10 n, c.isDigit = true :=
    fun c hc => Nat.isDigit_of_mem_toDigits (by decide) (by decide) hc
  -- The digits begin with no plus, which would be dropped.
  have hplus : dropPlus (Nat.toDigits 10 n) = Nat.toDigits 10 n := by
    unfold dropPlus
    split
    · next heq => exact absurd (heq ▸ List.mem_cons_self) (not_mem_toDigits (by decide) n)
    · rfl
  have hvalue : digitsValue (Nat.toDigits 10 n) = n := by
    rw [digitsValue, ← Nat.ofDigitChars_eq_foldl, Nat.ofDigitChars_ten_toDigits]
  simp only [decimal?, hplus, hvalue]
  exact if_pos ⟨Nat.toDigits_ne_nil, List.all_eq_true.mpr hdigits, h⟩

/-- A byte is read back from its digits. -/
theorem byte?_toDigits (n : UInt8) : byte? (Nat.toDigits 10 n.toNat) = some n := by
  rw [byte?, decimal?_toDigits (Nat.le_of_lt_succ n.toNat_lt), Option.map_some, UInt8.ofNat_toNat]

/-- A word is read back from its digits. -/
theorem word?_toDigits (n : UInt32) : word? (Nat.toDigits 10 n.toNat) = some n := by
  rw [word?, decimal?_toDigits (Nat.le_of_lt_succ n.toNat_lt), Option.map_some, UInt32.ofNat_toNat]

/-- What follows a start is found after it. -/
theorem after?_append (start rest : List Char) : after? start (start ++ rest) = some rest := by
  rw [after?, if_pos (List.isPrefixOf_iff_prefix.mpr ⟨rest, rfl⟩), List.drop_left]

end Text

/-- The names of a protocol. -/
def Protocol.names : Protocol → List String
  | atKeyboard => ["at", "ps2", "at_ps2"]
  | ps2Mouse => ["ps2_mouse", "mouse"]
  | xt => ["xt"]
  | amiga => ["amiga"]
  | m0110 => ["m0110"]

/-- The number of a code set. -/
def CodeSet.number : CodeSet → UInt8
  | set1 => 1
  | set2 => 2
  | set3 => 3

namespace Config

open Text

variable {b c : Config} {key : Key} {text marks : List Char}

/-! ## Spellings -/

/-- A text in quotes. -/
def inQuotes (s : List Char) : List Char := '"' :: (s ++ ['"'])

/-- The texts that stand for a pin: its marks in any order, `gpio` and its number, in quotes. -/
def SpellsPin (pin : Pin) (text : List Char) : Prop :=
  ∃ marks : List Char, (∀ m ∈ marks, m = '!' ∨ m = '^') ∧
    ('!' ∈ marks ↔ pin.inverted) ∧ ('^' ∈ marks ↔ pin.pullUp) ∧
      text = inQuotes (marks ++ ("gpio".toList ++ Nat.toDigits 10 pin.number.toNat))

/-- The texts that stand for the value of a key in a configuration. -/
def Spells (c : Config) (key : Key) (text : List Char) : Prop :=
  match key with
  | .protocol => ∃ name ∈ c.protocol.names, text = inQuotes name.toList
  | .codeSet =>
    text = Nat.toDigits 10 c.codeSet.number.toNat ∨
      text = inQuotes ("set".toList ++ Nat.toDigits 10 c.codeSet.number.toNat)
  | .dataPin => SpellsPin c.dataPin text
  | .clockPin => SpellsPin c.clockPin text
  | .stallPeriod => text = Nat.toDigits 10 c.timing.stallPeriod.toNat
  | .ackStalls => text = Nat.toDigits 10 c.timing.ackStalls.toNat
  | .idStalls => text = Nat.toDigits 10 c.timing.idStalls.toNat
  | .responseTimeout => text = Nat.toDigits 10 c.timing.responseTimeout.toNat
  | .wheel => text = (if c.wheel then "true" else "false").toList
  | .ledPin => ∃ pin ∈ c.ledPin, SpellsPin pin text

/-- A configuration with the value of one key taken over from another one. -/
def copyFrom (b c : Config) (key : Key) : Config :=
  match key with
  | .protocol => { b with protocol := c.protocol }
  | .codeSet => { b with codeSet := c.codeSet }
  | .dataPin => { b with dataPin := c.dataPin }
  | .clockPin => { b with clockPin := c.clockPin }
  | .stallPeriod => { b with timing := { b.timing with stallPeriod := c.timing.stallPeriod } }
  | .ackStalls => { b with timing := { b.timing with ackStalls := c.timing.ackStalls } }
  | .idStalls => { b with timing := { b.timing with idStalls := c.timing.idStalls } }
  | .responseTimeout =>
    { b with timing := { b.timing with responseTimeout := c.timing.responseTimeout } }
  | .wheel => { b with wheel := c.wheel }
  | .ledPin => { b with ledPin := c.ledPin }

/-- Whether two configurations have the same value under a key. -/
def SameAt (b c : Config) (key : Key) : Prop := b.copyFrom c key = b

/-! ## Values -/

/-- A value that is copied is the same. -/
theorem sameAt_copyFrom (b c : Config) (key : Key) : SameAt (b.copyFrom c key) c key := by
  cases key <;> rfl

/-- A value that is the same stays so when others are taken over. -/
theorem SameAt.copyFrom (h : SameAt b c key) (key' : Key) : SameAt (b.copyFrom c key') c key := by
  have hcomm : (b.copyFrom c key').copyFrom c key = (b.copyFrom c key).copyFrom c key' := by
    cases key <;> cases key' <;> rfl
  rw [SameAt, hcomm, h]

/-- Two configurations with the same values for all keys are the same. -/
theorem eq_of_sameAt (h : ∀ key, SameAt b c key) : b = c := by
  obtain ⟨_, _, _, _, ⟨_, _, _, _⟩, _, _⟩ := b
  obtain ⟨_, _, _, _, ⟨_, _, _, _⟩, _, _⟩ := c
  -- Each key settles the field that it is for.
  cases h .protocol
  cases h .codeSet
  cases h .dataPin
  cases h .clockPin
  cases h .stallPeriod
  cases h .ackStalls
  cases h .idStalls
  cases h .responseTimeout
  cases h .wheel
  cases h .ledPin
  rfl

/-! ## Reading spellings -/

theorem quoted?_inQuotes (s : List Char) : quoted? (inQuotes s) = some s := by
  simp [inQuotes, quoted?]

/-- A number has no quotes. -/
theorem quoted?_toDigits (n : Nat) : quoted? (Nat.toDigits 10 n) = none := by
  unfold quoted?
  split
  · next rest heq => exact absurd (heq ▸ List.mem_cons_self) (not_mem_toDigits (by decide) n)
  · rfl

/-- Each name of a protocol is read as this protocol. -/
theorem ofName?_of_mem_names {p : Protocol} {name : String} (h : name ∈ p.names) :
    Protocol.ofName? name.toList = some p := by
  have hnames : ∀ p : KeyBridge.Protocol, ∀ name ∈ p.names,
      Protocol.ofName? name.toList = some p := by
    intro p
    cases p <;> decide
  exact hnames p name h

/-- A code set is read back from its number. -/
theorem ofNumber?_number (s : CodeSet) : CodeSet.ofNumber? s.number = some s := by
  cases s <;> rfl

/-- The marks in front of a pin say how it is used. -/
theorem pinNamed?_marks (hmarks : ∀ m ∈ marks, m = '!' ∨ m = '^') (inverted pullUp : Bool)
    (rest : List Char) :
    pinNamed? inverted pullUp (marks ++ rest) =
      pinNamed? (inverted || marks.contains '!') (pullUp || marks.contains '^') rest := by
  induction marks generalizing inverted pullUp with
  | nil => simp
  | cons m marks ih =>
    obtain ⟨rfl | rfl, hrest⟩ := List.forall_mem_cons.mp hmarks
    · simp [pinNamed?, ih hrest]
    · simp [pinNamed?, ih hrest]

/-- A pin is read back from `gpio` and its number, with the marks that were read before. -/
theorem pinNamed?_gpio {n : UInt8} (hn : n ≤ maxPin) (inverted pullUp : Bool) :
    pinNamed? inverted pullUp ("gpio".toList ++ Nat.toDigits 10 n.toNat) =
      some ⟨n, inverted, pullUp⟩ := by
  unfold pinNamed?
  split
  · next heq => exact nomatch heq
  · next heq => exact nomatch heq
  · simp only [after?_append, Option.bind_some, byte?_toDigits, hn, if_true]

/-- A pin is read back from each way of spelling it. -/
theorem readPin_of_spellsPin {pin : Pin} (h : SpellsPin pin text) (hle : pin.number ≤ maxPin) :
    readPin text = .ok pin := by
  obtain ⟨marks, hmarks, hinverted, hpullUp, rfl⟩ := h
  have hinverted' : marks.contains '!' = pin.inverted := by
    rw [Bool.eq_iff_iff, List.contains_iff_mem, hinverted]
  have hpullUp' : marks.contains '^' = pin.pullUp := by
    rw [Bool.eq_iff_iff, List.contains_iff_mem, hpullUp]
  rw [readPin, quoted?_inQuotes]
  simp only [pinNamed?_marks hmarks, pinNamed?_gpio hle, hinverted', hpullUp', Bool.false_or]
  rfl

/-- A code set is read back from each way of spelling it. -/
theorem codeSet?_of_spells (h : c.Spells .codeSet text) : codeSet? text = some c.codeSet := by
  obtain rfl | rfl := h
  · rw [codeSet?, quoted?_toDigits]
    simp only [byte?_toDigits, Option.bind_some, ofNumber?_number]
  · rw [codeSet?, quoted?_inQuotes]
    simp only [after?_append, byte?_toDigits, Option.bind_some, ofNumber?_number]

/-- A byte that is not zero is read back from its digits. -/
theorem readPositiveByte_toDigits {n : UInt8} (h : n ≠ 0) :
    readPositiveByte (Nat.toDigits 10 n.toNat) = .ok n := by
  rw [readPositiveByte, byte?_toDigits, Option.filter_some, if_pos (bne_iff_ne.mpr h)]
  rfl

/-- A word that is not zero is read back from its digits. -/
theorem readPositiveWord_toDigits {n : UInt32} (h : n ≠ 0) :
    readPositiveWord (Nat.toDigits 10 n.toNat) = .ok n := by
  rw [readPositiveWord, word?_toDigits, Option.filter_some, if_pos (bne_iff_ne.mpr h)]
  rfl

/-- A value is read back from each of its spellings. -/
theorem apply_of_spells (hc : c.InRange) (h : c.Spells key text) (b : Config) :
    b.apply key text = .ok (b.copyFrom c key) := by
  cases key with
  | protocol =>
    obtain ⟨name, hname, rfl⟩ := h
    rw [apply, quoted?_inQuotes, Option.bind_some, ofName?_of_mem_names hname]
    rfl
  | codeSet =>
    rw [apply, codeSet?_of_spells h]
    rfl
  | dataPin =>
    -- What is in range is read back as it was written; the same goes for the other bounded
    -- settings.
    rw [apply, readPin_of_spellsPin h hc.dataPin_le]
    rfl
  | clockPin =>
    rw [apply, readPin_of_spellsPin h hc.clockPin_le]
    rfl
  | stallPeriod =>
    rw [apply, h, readPositiveWord_toDigits hc.stallPeriod_ne]
    rfl
  | ackStalls =>
    rw [apply, h, readPositiveByte_toDigits hc.ackStalls_ne]
    rfl
  | idStalls =>
    rw [apply, h, readPositiveByte_toDigits hc.idStalls_ne]
    rfl
  | responseTimeout =>
    rw [apply, h, readPositiveWord_toDigits hc.responseTimeout_ne]
    rfl
  | wheel =>
    rw [apply, h, copyFrom]
    -- A truth value is written as one of two words.
    cases c.wheel <;> rfl
  | ledPin =>
    obtain ⟨pin, hpin, hspells⟩ := h
    rw [apply, readPin_of_spellsPin hspells (hc.ledPin_le pin hpin), copyFrom,
      Option.mem_def.mp hpin]
    rfl

/-- No spelling holds a `#`, so that the first one in a line begins a comment. -/
theorem hash_not_mem_of_spells (h : c.Spells key text) : '#' ∉ text := by
  have hdigits : ∀ n, '#' ∉ Nat.toDigits 10 n := not_mem_toDigits (by decide)
  have hquotes : ∀ s, '#' ∉ s → '#' ∉ inQuotes s := by simp [inQuotes]
  -- A pin is spelled with marks, letters and digits.
  have hpin : ∀ pin, SpellsPin pin text → '#' ∉ text := by
    rintro pin ⟨marks, hmarks, -, -, rfl⟩
    have hmarks' : '#' ∉ marks := fun hmem => absurd (hmarks _ hmem) (by decide)
    exact hquotes _ (by simp [hmarks', hdigits])
  cases key with
  | protocol =>
    obtain ⟨name, hname, rfl⟩ := h
    -- No name of a protocol has a `#` in it.
    have hnames : ∀ p : KeyBridge.Protocol, ∀ name ∈ p.names, '#' ∉ name.toList := by
      intro p
      cases p <;> decide
    exact hquotes _ (hnames _ name hname)
  | codeSet =>
    obtain rfl | rfl := h
    · exact hdigits _
    · exact hquotes _ (by simp [hdigits])
  | dataPin | clockPin => exact hpin _ h
  | stallPeriod | ackStalls | idStalls | responseTimeout => exact h ▸ hdigits _
  | wheel =>
    rw [h]
    cases c.wheel <;> decide
  | ledPin =>
    obtain ⟨pin, -, hspells⟩ := h
    exact hpin pin hspells

/-- The pins of a sound configuration agree. -/
theorem Sound.pinsAgree (hc : c.Sound) : c.pinsAgree = true := by
  rw [Config.pinsAgree, hc.clockPin_eq, beq_self_eq_true, Bool.true_and]
  cases hled : c.ledPin with
  | none => rfl
  | some led => simpa using hc.ledPin_ne led hled

end Config

/-! ## Documents -/

namespace Plain

open Config (Key Section SameAt)

variable {b c : Config} {key : Key} {ss : List Setting} {v : Value}

/-- Whether an item is a header. -/
def Item.isHeader : Item → Bool
  | header _ => true
  | setting .. => false

/-- Whether a setting stands in the section of a key and has its name. -/
def Setting.IsFor (s : Setting) (key : Key) : Prop :=
  s.header = some key.section.name.toList ∧ s.key = key.name.toList

/-- A document writes a configuration. -/
structure Document.Writes (d : Document) (c : Config) : Prop where
  /-- Its headers are those of sections. -/
  headers : ∀ name, Item.header name ∈ d.items → ∃ s : Section, name = s.name.toList
  /-- Each setting is for a key, and spells the value under it. -/
  settings : ∀ s ∈ d.settings, ∃ key, s.IsFor key ∧ c.Spells key s.value.render
  /-- What it leaves out has its default value. -/
  complete : ∀ key, (∃ s ∈ d.settings, s.IsFor key) ∨ SameAt {} c key

/-! ### Reading -/

/-- Settings that spell values of a configuration take them over one after the other. -/
theorem foldlM_apply_of_spells (hc : c.InRange)
    (h : ∀ s ∈ ss, ∃ key, s.IsFor key ∧ c.Spells key s.value.render) (b : Config) :
    ∃ b', ss.foldlM Setting.apply b = .ok b' ∧
      ∀ key, (∃ s ∈ ss, s.IsFor key) ∨ SameAt b c key → SameAt b' c key := by
  induction ss generalizing b with
  | nil => exact ⟨b, rfl, by simp⟩
  | cons s ss ih =>
    obtain ⟨⟨key, hfor, hspells⟩, hrest⟩ := List.forall_mem_cons.mp h
    have htarget : s.target? = some key := Setting.target?_eq_some.mpr hfor
    have happly : s.apply b = .ok (b.copyFrom c key) := by
      rw [Setting.apply, htarget]
      exact Config.apply_of_spells hc hspells b
    obtain ⟨b', hb', hsame⟩ := ih hrest (b.copyFrom c key)
    refine ⟨b', by rw [List.foldlM_cons, happly]; exact hb', fun key' hkey' => hsame key' ?_⟩
    obtain ⟨s', hs', hfor'⟩ | hkey' := hkey'
    · obtain rfl | hs' := List.mem_cons.mp hs'
      -- A setting is for one key only.
      · obtain rfl : key = key' :=
          Option.some.inj (htarget.symm.trans (Setting.target?_eq_some.mpr hfor'))
        exact .inr (Config.sameAt_copyFrom b c key)
      · exact .inl ⟨s', hs', hfor'⟩
    · exact .inr (hkey'.copyFrom key)

/-! ### Writing -/

/-- A digit stands for itself. -/
theorem isTextChar_of_isDigit {ch : Char} (h : ch.isDigit = true) : isTextChar ch = true := by
  have hne : ∀ x : Char, x.isDigit = false → ch ≠ x := by
    rintro x hx rfl
    exact nomatch hx.symm.trans h
  have hspace : ' ' ≤ ch := by
    simp only [Char.isDigit, Bool.and_eq_true, decide_eq_true_eq] at h
    exact UInt32.le_trans (by decide) h.1
  simp [isTextChar, Toml.isPrintable, hspace, hne '"' (by decide), hne '\\' (by decide),
    hne '\x7f' (by decide)]

/-- A number in decimal. -/
def Value.ofNat (n : Nat) : Value :=
  .number .none (Nat.toDigits 10 n) Nat.toDigits_ne_nil fun _ hc =>
    Nat.isDigit_of_mem_toDigits (by decide) (by decide) hc

/-- A pin with its marks. -/
def Value.ofPin (pin : Pin) : Value :=
  let marks := (if pin.inverted then ['!'] else []) ++ (if pin.pullUp then ['^'] else [])
  .text (marks ++ ("gpio".toList ++ Nat.toDigits 10 pin.number.toNat)) <| by
    have hmarks : ∀ ch ∈ marks, isTextChar ch = true := by
      simp only [marks]
      cases pin.inverted <;> cases pin.pullUp <;> exact forall_mem_of_all (by decide)
    have hgpio : ∀ ch ∈ "gpio".toList, isTextChar ch = true := forall_mem_of_all (by decide)
    have hdigits : ∀ ch ∈ Nat.toDigits 10 pin.number.toNat, isTextChar ch = true :=
      fun ch hch => isTextChar_of_isDigit (Nat.isDigit_of_mem_toDigits (by decide) (by decide) hch)
    simp only [List.forall_mem_append]
    exact ⟨hmarks, hgpio, hdigits⟩

/-- The name that is written for a protocol. -/
def protocolName : Protocol → String
  | .atKeyboard => "at"
  | .ps2Mouse => "ps2_mouse"
  | .xt => "xt"
  | .amiga => "amiga"
  | .m0110 => "m0110"

/-- The name that is written for a protocol is one of its names. -/
theorem protocolName_mem_names (p : Protocol) : protocolName p ∈ p.names := by
  cases p <;> exact List.mem_cons_self

/-- The name that is written for a protocol can stand in a text. -/
theorem isTextChar_protocolName (p : Protocol) :
    ∀ ch ∈ (protocolName p).toList, isTextChar ch = true := by
  cases p <;> exact forall_mem_of_all (by decide)

/-- A protocol by its name. -/
def Value.ofProtocol (p : Protocol) : Value :=
  .text (protocolName p).toList (isTextChar_protocolName p)

/-- The value to write for a key, if there is one. -/
def Value.ofConfig? (c : Config) : Key → Option Value
  | .protocol => some (.ofProtocol c.protocol)
  | .codeSet => some (.ofNat c.codeSet.number.toNat)
  | .dataPin => some (.ofPin c.dataPin)
  | .clockPin => some (.ofPin c.clockPin)
  | .stallPeriod => some (.ofNat c.timing.stallPeriod.toNat)
  | .ackStalls => some (.ofNat c.timing.ackStalls.toNat)
  | .idStalls => some (.ofNat c.timing.idStalls.toNat)
  | .responseTimeout => some (.ofNat c.timing.responseTimeout.toNat)
  | .wheel => some (.truth c.wheel)
  | .ledPin => c.ledPin.map .ofPin

/-- The value that is written for a pin spells it. -/
theorem spellsPin_ofPin (pin : Pin) : Config.SpellsPin pin (Value.ofPin pin).render := by
  refine ⟨_, ?_, ?_, ?_, rfl⟩ <;> cases pin.inverted <;> cases pin.pullUp <;> simp

/-- The value that is written for a key spells what the configuration says. -/
theorem spells_ofConfig? (h : Value.ofConfig? c key = some v) : c.Spells key v.render := by
  cases key with
  | protocol =>
    cases h
    exact ⟨_, protocolName_mem_names c.protocol, rfl⟩
  | codeSet =>
    cases h
    exact .inl rfl
  | dataPin | clockPin =>
    cases h
    exact spellsPin_ofPin _
  | ledPin =>
    obtain ⟨pin, hpin, rfl⟩ := Option.map_eq_some_iff.mp h
    exact ⟨pin, hpin, spellsPin_ofPin pin⟩
  | stallPeriod | ackStalls | idStalls | responseTimeout | wheel =>
    cases h
    rfl

/-- The name of a section, as that of a header. -/
def Name.ofSection (s : Section) : Name where
  chars := s.name.toList
  ne_nil := by cases s <;> decide
  areKeyChars := by cases s <;> exact forall_mem_of_all (by decide)

/-- The name of a key. -/
def Name.ofKey (key : Key) : Name where
  chars := key.name.toList
  ne_nil := by cases key <;> decide
  areKeyChars := by cases key <;> exact forall_mem_of_all (by decide)

theorem areSpace_nil : ∀ ch ∈ ([] : List Char), Toml.isSpace ch = true := nofun

theorem areSpace_space : ∀ ch ∈ [' '], Toml.isSpace ch = true := forall_mem_of_all (by decide)

/-- No blanks. -/
def Blanks.none : Blanks := ⟨[], areSpace_nil⟩

/-- A single blank. -/
def Blanks.space : Blanks := ⟨[' '], areSpace_space⟩

/-- A line with nothing around its content. -/
def Line.bare (content : Content) : Line := { indent := .none, content, trail := .none }

/-- What is written about a section. -/
def Section.contents (c : Config) (s : Section) : List Content :=
  .header .none (.ofSection s) .none :: (s.keys.filterMap fun k =>
    (Value.ofConfig? c k.2).map (.setting (.ofKey k.2) .space .space))

/-- A document that writes a configuration with all its values, section by section. -/
def Document.ofConfig (c : Config) : Document where
  lines := ([.interface, .timing, .mouse, .status].flatMap (Section.contents c)).map fun content =>
    (.bare content, .lf)
  last := .bare .nothing

/-- All keys, in the order of their sections. -/
def keys : List Key :=
  [.protocol, .codeSet, .dataPin, .clockPin, .stallPeriod, .ackStalls, .idStalls, .responseTimeout,
    .wheel, .ledPin]

/-- The document of a configuration sets each key for which there is a value, in order. -/
theorem settings_ofConfig (c : Config) :
    (Document.ofConfig c).settings = keys.filterMap fun key =>
      (Value.ofConfig? c key).map (⟨some key.section.name.toList, key.name.toList, ·⟩) := by
  obtain ⟨_, _, _, _, _, _, led⟩ := c
  cases led <;> rfl

/-- The document of a configuration has no headers but those of sections. -/
theorem header_of_mem_ofConfig {name : List Char}
    (h : Item.header name ∈ (Document.ofConfig c).items) : ∃ s : Section, name = s.name.toList := by
  have hheaders : (Document.ofConfig c).items.filter Item.isHeader =
      [Section.interface, .timing, .mouse, .status].map fun s => .header s.name.toList := by
    obtain ⟨_, _, _, _, _, _, led⟩ := c
    cases led <;> rfl
  have hmem : Item.header name ∈ (Document.ofConfig c).items.filter Item.isHeader :=
    List.mem_filter.mpr ⟨h, rfl⟩
  rw [hheaders] at hmem
  obtain ⟨s, -, hs⟩ := List.mem_map.mp hmem
  exact ⟨s, (Item.header.inj hs).symm⟩

/-- Every configuration can be written. -/
theorem writes_ofConfig (c : Config) : (Document.ofConfig c).Writes c where
  headers _ h := header_of_mem_ofConfig h
  settings s hs := by
    rw [settings_ofConfig] at hs
    obtain ⟨key, -, hkey⟩ := List.mem_filterMap.mp hs
    obtain ⟨v, hv, rfl⟩ := Option.map_eq_some_iff.mp hkey
    exact ⟨key, ⟨rfl, rfl⟩, spells_ofConfig? hv⟩
  complete key := by
    cases hv : Value.ofConfig? c key with
    | some v =>
      refine .inl ⟨⟨some key.section.name.toList, key.name.toList, v⟩, ?_, rfl, rfl⟩
      rw [settings_ofConfig, List.mem_filterMap]
      exact ⟨key, by cases key <;> decide, by rw [hv]; rfl⟩
    | none =>
      -- Only a missing LED has no value, and there is none by default.
      cases key with
      | ledPin =>
        have hled : c.ledPin = none := Option.map_eq_none_iff.mp hv
        exact .inr (by rw [SameAt, Config.copyFrom, hled])
      | _ => exact nomatch hv

/-! ### Back and forth -/

/-- Every configuration can be written, and one to run with is read back from each document that
writes it: with its sections and keys in any order, its values in any spelling and its defaults left
out or not, and with any blanks, comments and ends of lines. -/
theorem read_written (hc : c.Sound) :
    (Document.ofConfig c).Writes c ∧ ∀ d : Document, d.Writes c → Config.read d.render = .ok c := by
  refine ⟨writes_ofConfig c, fun d hd => ?_⟩
  have hhash : ∀ s ∈ d.settings, '#' ∉ s.value.render := by
    intro s hs
    obtain ⟨key, -, hspells⟩ := hd.settings s hs
    exact Config.hash_not_mem_of_spells hspells
  have hheaders : ∀ t, Item.header t ∈ d.items → ∃ s, Section.ofName? t = some s :=
    fun t ht => (hd.headers t ht).imp fun _ hname => Section.ofName?_eq_some.mpr hname
  obtain ⟨c', hfold, hsame⟩ := foldlM_apply_of_spells hc.toInRange hd.settings {}
  -- What is not set is as at the beginning, and so are the defaults.
  obtain rfl : c' = c := Config.eq_of_sameAt fun key => hsame key (hd.complete key)
  rw [read_render d hhash hheaders, hfold]
  exact if_pos hc.pinsAgree

/-- A mouse with a LED, written from the last section to the first one, with comments that look like
something else. -/
def crowded : Document where
  lines :=
    [({ Line.bare .nothing with
        indent := { chars := ['\t'] }, comment := some { chars := "[mouse] = \"".toList } }, .crlf),
      ({ Line.bare (.header .space (.ofSection .status) { chars := ['\t'] }) with
         comment := some { chars := "# ]".toList } }, .lf),
      ({ Line.bare (.setting (.ofKey .ledPin) .none .none (.text "^!gpio25".toList)) with
         trail := .space, comment := some { chars := "led_pin = \"#".toList } }, .lf),
      (.bare .nothing, .crlf),
      (.bare (.header .none (.ofSection .timing) .none), .crlf),
      ({ Line.bare (.setting (.ofKey .idStalls) { chars := ['\t'] } .space
           (.number .none "7".toList)) with
         indent := .space, comment := some { chars := ['"'] } }, .lf),
      (.bare (.header .none (.ofSection .interface) .none), .lf),
      (.bare (.setting (.ofKey .codeSet) .none .none (.text "set3".toList)), .lf)]
  last := .bare (.setting (.ofKey .protocol) .none .none (.text "mouse".toList))

/-- Headers in another order, comments, blanks and both line ends: the document is read as what it
writes. -/
theorem read_written_crowded :
    let c : Config :=
      { protocol := .ps2Mouse, codeSet := .set3, timing := { idStalls := 7 }
        ledPin := some { number := 25, inverted := true, pullUp := true } }
    c.Sound ∧ crowded.Writes c ∧ Config.read crowded.render = .ok c := by
  intro c
  have hc : c.Sound := Config.sound_of_pinsAgree
    { Config.inRange_default with
      idStalls_ne := by decide
      ledPin_le := by rintro led ⟨⟩; decide } (by decide)
  -- These are the settings, each with the header above it.
  have hsettings : crowded.settings =
      [⟨some "status".toList, "led_pin".toList, .text "^!gpio25".toList⟩,
        ⟨some "timing".toList, "id_stall_limit".toList, .number .none "7".toList⟩,
        ⟨some "interface".toList, "code_set".toList, .text "set3".toList⟩,
        ⟨some "interface".toList, "protocol".toList, .text "mouse".toList⟩] := rfl
  have hd : crowded.Writes c := by
    constructor
    · intro name hname
      have hheaders : ∀ item ∈ crowded.items, item.isHeader = true →
          ∃ s ∈ [Section.status, .timing, .interface], item.name = s.name.toList := by decide
      obtain ⟨s, -, hs⟩ := hheaders _ hname rfl
      exact ⟨s, hs⟩
    · intro s hs
      rw [hsettings] at hs
      simp only [List.mem_cons, List.not_mem_nil, or_false] at hs
      obtain rfl | rfl | rfl | rfl := hs
      · exact ⟨.ledPin, ⟨rfl, rfl⟩, _, rfl, ['^', '!'], by simp, by simp, by simp, rfl⟩
      · exact ⟨.idStalls, ⟨rfl, rfl⟩, (by decide : "7".toList = Nat.toDigits 10 7)⟩
      · exact ⟨.codeSet, ⟨rfl, rfl⟩, .inr (by decide)⟩
      · exact ⟨.protocol, ⟨rfl, rfl⟩, "mouse", by decide, rfl⟩
    -- Each key has a setting, or its default.
    · intro key
      rw [hsettings]
      cases key with
      | ledPin => exact .inl ⟨_, .head _, rfl, rfl⟩
      | idStalls => exact .inl ⟨_, .tail _ (.head _), rfl, rfl⟩
      | codeSet => exact .inl ⟨_, .tail _ (.tail _ (.head _)), rfl, rfl⟩
      | protocol => exact .inl ⟨_, .tail _ (.tail _ (.tail _ (.head _))), rfl, rfl⟩
      | _ => exact .inr rfl
  exact ⟨hc, hd, (read_written hc).2 crowded hd⟩

end Plain

end KeyBridge
