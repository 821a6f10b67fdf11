import KeyBridge.Proofs.Config.Plain

/-!
# Plain documents in TOML

The check before the build leaves reading to a reader of TOML, into which nothing here looks. What
is relied on is what TOML 1.0 says of plain documents: such a document, if it is taken at all, is a
table of just the tables that its headers open, each with the settings under its header.

## Main definitions

- `Value.toml?`: what a plain value is in TOML
- `Holds`: a value holds what a document says
- `ReadsPlain`: a reader that takes plain documents for what they say
-/

namespace KeyBridge.Plain

open Toml (Key)

variable {x : Toml.Value} {v : Value}

/-! ## Values -/

/-- A number with a sign. -/
def Sign.apply : Sign → Nat → Int
  | none, n | plus, n => n
  | minus, n => -n

/-- What a plain value is in TOML. An integer must fit into 64 bits, and may begin with a zero only
if that is its only digit. -/
def Value.toml? : Value → Option Toml.Value
  | text chars _ => some (.string chars)
  | number sign digits _ _ =>
    let n := sign.apply (Text.digitsValue digits)
    if (digits.head? = some '0' → digits.length = 1) ∧
        -9223372036854775808 ≤ n ∧ n ≤ 9223372036854775807 then
      some (.integer n)
    else none
  | truth b => some (.boolean b)

/-- A number that is TOML is the integer that its digits and its sign say. -/
theorem Value.integer_of_toml? {sign : Sign} {digits : List Char} {ne_nil areDigits}
    (h : (number sign digits ne_nil areDigits).toml? = some x) :
    x = .integer (sign.apply (Text.digitsValue digits)) := by
  simp only [toml?] at h
  split at h
  · exact (Option.some.inj h).symm
  · exact nomatch h

/-- A plain value is no table. -/
theorem Value.isTable_toml? (h : v.toml? = some x) : x.isTable = false := by
  cases v with
  | text => cases h; rfl
  | number =>
    rw [integer_of_toml? h]
    rfl
  | truth => cases h; rfl

/-! ## Documents -/

/-- The value of a key under a header, or before all headers. -/
def cell (config : Toml.Value) : Option Key → Key → Option Toml.Value
  | none, k => config.get? k
  | some t, k => (config.get? t).bind (·.get? k)

/-- Among some settings there is one for a key under a header, or before all headers, and this is
its value. -/
def IsSetting (settings : List Setting) (t : Option Key) (k : Key) (x : Toml.Value) : Prop :=
  ∃ s ∈ settings, s.header = t ∧ s.key = k ∧ s.value.toml? = some x

/-- What TOML says that a plain document holds. -/
structure Holds (config : Toml.Value) (d : Document) : Prop where
  /-- A document is a table. -/
  table : config.isTable = true
  /-- Its settings have values: a number that is no integer of TOML is refused. -/
  values : ∀ s ∈ d.settings, ∃ x, s.value.toml? = some x
  /-- The tables in it are those that its headers open. -/
  tables : ∀ t, (∃ v, config.get? t = some v ∧ v.isTable = true) ↔ Item.header t ∈ d.items
  /-- All other values in it, and in the tables in it, are those of its settings. -/
  cells : ∀ t k x, x.isTable = false → (cell config t k = some x ↔ IsSetting d.settings t k x)
  /-- There are no tables in the tables in it. -/
  flat : ∀ t k x, cell config (some t) k = some x → x.isTable = false

/-- A reader that takes a plain document, if it takes it at all, for what TOML says that it holds.
-/
def ReadsPlain (read : Toml.Reader) : Prop :=
  ∀ (d : Document) (config : Toml.Value), read d.render = some config → Holds config d

end KeyBridge.Plain
