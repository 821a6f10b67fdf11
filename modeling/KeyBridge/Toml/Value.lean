/-!
# TOML values

The values of a TOML document, whoever reads it. Tables keep their entries in the order of
appearance, and a reader may remember in them how they were written down, since that decides whether
later lines may add to them. No check of a configuration looks at that, nor at the value of a float
or a date, so that these carry none.

* `Value.get?` — the value of a key;
* `Value.sortedEntries` — the entries of a table in ascending order of their keys;
* `Reader` — what reads documents;
* `isSpace`, `isPrintable`, `isKeyChar` — the characters of blanks, of texts and of names.
-/

namespace KeyBridge.Toml

/-- A key, without its quotes. -/
abbrev Key := List Char

/-- How a table was written down. -/
inductive TableForm where
  /-- Under a header of its own. -/
  | header
  /-- Under the header of a table within it only. -/
  | implied
  /-- By keys with dots. -/
  | dotted
  /-- In braces. -/
  | inline
deriving DecidableEq, Repr

/-- A value. -/
inductive Value where
  | string (text : List Char)
  | integer (n : Int)
  | float
  | boolean (b : Bool)
  | datetime
  /-- An array, either in brackets or, if `ofTables`, of tables with headers. -/
  | array (ofTables : Bool) (items : List Value)
  | table (form : TableForm) (entries : List (Key × Value))
deriving Repr, Inhabited

/-- The entries of a table. -/
abbrev Entries := List (Key × Value)

namespace Value

/-- The entries of a table; of any other value there are none. -/
def entries? : Value → Option Entries
  | table _ es => some es
  | _ => none

/-- Whether a value is a table. -/
def isTable (v : Value) : Bool := v.entries?.isSome

/-- The value of a key in a table. -/
def get? (v : Value) (key : Key) : Option Value := v.entries?.bind (·.lookup key)

@[simp] theorem get?_table (form : TableForm) (es : Entries) (key : Key) :
    (table form es).get? key = es.lookup key := rfl

/-- A key that has a value is among the entries. -/
theorem mem_of_lookup {es : Entries} {key : Key} {v : Value} (h : es.lookup key = some v) :
    (key, v) ∈ es := by
  obtain ⟨before, after, rfl, -⟩ := List.lookup_eq_some_iff.mp h
  simp

/-- An integer. -/
def integer? : Value → Option Int
  | integer n => some n
  | _ => none

/-- A string. -/
def string? : Value → Option (List Char)
  | string s => some s
  | _ => none

end Value

/-! ## Order -/

/-- Adds an entry before the first one with a greater key. -/
def insertSorted (e : Key × Value) : Entries → Entries
  | [] => [e]
  | f :: es => if e.1 < f.1 then e :: f :: es else f :: insertSorted e es

/-- The entries of a table in ascending order of their keys; none of another value. -/
def Value.sortedEntries (v : Value) : Entries := (v.entries?.getD []).foldr insertSorted []

/-- Sorting in adds one entry. -/
theorem insertSorted_perm (e : Key × Value) (es : Entries) :
    (insertSorted e es).Perm (e :: es) := by
  induction es with
  | nil => exact .refl _
  | cons f es ih =>
    rw [insertSorted]
    split
    · exact .refl _
    · exact (ih.cons f).trans (.swap e f es)

/-- Sorting keeps the entries of a table. -/
theorem sortedEntries_perm (form : TableForm) (es : Entries) :
    (Value.table form es).sortedEntries.Perm es := by
  change (es.foldr insertSorted []).Perm es
  induction es with
  | nil => exact .refl _
  | cons e es ih => exact (insertSorted_perm e _).trans (ih.cons e)

/-! ## Readers -/

/-- What reads a document: its value, or nothing if the text is no TOML. -/
abbrev Reader := List Char → Option Value

/-- Whether a character is blank within a line. -/
def isSpace (c : Char) : Bool := c == ' ' || c == '\t'

/-- Whether a character may stand in comments and in text: no control character but the tab. -/
def isPrintable (c : Char) : Bool := c == '\t' || (' ' ≤ c && c != '\x7f')

/-- Whether a character may stand in a key without quotes. -/
def isKeyChar (c : Char) : Bool := c.isAlphanum || c == '-' || c == '_'

end KeyBridge.Toml
