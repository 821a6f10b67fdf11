import KeyBridge.Config.Reader
import KeyBridge.Proofs.List
import KeyBridge.Proofs.Text.Pieces
import KeyBridge.Toml.Value

/-!
# Plainly written configurations

The reader of configurations takes a part of TOML only: headers of sections, and settings whose
values are strings, integers and truth values, with blanks and comments around them. A
`Plain.Document` is such a text with all its blanks and comments, so that `Plain.Document.render`
gives just the texts that the reader is made for. What a document says is left when the blanks and
comments are taken off.

## Main definitions

- `Plain.Line`, `Plain.Document`: lines and texts
- `Plain.Document.render`: the text of a document
- `Plain.Document.items`: what it says
- `Plain.settings`: its settings, each with the header that it stands under
-/

namespace KeyBridge.Plain

/-! ## Characters -/

/-- Whether a character of a string stands for itself. -/
def isTextChar (c : Char) : Bool := Toml.isPrintable c && c != '"' && c != '\\'

/-- The spaces of TOML are blank. -/
theorem isBlank_of_isSpace {c : Char} (h : Toml.isSpace c = true) : Text.isBlank c = true := by
  simp only [Toml.isSpace, Bool.or_eq_true, beq_iff_eq] at h
  obtain rfl | rfl := h <;> decide

/-- What is not blank is no space of TOML. -/
theorem isSpace_of_isBlank {c : Char} (h : Text.isBlank c = false) : Toml.isSpace c = false := by
  cases hs : Toml.isSpace c
  · rfl
  · exact nomatch h.symm.trans (isBlank_of_isSpace hs)

/-- The visible characters of ASCII are not blank. -/
theorem isBlank_of_visible {c : Char} (h : 33 ≤ c.toNat) (h' : c.toNat ≤ 126) :
    Text.isBlank c = false := by
  simp [Text.isBlank, Text.blankRanges]
  omega

/-- No character of a bare key is blank. -/
theorem isBlank_of_isKeyChar {c : Char} (h : Toml.isKeyChar c = true) :
    Text.isBlank c = false := by
  delta Toml.isKeyChar Char.isAlphanum Char.isAlpha Char.isUpper Char.isLower Char.isDigit at h
  simp only [Bool.or_eq_true, Bool.and_eq_true, decide_eq_true_eq, beq_iff_eq, ge_iff_le,
    UInt32.le_iff_toNat_le, Char.reduceVal, UInt32.reduceToNat, Char.toNat_val] at h
  obtain ((h | h) | rfl) | rfl := h
  · exact isBlank_of_visible (by omega) (by omega)
  · exact isBlank_of_visible (by omega) (by omega)
  · decide
  · decide

/-- No digit is blank. -/
theorem isBlank_of_isDigit {c : Char} (h : c.isDigit = true) : Text.isBlank c = false := by
  apply isBlank_of_isKeyChar
  simp [Toml.isKeyChar, Char.isAlphanum, h]

/-! ## Pieces -/

/-- Spaces and tabs. -/
structure Blanks where
  chars : List Char := []
  areSpace : ∀ c ∈ chars, Toml.isSpace c = true := by exact forall_mem_of_all (by decide)

/-- A name without quotes. -/
structure Name where
  chars : List Char
  ne_nil : chars ≠ [] := by decide
  areKeyChars : ∀ c ∈ chars, Toml.isKeyChar c = true := by
    exact forall_mem_of_all (by decide)

/-- What follows a `#` in a line. -/
structure Comment where
  chars : List Char
  inLine : '\n' ∉ chars := by decide

/-- The sign of a number. -/
inductive Sign where
  | none
  | plus
  | minus
deriving DecidableEq, Repr

/-- The characters of a sign. -/
def Sign.render : Sign → List Char
  | none => []
  | plus => ['+']
  | minus => ['-']

/-- A value: a string in which every character stands for itself, an integer in decimal, or a truth
value. -/
inductive Value where
  | text (chars : List Char)
      (stand : ∀ c ∈ chars, isTextChar c = true := by exact forall_mem_of_all (by decide))
  | number (sign : Sign) (digits : List Char) (ne_nil : digits ≠ [] := by decide)
      (areDigits : ∀ c ∈ digits, c.isDigit = true := by exact forall_mem_of_all (by decide))
  | truth (b : Bool)
deriving DecidableEq

/-- The text of a value. -/
def Value.render : Value → List Char
  | text chars _ => '"' :: chars ++ ['"']
  | number sign digits _ _ => sign.render ++ digits
  | truth b => (if b then "true" else "false").toList

/-- The characters of a string. -/
def Value.text? : Value → Option (List Char)
  | text chars _ => some chars
  | _ => none

/-- Whether a value is a truth value. -/
def Value.isTruth : Value → Bool
  | truth _ => true
  | _ => false

/-! ## Lines -/

/-- What stands in a line, blanks and comments at its ends apart. -/
inductive Content where
  | nothing
  | header (left : Blanks) (name : Name) (right : Blanks)
  | setting (key : Name) (left right : Blanks) (value : Value)

/-- The text of a content. -/
def Content.render : Content → List Char
  | nothing => []
  | header left name right => '[' :: (left.chars ++ (name.chars ++ (right.chars ++ [']'])))
  | setting key left right value =>
    key.chars ++ (left.chars ++ ('=' :: (right.chars ++ value.render)))

/-- A line. -/
structure Line where
  indent : Blanks := {}
  content : Content
  trail : Blanks := {}
  comment : Option Comment := none

/-- The text of a comment, if there is one. -/
def renderComment : Option Comment → List Char
  | none => []
  | some c => '#' :: c.chars

/-- What follows the content of a line. -/
def Line.tail (l : Line) : List Char := l.trail.chars ++ renderComment l.comment

/-- The text of a line. -/
def Line.render (l : Line) : List Char := l.indent.chars ++ (l.content.render ++ l.tail)

/-! ## Documents -/

/-- How a line ends. -/
inductive Ending where
  | lf
  | crlf
deriving DecidableEq, Repr

/-- What stands before the line feed at the end of a line. -/
def Ending.render : Ending → List Char
  | lf => []
  | crlf => ['\r']

/-- A text: lines that end, and one that ends with the text. -/
structure Document where
  lines : List (Line × Ending)
  last : Line

/-- The text of lines that end, before another text. -/
def renderLines (ls : List (Line × Ending)) (rest : List Char) : List Char :=
  ls.foldr (fun l rest => l.1.render ++ (l.2.render ++ '\n' :: rest)) rest

/-- The text of a document. -/
def Document.render (d : Document) : List Char := renderLines d.lines d.last.render

/-- What a line says. -/
inductive Item where
  | header (name : List Char)
  | setting (key : List Char) (value : Value)
deriving DecidableEq

/-- What a line says, if it says anything. -/
def Content.item? : Content → Option Item
  | nothing => none
  | header _ name _ => some (.header name.chars)
  | setting key _ _ value => some (.setting key.chars value)

/-- What a document says. -/
def Document.items (d : Document) : List Item :=
  d.lines.filterMap (·.1.content.item?) ++ d.last.content.item?.toList

/-- The name in an item. -/
def Item.name : Item → List Char
  | header name => name
  | setting key _ => key

/-- The header that items after this one stand under. -/
def Item.under (current : Option (List Char)) : Item → Option (List Char)
  | header name => some name
  | setting .. => current

/-- A setting with the header that it stands under, if there is one. -/
structure Setting where
  header : Option (List Char)
  key : List Char
  value : Value

/-- The setting of an item. -/
def Item.setting? (current : Option (List Char)) : Item → Option Setting
  | header _ => none
  | setting key value => some ⟨current, key, value⟩

/-- The settings among items, each with the last header before it. -/
def settings (current : Option (List Char)) : List Item → List Setting
  | [] => []
  | i :: items => (i.setting? current).toList ++ settings (i.under current) items

/-- The settings of a document. -/
def Document.settings (d : Document) : List Setting := Plain.settings none d.items

end KeyBridge.Plain
