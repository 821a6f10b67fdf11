/-!
# Text

What the readers of configurations need of text.

* `trim` — text without blank characters at its ends;
* `lines`, `cut?`, `after?` — text taken apart. A carriage return before a line feed stays at the
  end of its line; readers that trim their lines do not see it;
* `byte?`, `word?` — unsigned numbers, which are written with ASCII digits, any number of leading
  zeros and, if one likes, a plus sign in front.
-/

namespace KeyBridge.Text

/-! ## Blank characters -/

/-- The characters with the Unicode property `White_Space`, as ranges of code points. -/
def blankRanges : List (Nat × Nat) :=
  [(0x09, 0x0D), (0x20, 0x20), (0x85, 0x85), (0xA0, 0xA0), (0x1680, 0x1680), (0x2000, 0x200A),
    (0x2028, 0x2029), (0x202F, 0x202F), (0x205F, 0x205F), (0x3000, 0x3000)]

/-- Whether a character is blank. -/
def isBlank (c : Char) : Bool := blankRanges.any fun r => r.1 ≤ c.toNat && c.toNat ≤ r.2

/-- Every character that core takes for whitespace is blank. -/
theorem isBlank_of_isWhitespace (c : Char) (h : c.isWhitespace) : isBlank c := by
  simp only [Char.isWhitespace, Bool.or_eq_true, decide_eq_true_eq] at h
  rcases h with ((rfl | rfl) | rfl) | rfl <;> decide

/-- The text without the blank characters at its end. -/
def trimEnd (s : List Char) : List Char := (s.reverse.dropWhile isBlank).reverse

/-- The text without the blank characters at its two ends. -/
def trim (s : List Char) : List Char := trimEnd (s.dropWhile isBlank)

@[simp] theorem trim_nil : trim [] = [] := rfl

/-! ## Lines and pieces -/

/-- The lines of a text, without the line feeds between them. There is always at least one. -/
def lines (s : List Char) : List (List Char) :=
  s.foldr (fun c rest =>
    if c = '\n' then [] :: rest
    else match rest with
      | [] => [[c]]
      | line :: more => (c :: line) :: more) [[]]

@[simp] theorem lines_nil : lines [] = [[]] := rfl

@[simp] theorem lines_newline (s : List Char) : lines ('\n' :: s) = [] :: lines s := by
  simp [lines]

/-- The first occurrence of `c`: what stands before it and what stands after it. -/
def cut? (c : Char) (s : List Char) : Option (List Char × List Char) :=
  match s.dropWhile (· != c) with
  | [] => none
  | _ :: rest => some (s.takeWhile (· != c), rest)

/-- The rest of `s` after the text `start`, if `s` begins with it. -/
def after? (start s : List Char) : Option (List Char) :=
  if start.isPrefixOf s then some (s.drop start.length) else none

/-! ## Decimal numbers -/

/-- The value of a list of digits, the most significant first. -/
def digitsValue (ds : List Char) : Nat :=
  ds.foldl (fun n c => 10 * n + (c.toNat - '0'.toNat)) 0

/-- The text without a plus sign in front. -/
def dropPlus : List Char → List Char
  | '+' :: rest => rest
  | s => s

/-- Reads a decimal number that is at most `max`. -/
def decimal? (max : Nat) (s : List Char) : Option Nat :=
  let ds := dropPlus s
  if ds ≠ [] ∧ ds.all Char.isDigit ∧ digitsValue ds ≤ max then some (digitsValue ds) else none

/-- A number that is read is within the bound. -/
theorem decimal?_le {max n : Nat} {s : List Char} (h : decimal? max s = some n) : n ≤ max := by
  simp only [decimal?] at h
  split at h
  · next hs => cases h; exact hs.2.2
  · cases h

/-- Reads a byte. -/
def byte? (s : List Char) : Option UInt8 := (decimal? 255 s).map UInt8.ofNat

/-- Reads a 32-bit word. -/
def word? (s : List Char) : Option UInt32 := (decimal? 4294967295 s).map UInt32.ofNat

end KeyBridge.Text
