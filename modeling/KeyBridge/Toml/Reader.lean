import KeyBridge.Toml.Datetime
import KeyBridge.Toml.Document

/-!
# Reading TOML

A reader takes a text apart from its beginning: it gives what it has read and the rest of the text,
or nothing if the text is malformed. A document is first read into a list of statements, one for
each header and each value, these are then put together to a table, and at last the tables that
stand for dates are replaced by them.

* `value` — one value, with arrays and tables in it up to a fixed depth;
* `statements` — the statements of a document;
* `read` — the value of a document.
-/

namespace KeyBridge.Toml

/-! ## Blanks, comments and ends of lines -/

/-- The text without the blanks at its beginning. -/
def skipSpaces (s : List Char) : List Char := s.dropWhile isSpace

/-- The text after the end of a line, if it begins with one. -/
def lineEnd? : List Char → Option (List Char)
  | [] => some []
  | '\n' :: rest => some rest
  | '\r' :: '\n' :: rest => some rest
  | _ => none

/-- The text after the blanks and the comment at the end of a line. -/
def restOfLine? (s : List Char) : Option (List Char) :=
  match skipSpaces s with
  | '#' :: rest => lineEnd? (rest.dropWhile isPrintable)
  | s => lineEnd? s

/-- The text after blanks, ends of lines and comments, within an array. -/
def skipLines (inComment : Bool) : List Char → Option (List Char)
  | [] => if inComment then none else some []
  | '\n' :: rest => skipLines false rest
  | '\r' :: '\n' :: rest => skipLines false rest
  | c :: rest =>
    if inComment then if isPrintable c then skipLines true rest else none
    else if isSpace c then skipLines false rest
    else if c = '#' then skipLines true rest
    else some (c :: rest)

/-! ## Strings -/

/-- The character of an escape by number. -/
def scalar? (hex : List Char) : Option Char :=
  match hex.mapM (digitValue? 16) with
  | some ds => if h : (ofDigits 16 ds).isValidChar then some (.ofNatAux _ h) else none
  | none => none

/-- The character of an escape by letter. -/
def escape? : Char → Option Char
  | 'b' => some '\x08'
  | 't' => some '\t'
  | 'n' => some '\n'
  | 'f' => some '\x0c'
  | 'r' => some '\r'
  | '"' => some '"'
  | '\\' => some '\\'
  | _ => none

/-- Puts a character in front of what has been read. -/
def before (c : Char) (r : List Char × List Char) : List Char × List Char := (c :: r.1, r.2)

/-- Reads a string in double quotes, after the first quote. -/
def quoted : List Char → Option (List Char × List Char)
  | [] => none
  | '"' :: rest => some ([], rest)
  | '\\' :: 'u' :: a :: b :: c :: d :: rest => do
    let char ← scalar? [a, b, c, d]
    (before char) <$> quoted rest
  | '\\' :: 'U' :: a :: b :: c :: d :: e :: f :: g :: h :: rest => do
    let char ← scalar? [a, b, c, d, e, f, g, h]
    (before char) <$> quoted rest
  | '\\' :: c :: rest => do
    let char ← escape? c
    (before char) <$> quoted rest
  | c :: rest => if isPrintable c then (before c) <$> quoted rest else none

/-- Reads a string in single quotes, after the first quote. -/
def literal : List Char → Option (List Char × List Char)
  | [] => none
  | '\'' :: rest => some ([], rest)
  | c :: rest => if isPrintable c then (before c) <$> literal rest else none

/-- Whether a text goes on in the next line, blanks apart. -/
def endsLine (s : List Char) : Bool :=
  match skipSpaces s with
  | '\n' :: _ | '\r' :: '\n' :: _ => true
  | _ => false

/-- Reads a string in three double quotes, after the first ones. One or two more quotes may stand
before the last ones. After a backslash at the end of a line, blanks and ends of lines are passed
over, which is what `skipping` says. -/
def quotedLines (skipping : Bool) : List Char → Option (List Char × List Char)
  | [] => none
  | '"' :: '"' :: '"' :: '"' :: '"' :: rest => some (['"', '"'], rest)
  | '"' :: '"' :: '"' :: '"' :: rest => some (['"'], rest)
  | '"' :: '"' :: '"' :: rest => some ([], rest)
  | '\r' :: '\n' :: rest =>
    if skipping then quotedLines true rest else (before '\n') <$> quotedLines false rest
  | '\n' :: rest =>
    if skipping then quotedLines true rest else (before '\n') <$> quotedLines false rest
  | '\\' :: 'u' :: a :: b :: c :: d :: rest => do
    let char ← scalar? [a, b, c, d]
    (before char) <$> quotedLines false rest
  | '\\' :: 'U' :: a :: b :: c :: d :: e :: f :: g :: h :: rest => do
    let char ← scalar? [a, b, c, d, e, f, g, h]
    (before char) <$> quotedLines false rest
  | '\\' :: c :: rest =>
    if endsLine (c :: rest) then quotedLines true (c :: rest)
    else do
      let char ← escape? c
      (before char) <$> quotedLines false rest
  | c :: rest =>
    if skipping && isSpace c then quotedLines true rest
    else if isPrintable c then (before c) <$> quotedLines false rest
    else none

/-- Reads a string in three single quotes, after the first ones. -/
def literalLines : List Char → Option (List Char × List Char)
  | [] => none
  | '\'' :: '\'' :: '\'' :: '\'' :: '\'' :: rest => some (['\'', '\''], rest)
  | '\'' :: '\'' :: '\'' :: '\'' :: rest => some (['\''], rest)
  | '\'' :: '\'' :: '\'' :: rest => some ([], rest)
  | '\r' :: '\n' :: rest => (before '\n') <$> literalLines rest
  | '\n' :: rest => (before '\n') <$> literalLines rest
  | c :: rest => if isPrintable c then (before c) <$> literalLines rest else none

/-- The text without the end of a line at its beginning. -/
def dropLineEnd : List Char → List Char
  | '\n' :: rest => rest
  | '\r' :: '\n' :: rest => rest
  | s => s

/-- Reads a string of any kind, with its quotes. -/
def string? : List Char → Option (List Char × List Char)
  | '"' :: '"' :: '"' :: rest => quotedLines false (dropLineEnd rest)
  | '"' :: rest => quoted rest
  | '\'' :: '\'' :: '\'' :: rest => literalLines (dropLineEnd rest)
  | '\'' :: rest => literal rest
  | _ => none

/-! ## Keys -/

/-- Reads one part of a key. -/
def simpleKey : List Char → Option (Key × List Char)
  | '"' :: rest => quoted rest
  | '\'' :: rest => literal rest
  | s =>
    let k := s.takeWhile isKeyChar
    if k.isEmpty then none else some (k, s.dropWhile isKeyChar)

/-- A key has fewer parts than this. -/
def maxKeyParts : Nat := 80

/-- Reads a key of at most `n` parts with dots between them, and the blanks around it. -/
def keyParts : Nat → List Char → Option (List Key × List Char)
  | 0, _ => none
  | n + 1, s => do
    let (k, rest) ← simpleKey (skipSpaces s)
    match skipSpaces rest with
    | '.' :: rest =>
      let (ks, rest) ← keyParts n rest
      some (k :: ks, rest)
    | rest => some ([k], rest)

/-- Reads a key: all of its parts but the last one, the last one, and the rest of the text. -/
def key (s : List Char) : Option (List Key × Key × List Char) := do
  let (ks, rest) ← keyParts (maxKeyParts - 1) s
  let last ← ks.getLast?
  some (ks.dropLast, last, rest)

/-! ## Values -/

/-- Whether a character may stand in a number, a date or a truth value. -/
def isTokenChar (c : Char) : Bool :=
  c.isAlphanum || c == '+' || c == '-' || c == '_' || c == '.' || c == ':'

/-- The value of a token. -/
def tokenValue? (t : List Char) : Option Value :=
  if t = "true".toList then some (.boolean true)
  else if t = "false".toList then some (.boolean false)
  else if isDatetime t then some .datetime
  else if isFloat t then some .float
  else (integer? t).map .integer

/-- Reads a number, a date or a truth value. Between a date and a time a blank may stand. -/
def token (s : List Char) : Option (Value × List Char) :=
  let t := s.takeWhile isTokenChar
  let rest := s.dropWhile isTokenChar
  match rest with
  | ' ' :: c :: more =>
    if isDate t && c.isDigit then
      let time := (c :: more).takeWhile isTokenChar
      if isZonedTime time then some (.datetime, (c :: more).dropWhile isTokenChar) else none
    else (tokenValue? t).map (·, rest)
  | _ => (tokenValue? t).map (·, rest)

/-- Reads the items of an array, `n` at most, up to its closing bracket. -/
def items (item : List Char → Option (Value × List Char)) :
    Nat → List Char → Option (List Value × List Char)
  | 0, _ => none
  | n + 1, s => do
    match ← skipLines false s with
    | ']' :: rest => some ([], rest)
    | s =>
      let (v, rest) ← item s
      match ← skipLines false rest with
      | ']' :: rest => some ([v], rest)
      | ',' :: rest =>
        let (vs, rest) ← items item n rest
        some (v :: vs, rest)
      | _ => none

/-- Reads a key and its value. -/
def keyValue (item : List Char → Option (Value × List Char)) (s : List Char) :
    Option (List Key × Key × Value × List Char) := do
  let (path, k, rest) ← key s
  match rest with
  | '=' :: rest =>
    let (v, rest) ← item (skipSpaces rest)
    some (path, k, v, rest)
  | _ => none

/-- Reads the entries of a table in braces, `n` at most, up to its closing brace, and adds them to
those before them. -/
def fields (item : List Char → Option (Value × List Char)) :
    Nat → Entries → List Char → Option (Entries × List Char)
  | 0, _, _ => none
  | n + 1, es, s => do
    let (path, k, v, rest) ← keyValue item s
    let (_, es) ← setDotted path k v .inline es
    match skipSpaces rest with
    | '\x7d' :: rest => some (es, rest)
    | ',' :: rest => fields item n es rest
    | _ => none

/-- Reads a value in which arrays and tables are nested at most `depth` deep. -/
def value : Nat → List Char → Option (Value × List Char)
  | _, '"' :: rest => (string? ('"' :: rest)).map fun r => (.string r.1, r.2)
  | _, '\'' :: rest => (string? ('\'' :: rest)).map fun r => (.string r.1, r.2)
  | 0, s => token s
  | depth + 1, '[' :: rest =>
    (items (value depth) (rest.length + 1) rest).map fun r => (.array false r.1, r.2)
  | depth + 1, '\x7b' :: rest =>
    match skipSpaces rest with
    | '\x7d' :: rest => some (.table .inline [], rest)
    | rest =>
      (fields (value depth) (rest.length + 1) [] rest).map fun r => (.table .inline r.1, r.2)
  | _ + 1, s => token s

/-- How deep arrays and tables can be nested. -/
def maxDepth : Nat := 79

/-! ## Statements -/

/-- One statement of a document. -/
inductive Statement where
  /-- The header of a table. -/
  | table (path : List Key) (key : Key)
  /-- The header of one more table of an array. -/
  | element (path : List Key) (key : Key)
  /-- A value of the table under the last header. -/
  | value (path : List Key) (key : Key) (value : Value)
deriving Repr

/-- Reads a header, after its first bracket. -/
def header : List Char → Option (Statement × List Char)
  | '[' :: rest => do
    let (path, k, rest) ← key rest
    match rest with
    | ']' :: ']' :: rest => some (.element path k, rest)
    | _ => none
  | s => do
    let (path, k, rest) ← key s
    match rest with
    | ']' :: rest => some (.table path k, rest)
    | _ => none

/-- Reads statements, of which and of empty lines there are at most `n`. -/
def statements : Nat → List Char → Option (List Statement)
  | 0, _ => none
  | n + 1, s =>
    match skipSpaces s with
    | [] => some []
    | '#' :: rest => do
      statements n (← restOfLine? ('#' :: rest))
    | '\n' :: rest => statements n rest
    | '\r' :: '\n' :: rest => statements n rest
    | '[' :: rest => do
      let (h, rest) ← header rest
      let more ← statements n (← restOfLine? rest)
      some (h :: more)
    | s => do
      let (path, k, v, rest) ← keyValue (value maxDepth) s
      let more ← statements n (← restOfLine? rest)
      some (.value path k v :: more)

/-! ## Documents -/

/-- A document as far as it has been put together, with the path of its last header. -/
structure Progress where
  current : List Key := []
  entries : Entries := []

/-- Adds one statement. -/
def Progress.add (p : Progress) : Statement → Option Progress
  | .table path k => (openTable path k p.entries).map fun es => ⟨path ++ [k], es⟩
  | .element path k => (openElement path k p.entries).map fun es => ⟨path ++ [k], es⟩
  | .value path k v => (define p.current path k v p.entries).map fun es => ⟨p.current, es⟩

/-- The text without a byte order mark at its beginning. -/
def dropMark : List Char → List Char
  | '\uFEFF' :: rest => rest
  | s => s

/-- Reads a document. The result is a table, or nothing if the text is malformed; only a document
that begins with the reserved key for dates is no table but a date. -/
def read : Reader := fun text => do
  let ss ← statements (text.length + 1) (dropMark text)
  let p ← ss.foldlM Progress.add {}
  (Value.table .header p.entries).readDates

end KeyBridge.Toml
