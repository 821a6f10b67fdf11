/-!
# Boxed messages

A report in a box: a title and a row for each line. Rows are padded by the number of their
characters. A line of more than 62 bytes in UTF-8 is cut after 59 of them, which it can only be if
a character ends there.
-/

namespace KeyBridge.Build

/-- The number of bytes of a text in UTF-8. -/
def byteLength (s : List Char) : Nat := s.foldr (fun c n => c.utf8Size + n) 0

/-- The beginning of a text that has exactly `n` bytes in UTF-8. -/
def takeBytes? : Nat → List Char → Option (List Char)
  | 0, _ => some []
  | _ + 1, [] => none
  | n + 1, c :: rest =>
    if c.utf8Size ≤ n + 1 then (takeBytes? (n + 1 - c.utf8Size) rest).map (c :: ·) else none

/-- The text with blanks after it, up to `n` characters. -/
def padRight (n : Nat) (s : List Char) : List Char := s ++ List.replicate (n - s.length) ' '

/-- The width of a row. -/
def rowWidth : Nat := 62

/-- The width of the title. -/
def titleWidth : Nat := 56

/-- What a row shows of a line: all of it if it is short enough, otherwise its beginning and three
points. -/
def shown? (line : List Char) : Option (List Char) :=
  if rowWidth < byteLength line then (takeBytes? (rowWidth - 3) line).map (· ++ "...".toList)
  else some line

/-- The row of a line. -/
def row? (line : List Char) : Option (List Char) :=
  (shown? line).map fun s => "║  • ".toList ++ padRight rowWidth s ++ " ║".toList

/-- A horizontal line between two corners. -/
def rule (left right : Char) : List Char := left :: List.replicate 66 '═' ++ [right]

/-- The report in its box, unless a line would have to be cut within a character. -/
def box? (title : List Char) (lines : List (List Char)) : Option (List Char) :=
  (lines.mapM row?).map fun rows =>
    ['\n'] ++ rule '╔' '╗' ++ "\n║  ERROR: ".toList ++ padRight titleWidth title ++ " ║\n".toList ++
      rule '╠' '╣' ++ ['\n'] ++ ['\n'].intercalate rows ++ ['\n'] ++ rule '╚' '╝' ++ ['\n']

end KeyBridge.Build
