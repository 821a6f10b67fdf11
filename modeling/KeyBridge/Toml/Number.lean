/-!
# TOML numbers

Numbers, each as the text of one token.

* `integer?` — whole numbers of 64 bits, in four bases;
* `isFloat` — numbers with a fraction or an exponent, below the range of double precision.
-/

namespace KeyBridge.Toml

/-- The value of a digit in bases up to sixteen. -/
def digitValue? (base : Nat) (c : Char) : Option Nat :=
  let v :=
    if '0' ≤ c ∧ c ≤ '9' then c.toNat - '0'.toNat
    else if 'a' ≤ c ∧ c ≤ 'f' then c.toNat - 'a'.toNat + 10
    else if 'A' ≤ c ∧ c ≤ 'F' then c.toNat - 'A'.toNat + 10
    else base
  if v < base then some v else none

/-- Reads one or more digits, between any two of which an underscore may stand. -/
def digits? (base : Nat) : List Char → Option (List Nat)
  | [] => none
  | [c] => (digitValue? base c).map fun d => [d]
  | c :: '_' :: rest => do
    let d ← digitValue? base c
    let ds ← digits? base rest
    some (d :: ds)
  | c :: rest => do
    let d ← digitValue? base c
    let ds ← digits? base rest
    some (d :: ds)

/-- The number with the given digits. -/
def ofDigits (base : Nat) (ds : List Nat) : Nat := ds.foldl (fun n d => base * n + d) 0

/-- Takes a sign off. -/
def unsign : List Char → Bool × List Char
  | '-' :: rest => (true, rest)
  | '+' :: rest => (false, rest)
  | s => (false, s)

/-- Decimal digits without a leading zero, zero itself apart. -/
def plainDigits? (s : List Char) : Option (List Nat) :=
  match digits? 10 s with
  | some (0 :: _ :: _) => none
  | ds => ds

/-- The greatest integer. -/
def maxInteger : Int := 9223372036854775807

/-- A number that is in the range of integers. -/
def inRange? (n : Int) : Option Int := if -maxInteger - 1 ≤ n ∧ n ≤ maxInteger then some n else none

/-- Reads an integer: decimal, or hexadecimal, octal or binary without a sign. -/
def integer? (s : List Char) : Option Int :=
  match s with
  | '0' :: 'x' :: rest => (digits? 16 rest).bind fun ds => inRange? (ofDigits 16 ds)
  | '0' :: 'o' :: rest => (digits? 8 rest).bind fun ds => inRange? (ofDigits 8 ds)
  | '0' :: 'b' :: rest => (digits? 2 rest).bind fun ds => inRange? (ofDigits 2 ds)
  | _ =>
    let (negative, rest) := unsign s
    (plainDigits? rest).bind fun ds =>
      inRange? (if negative then - (ofDigits 10 ds : Int) else ofDigits 10 ds)

/-! ## Floats -/

/-- Whether `m * 10 ^ e` rounds to a double below infinity. The limit is the middle between the
greatest double and the next one that there would be. -/
def belowInfinity (m : Nat) (e : Int) : Bool :=
  let limit := Nat.pow 2 1024 - Nat.pow 2 970
  let size := (Nat.toDigits 10 m).length
  if m = 0 then true
  else if 310 < size + e then false
  else if size + e < 308 then true
  else if 0 ≤ e then m * Nat.pow 10 e.toNat < limit
  else m < limit * Nat.pow 10 (-e).toNat

/-- Reads the exponent of a float, after its `e`. -/
def exponent? (s : List Char) : Option Int :=
  let (negative, rest) := unsign s
  (digits? 10 rest).map fun ds => if negative then - (ofDigits 10 ds : Int) else ofDigits 10 ds

/-- Whether a character is the mark of an exponent. -/
def isExponentMark (c : Char) : Bool := c == 'e' || c == 'E'

/-- Reads the digits of a fraction, after its point. -/
def fraction? : List Char → Option (List Nat)
  | '.' :: rest => digits? 10 rest
  | _ => none

/-- Whether a text is a float: an integer with a fraction, an exponent or both, or a name. Positive
numbers beyond the range of doubles are refused. -/
def isFloat (s : List Char) : Bool :=
  let (negative, rest) := unsign s
  if rest = ['i', 'n', 'f'] ∨ rest = ['n', 'a', 'n'] then true
  else
    let mantissa := rest.takeWhile (!isExponentMark ·)
    let whole := mantissa.takeWhile (· != '.')
    let point := mantissa.dropWhile (· != '.')
    let power := rest.dropWhile (!isExponentMark ·)
    let check : Option Bool := do
      let ds ← plainDigits? whole
      let fs ← if point.isEmpty then some [] else fraction? point
      let e ← if power.isEmpty then some 0 else exponent? (power.drop 1)
      some (negative || belowInfinity (ofDigits 10 (ds ++ fs)) (e - fs.length))
    (!point.isEmpty || !power.isEmpty) && check.getD false

end KeyBridge.Toml
