import KeyBridge.Toml.Number
import KeyBridge.Toml.Value

/-!
# TOML dates

A date, a time of day, or both together can be written in two ways. As a token it stands for
itself. It can also be the string under a reserved key, and that key the first one of a table: the
table then stands for the date, and whatever else is in it is not looked at. What counts as a date
is the same both times.

* `isDatetime` — whether a text is a date, a time of day, or both;
* `Value.readDates` — a value with the tables that stand for dates replaced by them.
-/

namespace KeyBridge.Toml

/-- Reads a number of exactly as many decimal digits as given. -/
def fixed? (count : Nat) (s : List Char) : Option Nat :=
  if s.length = count ∧ s.all Char.isDigit then (digits? 10 s).map (ofDigits 10) else none

/-! ## Dates -/

/-- The number of days of a month. -/
def daysInMonth (year month : Nat) : Nat :=
  if month = 2 then
    if year % 4 = 0 ∧ (year % 100 ≠ 0 ∨ year % 400 = 0) then 29 else 28
  else if month = 4 ∨ month = 6 ∨ month = 9 ∨ month = 11 then 30
  else 31

/-- Whether a text is a date, such as `1979-05-27`. -/
def isDate (s : List Char) : Bool :=
  match fixed? 4 (s.take 4), fixed? 2 ((s.drop 5).take 2), fixed? 2 (s.drop 8) with
  | some year, some month, some day =>
    s[4]? == some '-' && s[7]? == some '-' && 1 ≤ month && month ≤ 12 && 1 ≤ day &&
      day ≤ daysInMonth year month
  | _, _, _ => false

/-! ## Times of day -/

/-- Whether a text is an hour and a minute with a colon between them. -/
def isHourMinute (s : List Char) : Bool :=
  ((fixed? 2 (s.take 2)).any fun hour => hour ≤ 23) && s[2]? == some ':' &&
    ((fixed? 2 (s.drop 3)).any fun minute => minute ≤ 59)

/-- Whether a text is a time of day, such as `07:32:00.5`. The second 60 is a leap second. -/
def isTime (s : List Char) : Bool :=
  isHourMinute (s.take 5) && s[5]? == some ':' &&
    ((fixed? 2 ((s.drop 6).take 2)).any fun second => second ≤ 60) &&
    (match s.drop 8 with
      | [] => true
      | '.' :: ds => !ds.isEmpty && ds.all Char.isDigit
      | _ => false)

/-- Whether a text is a time of day, with or without its distance from universal time. -/
def isZonedTime (s : List Char) : Bool :=
  let time := s.takeWhile fun c => !(c == 'Z' || c == 'z' || c == '+' || c == '-')
  isTime time &&
    match s.drop time.length with
    | [] => true
    | c :: offset => if c = 'Z' ∨ c = 'z' then offset.isEmpty else isHourMinute offset

/-- Whether a text is a date, a time of day, or both with a `T` or a blank between them. -/
def isDatetime (s : List Char) : Bool :=
  isDate s || isTime s ||
    (isDate (s.take 10) && (s[10]?.any fun c => c == 'T' || c == 't' || c == ' ') &&
      isZonedTime (s.drop 11))

/-! ## Dates in tables -/

/-- The key that makes a date of a table. -/
def dateKey : Key := "$__toml_private_datetime".toList

/-- The date that a string writes. No other value can stand under the reserved key. -/
def Value.date? : Value → Option Value
  | string s => if isDatetime s then some datetime else none
  | _ => none

mutual

/-- A value with the tables in it that stand for dates replaced by them, unless one of these dates
is malformed. -/
def Value.readDates : Value → Option Value
  | .table form es =>
    match es.head? with
    | some (key, v) => if key = dateKey then v.date? else (readDatesOfEntries es).map (.table form)
    | none => some (.table form [])
  | .array ofTables items => (readDatesOfItems items).map (.array ofTables)
  | .string s => some (.string s)
  | .integer n => some (.integer n)
  | .float => some .float
  | .boolean b => some (.boolean b)
  | .datetime => some .datetime
termination_by structural v => v

/-- Does so in the items of an array. -/
def readDatesOfItems : List Value → Option (List Value)
  | [] => some []
  | v :: vs => do
    let v ← v.readDates
    let vs ← readDatesOfItems vs
    some (v :: vs)
termination_by structural vs => vs

/-- Does so in the entries of a table. -/
def readDatesOfEntries : List (Key × Value) → Option (List (Key × Value))
  | [] => some []
  | e :: es => do
    let e ← readDatesOfEntry e
    let es ← readDatesOfEntries es
    some (e :: es)
termination_by structural es => es

/-- Does so in one entry. -/
def readDatesOfEntry : Key × Value → Option (Key × Value)
  | (key, v) => v.readDates.map (key, ·)
termination_by structural e => e

end

end KeyBridge.Toml
