import KeyBridge.Config
import KeyBridge.Text

/-!
# Reading a configuration

A configuration is written line by line: section headers in brackets, and `key = value` settings
below them. Blank lines and lines that start with `#` say nothing, and a `#` outside quotes ends a
line. Settings that are left out keep their defaults; of two for the same key the later one counts.

* `Config.Line.read` — what one line says;
* `Config.apply` — a configuration with one setting changed;
* `Config.read` — the configuration of a whole text.
-/

namespace KeyBridge.Config

open Text

/-- Why a configuration is refused. -/
inductive ReadError where
  /-- A section header is malformed or names no section. -/
  | invalidSection
  /-- A key does not belong to its section. -/
  | unknownKey
  /-- A line is no setting, or its value has the wrong type or is out of range. -/
  | invalidValue
  /-- A pin is malformed, or the pins do not fit together. -/
  | invalidPin
deriving DecidableEq, Repr

/-- The sections of a configuration. -/
inductive Section where
  | interface
  | timing
  | mouse
  | status
deriving DecidableEq, Repr

/-- The section with a name. -/
def Section.ofName? (name : List Char) : Option Section :=
  if name = "interface".toList then some .interface
  else if name = "timing".toList then some .timing
  else if name = "mouse".toList then some .mouse
  else if name = "status".toList then some .status
  else none

/-! ## Lines -/

/-- The text up to a `#`, unless an odd number of quotes stands before the first one. -/
def withoutComment (s : List Char) : List Char :=
  match cut? '#' s with
  | some (before, _) => if before.count '"' % 2 = 0 then trim before else s
  | none => s

/-- What one line says. -/
inductive Line where
  /-- Nothing. -/
  | blank
  /-- A section begins. -/
  | header (named : Section)
  /-- A key of the current section has a value. -/
  | setting (key value : List Char)
deriving DecidableEq, Repr

/-- The section that a header names. -/
def readHeader (line : List Char) : Except ReadError Line :=
  match (withoutComment line).reverse with
  | ']' :: inner =>
    match Section.ofName? (trim (inner.reverse.drop 1)) with
    | some s => .ok (.header s)
    | none => .error .invalidSection
  | _ => .error .invalidSection

/-- The key and the value of a setting; neither is empty. -/
def readSetting (line : List Char) : Except ReadError Line :=
  match cut? '=' line with
  | none => .error .invalidValue
  | some (left, right) =>
    let key := trim left
    let value := withoutComment (trim right)
    if key.isEmpty || value.isEmpty then .error .invalidValue else .ok (.setting key value)

/-- What one line says. -/
def Line.read (line : List Char) : Except ReadError Line :=
  match trim line with
  | [] | '#' :: _ => .ok .blank
  | '[' :: rest => readHeader ('[' :: rest)
  | s => readSetting s

/-! ## Values -/

/-- The text between two quotes. -/
def quoted? : List Char → Option (List Char)
  | '"' :: rest =>
    match rest.reverse with
    | '"' :: inner => some inner.reverse
    | _ => none
  | _ => none

/-- The protocol with a name. -/
def Protocol.ofName? (name : List Char) : Option Protocol :=
  if ["at".toList, "ps2".toList, "at_ps2".toList].contains name then some .atKeyboard
  else if ["ps2_mouse".toList, "mouse".toList].contains name then some .ps2Mouse
  else if name = "xt".toList then some .xt
  else if name = "amiga".toList then some .amiga
  else if name = "m0110".toList then some .m0110
  else none

/-- The code set with a number. -/
def CodeSet.ofNumber? (n : UInt8) : Option CodeSet :=
  if n = 1 then some .set1 else if n = 2 then some .set2 else if n = 3 then some .set3 else none

/-- A code set is written as its number or, in quotes, as `set` and its number. -/
def codeSet? (value : List Char) : Option CodeSet :=
  match quoted? value with
  | some name => (after? "set".toList name).bind byte? |>.bind CodeSet.ofNumber?
  | none => (byte? value).bind CodeSet.ofNumber?

/-- A pin is named by `gpio` and its number, after any marks: `!` inverts it and `^` turns its
pull-up on. -/
def pinNamed? (inverted pullUp : Bool) : List Char → Option Pin
  | '!' :: rest => pinNamed? true pullUp rest
  | '^' :: rest => pinNamed? inverted true rest
  | s =>
    match (after? "gpio".toList s).bind byte? with
    | some n => if n ≤ maxPin then some ⟨n, inverted, pullUp⟩ else none
    | none => none

/-- Turns a missing value into an error. -/
def orError (e : ReadError) : Option α → Except ReadError α
  | some a => .ok a
  | none => .error e

/-- A pin stands in quotes. -/
def readPin (value : List Char) : Except ReadError Pin :=
  match quoted? value with
  | some name => orError .invalidPin (pinNamed? false false name)
  | none => .error .invalidValue

/-- A truth value. -/
def readBool (value : List Char) : Except ReadError Bool :=
  if value = "true".toList then .ok true
  else if value = "false".toList then .ok false
  else .error .invalidValue

/-- A byte other than zero. -/
def readPositiveByte (value : List Char) : Except ReadError UInt8 :=
  orError .invalidValue ((byte? value).filter (· != 0))

/-- A word other than zero. -/
def readPositiveWord (value : List Char) : Except ReadError UInt32 :=
  orError .invalidValue ((word? value).filter (· != 0))

/-! ## Settings -/

/-- The keys of all sections. -/
inductive Key where
  | protocol
  | codeSet
  | dataPin
  | clockPin
  | stallPeriod
  | ackStalls
  | idStalls
  | responseTimeout
  | wheel
  | ledPin
deriving DecidableEq, Repr

/-- The keys of a section with their names. -/
def Section.keys : Section → List (String × Key)
  | interface => [("protocol", .protocol), ("code_set", .codeSet), ("data_pin", .dataPin),
      ("clock_pin", .clockPin)]
  | timing => [("stall_period_ms", .stallPeriod), ("ack_stall_limit", .ackStalls),
      ("id_stall_limit", .idStalls), ("response_timeout_ms", .responseTimeout)]
  | mouse => [("wheel", .wheel)]
  | status => [("led_pin", .ledPin)]

/-- The key with a name in a section. -/
def Section.key? (s : Section) (name : List Char) : Option Key :=
  (s.keys.find? fun k => k.1.toList == name).map Prod.snd

/-- The configuration with the value of one key changed. -/
def apply (c : Config) (key : Key) (value : List Char) : Except ReadError Config :=
  match key with
  | .protocol => (orError .invalidValue ((quoted? value).bind Protocol.ofName?)).map
      fun p => { c with protocol := p }
  | .codeSet => (orError .invalidValue (codeSet? value)).map fun s => { c with codeSet := s }
  | .dataPin => (readPin value).map fun p => { c with dataPin := p }
  | .clockPin => (readPin value).map fun p => { c with clockPin := p }
  | .stallPeriod => (readPositiveWord value).map fun n =>
      { c with timing := { c.timing with stallPeriod := n } }
  | .ackStalls => (readPositiveByte value).map fun n =>
      { c with timing := { c.timing with ackStalls := n } }
  | .idStalls => (readPositiveByte value).map fun n =>
      { c with timing := { c.timing with idStalls := n } }
  | .responseTimeout => (readPositiveWord value).map fun n =>
      { c with timing := { c.timing with responseTimeout := n } }
  | .wheel => (readBool value).map fun b => { c with wheel := b }
  | .ledPin => (readPin value).map fun p => { c with ledPin := some p }

/-! ## Whole texts -/

/-- What has been read so far: the current section, if one has begun, and the configuration. -/
structure Progress where
  current : Option Section := none
  config : Config := {}

/-- Takes in what one line says. Settings before the first header belong to no section. -/
def Progress.next (p : Progress) : Line → Except ReadError Progress
  | .blank => .ok p
  | .header s => .ok { p with current := some s }
  | .setting name value =>
    match p.current.bind (·.key? name) with
    | none => .error .unknownKey
    | some key => (p.config.apply key value).map fun c => { p with config := c }

/-- Reads the lines of a text one after the other, up to the first error. -/
def Progress.readLines (p : Progress) (ls : List (List Char)) : Except ReadError Progress :=
  ls.foldlM (fun p l => Line.read l >>= p.next) p

/-- Reads a configuration. -/
def read (text : List Char) : Except ReadError Config := do
  let p ← ({} : Progress).readLines (lines text)
  if p.config.pinsAgree then .ok p.config else .error .invalidPin

end KeyBridge.Config
