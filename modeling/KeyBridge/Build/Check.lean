import KeyBridge.Config
import KeyBridge.Text
import KeyBridge.Toml.Value

/-!
# Checking a configuration before it is built in

A configuration that is built into the firmware is first read as TOML and checked for what the
firmware would not accept. Every check goes on after a problem, so that all of them are reported.

* `Problem` — what can be wrong, with its wording in `Problem.message`;
* `problems` — everything that is wrong with a configuration, in the order of the report.
-/

namespace KeyBridge.Build

open Toml (Value)
open Text

/-- Something wrong with a configuration. -/
inductive Problem where
  | unknownSection (name : List Char)
  | sectionNotTable (name : List Char)
  | unknownProtocol
  | invalidCodeSet
  /-- A pin's name is malformed or there is no such pin. -/
  | invalidPin (name : List Char)
  /-- A pin is not given as a string. -/
  | pinNotString (key : List Char)
  | clockNotAboveData (clock data : UInt8)
  | ledOnInterface (led : UInt8)
  | unknownTimingKey (key : List Char)
  /-- A number is missing, below 1 or above the limit. -/
  | timingOutOfRange (key : List Char) (max : Nat)
deriving DecidableEq, Repr

/-- The names of the protocols. -/
def protocolNames : List String :=
  ["at", "ps2", "at_ps2", "ps2_mouse", "mouse", "xt", "amiga", "m0110"]

/-- A number in decimal. -/
def decimal (n : Nat) : List Char := (toString n).toList

/-- The wording of a problem. -/
def Problem.message : Problem → List Char
  | unknownSection name => "unknown section [".toList ++ name ++ "]".toList
  | sectionNotTable name => "[".toList ++ name ++ "] must be a table".toList
  | unknownProtocol => "protocol must be one of ".toList ++ (", ".intercalate protocolNames).toList
  | invalidCodeSet => "code_set must be 1, 2 or 3".toList
  | invalidPin name => "'".toList ++ name ++ "' is not a valid pin (gpio0-gpio29)".toList
  | pinNotString key => key ++ " must be a string like \"gpio2\"".toList
  | clockNotAboveData clock data =>
    "clock_pin (gpio".toList ++ decimal clock.toNat ++
      ") must be the GPIO above data_pin (gpio".toList ++ decimal data.toNat ++ ")".toList
  | ledOnInterface led =>
    "led_pin gpio".toList ++ decimal led.toNat ++ " is used by the interface".toList
  | unknownTimingKey key => "[timing] unknown key '".toList ++ key ++ "'".toList
  | timingOutOfRange key max =>
    "[timing] ".toList ++ key ++ " must be 1-".toList ++ decimal max

/-! ## Sections -/

/-- The names of the sections. -/
def sectionNames : List String := ["interface", "timing", "mouse", "status"]

/-- What is wrong with one section as a whole. -/
def sectionProblem? (name : List Char) (v : Value) : Option Problem :=
  if !(sectionNames.any fun s => s.toList == name) then some (.unknownSection name)
  else if !v.isTable then some (.sectionNotTable name)
  else none

/-- What is wrong with the sections as such. -/
def sectionProblems (config : Value) : List Problem :=
  config.sortedEntries.filterMap fun e => sectionProblem? e.1 e.2

/-! ## Pins -/

/-- The number of a pin from its name: any marks, then `gpio` and the number. -/
def pinNumber? (name : List Char) : Option UInt8 :=
  let unmarked := name.dropWhile fun c => c == '^' || c == '!'
  ((after? "gpio".toList unmarked).bind byte?).filter (· ≤ maxPin)

/-- The number of the pin under a key, or what is wrong with it. -/
def pinField (config : Value) (key : String) : Option UInt8 × List Problem :=
  match config.get? key.toList with
  | some (.string name) =>
    match pinNumber? name with
    | some n => (some n, [])
    | none => (none, [.invalidPin name])
  | some _ => (none, [.pinNotString key.toList])
  | none => (none, [])

/-! ## The interface -/

/-- What is wrong with the protocol. -/
def protocolProblems (interface : Value) : List Problem :=
  match interface.get? "protocol".toList with
  | some (.string name) =>
    if protocolNames.any fun s => s.toList == name then [] else [.unknownProtocol]
  | some _ => [.unknownProtocol]
  | none => []

/-- What is wrong with the scan code set. -/
def codeSetProblems (interface : Value) : List Problem :=
  match interface.get? "code_set".toList with
  | some (.integer n) => if 1 ≤ n ∧ n ≤ 3 then [] else [.invalidCodeSet]
  | some (.string name) =>
    if name ∈ ["set1".toList, "set2".toList, "set3".toList] then [] else [.invalidCodeSet]
  | some _ => [.invalidCodeSet]
  | none => []

/-- The pin of the LED, if there is one and its name is right. -/
def ledPin? (config : Value) : Option UInt8 :=
  (((config.get? "status".toList).bind (·.get? "led_pin".toList)).bind Value.string?).bind
    pinNumber?

/-- What is wrong with the interface. A pin that is left out or wrong counts as the default one in
the checks of all pins together. -/
def interfaceProblems (config : Value) : List Problem :=
  match config.get? "interface".toList with
  | none => []
  | some interface =>
    let defaults : Config := {}
    let (data?, dataProblems) := pinField interface "data_pin"
    let (clock?, clockProblems) := pinField interface "clock_pin"
    let data := data?.getD defaults.dataPin.number
    let clock := clock?.getD defaults.clockPin.number
    let order := if clock = data + 1 then [] else [.clockNotAboveData clock data]
    let led :=
      match ledPin? config with
      | some led => if led = data ∨ led = clock then [.ledOnInterface led] else []
      | none => []
    protocolProblems interface ++ codeSetProblems interface ++ dataProblems ++ clockProblems ++
      order ++ led

/-! ## Timing and status -/

/-- The limits of the numbers under the keys of the timing section. -/
def timingLimits : List (String × Nat) :=
  [("stall_period_ms", 60000), ("response_timeout_ms", 60000), ("ack_stall_limit", 255),
    ("id_stall_limit", 255)]

/-- What is wrong with one number. -/
def timingProblem? (key : List Char) (v : Value) : Option Problem :=
  match timingLimits.find? fun l => l.1.toList == key with
  | none => some (.unknownTimingKey key)
  | some (_, max) =>
    match v.integer? with
    | some n => if 1 ≤ n ∧ n ≤ max then none else some (.timingOutOfRange key max)
    | none => some (.timingOutOfRange key max)

/-- What is wrong with the timing. -/
def timingProblems (config : Value) : List Problem :=
  match config.get? "timing".toList with
  | some timing => timing.sortedEntries.filterMap fun e => timingProblem? e.1 e.2
  | none => []

/-- What is wrong with the status output. -/
def statusProblems (config : Value) : List Problem :=
  match config.get? "status".toList with
  | some status => (pinField status "led_pin").2
  | none => []

/-- Everything that is wrong with a configuration. -/
def problems (config : Value) : List Problem :=
  sectionProblems config ++ interfaceProblems config ++ timingProblems config ++
    statusProblems config

end KeyBridge.Build
