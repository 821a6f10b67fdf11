import KeyBridge.Diagnostic

/-!
# Actions

What a device session asks for after it has taken in a byte or seen time pass. A session never
touches the hardware or the ring itself.

A device that did not understand a command asks for it again. `LastCommand` is what a session keeps
for that: the command is repeated a few times, and a device that goes on asking is to be reset.
-/

namespace KeyBridge.Device

/-- What is to be done after a session has taken something in. -/
inductive Action where
  /-- Nothing. -/
  | none
  /-- Send a command to the device. -/
  | send (command : UInt8)
  /-- Pass the byte just received on to the decoder. -/
  | pass
  /-- Pass the byte just received on and send a command. -/
  | passAndSend (command : UInt8)
  /-- Queue two bytes for the decoder in place of the one received. -/
  | queue (first second : UInt8)
  /-- Restart the receiver. -/
  | restart
deriving DecidableEq, Repr

namespace Action

/-- Whether an action queues bytes for the decoder. -/
def feeds : Action → Bool
  | pass | passAndSend _ | queue _ _ => true
  | none | send _ | restart => false

/-- The bytes that an action queues after `byte` was received. -/
def queued (byte : UInt8) : Action → List UInt8
  | pass | passAndSend _ => [byte]
  | queue first second => [first, second]
  | none | send _ | restart => []

/-- The command that an action sends. -/
def command? : Action → Option UInt8
  | send c | passAndSend c => some c
  | none | pass | queue _ _ | restart => Option.none

end Action

/-- A session after it has taken something in, with what it asks for and what it notes for the
log, in order. -/
structure Step (σ : Type) where
  next : σ
  action : Action := .none
  notes : List Diagnostic := []
deriving DecidableEq, Repr

namespace Step

/-- The same step with one more diagnostic in front. -/
def note {σ : Type} (d : Diagnostic) (s : Step σ) : Step σ := { s with notes := d :: s.notes }

/-- The same step of a larger session. -/
def map {σ τ : Type} (f : σ → τ) (s : Step σ) : Step τ := ⟨f s.next, s.action, s.notes⟩

@[simp] theorem next_note {σ : Type} (d : Diagnostic) (s : Step σ) : (s.note d).next = s.next := rfl

@[simp] theorem action_note {σ : Type} (d : Diagnostic) (s : Step σ) :
    (s.note d).action = s.action := rfl

@[simp] theorem notes_note {σ : Type} (d : Diagnostic) (s : Step σ) :
    (s.note d).notes = d :: s.notes := rfl

end Step

/-! ## Repeating a command -/

/-- The last command sent, if there is one, and how often it has been repeated. -/
structure LastCommand where
  command : Option UInt8 := none
  repeats : Nat := 0
deriving DecidableEq, Repr

namespace LastCommand

/-- How often a command is repeated at most. -/
def maxRepeats : Nat := 3

/-- No command has been sent. -/
def none : LastCommand := {}

/-- A command has been sent for the first time. -/
def sent (command : UInt8) : LastCommand := ⟨some command, 0⟩

/-- The command to repeat, unless there is none or it has been repeated often enough. -/
def repeat? (c : LastCommand) : Option (UInt8 × LastCommand) :=
  match c.command with
  | some command =>
    if c.repeats < maxRepeats then some (command, { c with repeats := c.repeats + 1 })
    else Option.none
  | Option.none => Option.none

end LastCommand

end KeyBridge.Device
