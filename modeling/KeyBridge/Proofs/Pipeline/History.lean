import KeyBridge.Proofs.Decoder.Outputs
import KeyBridge.Proofs.Pipeline.Moves
import KeyBridge.Proofs.Port.Ring

/-!
# The history of a run

An observer writes down of a run which epochs there were, with which status each of them began,
which status of it the coordinator was given first and which bytes the ring took in. It also counts
discards and epochs, because the code can tell apart only so many of them: generations are counted
in machine words and epochs in 16 bits. Nothing in a pipeline depends on its history.

## Key results

- `Accounted`: events that are the outputs of one decoder for each epoch
- `mostUnread_le_observed` / `widestGap_le_observed`: what was counted once stays counted
-/

namespace KeyBridge

variable {w : Nat}

/-! ## Epochs -/

/-- What is known of one epoch. -/
structure Epoch where
  /-- The status with which it began. -/
  begun : PortStatus
  /-- The first status of it that the coordinator was given. -/
  met : Option PortStatus := none
  /-- The bytes that the ring has taken in. -/
  accepted : List UInt8 := []
deriving DecidableEq, Repr

namespace Epoch

/-- The status that the decoder of an epoch is chosen for. -/
def seen (e : Epoch) : PortStatus := e.met.getD e.begun

/-- A fresh decoder for an epoch. -/
def decoder (e : Epoch) (defaultSet : CodeSet) : Decoder :=
  .select e.begun.protocol (e.seen.codeSet?.getD defaultSet) (e.seen.wheel?.getD false)

end Epoch

/-- Whether a status asks for the same decoder as the one with which its epoch began. The only other
one comes from a device that is being identified, and has just turned out to be a terminal
keyboard. -/
def PortStatus.Suits (s begun : PortStatus) : Prop :=
  (s.codeSet? = begun.codeSet? ∧ s.wheel? = begun.wheel?) ∨
    (s.initialised = false ∧ s.codeSet? = some .set3)

/-- The events of several epochs, one after the other: of each, what a fresh decoder makes of bytes
that the ring took in first. -/
inductive Accounted (defaultSet : CodeSet) : List Epoch → List Event → Prop where
  | nil : Accounted defaultSet [] []
  | epoch {es : List Epoch} {events : List Event} (e : Epoch) (part : List UInt8)
      (before : Accounted defaultSet es events) (taken : part <+: e.accepted)
      (suits : part ≠ [] → e.seen.Suits e.begun) :
      Accounted defaultSet (es ++ [e]) (events ++ (e.decoder defaultSet).outputs part)

/-! ## Histories -/

/-- What an observer knows of a run. -/
structure History where
  /-- The epochs that are over, in order. -/
  past : List Epoch := []
  current : Epoch
  /-- How often the ring was emptied since it was last read. -/
  unread : Nat := 0
  /-- The most that was ever. -/
  mostUnread : Nat := 0
  /-- How many epochs have begun since the coordinator was last given a status. -/
  unmet : Option Nat := none
  /-- The most that had begun when it was given one. -/
  widestGap : Nat := 0
deriving DecidableEq, Repr

namespace History

/-- All epochs, in order. -/
def epochs (h : History) : List Epoch := h.past ++ [h.current]

/-- The ring is emptied a number of times. -/
def discarded (h : History) (n : Nat) : History :=
  { h with unread := h.unread + n, mostUnread := max h.mostUnread (h.unread + n) }

/-- An epoch begins. -/
def entered (h : History) (s : PortStatus) : History :=
  { h with past := h.epochs, current := { begun := s }, unmet := h.unmet.map (· + 1) }

/-- The ring takes in bytes. -/
def accept (h : History) (bytes : List UInt8) : History :=
  { h with current := { h.current with accepted := h.current.accepted ++ bytes } }

/-- The coordinator is given a status. -/
def meet (h : History) (s : PortStatus) : History :=
  { h with
    current := { h.current with met := some (h.current.met.getD s) }
    unmet := some 0
    widestGap := max h.widestGap (h.unmet.getD 0) }

/-- The ring is read. -/
def read (h : History) : History := { h with unread := 0 }

/-- The port takes a step, in which the ring takes in bytes. -/
def ported (h : History) (p : Port) (s : PortStep w) (new : List UInt8) : History :=
  let h := h.discarded (p.discards s)
  let h := if s.port.device.epoch = p.device.epoch then h else h.entered s.port.status
  h.accept new

/-- A pipeline makes a move. -/
def observe (h : History) (p : Pipeline w) : Pipeline.Move → History
  | .frame word =>
    h.ported p.bridge.port (p.bridge.port.receive p.bridge.ring p.bridge.accepts word)
      (p.bridge.port.accepted p.bridge.ring word)
  | .part now =>
    match p.stage with
    | .looked _ =>
      let s := p.bridge.port.tick p.bridge.ring p.bridge.accepts now p.bridge.idle
      (h.ported p.bridge.port s []).meet s.port.status
    | .synced g => if p.bridge.ready = true ∧ p.bridge.ring.generation = g then h.read else h
    | .resting | .serviced _ _ => h
  | .leds _ | .ready _ | .idle _ | .flush => h

/-- The history of a run that goes on from a pipeline with a history. -/
def observed (h : History) (p : Pipeline w) : List Pipeline.Move → History
  | [] => h
  | m :: ms => (h.observe p m).observed (p.step m) ms

/-! ## Counters -/

/-- A step of the port counts in the most that was ever unread. -/
theorem mostUnread_le_ported (h : History) (p : Port) (s : PortStep w) (new : List UInt8) :
    max h.mostUnread (h.unread + p.discards s) ≤ (h.ported p s new).mostUnread := by
  simp only [ported]
  split <;> exact Nat.le_refl _

/-- What is unread after a step of the port is at most the most that was. -/
theorem unread_le_ported (h : History) (p : Port) (s : PortStep w) (new : List UInt8) :
    (h.ported p s new).unread ≤ (h.ported p s new).mostUnread := by
  simp only [ported]
  split <;> exact Nat.le_max_right _ _

/-- The most that was unread does not go down with a move. -/
theorem mostUnread_le_observe (h : History) (p : Pipeline w) (m : Pipeline.Move) :
    h.mostUnread ≤ (h.observe p m).mostUnread := by
  cases m with
  | frame word => exact Nat.le_trans (Nat.le_max_left _ _) (h.mostUnread_le_ported _ _ _)
  | part now =>
    simp only [observe]
    split
    · exact Nat.le_trans (Nat.le_max_left _ _) (h.mostUnread_le_ported _ _ [])
    · split <;> exact Nat.le_refl _
    all_goals exact Nat.le_refl _
  | leds | ready | idle | flush => exact Nat.le_refl _

/-- A step of the port does not change the widest gap. -/
theorem widestGap_ported (h : History) (p : Port) (s : PortStep w) (new : List UInt8) :
    (h.ported p s new).widestGap = h.widestGap := by
  simp only [ported]
  split <;> rfl

/-- The widest gap does not go down with a move. -/
theorem widestGap_le_observe (h : History) (p : Pipeline w) (m : Pipeline.Move) :
    h.widestGap ≤ (h.observe p m).widestGap := by
  cases m with
  | frame word => exact Nat.le_of_eq (h.widestGap_ported _ _ _).symm
  | part now =>
    simp only [observe]
    split
    · exact Nat.le_trans (Nat.le_of_eq (h.widestGap_ported _ _ _).symm) (Nat.le_max_left _ _)
    · split <;> exact Nat.le_refl _
    all_goals exact Nat.le_refl _
  | leds | ready | idle | flush => exact Nat.le_refl _

/-- The most that was unread does not go down in a run. -/
theorem mostUnread_le_observed (h : History) (p : Pipeline w) (moves : List Pipeline.Move) :
    h.mostUnread ≤ (h.observed p moves).mostUnread := by
  induction moves generalizing h p with
  | nil => exact Nat.le_refl _
  | cons m ms ih => exact Nat.le_trans (h.mostUnread_le_observe p m) (ih _ _)

/-- The widest gap does not go down in a run. -/
theorem widestGap_le_observed (h : History) (p : Pipeline w) (moves : List Pipeline.Move) :
    h.widestGap ≤ (h.observed p moves).widestGap := by
  induction moves generalizing h p with
  | nil => exact Nat.le_refl _
  | cons m ms ih => exact Nat.le_trans (h.widestGap_le_observe p m) (ih _ _)

end History

end KeyBridge
