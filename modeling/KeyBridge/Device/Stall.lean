/-!
# Stalls

A stall is one full period in which the device sent nothing while its clock line was idle: it is
there, but it does not answer. Whoever receives bytes only counts them; the timer compares that
count with the one it saw at the tick before. Times are milliseconds modulo 2^32.
-/

namespace KeyBridge.Device

/-- Counts the stalls since the device was last heard. -/
structure StallTimer where
  /-- The count of received bytes at the last tick that looked at it. -/
  seen : UInt32 := 0
  /-- When the period under way began. -/
  start : Option UInt32 := none
  /-- The number of stalls, which stops at 255. -/
  stalls : UInt8 := 0
deriving DecidableEq, Repr

namespace StallTimer

/-- One stall more. -/
def stalled (stalls : UInt8) : UInt8 := if stalls = 255 then 255 else stalls + 1

/-- Advances the timer: `activity` counts the bytes received so far, `idle` is the state of the
clock line and `period` the length of a period. The first tick only begins a period. -/
def tick (t : StallTimer) (activity now : UInt32) (idle : Bool) (period : UInt32) : StallTimer :=
  match t.start with
  | none => { t with seen := activity, start := some now }
  | some start =>
    if activity ≠ t.seen then ⟨activity, some now, 0⟩
    else if period ≤ now - start then
      { t with start := some now, stalls := if idle then stalled t.stalls else t.stalls }
    else t

/-- Counts afresh from a given time. -/
def restart (t : StallTimer) (now : UInt32) : StallTimer :=
  { t with start := some now, stalls := 0 }

/-- Counts afresh from the next tick. -/
def clear (t : StallTimer) : StallTimer := { t with start := none, stalls := 0 }

end StallTimer

end KeyBridge.Device
