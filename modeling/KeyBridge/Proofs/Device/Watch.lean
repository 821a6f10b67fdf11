import KeyBridge.Device.Stall
import Mathlib.Algebra.Group.Nat.Defs

/-!
# What a stall timer has really seen

A timer works with numbers modulo 2^32: the time, and the count of received bytes that it compares
with the one it saw at an earlier tick. Its past is described here in true terms instead: the ticks
since the device was last heard, each with its true time, and the number of bytes since the count
was last looked at. `Faithful` relates the two, and says that every stall was one: a period that
ended at a tick with an idle clock line, the device being silent from the first tick on.

## Key results

- `Faithful.heard` / `Faithful.cleared` / `Faithful.restarted` / `Faithful.waited` /
  `Faithful.looked`: the relation after whatever can happen to a timer
- `Faithful.stalls_justified`: what the count of stalls says about the past
-/

namespace KeyBridge.Device

/-- A tick with its true time. -/
structure Tick where
  time : Nat
  /-- The state of the clock line. -/
  idle : Bool
deriving DecidableEq, Repr

/-- A timer with what it looks at. -/
structure Watch where
  timer : StallTimer
  /-- How many bytes were received, modulo 2^32. -/
  activity : UInt32
  /-- The length of a period. -/
  period : UInt32

/-- A timer runs after a tick. -/
theorem StallTimer.isSome_start_tick (t : StallTimer) (activity now : UInt32) (idle : Bool)
    (period : UInt32) : (t.tick activity now idle period).start.isSome := by
  unfold tick
  split
  · rfl
  · next hstart =>
    split
    · rfl
    · split
      · rfl
      · simp [hstart]

namespace Watch

/-- A byte is received. -/
def heard (w : Watch) : Watch := { w with activity := w.activity + 1 }

/-- The timer looks at the time. -/
def looked (w : Watch) (now : UInt32) (idle : Bool) : Watch :=
  { w with timer := w.timer.tick w.activity now idle w.period }

/-- The timer counts afresh from a given time. -/
def restarted (w : Watch) (now : UInt32) : Watch := { w with timer := w.timer.restart now }

/-- The timer counts afresh from the next tick. -/
def cleared (w : Watch) : Watch := { w with timer := w.timer.clear }

/-! ## Stalls in true time -/

/-- So many stalls up to a given time, from the first of the ticks on: each lasted a period and
ended at a tick with an idle clock line, a period or more after the first. -/
def Justified (period stalls upTo : Nat) (quiet : List Tick) : Prop :=
  ∃ first rest, quiet = first :: rest ∧ first.time + stalls * period ≤ upTo ∧
    stalls ≤ rest.countP fun t => t.idle && first.time + period ≤ t.time

variable {period stalls upTo : Nat} {quiet : List Tick}

/-- No stall is justified by any ticks. -/
theorem Justified.none (h : ∀ t ∈ quiet, t.time ≤ upTo) (hquiet : quiet ≠ []) :
    Justified period 0 upTo quiet := by
  obtain ⟨first, rest, rfl⟩ := List.exists_cons_of_ne_nil hquiet
  exact ⟨first, rest, rfl, by simpa using h first, Nat.zero_le _⟩

/-- Stalls stay justified as time goes on. -/
theorem Justified.mono (h : Justified period stalls upTo quiet) {upTo' : Nat}
    (hle : upTo ≤ upTo') : Justified period stalls upTo' quiet := by
  obtain ⟨first, rest, rfl, htime, hcount⟩ := h
  exact ⟨first, rest, rfl, Nat.le_trans htime hle, hcount⟩

/-- Stalls stay justified with another tick. -/
theorem Justified.snoc (h : Justified period stalls upTo quiet) (t : Tick) :
    Justified period stalls upTo (quiet ++ [t]) := by
  obtain ⟨first, rest, rfl, htime, hcount⟩ := h
  refine ⟨first, rest ++ [t], rfl, htime, ?_⟩
  rw [List.countP_append]
  exact Nat.le_trans hcount (Nat.le_add_right _ _)

/-- A period that ends at a tick with an idle clock line is one stall more. -/
theorem Justified.stall (h : Justified period stalls upTo quiet) {t : Tick}
    (hperiod : upTo + period ≤ t.time) (hidle : t.idle) :
    Justified period (stalls + 1) t.time (quiet ++ [t]) := by
  obtain ⟨first, rest, rfl, htime, hcount⟩ := h
  -- The period ended now and began no earlier than the first tick.
  have hfirst : first.time + period ≤ t.time := by omega
  refine ⟨first, rest ++ [t], rfl, ?_, ?_⟩
  · rw [Nat.succ_mul]
    omega
  · rw [List.countP_append]
    simpa [hidle, hfirst] using hcount

/-- With some stalls fewer ones are justified. -/
theorem Justified.fewer (h : Justified period stalls upTo quiet) {n : Nat} (hn : n ≤ stalls) :
    Justified period n upTo quiet := by
  obtain ⟨first, rest, rfl, htime, hcount⟩ := h
  have := Nat.mul_le_mul_right period hn
  exact ⟨first, rest, rfl, by omega, Nat.le_trans hn hcount⟩

/-! ## Numbers modulo 2^32 -/

/-- The time that has passed is never taken for longer than it was. -/
theorem le_of_le_sub {start now : Nat} {period : UInt32} (hle : start ≤ now)
    (h : period ≤ UInt32.ofNat now - UInt32.ofNat start) : start + period.toNat ≤ now := by
  rw [UInt32.le_iff_toNat_le, UInt32.toNat_sub] at h
  simp only [UInt32.toNat_ofNat'] at h
  omega

/-- Fewer than 2^32 bytes more show in the count. -/
theorem eq_zero_of_add_eq {seen : UInt32} {n : Nat} (hn : n < 2 ^ 32)
    (h : seen + UInt32.ofNat n = seen) : n = 0 := by
  have := congrArg UInt32.toNat h
  rw [UInt32.toNat_add, UInt32.toNat_ofNat'] at this
  have := seen.toNat_lt
  omega

/-- A stall is one more at most. -/
theorem stalled_le (stalls : UInt8) :
    (StallTimer.stalled stalls).toNat ≤ stalls.toNat + 1 := by
  unfold StallTimer.stalled
  split
  · next h => simp [h]
  · rw [UInt8.toNat_add]
    exact Nat.mod_le _ _

/-! ## The relation -/

/-- A timer after a past whose last tick was not after `clock`. The ticks of the past that came
after the last byte and the last time when the timer was cleared are `quiet`, and `unread` bytes
have come since the timer looked at their number, if it has. -/
structure Faithful (w : Watch) (unread : Option Nat) (clock : Nat) (quiet : List Tick) : Prop where
  activity_eq : ∀ n ∈ unread, w.activity = w.timer.seen + UInt32.ofNat n
  past : ∀ t ∈ quiet, t.time ≤ clock
  stopped : w.timer.start = none → w.timer.stalls = 0
  /-- The stalls of a timer are meant up to the start of the period under way. They mean nothing
  any more if a byte has come since. -/
  running : ∀ s ∈ w.timer.start, ∃ n ∈ unread, n = 0 → ∃ start ≤ clock, s = UInt32.ofNat start ∧
    Justified w.period.toNat w.timer.stalls.toNat start quiet

namespace Faithful

variable {w : Watch} {unread : Option Nat} {clock : Nat} {last : Tick}

/-- The timer of a new session has counted nothing. -/
theorem new (period : UInt32) (unread : Option Nat) (h : ∀ n ∈ unread, n = 0) :
    Faithful ⟨{}, 0, period⟩ unread 0 [] where
  activity_eq n hn := by simp [h n hn]
  past := nofun
  stopped _ := rfl
  running := nofun

/-- A byte ends the silence. -/
protected theorem heard (h : w.Faithful unread clock quiet) :
    w.heard.Faithful (unread.map (· + 1)) clock [] where
  activity_eq := by
    intro n hn
    obtain ⟨m, hm, rfl⟩ := Option.map_eq_some_iff.mp hn
    rw [heard, h.activity_eq m hm, UInt32.ofNat_add]
    exact UInt32.add_assoc ..
  past := nofun
  stopped := h.stopped
  running := by
    intro s hs
    obtain ⟨n, hn, -⟩ := h.running s hs
    -- From now on nothing is said about the stalls, until a tick has seen the byte.
    exact ⟨n + 1, Option.map_eq_some_iff.mpr ⟨n, hn, rfl⟩, nofun⟩

/-- A timer that is cleared has counted nothing. -/
protected theorem cleared (h : w.Faithful unread clock quiet) :
    w.cleared.Faithful unread clock [] where
  activity_eq := h.activity_eq
  past := nofun
  stopped _ := rfl
  running := nofun

/-- A tick that comes later leaves the earlier ones in the past. -/
theorem past_snoc (h : w.Faithful unread clock quiet) (hle : clock ≤ last.time) :
    ∀ t ∈ quiet ++ [last], t.time ≤ last.time := by
  intro t ht
  rcases List.mem_append.mp ht with ht | ht
  · exact Nat.le_trans (h.past t ht) hle
  · exact Nat.le_of_eq (congrArg Tick.time (List.mem_singleton.mp ht))

/-- A tick that does not look at the timer. -/
theorem waited (h : w.Faithful unread clock quiet) (hle : clock ≤ last.time) :
    w.Faithful unread last.time (quiet ++ [last]) where
  activity_eq := h.activity_eq
  past := h.past_snoc hle
  stopped := h.stopped
  running := by
    intro s hs
    obtain ⟨n, hn, hsilent⟩ := h.running s hs
    refine ⟨n, hn, fun hzero => ?_⟩
    obtain ⟨start, hstart, rfl, hjust⟩ := hsilent hzero
    exact ⟨start, Nat.le_trans hstart hle, rfl, hjust.snoc last⟩

/-- A timer can be restarted at any tick, as long as it knows the number of bytes. -/
theorem restarted (h : w.Faithful unread clock quiet) (hunread : unread.isSome)
    (hquiet : quiet ≠ []) : (w.restarted (.ofNat clock)).Faithful unread clock quiet where
  activity_eq := h.activity_eq
  past := h.past
  stopped := nofun
  running := by
    rintro s ⟨⟩
    obtain ⟨n, hn⟩ := Option.isSome_iff_exists.mp hunread
    exact ⟨n, hn, fun _ => ⟨clock, Nat.le_refl _, rfl, .none h.past hquiet⟩⟩

/-- A timer that has just looked at the number of bytes, with a period under way. -/
theorem underWay {timer : StallTimer} {activity period : UInt32} {start : Nat}
    (hpast : ∀ t ∈ quiet, t.time ≤ clock) (hseen : timer.seen = activity)
    (hstart : timer.start = some (.ofNat start)) (hle : start ≤ clock)
    (hjust : Justified period.toNat timer.stalls.toNat start quiet) :
    Faithful ⟨timer, activity, period⟩ (some 0) clock quiet where
  activity_eq := by
    rintro n ⟨⟩
    simp [hseen]
  past := hpast
  stopped h := by simp [hstart] at h
  running s hs := ⟨0, rfl, fun _ => ⟨start, hle, Option.some.inj (hs.symm.trans hstart), hjust⟩⟩

/-- A tick of a timer. Fewer than 2^32 bytes may have come since it last looked at their number. -/
theorem looked (h : w.Faithful unread clock quiet) (hle : clock ≤ last.time)
    (hunread : ∀ n ∈ unread, n < 2 ^ 32) :
    (w.looked (.ofNat last.time) last.idle).Faithful (some 0) last.time (quiet ++ [last]) := by
  have hpast := h.past_snoc hle
  have hnone : Justified w.period.toNat 0 last.time (quiet ++ [last]) := .none hpast (by simp)
  obtain ⟨⟨seen, start, stalls⟩, activity, period⟩ := w
  cases start with
  | none =>
    -- The first tick after the timer was cleared only begins a period.
    obtain rfl : stalls = 0 := h.stopped rfl
    exact underWay hpast rfl rfl (Nat.le_refl _) hnone
  | some s =>
    simp only [Watch.looked, StallTimer.tick]
    split
    · exact underWay hpast rfl rfl (Nat.le_refl _) hnone
    · next hseen =>
      -- The count is the same, and so no byte has come.
      have hseen : activity = seen := Decidable.not_not.mp hseen
      obtain ⟨n, hn, hsilent⟩ := h.running s rfl
      have hactivity := h.activity_eq n hn
      have hzero : n = 0 := eq_zero_of_add_eq (hunread n hn) (hactivity.symm.trans hseen)
      obtain ⟨start, hstart, rfl, hjust⟩ := hsilent hzero
      have hle := Nat.le_trans hstart hle
      split
      · next hperiod =>
        refine underWay hpast hseen.symm rfl (Nat.le_refl _) ?_
        -- A period is over. It was a stall if the clock line is idle.
        cases hidle : last.idle with
        | false => exact (hjust.snoc last).mono hle
        | true => exact (hjust.stall (le_of_le_sub hle hperiod) hidle).fewer (stalled_le stalls)
      · exact underWay hpast hseen.symm rfl hle (hjust.snoc last)

/-- What the count of stalls says about the past of a timer that has just looked at the time. -/
theorem stalls_justified (h : w.Faithful (some 0) clock quiet) (hstart : w.timer.start.isSome) :
    Justified w.period.toNat w.timer.stalls.toNat clock quiet := by
  obtain ⟨s, hs⟩ := Option.isSome_iff_exists.mp hstart
  obtain ⟨n, hn, hsilent⟩ := h.running s hs
  obtain ⟨start, hstart, -, hjust⟩ := hsilent (Option.some.inj hn).symm
  exact hjust.mono hstart

end Faithful

end Watch

end KeyBridge.Device
