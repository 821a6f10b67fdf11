import KeyBridge.Proofs.Device.Patience
import KeyBridge.Proofs.Device.Typing
import Mathlib.Data.List.Chain

/-!
# A silent device becomes usable

A keyboard that has passed its self test is asked for its id, and a mouse is set up. Neither has to
answer: each wait ends after a number of stalls, and after a few waits the session is ready all the
same. `waits?` says how many waits are left, and goes down by one with each that ends. Within a
wait each tick is one stall more, if the clock line is idle and a period has passed since the tick
before. The first tick may see bytes that came before it, and only begins a period.

## Key results

- `Watch.Current.stalls_looked`: one tick, one stall
- `AtKeyboard.waits?_expire`, `Ps2Mouse.waits?_expire`: one wait less
- `Waiting.tick`: a tick goes on with a wait or ends it
- `ReadyWithin.tick`, `ReadyWithin.run`: a tick of silence is one tick less to go
- `ready_of_silence`: how many ticks it takes at most
-/

namespace KeyBridge.Device

/-- A tick that comes a period or more after another, but not so late that the clock could have
gone round. -/
def Tick.Spaced (period : UInt32) (t t' : Tick) : Prop :=
  t.time + period.toNat ≤ t'.time ∧ period.toNat + (t'.time - t.time) < 2 ^ 32

instance (period : UInt32) : DecidableRel (Tick.Spaced period) :=
  fun _ _ => inferInstanceAs (Decidable (_ ∧ _))

/-! ## The timer of a silent device -/

namespace Watch

/-- A timer that has looked at the number of bytes, in a period that is not over at a given time. -/
structure Current (w : Watch) (now : UInt32) : Prop where
  seen_eq : w.timer.seen = w.activity
  running : ∃ start, w.timer.start = some start ∧ (start = now ∨ now - start < w.period)

variable {w : Watch} {now : UInt32}

/-- After a tick the watch is up to date. -/
theorem current_looked (w : Watch) (now : UInt32) (idle : Bool) :
    (w.looked now idle).Current now := by
  obtain ⟨⟨seen, start, stalls⟩, activity, period⟩ := w
  cases start with
  | none => exact ⟨rfl, now, rfl, .inl rfl⟩
  | some s =>
    simp only [looked, StallTimer.tick]
    split
    · exact ⟨rfl, now, rfl, .inl rfl⟩
    · next hseen =>
      have hseen : seen = activity := (Decidable.not_not.mp hseen).symm
      split
      · exact ⟨hseen, now, rfl, .inl rfl⟩
      · next hperiod => exact ⟨hseen, s, rfl, .inr (UInt32.not_le.mp hperiod)⟩

/-- A watch that is up to date stays so when its period is begun anew. -/
theorem Current.restarted (h : w.Current now) (now' : UInt32) :
    (w.restarted now').Current now' :=
  ⟨h.seen_eq, now', rfl, .inl rfl⟩

/-- At the next tick the period is over, whether it began at this one or was under way, also when
the clock wraps in between. -/
theorem period_le_elapsed {t t' : Tick} {start : UInt32}
    (helapsed : start = .ofNat t.time ∨ .ofNat t.time - start < w.period)
    (hspaced : Tick.Spaced w.period t t') : w.period ≤ .ofNat t'.time - start := by
  obtain ⟨hperiod, hwrap⟩ := hspaced
  -- The earlier part of the period and the gap together do not go round the clock.
  have hle : (UInt32.ofNat t.time - start).toNat ≤ w.period.toNat := by
    rcases helapsed with rfl | hlt
    · simp
    · exact Nat.le_of_lt (UInt32.lt_iff_toNat_lt.mp hlt)
  rw [UInt32.toNat_sub, UInt32.toNat_ofNat'] at hle
  rw [UInt32.le_iff_toNat_le, UInt32.toNat_sub, UInt32.toNat_ofNat']
  have := start.toNat_lt
  omega

/-- One tick, one stall. -/
theorem Current.stalls_looked {t t' : Tick} (h : w.Current (.ofNat t.time))
    (hspaced : Tick.Spaced w.period t t') :
    (w.looked (.ofNat t'.time) true).timer.stalls = StallTimer.stalled w.timer.stalls := by
  obtain ⟨hseen, start, hstart, helapsed⟩ := h
  have hperiod := period_le_elapsed helapsed hspaced
  simp only [looked, StallTimer.tick, hstart, hseen, ne_eq, not_true, hperiod, if_true, if_false]

/-- Below the limit a stall is one more. -/
theorem toNat_stalled {stalls limit : UInt8} (h : stalls < limit) :
    (StallTimer.stalled stalls).toNat = stalls.toNat + 1 := by
  have hlt : stalls.toNat < limit.toNat := UInt8.lt_iff_toNat_lt.mp h
  have := limit.toNat_lt
  -- The count stops at 255 only, and no limit is above that.
  have hne : stalls ≠ 255 := by
    rintro rfl
    have : 255 < limit.toNat := hlt
    omega
  rw [StallTimer.stalled, if_neg hne, UInt8.toNat_add]
  show (stalls.toNat + 1) % 256 = stalls.toNat + 1
  omega

end Watch

/-! ## The waits that are left -/

/-- How many waits have to end before a keyboard that has passed its self test is ready. -/
def AtKeyboard.waits? (k : AtKeyboard) : Option Nat :=
  match k.state with
  | .uninitialised | .awaitAck | .awaitSelfTest => none
  | .readId1 | .readId2 | .setup => some (if k.retried then 1 else 2)
  | .setLeds _ | .initialised => some 0

/-- How many waits have to end before a mouse that has passed its self test is ready. -/
def Ps2Mouse.waits? (m : Ps2Mouse) : Option Nat :=
  match m.state with
  | .uninitialised | .awaitAck | .awaitSelfTest => none
  | .awaitId => some (if m.detectWheel then 5 else 3)
  | .knock _ _ | .readWheelId => some (if m.retried then 3 else 4)
  | .awaitEnableAck => some (if m.retried then 1 else 2)
  | .initialised => some 0

def waits? : Device → Option Nat
  | atKeyboard k => k.waits?
  | ps2Mouse m => m.waits?
  | xt _ | amiga _ | m0110 _ => none

/-- A session with so many waits left, each of which ends after `limit` stalls. -/
structure Waiting (d : Device) (waits : Nat) (limit : UInt8) (w : Watch) : Prop where
  waits_eq : d.waits? = some waits
  limit_eq : d.stallLimit = limit
  watch_eq : d.watch? = some w

namespace AtKeyboard

variable {k : AtKeyboard} {n : Nat}

/-- A keyboard has nothing left to wait for exactly if it is ready. -/
theorem waits?_eq_zero_iff (k : AtKeyboard) : k.waits? = some 0 ↔ k.isInitialised := by
  cases hs : k.state <;> cases hretried : k.retried <;>
    simp [waits?, isInitialised, hs, hretried]

/-- A keyboard whose waits are numbered waits for as long as for its id. -/
theorem stallLimit_of_waits? (h : k.waits? = some n) : k.stallLimit = k.timing.idStalls := by
  cases hs : k.state <;> simp_all [waits?, stallLimit]

/-- The end of a wait leaves the timing of a keyboard. -/
theorem timing_expire (k : AtKeyboard) : k.expire.next.timing = k.timing := by
  unfold expire
  repeat' split
  all_goals rfl

/-- From its id on a keyboard has two waits left at most. -/
theorem waits?_of_state (h : k.state = .readId1 ∨ k.state = .readId2 ∨ k.state = .setup) :
    ∃ n ≤ 2, k.waits? = some n := by
  rcases h with h | h | h <;> cases hretried : k.retried <;> simp [waits?, h, hretried]

/-- The first time, what is waited for is asked for again. The second time it is done without. -/
theorem waits?_expire (h : k.waits? = some (n + 1)) : k.expire.next.waits? = some n := by
  obtain ⟨_, _, state, _, _, retried, _, _, _, _, _, _, _⟩ := k
  cases state with
  | readId1 | readId2 | setup => cases retried <;> cases h <;> rfl
  | uninitialised | awaitAck | awaitSelfTest | setLeds stage | initialised => cases h

/-- The next wait of a keyboard has the same limit. -/
theorem stallLimit_expire (h : k.waits? = some (n + 1)) :
    k.expire.next.stallLimit = k.stallLimit := by
  rw [stallLimit_of_waits? (waits?_expire h), timing_expire, stallLimit_of_waits? h]

end AtKeyboard

namespace Ps2Mouse

variable {m : Ps2Mouse} {n : Nat}

/-- A mouse has nothing left to wait for exactly if it is ready. -/
theorem waits?_eq_zero_iff (m : Ps2Mouse) : m.waits? = some 0 ↔ m.isInitialised := by
  cases hs : m.state <;> cases hretried : m.retried <;> cases hwheel : m.detectWheel <;>
    simp [waits?, isInitialised, hs, hretried, hwheel]

/-- A mouse whose waits are numbered waits for as long as for its id. -/
theorem stallLimit_of_waits? (h : m.waits? = some n) : m.stallLimit = m.timing.idStalls := by
  cases hs : m.state <;> simp_all [waits?, stallLimit]

/-- From its id on a mouse has five waits left at most. -/
theorem waits?_of_state (h : m.state = .awaitId ∨ (∃ index sent, m.state = .knock index sent) ∨
    m.state = .readWheelId ∨ m.state = .awaitEnableAck) : ∃ n ≤ 5, m.waits? = some n := by
  rcases h with h | ⟨index, sent, h⟩ | h | h <;> cases hretried : m.retried <;>
    cases hwheel : m.detectWheel <;> simp [waits?, h, hretried, hwheel]

/-- The end of a wait leaves the timing of a mouse. -/
theorem timing_expire (m : Ps2Mouse) : m.expire.next.timing = m.timing := by
  unfold expire
  repeat' split
  all_goals first | rfl | exact timing_afterId _ | exact timing_retry _

/-- After the id a mouse has four waits left if a wheel is looked for, and two if not. -/
theorem waits?_afterId (m : Ps2Mouse) :
    m.afterId.next.waits? = some (if m.detectWheel then 4 else 2) := by
  unfold afterId
  split <;> rfl

/-- The step under way stays the same when it is tried again. -/
theorem waits?_retry (m : Ps2Mouse) :
    m.retry.next.waits? = ({ m with retried := true } : Ps2Mouse).waits? := by
  unfold retry
  split <;> rfl

/-- With the end of a wait a mouse has one less. -/
theorem waits?_expire (h : m.waits? = some (n + 1)) : m.expire.next.waits? = some n := by
  obtain ⟨_, detectWheel, state, _, retried, _, _, _, _⟩ := m
  cases state with
  | awaitId =>
    -- An id that does not come is not asked for.
    refine (waits?_afterId _).trans ?_
    cases detectWheel <;> cases h <;> rfl
  | knock index sent | readWheelId =>
    cases retried with
    | false =>
      refine (waits?_retry _).trans ?_
      cases h
      rfl
    | true =>
      cases h
      rfl
  | awaitEnableAck => cases retried <;> cases h <;> rfl
  | uninitialised | awaitAck | awaitSelfTest | initialised => cases h

/-- The next wait of a mouse has the same limit. -/
theorem stallLimit_expire (h : m.waits? = some (n + 1)) :
    m.expire.next.stallLimit = m.stallLimit := by
  rw [stallLimit_of_waits? (waits?_expire h), timing_expire, stallLimit_of_waits? h]

end Ps2Mouse

/-! ## Ticks -/

/-- What a tick does to a session that waits: the wait goes on, or it is over. -/
structure AfterTick (n : Nat) (limit : UInt8) (w : Watch) (now : UInt32) (d : Device) : Prop where
  goesOn : w.timer.stalls < limit → Waiting d (n + 1) limit w
  ended : ¬ w.timer.stalls < limit → Waiting d n limit (w.restarted now)

variable {n : Nat} {limit : UInt8} {w : Watch}

/-- A keyboard goes on waiting below its limit, and to the next wait at it. -/
theorem AtKeyboard.afterTick {k : AtKeyboard} (h : Waiting (atKeyboard k) (n + 1) limit w)
    (now : UInt32) (idle : Bool) :
    AfterTick n limit (w.looked now idle) now (atKeyboard (k.tick now idle).next) := by
  obtain ⟨hwaits, rfl, ⟨⟩⟩ := h
  have hstate : k.state ≠ .initialised := by
    intro hs
    simp [Device.waits?, waits?, hs] at hwaits
  simp only [tick, if_neg hstate]
  split
  · next hlt => exact ⟨fun _ => ⟨hwaits, rfl, rfl⟩, fun hle => absurd hlt hle⟩
  · next hle =>
    exact ⟨fun hlt => absurd hlt hle, fun _ =>
      ⟨waits?_expire hwaits, stallLimit_expire hwaits, congrArg some (watch_expire _)⟩⟩

/-- A mouse goes on waiting below its limit, and to the next wait at it. -/
theorem Ps2Mouse.afterTick {m : Ps2Mouse} (h : Waiting (ps2Mouse m) (n + 1) limit w)
    (now : UInt32) (idle : Bool) :
    AfterTick n limit (w.looked now idle) now (ps2Mouse (m.tick now idle).next) := by
  obtain ⟨hwaits, rfl, ⟨⟩⟩ := h
  have hstate : m.state ≠ .initialised := by
    intro hs
    simp [Device.waits?, waits?, hs] at hwaits
  simp only [tick, hstate, false_or]
  split
  · next hlt => exact ⟨fun _ => ⟨hwaits, rfl, rfl⟩, fun hle => absurd hlt hle⟩
  · next hle =>
    exact ⟨fun hlt => absurd hlt hle, fun _ =>
      ⟨waits?_expire hwaits, stallLimit_expire hwaits, congrArg some (watch_expire _)⟩⟩

/-! ## Runs of ticks -/

/-- A session after nothing but ticks. -/
def ticked (d : Device) (ticks : List Tick) : Device :=
  d.run (ticks.map fun t => (Occurrence.tick t).input)

variable {d : Device} {ticks : List Tick}

theorem ticked_cons (d : Device) (t : Tick) (ticks : List Tick) :
    d.ticked (t :: ticks) = (d.tick (.ofNat t.time) t.idle).next.ticked ticks := rfl

/-- A session with nothing left to wait for is ready. -/
theorem isInitialised_of_waits? (h : d.waits? = some 0) : d.isInitialised := by
  cases d with
  | atKeyboard k => exact k.waits?_eq_zero_iff.mp h
  | ps2Mouse m => exact m.waits?_eq_zero_iff.mp h
  | xt | amiga | m0110 => cases h

/-- A session with nothing left to wait for stays so with every tick. -/
theorem waits?_tick (h : d.waits? = some 0) (now : UInt32) (idle : Bool) :
    (d.tick now idle).next.waits? = some 0 := by
  cases d with
  | atKeyboard k =>
    have hk := k.waits?_eq_zero_iff.mp h
    exact (AtKeyboard.waits?_eq_zero_iff _).mpr (AtKeyboard.typing_tick hk now idle).1.ready
  | ps2Mouse m =>
    have hstate : m.state = .initialised := by
      simpa [Ps2Mouse.isInitialised] using m.waits?_eq_zero_iff.mp h
    refine (Ps2Mouse.waits?_eq_zero_iff _).mpr ?_
    simp [Ps2Mouse.tick, Ps2Mouse.isInitialised, hstate]
  | xt | amiga | m0110 => cases h

/-- A session with nothing left to wait for is ready after any ticks. -/
theorem isInitialised_ticked (h : d.waits? = some 0) : (d.ticked ticks).isInitialised := by
  induction ticks generalizing d with
  | nil => exact isInitialised_of_waits? h
  | cons t ticks ih =>
    rw [ticked_cons]
    exact ih (waits?_tick h _ _)

/-- A session goes on waiting below its limit, and to the next wait at it. -/
theorem Waiting.tick (h : Waiting d (n + 1) limit w) (now : UInt32) (idle : Bool) :
    AfterTick n limit (w.looked now idle) now (d.tick now idle).next := by
  cases d with
  | atKeyboard k => exact k.afterTick h now idle
  | ps2Mouse m => exact m.afterTick h now idle
  | xt | amiga | m0110 => cases h.waits_eq

/-- A session that has just looked at the time, at `now`, and is ready after at most so many ticks
of silence: each is one stall, and the stalls of the wait under way count. -/
def ReadyWithin (d : Device) (limit : UInt8) (period now : UInt32) (ticks : Nat) : Prop :=
  d.waits? = some 0 ∨ ∃ n w, Waiting d (n + 1) limit w ∧ w.Current now ∧ w.period = period ∧
    w.timer.stalls < limit ∧ (n + 1) * limit.toNat ≤ w.timer.stalls.toNat + ticks

namespace ReadyWithin

variable {period now : UInt32} {needed : Nat}

/-- A session that needs no tick has nothing left to wait for. -/
theorem waits?_eq (h : ReadyWithin d limit period now 0) : d.waits? = some 0 := by
  rcases h with h | ⟨n, w, -, -, -, hstalls, hneeded⟩
  · exact h
  · -- The wait under way has not ended, and takes another tick.
    have hlt : w.timer.stalls.toNat < limit.toNat := UInt8.lt_iff_toNat_lt.mp hstalls
    rw [Nat.succ_mul] at hneeded
    omega

/-- After its first tick a session needs what is left of its stalls and of its further waits. -/
theorem of_tick (h : Waiting d (n + 1) limit w) (hlimit : 0 < limit) {idle : Bool}
    (hneeded : (n + 1) * limit.toNat ≤
      min (w.looked now idle).timer.stalls.toNat limit.toNat + needed) :
    ReadyWithin (d.tick now idle).next limit w.period now needed := by
  have hafter := h.tick now idle
  have hcurrent := w.current_looked now idle
  by_cases hlt : (w.looked now idle).timer.stalls < limit
  · exact .inr ⟨n, _, hafter.goesOn hlt, hcurrent, rfl, hlt, by omega⟩
  · cases n with
    | zero => exact .inl (hafter.ended hlt).waits_eq
    | succ n =>
      -- The next wait begins without a stall.
      refine .inr ⟨n, _, hafter.ended hlt, hcurrent.restarted now, rfl, hlimit, ?_⟩
      show (n + 1) * limit.toNat ≤ 0 + needed
      rw [Nat.succ_mul] at hneeded
      omega

/-- A tick that comes a period later is one that is no longer needed. -/
theorem tick {t t' : Tick} (h : ReadyWithin d limit period (.ofNat t.time) (needed + 1))
    (hspaced : Tick.Spaced period t t') (hidle : t'.idle) :
    ReadyWithin (d.tick (.ofNat t'.time) t'.idle).next limit period (.ofNat t'.time) needed := by
  rcases h with h | ⟨n, w, hwaiting, hcurrent, rfl, hstalls, hneeded⟩
  · exact .inl (waits?_tick h _ _)
  · have hlimit : 0 < limit := UInt8.lt_of_le_of_lt UInt8.zero_le hstalls
    have hlt : w.timer.stalls.toNat < limit.toNat := UInt8.lt_iff_toNat_lt.mp hstalls
    have hstall : (w.looked (.ofNat t'.time) t'.idle).timer.stalls.toNat =
        w.timer.stalls.toNat + 1 := by
      rw [hidle, hcurrent.stalls_looked hspaced, Watch.toNat_stalled hstalls]
    exact of_tick hwaiting hlimit (by omega)

/-- A session that needs no more ticks than there are is ready after them. -/
theorem run {last : Tick} (h : ReadyWithin d limit period (.ofNat last.time) needed)
    (hidle : ∀ t ∈ ticks, t.idle) (hspaced : (last :: ticks).IsChain (Tick.Spaced period))
    (hlength : needed ≤ ticks.length) : (d.ticked ticks).isInitialised := by
  -- On the ticks: each of them is one that is no longer needed.
  induction ticks generalizing d last needed with
  | nil =>
    obtain rfl : needed = 0 := Nat.le_zero.mp hlength
    exact isInitialised_of_waits? h.waits?_eq
  | cons t ticks ih =>
    obtain ⟨hspaced_t, hspaced⟩ := List.isChain_cons_cons.mp hspaced
    obtain ⟨hidle_t, hidle⟩ := List.forall_mem_cons.mp hidle
    cases needed with
    | zero => exact isInitialised_ticked h.waits?_eq
    | succ needed =>
      exact ih (h.tick hspaced_t hidle_t) hidle hspaced (Nat.le_of_succ_le_succ hlength)

end ReadyWithin

/-- The first tick may only begin a period. After it, each wait takes as many ticks as it takes
stalls. -/
theorem Waiting.ready (h : Waiting d n limit w) (hlimit : 0 < limit) (hidle : ∀ t ∈ ticks, t.idle)
    (hspaced : ticks.IsChain (Tick.Spaced w.period))
    (hlength : 1 + n * limit.toNat ≤ ticks.length) : (d.ticked ticks).isInitialised := by
  cases n with
  | zero => exact isInitialised_ticked h.waits_eq
  | succ n =>
    cases ticks with
    | nil =>
      rw [List.length_nil] at hlength
      omega
    | cons t ticks =>
      rw [List.length_cons] at hlength
      -- The first tick only starts the timer; the limit is reached once for every wait after it.
      have hneeded : ReadyWithin (d.tick (.ofNat t.time) t.idle).next limit w.period
          (.ofNat t.time) ((n + 1) * limit.toNat) := .of_tick h hlimit (Nat.le_add_left _ _)
      exact hneeded.run (fun t ht => hidle t (List.mem_cons_of_mem _ ht)) hspaced (by omega)

/-- A keyboard that is asked for its id or is set up, and a mouse that is set up, are ready after a
number of ticks during which they send nothing and their clock line is idle, a period or more
apart. A keyboard takes two waits at most, a mouse five, and one tick is needed to begin. Nothing
is assumed about how the session got there, or about its timer. -/
theorem ready_of_silence {ticks : List Tick} (hidle : ∀ t ∈ ticks, t.idle) :
    (∀ k : AtKeyboard, k.state = .readId1 ∨ k.state = .readId2 ∨ k.state = .setup →
      0 < k.timing.idStalls → ticks.IsChain (Tick.Spaced k.timing.stallPeriod) →
      1 + 2 * k.timing.idStalls.toNat ≤ ticks.length →
      ((atKeyboard k).ticked ticks).isInitialised) ∧
    (∀ m : Ps2Mouse, m.state = .awaitId ∨ (∃ index sent, m.state = .knock index sent) ∨
        m.state = .readWheelId ∨ m.state = .awaitEnableAck →
      0 < m.timing.idStalls → ticks.IsChain (Tick.Spaced m.timing.stallPeriod) →
      1 + 5 * m.timing.idStalls.toNat ≤ ticks.length →
      ((ps2Mouse m).ticked ticks).isInitialised) := by
  refine ⟨fun k hstate hlimit hspaced hlength => ?_, fun m hstate hlimit hspaced hlength => ?_⟩
  · obtain ⟨n, hn, hwaits⟩ := AtKeyboard.waits?_of_state hstate
    have h : Waiting (atKeyboard k) n k.timing.idStalls k.watch :=
      ⟨hwaits, AtKeyboard.stallLimit_of_waits? hwaits, rfl⟩
    have := Nat.mul_le_mul_right k.timing.idStalls.toNat hn
    exact h.ready hlimit hidle hspaced (by omega)
  · obtain ⟨n, hn, hwaits⟩ := Ps2Mouse.waits?_of_state hstate
    have h : Waiting (ps2Mouse m) n m.timing.idStalls m.watch :=
      ⟨hwaits, Ps2Mouse.stallLimit_of_waits? hwaits, rfl⟩
    have := Nat.mul_le_mul_right m.timing.idStalls.toNat hn
    exact h.ready hlimit hidle hspaced (by omega)

/-- Both have passed their self test and are never heard of again, while the 32 bits of the time
overflow. -/
theorem ready_of_silence_selfTest :
    let ticks := (List.range 11).map fun i => (⟨4294966296 + 200 * i, true⟩ : Tick)
    let k := (({ timing := {}, defaultSet := .set2 } : AtKeyboard).receive 0xAA).next
    let m := (({ timing := {}, detectWheel := true } : Ps2Mouse).receive 0xAA).next
    k.state = .readId1 ∧ ((atKeyboard k).ticked ticks).isInitialised ∧
      m.state = .awaitId ∧ ((ps2Mouse m).ticked ticks).isInitialised := by
  intro ticks k m
  have hidle : ∀ t ∈ ticks, t.idle := by decide
  have hspaced : ticks.IsChain (Tick.Spaced 200) := by decide
  have hkeyboard : k.state = .readId1 := by decide
  have hmouse : m.state = .awaitId := by decide
  obtain ⟨hk, hm⟩ := ready_of_silence hidle
  exact ⟨hkeyboard, hk k (.inl hkeyboard) (by decide) hspaced (by decide),
    hmouse, hm m (.inl hmouse) (by decide) hspaced (by decide)⟩

end KeyBridge.Device
