import KeyBridge.Proofs.Device.Silence

/-!
# The count of stalls and the time that has passed

A silent device is looked at now and then. A period ends at the tick that notices it, and the next
one begins there, so that each stall stands for one period and at most the gap before that tick.
The count of stalls therefore lies between two bounds on the time since the timer was restarted,
however the ticks are spread and however often the 32 bits of the time overflow. It stops at 255,
and then only bounds the time from below.

## Main definitions

- `Use`, `ofUses`: what can be done with a timer, and a timer after a run of it
- `Begins`: a timer that begins to count at a given time
- `ticked`: a timer after ticks at some true times, amid silence

## Key results

- `Counts.tick`: the invariant that a tick keeps
- `stalls_le_ticked`: the count never goes down
- `stalls_bracket_time`: the bounds after every run of ticks
-/

namespace KeyBridge.Device.StallTimer

variable {activity period : UInt32} {late since now later : Nat} {t : StallTimer}

/-! ## Timers that begin to count -/

/-- What can be done with a timer. -/
inductive Use where
  | tick (activity now : UInt32) (idle : Bool) (period : UInt32)
  | restart (now : UInt32)
  | clear
deriving DecidableEq, Repr

/-- A timer after it has been used once more. -/
def use (t : StallTimer) : Use → StallTimer
  | .tick activity now idle period => t.tick activity now idle period
  | .restart now => t.restart now
  | .clear => t.clear

/-- A timer after all that has been done with it since its creation. -/
def ofUses (uses : List Use) : StallTimer := uses.foldl use {}

/-- A timer begins to count at a true time, and knows the number of received bytes. It has just been
restarted, or it has been ticked for the first time since it was created or cleared. -/
inductive Begins (activity : UInt32) (since : Nat) : StallTimer → Prop where
  | restarted (t : StallTimer) (seen_eq : t.seen = activity) :
      Begins activity since (t.restart (.ofNat since))
  | ticked (uses : List Use) (stopped : (ofUses uses).start = none) (idle : Bool)
      (period : UInt32) :
      Begins activity since ((ofUses uses).tick activity (.ofNat since) idle period)

/-- However a timer was used last, it has no stalls unless a period is under way. -/
theorem stalls_use (t : StallTimer) (u : Use) (hstopped : (t.use u).start = none) :
    (t.use u).stalls = 0 := by
  cases u with
  | tick activity now idle period =>
    have hsome := isSome_start_tick t activity now idle period
    rw [show (t.tick activity now idle period).start = none from hstopped] at hsome
    exact absurd hsome (by decide)
  | restart now => exact nomatch hstopped
  | clear => rfl

/-- A timer that is stopped has counted no stall, however it was used. -/
theorem stalls_of_stopped (uses : List Use) (hstopped : (ofUses uses).start = none) :
    (ofUses uses).stalls = 0 := by
  rcases List.eq_nil_or_concat uses with rfl | ⟨before, last, rfl⟩
  · rfl
  · rw [ofUses, List.concat_eq_append, List.foldl_append] at hstopped ⊢
    exact stalls_use _ last hstopped

/-- A timer that was just begun has counted nothing and knows the byte count. -/
theorem Begins.eq (h : Begins activity since t) : t = ⟨activity, some (.ofNat since), 0⟩ := by
  cases h with
  | restarted t hseen => rw [restart, hseen]
  | ticked uses hstopped idle period =>
    have hstalls := stalls_of_stopped uses hstopped
    simp only [tick, hstopped, hstalls]

/-! ## Ticks amid silence -/

/-- A timer after ticks at some true times. Nothing is received meanwhile, and the clock line is
idle. -/
def ticked (t : StallTimer) (activity period : UInt32) (times : List Nat) : StallTimer :=
  times.foldl (fun t time => t.tick activity (.ofNat time) true period) t

/-- Ticks can be taken in two parts. -/
theorem ticked_append (t : StallTimer) (activity period : UInt32) (times times' : List Nat) :
    t.ticked activity period (times ++ times') =
      (t.ticked activity period times).ticked activity period times' := List.foldl_append

/-- A tick amid silence ends the period under way, or leaves the timer alone. -/
theorem tick_of_silence {start : Nat} (hseen : t.seen = activity)
    (hstart : t.start = some (.ofNat start)) :
    t.tick activity (.ofNat now) true period =
      if period ≤ .ofNat now - .ofNat start then
        { t with start := some (.ofNat now), stalls := stalled t.stalls }
      else t := by
  simp only [tick, hstart, hseen, ne_eq, not_true, if_false, if_true]

/-- A time that is not taken for a whole period was shorter than that, if the difference does not go
round the clock. -/
theorem lt_of_not_le_sub {start : Nat} (hle : start ≤ now) (hwrap : now < start + 2 ^ 32)
    (h : ¬ period ≤ .ofNat now - .ofNat start) : now < start + period.toNat := by
  rw [UInt32.le_iff_toNat_le, UInt32.toNat_sub] at h
  simp only [UInt32.toNat_ofNat'] at h
  omega

/-! ## The count -/

/-- Below 255 a stall is one more. -/
theorem toNat_stalled_of_lt {stalls : UInt8} (h : stalls.toNat < 255) :
    (stalled stalls).toNat = stalls.toNat + 1 := by
  have hlt : stalls < 255 := UInt8.lt_iff_toNat_lt.mpr h
  exact Watch.toNat_stalled hlt

/-- At 255 the count stays. -/
theorem stalled_of_not_lt {stalls : UInt8} (h : ¬ stalls.toNat < 255) :
    stalled stalls = stalls := by
  have := stalls.toNat_lt
  obtain rfl : stalls = 255 := UInt8.toNat_inj.mp (by show stalls.toNat = 255; omega)
  rfl

/-- A tick without bytes loses no stall. -/
theorem stalls_le_tick (hseen : t.seen = activity) (now : Nat) (period : UInt32) :
    t.stalls.toNat ≤ (t.tick activity (.ofNat now) true period).stalls.toNat ∧
      (t.tick activity (.ofNat now) true period).seen = activity := by
  simp only [tick]
  split
  · exact ⟨Nat.le_refl _, rfl⟩
  · rw [if_neg (not_not.mpr hseen.symm)]
    split
    · refine ⟨?_, hseen⟩
      show t.stalls.toNat ≤ (stalled t.stalls).toNat
      by_cases hlt : t.stalls.toNat < 255
      · rw [toNat_stalled_of_lt hlt]
        omega
      · rw [stalled_of_not_lt hlt]
    · exact ⟨Nat.le_refl _, hseen⟩

/-- As long as nothing is received, the count never goes down. -/
theorem stalls_le_ticked (hseen : t.seen = activity) (period : UInt32) (times : List Nat) :
    t.stalls.toNat ≤ (t.ticked activity period times).stalls.toNat ∧
      (t.ticked activity period times).seen = activity := by
  induction times generalizing t with
  | nil => exact ⟨Nat.le_refl _, hseen⟩
  | cons time times ih =>
    obtain ⟨hle, hseen'⟩ := stalls_le_tick hseen time period
    obtain ⟨hrest, hlast⟩ := ih hseen'
    exact ⟨Nat.le_trans hle hrest, hlast⟩

/-! ## The time -/

/-- A timer has counted since a given time, with gaps of at most `late` between its ticks, the last
of which was at `now`. The period under way began at one of them. All stalls lie before it, and
until there are 255 of them, they account for all the time before it and it is not over. -/
structure Counts (activity period : UInt32) (late since now : Nat) (t : StallTimer) : Prop where
  seen_eq : t.seen = activity
  underWay : ∃ start ≤ now, t.start = some (.ofNat start) ∧
    since + t.stalls.toNat * period.toNat ≤ start ∧
    (t.stalls.toNat < 255 →
      start ≤ since + t.stalls.toNat * (period.toNat + late) ∧ now < start + period.toNat)

/-- A timer that was just begun counts from then on. -/
theorem Begins.counts (h : Begins activity since t) (hperiod : 0 < period) (late : Nat) :
    Counts activity period late since since t := by
  have hpos : 0 < period.toNat := UInt32.lt_iff_toNat_lt.mp hperiod
  obtain rfl := h.eq
  refine ⟨rfl, since, Nat.le_refl _, rfl, ?_, fun _ => ⟨?_, ?_⟩⟩
  · show since + 0 * period.toNat ≤ since
    omega
  · show since ≤ since + 0 * (period.toNat + late)
    omega
  · omega

/-- One tick more. -/
theorem Counts.tick (h : Counts activity period late since now t) (hperiod : 0 < period)
    (hwrap : period.toNat + late < 2 ^ 32) (hle : now ≤ later) (hgap : later ≤ now + late) :
    Counts activity period late since later (t.tick activity (.ofNat later) true period) := by
  have hpos : 0 < period.toNat := UInt32.lt_iff_toNat_lt.mp hperiod
  obtain ⟨hseen, start, hnow, hstart, hlow, hhigh⟩ := h
  rw [tick_of_silence hseen hstart]
  split
  · next hover =>
    -- The period is over, and was not shorter than a period in true time.
    have hpassed : start + period.toNat ≤ later :=
      Watch.le_of_le_sub (Nat.le_trans hnow hle) hover
    refine ⟨hseen, later, Nat.le_refl _, rfl, ?_, ?_⟩
    · show since + (stalled t.stalls).toNat * period.toNat ≤ later
      by_cases hlt : t.stalls.toNat < 255
      · rw [toNat_stalled_of_lt hlt, Nat.succ_mul]
        omega
      · -- The count has stopped, and the time goes on.
        rw [stalled_of_not_lt hlt]
        omega
    · show (stalled t.stalls).toNat < 255 →
        later ≤ since + (stalled t.stalls).toNat * (period.toNat + late) ∧
          later < later + period.toNat
      by_cases hlt : t.stalls.toNat < 255
      · -- At the tick before it was not over, so that it is over by less than the gap.
        obtain ⟨hbefore, hrunning⟩ := hhigh hlt
        rw [toNat_stalled_of_lt hlt, Nat.succ_mul]
        omega
      · rw [stalled_of_not_lt hlt]
        exact fun h => absurd h hlt
  · next hrunning =>
    refine ⟨hseen, start, Nat.le_trans hnow hle, hstart, hlow, fun hlt => ?_⟩
    -- Less than a period and a gap have passed, and together they do not go round the clock.
    obtain ⟨hbefore, hrunning'⟩ := hhigh hlt
    exact ⟨hbefore, lt_of_not_le_sub (Nat.le_trans hnow hle) (by omega) hrunning⟩

/-- Any number of ticks more. -/
theorem Counts.ticked (h : Counts activity period late since now t) (hperiod : 0 < period)
    (hwrap : period.toNat + late < 2 ^ 32) {times : List Nat}
    (hsteps : (now :: times).IsChain fun a b => a ≤ b ∧ b ≤ a + late) :
    Counts activity period late since ((now :: times).getLast (List.cons_ne_nil _ _))
      (t.ticked activity period times) := by
  induction times generalizing now t with
  | nil => exact h
  | cons time times ih =>
    obtain ⟨⟨hle, hgap⟩, hsteps⟩ := List.isChain_cons_cons.mp hsteps
    rw [List.getLast_cons_cons]
    exact ih (h.tick hperiod hwrap hle hgap) hsteps

/-- A timer is ticked with nothing received and an idle clock line, at times that never go back and
are never more than `late` apart, from the one at which it began to count. After any such run each
stall stands for a period, and as long as there are fewer than 255 of them, for less than a period
and a gap, the period under way apart. The count never goes down, and stays at 255. -/
theorem stalls_bracket_time (ht : Begins activity since t) (hperiod : 0 < period)
    (hwrap : period.toNat + late < 2 ^ 32) {times : List Nat} (hne : times ≠ [])
    (hsteps : (since :: times).IsChain fun a b => a ≤ b ∧ b ≤ a + late) :
    let stalls := (t.ticked activity period times).stalls.toNat
    let passed := times.getLast hne - since
    since ≤ times.getLast hne ∧
      stalls * period.toNat ≤ passed ∧
      (stalls < 255 → passed < stalls * (period.toNat + late) + period.toNat) ∧
      ∀ earlier, earlier <+: times →
        (t.ticked activity period earlier).stalls.toNat ≤ stalls ∧
          ((t.ticked activity period earlier).stalls = 255 →
            (t.ticked activity period times).stalls = 255) := by
  intro stalls passed
  have hcounts := (ht.counts hperiod late).ticked hperiod hwrap hsteps
  rw [List.getLast_cons hne] at hcounts
  obtain ⟨-, start, hnow, -, hlow, hhigh⟩ := hcounts
  have hstalls : (t.ticked activity period times).stalls.toNat = stalls := rfl
  have hpassed : times.getLast hne - since = passed := rfl
  rw [hstalls] at hlow hhigh
  refine ⟨by omega, by omega, fun hlt => ?_, ?_⟩
  · obtain ⟨hbefore, hrunning⟩ := hhigh hlt
    omega
  · rintro earlier ⟨rest, rfl⟩
    -- What happened earlier was a run of its own, after which the timer went on.
    have hseen : (t.ticked activity period earlier).seen = activity :=
      (stalls_le_ticked (by rw [ht.eq]) period earlier).2
    have hmono := (stalls_le_ticked hseen period rest).1
    rw [← ticked_append] at hmono
    refine ⟨hmono, fun hfull => ?_⟩
    rw [hfull] at hmono
    have hmax := (t.ticked activity period (earlier ++ rest)).stalls.toNat_lt
    have hfull' : (255 : UInt8).toNat = 255 := rfl
    exact UInt8.toNat_inj.mp (by omega)

/-- A timer that has been cleared is ticked shortly before the 32 bits of the time overflow, and
then every 150 ms, with periods of 200 ms. Every second tick ends a period. -/
theorem stalls_bracket_time_overflow :
    let uses : List Use := [.tick 7 0 true 200, .tick 7 200 true 200, .clear]
    let t := (ofUses uses).tick 7 (.ofNat 4294967200) false 200
    let times := (List.range 10).map fun i => 4294967200 + 150 * (i + 1)
    (ofUses uses).start = none ∧ (0 : UInt32) < 200 ∧ (200 : UInt32).toNat + 150 < 2 ^ 32 ∧
      ((4294967200 :: times).IsChain fun a b => a ≤ b ∧ b ≤ a + 150) ∧
      (t.ticked 7 200 times).stalls.toNat = 5 ∧ 5 * 200 ≤ 1500 ∧ 1500 < 5 * (200 + 150) + 200 ∧
      (t.ticked 7 200 (times.take 4)).stalls.toNat ≤ 5 := by
  intro uses t times
  have hstopped : (ofUses uses).start = none := by decide
  have ht : Begins 7 4294967200 t := .ticked uses hstopped false 200
  have hwrap : (200 : UInt32).toNat + 150 < 2 ^ 32 := by decide
  have hne : times ≠ [] := List.ne_nil_of_length_pos (by decide)
  have hsteps : (4294967200 :: times).IsChain fun a b => a ≤ b ∧ b ≤ a + 150 := by decide
  have hfive : (t.ticked 7 200 times).stalls.toNat = 5 := by decide
  obtain ⟨-, hlow, hhigh, hmono⟩ := stalls_bracket_time ht (by decide) hwrap hne hsteps
  have hlast : ∀ h, times.getLast h = 4294967200 + 1500 := by decide
  rw [hfive] at hlow hhigh hmono
  rw [hlast, Nat.add_sub_cancel_left] at hlow hhigh
  exact ⟨hstopped, by decide, hwrap, hsteps, hfive, hlow, hhigh (by decide),
    (hmono _ (List.take_prefix 4 times)).1⟩

end KeyBridge.Device.StallTimer
