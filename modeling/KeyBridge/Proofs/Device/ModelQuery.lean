import KeyBridge.Proofs.Device.Silence

/-!
# Asking a silent keyboard again

An M0110 keyboard that does not answer the question for its model is asked again when its time is
over. The timer of the session takes the time from the question on, but it also compares the number
of received bytes with the one that it saw when it last looked. The first tick after the creation of
the session or a reset asks for the model without a look at that number. Bytes that came before it
are still new to the timer at the next tick, and pass for an answer: the time then begins with that
tick.

## Main definitions

- `Hearing`: how many bytes are new to the timer, from all that has happened
- `QueriedAgain`: a session leaves the keyboard its time, and then asks again

## Key results

- `Hears.step`, `Hears.run`: the number of new bytes after every run
- `Awaits.tick_early`, `Awaits.tick_late`: a tick within the time, and one after it
- `queried_again_iff`: when the question is put again in time, and what happens if it is not
-/

namespace KeyBridge.Device

open Command

/-! ## New bytes -/

/-- What has happened to an M0110 session, as far as its timer is concerned. -/
structure Hearing where
  /-- The model has been asked for since the creation of the session or its last reset. -/
  asked : Bool := false
  /-- The number of bytes since the timer last looked at it. -/
  unseen : Nat := 0

namespace Hearing

/-- What has happened after one input more. A tick looks at the number of bytes unless it asks for
the model for the first time. -/
def after (h : Hearing) : Input → Hearing
  | .byte _ => { h with unseen := h.unseen + 1 }
  | .tick _ _ => { asked := true, unseen := if h.asked then 0 else h.unseen }
  | .reset => { h with asked := false }
  | .leds _ => h

/-- What a run of inputs comes to from the creation of the session on. -/
def ofRun (inputs : List Input) : Hearing := inputs.foldl after {}

end Hearing

/-! ## Repeated questions -/

/-- A session leaves a keyboard that says nothing its whole time, counted from `since`. The first
tick after it, if the clock line is idle, asks for the model and notes the timeout. -/
def QueriedAgain (d : Device) (since : Nat) : Prop :=
  ∀ early : List Tick, (∀ t ∈ early, since ≤ t.time ∧ t.time < since + d.period.toNat) →
    (∀ t : Tick, since ≤ t.time → t.time < since + d.period.toNat →
      ((d.ticked early).tick (.ofNat t.time) t.idle).action = .none) ∧
    ∀ t : Tick, t.idle → since + d.period.toNat ≤ t.time → t.time < since + 2 ^ 32 →
      ((d.ticked early).tick (.ofNat t.time) t.idle).action = .send M0110.model ∧
        ((d.ticked early).tick (.ofNat t.time) t.idle).notes = [.timeout 1 false]

namespace M0110Keyboard

variable {k : M0110Keyboard} {h : Hearing} {since : Nat} {now : UInt32} {idle : Bool}

/-- A session to which all that has happened. -/
structure Hears (k : M0110Keyboard) (h : Hearing) : Prop where
  asked_iff : h.asked ↔ k.state ≠ .uninitialised
  activity_eq : k.activity = k.timer.seen + .ofNat h.unseen
  /-- A stall is followed by a question at once, which begins the count anew. -/
  stalls_eq : k.timer.stalls = 0

/-- A new session has heard nothing. -/
theorem hears_new (timing : Timing) : Hears { timing } {} where
  asked_iff := by simp
  activity_eq := rfl
  stalls_eq := rfl

/-- A byte is one more that the timer has not seen. -/
protected theorem Hears.receive (hk : k.Hears h) (b : UInt8) :
    (k.receive b).next.Hears { h with unseen := h.unseen + 1 } := by
  obtain ⟨hasked, hactivity, hstalls⟩ := hk
  have hcount : k.activity + 1 = k.timer.seen + .ofNat (h.unseen + 1) := by
    rw [hactivity, UInt32.ofNat_add]
    exact UInt32.add_assoc ..
  cases hs : k.state <;> simp only [hs, receive] at hasked ⊢ <;>
    exact ⟨by simpa using hasked, hcount, hstalls⟩

/-- A tick that looks at the timer has it see all bytes; the first one does not. -/
protected theorem Hears.tick (hk : k.Hears h) (now : UInt32) (idle : Bool) :
    (k.tick now idle).next.Hears ⟨true, if h.asked then 0 else h.unseen⟩ := by
  obtain ⟨hasked, hactivity, hstalls⟩ := hk
  simp only [tick]
  split
  · next hs =>
    -- The question is put without a look at the number of bytes.
    have hfirst : h.asked = false := by simpa [hs] using hasked
    rw [hfirst]
    exact ⟨iff_of_true rfl (by simp [queryModel]), hactivity, rfl⟩
  · next hs =>
    have hseen : (k.timer.tick k.activity now idle k.timing.responseTimeout).seen = k.activity :=
      (Watch.current_looked ⟨k.timer, k.activity, k.timing.responseTimeout⟩ now idle).seen_eq
    rw [hasked.mpr hs]
    split
    · next hzero => exact ⟨iff_of_true rfl hs, by simp [hseen], hzero⟩
    · exact ⟨iff_of_true rfl (by simp [queryModel]),
        by simp [queryModel, StallTimer.restart, hseen], rfl⟩

/-- One input more. -/
theorem Hears.step (hk : k.Hears h) (i : Input) :
    ∃ k', ((m0110 k).step i).next = m0110 k' ∧ k'.Hears (h.after i) := by
  cases i with
  | byte b => exact ⟨_, rfl, hk.receive b⟩
  | tick now idle => exact ⟨_, rfl, hk.tick now idle⟩
  | reset => exact ⟨_, rfl, by simp [Hearing.after, reset], hk.activity_eq, rfl⟩
  | leds wanted => exact ⟨_, rfl, hk⟩

/-- After a run the session has heard what the run says. -/
theorem Hears.run (hk : k.Hears h) (inputs : List Input) :
    ∃ k', (m0110 k).run inputs = m0110 k' ∧ k'.Hears (inputs.foldl Hearing.after h) := by
  induction inputs generalizing k h with
  | nil => exact ⟨k, rfl, hk⟩
  | cons i inputs ih =>
    obtain ⟨k', hstep, hk'⟩ := hk.step i
    rw [run_cons, hstep]
    exact ih hk'

/-- The timer takes the keyboard for silent exactly if the bytes it has not seen are a multiple of
2^32. -/
theorem Hears.activity_eq_seen_iff (hk : k.Hears h) :
    k.activity = k.timer.seen ↔ h.unseen % 2 ^ 32 = 0 := by
  have hadd : k.activity.toNat = (k.timer.seen.toNat + h.unseen % 2 ^ 32) % 2 ^ 32 := by
    rw [hk.activity_eq, UInt32.toNat_add, UInt32.toNat_ofNat']
  have := k.timer.seen.toNat_lt
  rw [← UInt32.toNat_inj, hadd]
  omega

/-! ## The time of a keyboard -/

/-- A session that has asked, and whose timer knows all bytes and has the time begin at `since`. -/
structure Awaits (k : M0110Keyboard) (since : Nat) : Prop where
  asked : k.state ≠ .uninitialised
  timer_eq : k.timer = { seen := k.activity, start := some (.ofNat since), stalls := 0 }

/-- A tick within the time does nothing. -/
theorem Awaits.tick_early (hk : k.Awaits since) {t : Tick} (hle : since ≤ t.time)
    (hlt : t.time < since + k.timing.responseTimeout.toNat) :
    k.tick (.ofNat t.time) t.idle = { next := k } := by
  have hperiod : ¬ k.timing.responseTimeout ≤ .ofNat t.time - .ofNat since := by
    intro hle'
    have := Watch.le_of_le_sub hle hle'
    omega
  have htimer : k.timer.tick k.activity (.ofNat t.time) t.idle k.timing.responseTimeout =
      k.timer := by
    simp only [StallTimer.tick, hk.timer_eq, ne_eq, not_true, if_false, hperiod]
  simp only [tick, hk.asked, if_false, htimer]
  rw [if_pos (by rw [hk.timer_eq])]

/-- The first tick after it asks again. -/
theorem Awaits.tick_late (hk : k.Awaits since) {t : Tick} (hidle : t.idle)
    (hlate : since + k.timing.responseTimeout.toNat ≤ t.time) (hwrap : t.time < since + 2 ^ 32) :
    (k.tick (.ofNat t.time) t.idle).action = .send M0110.model ∧
      (k.tick (.ofNat t.time) t.idle).notes = [.timeout 1 false] := by
  -- The time has not wrapped all around, so that the difference modulo 2^32 is the true one.
  have hperiod : k.timing.responseTimeout ≤ .ofNat t.time - .ofNat since := by
    rw [UInt32.le_iff_toNat_le, UInt32.toNat_sub]
    simp only [UInt32.toNat_ofNat']
    omega
  have htimer : (k.timer.tick k.activity (.ofNat t.time) t.idle k.timing.responseTimeout).stalls =
      1 := by
    simp only [StallTimer.tick, hk.timer_eq, ne_eq, not_true, if_false, hperiod, if_true, hidle]
    rfl
  simp only [tick, hk.asked, if_false, htimer]
  exact ⟨rfl, rfl⟩

/-- Ticks before the end of the time change nothing. -/
theorem Awaits.ticked (hk : k.Awaits since) {early : List Tick}
    (hearly : ∀ t ∈ early, since ≤ t.time ∧ t.time < since + k.timing.responseTimeout.toNat) :
    (m0110 k).ticked early = m0110 k := by
  induction early with
  | nil => rfl
  | cons t early ih =>
    obtain ⟨⟨hle, hlt⟩, hearly⟩ := List.forall_mem_cons.mp hearly
    rw [ticked_cons, Device.tick, hk.tick_early hle hlt]
    exact ih hearly

/-- A session that waits asks again at the first tick after the end of the time. -/
theorem Awaits.queriedAgain (hk : k.Awaits since) : (m0110 k).QueriedAgain since := by
  intro early hearly
  rw [hk.ticked hearly]
  refine ⟨fun t hle hlt => ?_, fun t hidle hlate hwrap => hk.tick_late hidle hlate hwrap⟩
  rw [Device.tick, hk.tick_early hle hlt]
  rfl

/-- A tick that finds new bytes does nothing, and the time begins with it. -/
theorem awaits_tick (hasked : k.state ≠ .uninitialised) {start : UInt32}
    (hstart : k.timer.start = some start) (hnew : k.activity ≠ k.timer.seen) (t : Tick) :
    (k.tick (.ofNat t.time) t.idle).action = .none ∧
      (k.tick (.ofNat t.time) t.idle).next.Awaits t.time := by
  have htimer : k.timer.tick k.activity (.ofNat t.time) t.idle k.timing.responseTimeout =
      ⟨k.activity, some (.ofNat t.time), 0⟩ := by
    simp only [StallTimer.tick, hstart, if_pos hnew]
  simp only [tick, if_neg hasked, htimer, if_pos]
  exact ⟨trivial, hasked, rfl⟩

/-- Whenever the model is asked for, the timer starts. -/
theorem started_of_query (hquery : (k.tick now idle).action = .send M0110.model) :
    (k.tick now idle).next.state ≠ .uninitialised ∧
      (k.tick now idle).next.timer.start = some now := by
  simp only [tick] at hquery ⊢
  split
  -- The first tick asks for the model and starts the time.
  · exact ⟨by simp [queryModel], rfl⟩
  · next hs =>
    simp only [hs, if_false] at hquery
    split
    · next hzero =>
      rw [if_pos hzero] at hquery
      cases hquery
    -- So does a tick that ends the time.
    · exact ⟨by simp [queryModel], rfl⟩

end M0110Keyboard

/-! ## All questions -/

/-- Let an M0110 session ask for the model after any run of bytes, ticks and resets from its
creation. If the keyboard then says nothing, it is left its whole time and asked again at the first
tick after it, exactly if no byte is new to the timer when the question is put. With a question that
follows a timeout none ever is. If there are new bytes, the first tick after the question does
nothing, and the time begins with it. Bytes are counted modulo 2^32. -/
theorem queried_again_iff (timing : Timing) (before : List Input) (t : Tick)
    (hquery : (((m0110 { timing }).run before).tick (.ofNat t.time) t.idle).action =
      .send M0110.model) :
    let d := (((m0110 { timing }).run before).tick (.ofNat t.time) t.idle).next
    let unseen := (Hearing.ofRun (before ++ [.tick (.ofNat t.time) t.idle])).unseen
    (d.QueriedAgain t.time ↔ unseen % 2 ^ 32 = 0) ∧
      (unseen % 2 ^ 32 ≠ 0 → ∀ first : Tick,
        (d.tick (.ofNat first.time) first.idle).action = .none ∧
          (d.tick (.ofNat first.time) first.idle).next.QueriedAgain first.time) := by
  obtain ⟨k, hrun, hk⟩ := (M0110Keyboard.hears_new timing).run before
  rw [hrun] at hquery ⊢
  intro d unseen
  -- The session as it is when the model has just been asked for.
  let k' := (k.tick (.ofNat t.time) t.idle).next
  have hk' : k'.Hears (Hearing.ofRun (before ++ [.tick (.ofNat t.time) t.idle])) := by
    rw [Hearing.ofRun, List.foldl_append]
    exact hk.tick (.ofNat t.time) t.idle
  obtain ⟨hasked, hstart⟩ := M0110Keyboard.started_of_query hquery
  have hseen : k'.activity = k'.timer.seen ↔ unseen % 2 ^ 32 = 0 := hk'.activity_eq_seen_iff
  -- Ticks with bytes that are new begin the time, and do not end it.
  have hnew (hne : unseen % 2 ^ 32 ≠ 0) (first : Tick) :=
    M0110Keyboard.awaits_tick hasked hstart (mt hseen.mp hne) first
  refine ⟨⟨fun hagain => ?_, fun hzero => ?_⟩, fun hne first => ?_⟩
  · by_contra hne
    -- The end of the time, with no tick before it.
    let last : Tick := ⟨t.time + d.period.toNat, true⟩
    have hlast := (hagain [] nofun).2 last rfl (Nat.le_refl _)
      (Nat.add_lt_add_left d.period.toNat_lt _)
    exact nomatch (hnew hne last).1.symm.trans hlast.1
  -- Without a new byte the time runs from this tick.
  · have htimer : k'.timer = ⟨k'.activity, some (.ofNat t.time), 0⟩ := by
      rw [hseen.mpr hzero, ← hstart, ← hk'.stalls_eq]
    exact M0110Keyboard.Awaits.queriedAgain ⟨hasked, htimer⟩
  · exact ⟨(hnew hne first).1, (hnew hne first).2.queriedAgain⟩

/-- A keyboard that has said something before it was asked, and has answered since, is reset. It is
asked shortly before the 32 bits of the time overflow. -/
theorem queried_again_iff_reset :
    let before : List Input :=
      [.byte 0x00, .tick 0 true, .byte 0x0B, .tick 100 true, .tick 200 false, .reset]
    let d := (m0110 { timing := {} }).run before
    (d.tick (.ofNat 4294967200) true).action = .send M0110.model ∧
      (d.tick (.ofNat 4294967200) true).next.QueriedAgain 4294967200 := by
  intro before d
  have hquery : (d.tick (.ofNat 4294967200) true).action = .send M0110.model := by decide
  exact ⟨hquery, (queried_again_iff {} before ⟨4294967200, true⟩ hquery).1.mpr (by decide)⟩

/-- A byte comes before the first question. The keyboard is silent from then on, and is not asked
again when its time is over. -/
theorem not_queried_again :
    let s := ((m0110 { timing := {} }).run [.byte 0x00]).tick (.ofNat 0) true
    s.action = .send M0110.model ∧ (s.next.tick (.ofNat 500) true).action = .none ∧
      ¬ s.next.QueriedAgain 0 := by
  intro s
  have hnone : (s.next.tick (.ofNat 500) true).action = .none := by decide
  refine ⟨by decide, hnone, fun hagain => ?_⟩
  have hsend := ((hagain [] nofun).2 ⟨500, true⟩ rfl (by decide) (by decide)).1
  exact nomatch hnone.symm.trans hsend

end KeyBridge.Device
