import KeyBridge.Proofs.Byte
import KeyBridge.Proofs.Device.Epoch
import KeyBridge.Proofs.List

/-!
# What comes through from an Amiga keyboard

The session of an Amiga keyboard is a filter. It takes the codes out in which the keyboard speaks
of itself and the list of keys held down at power-up, and puts a tap in the place of caps lock
where keyboard and host disagree about it. `through` says what is left of a byte, and `Woken` when
the keyboard is taken to be running, both by what has been heard and told before and without a
state. Such a history is a list of inputs, the newest first.

## Key results

- `received`: all that a byte can do
- `Recalls.step`: a session that is where its history says stays there, and lets through what the
  history says
- `lets_through`: what comes through of a whole stream, and when the keyboard is ready
-/

namespace KeyBridge.Device.AmigaKeyboard

open Command

variable {k : AmigaKeyboard} {past : List Input} {b : UInt8}

/-! ## Runs -/

/-- Takes in whatever happens to a keyboard, to which the time means nothing. -/
def step (k : AmigaKeyboard) : Input → Step AmigaKeyboard
  | .byte b => k.receive b
  | .tick _ _ => { next := k }
  | .reset => { next := k.reset }
  | .leds wanted => { next := k.setLeds wanted }

/-- A keyboard after a run of inputs. -/
def run (k : AmigaKeyboard) (inputs : List Input) : AmigaKeyboard :=
  inputs.foldl (fun k i => (k.step i).next) k

theorem device_step (k : AmigaKeyboard) (i : Input) : (amiga k).step i = (k.step i).map .amiga := by
  cases i <;> rfl

/-- The run of a keyboard is the run of its device. -/
theorem device_run (k : AmigaKeyboard) (inputs : List Input) :
    (amiga k).run inputs = amiga (k.run inputs) := by
  induction inputs generalizing k with
  | nil => rfl
  | cons i inputs ih =>
    rw [run_cons, device_step]
    exact ih _

/-- What a step queues for the decoder. -/
def queuedBy (k : AmigaKeyboard) : Input → List UInt8
  | .byte b => (k.receive b).action.queued b
  | .tick _ _ | .reset | .leds _ => []

/-- What a run queues for the decoder, one byte after the other. -/
def queuedIn (k : AmigaKeyboard) : List Input → List UInt8
  | [] => []
  | i :: inputs => k.queuedBy i ++ (k.step i).next.queuedIn inputs

/-! ## What the history says -/

/-- The codes in which a keyboard speaks of itself. -/
def announcements : List UInt8 :=
  [Amiga.resetWarning, Amiga.lostSync, Amiga.bufferOverflow, Amiga.selfTestFailed,
    Amiga.powerUpStart, Amiga.powerUpEnd]

/-- The list of keys held down at power-up is coming in: it has begun since one last ended. -/
def Listing (past : List Input) : Prop :=
  .byte Amiga.powerUpStart ∈ past.takeWhile (· != .byte Amiga.powerUpEnd)

instance (past : List Input) : Decidable (Listing past) :=
  inferInstanceAs (Decidable (_ ∈ _))

/-- What has happened since the keyboard last warned of a reset, or at all. A key in the list of
those held down at power-up is no warning, whatever its code. -/
def sinceWarning : List Input → List Input
  | [] => []
  | i :: past =>
    if i = .byte Amiga.resetWarning ∧ ¬ Listing past then [] else i :: sinceWarning past

/-- The keyboard has ended a list or sent a key since then. -/
def Woken (past : List Input) : Prop :=
  ∃ b, .byte b ∈ sinceWarning past ∧ (b = Amiga.powerUpEnd ∨ b ∉ announcements)

/-- Whether caps lock is on at the host, by what it has said last. -/
def capsTold : List Input → Bool
  | [] => false
  | .leds wanted :: _ => wanted.caps
  | .byte _ :: past | .tick _ _ :: past | .reset :: past => capsTold past

/-- What a caps lock byte says of the LED of the keyboard. -/
def led? (b : UInt8) : Option Bool :=
  if b = 0x62 then some true else if b = 0xE2 then some false else none

/-- What comes through of a byte. -/
def through (past : List Input) (b : UInt8) : List UInt8 :=
  if b ∈ announcements ∨ Listing past then []
  else
    match led? b with
    | some on => if on = capsTold past then [] else [0x62, 0xE2]
    | none => [b]

/-- What comes through of inputs that follow a history. -/
def throughAll (past : List Input) : List Input → List UInt8
  | [] => []
  | .byte b :: inputs => through past b ++ throughAll (.byte b :: past) inputs
  | i :: inputs => throughAll (i :: past) inputs

/-- A list of keys goes on after an input, or begins with it. -/
theorem listing_cons {i : Input} : Listing (i :: past) ↔
    i ≠ .byte Amiga.powerUpEnd ∧ (i = .byte Amiga.powerUpStart ∨ Listing past) := by
  rw [Listing, List.takeWhile_cons]
  by_cases hi : i = .byte Amiga.powerUpEnd
  · simp [hi]
  · simp only [bne_iff_ne, ne_eq, hi, not_false_eq_true, if_true, List.mem_cons, true_and, Listing]
    exact or_congr_left eq_comm

/-- A session is awake after an input unless that is a warning, if it woke it or it was awake
before. -/
theorem woken_cons {i : Input} : Woken (i :: past) ↔
    ¬ (i = .byte Amiga.resetWarning ∧ ¬ Listing past) ∧
      ((∃ b, i = .byte b ∧ (b = Amiga.powerUpEnd ∨ b ∉ announcements)) ∨ Woken past) := by
  by_cases hi : i = .byte Amiga.resetWarning ∧ ¬ Listing past
  · simp [Woken, sinceWarning, hi]
  · simp only [Woken, sinceWarning, hi, if_false, not_false_eq_true, true_and, List.mem_cons,
      or_and_right, exists_or]
    refine or_congr_left (exists_congr fun b => and_congr_left' eq_comm)

/-! ## Steps -/

/-- All that a byte can do. -/
inductive Received (k : AmigaKeyboard) (b : UInt8) : Step AmigaKeyboard → Prop where
  | listBegun (hbyte : b = Amiga.powerUpStart) :
    Received k b { next := { k with state := .powerUp } }
  | listEnded (hbyte : b = Amiga.powerUpEnd) : Received k b { next := k.ready }
  | listed (hstate : k.state = .powerUp) (hstart : b ≠ Amiga.powerUpStart)
      (hend : b ≠ Amiga.powerUpEnd) :
      Received k b { next := k, notes := [.powerUpKeyDropped b] }
  | warned (hstate : k.state ≠ .powerUp) (hbyte : b = Amiga.resetWarning) :
      Received k b { next := { k with state := .uninitialised }, notes := [.management b] }
  | announced (hstate : k.state ≠ .powerUp)
      (hbyte : b ∈ [Amiga.lostSync, Amiga.bufferOverflow, Amiga.selfTestFailed])
      (notes : List Diagnostic) : Received k b { next := k, notes }
  | key (hstate : k.state ≠ .powerUp) (hbyte : b ∉ announcements) :
      Received k b { next := k.ready, action := k.keyAction b }

/-- What becomes of each byte that the session receives. -/
theorem received (k : AmigaKeyboard) (b : UInt8) : Received k b (k.receive b) := by
  unfold receive
  split_ifs with hstart hend hstate hwarning hnotice htest
  · exact .listBegun hstart
  · exact .listEnded hend
  · exact .listed hstate hstart hend
  · exact .warned hstate hwarning
  · exact .announced hstate (by rcases hnotice with rfl | rfl <;> simp) _
  · exact .announced hstate (by simp [htest]) _
  · rw [not_or] at hnotice
    exact .key hstate (by simp [announcements, *])

@[simp] theorem state_ready (k : AmigaKeyboard) : k.ready.state = .initialised := by
  unfold ready
  split
  · assumption
  · rfl

@[simp] theorem hostCaps_ready (k : AmigaKeyboard) : k.ready.hostCaps = k.hostCaps := by
  unfold ready
  split <;> rfl

/-- Without its highest bit a byte is the caps lock code if it says something of the LED. -/
theorem eq_capsLock_iff : b &&& ~~~upBit = Amiga.capsLock ↔ b = 0x62 ∨ b = 0xE2 := by
  have hbits : (b &&& ~~~upBit).toNat = b.toNat % 2 ^ 7 := toNat_and_not_highBit b
  have hlt : b.toNat < 2 ^ 8 := b.toNat_lt
  rw [← UInt8.toNat_inj, hbits, ← UInt8.toNat_inj, ← UInt8.toNat_inj]
  simp only [Amiga.capsLock, UInt8.reduceToNat]
  omega

/-- A key is queued as it comes, and caps lock as a tap, if host and keyboard disagree. -/
theorem queued_keyAction (k : AmigaKeyboard) (b : UInt8) :
    (k.keyAction b).queued b =
      match led? b with
      | some on => if on = k.hostCaps then [] else [0x62, 0xE2]
      | none => [b] := by
  -- Only the two caps lock bytes are looked at further, and each of them says one thing.
  by_cases hcaps : b = 0x62 ∨ b = 0xE2
  · rw [keyAction, if_pos (eq_capsLock_iff.mpr hcaps)]
    rcases hcaps with rfl | rfl <;> cases k.hostCaps <;> rfl
  · rw [keyAction, if_neg (mt eq_capsLock_iff.mp hcaps)]
    rw [not_or] at hcaps
    simp [led?, hcaps, Action.queued]

/-! ## Histories and sessions -/

/-- The session is where its history says. -/
structure Recalls (k : AmigaKeyboard) (past : List Input) : Prop where
  powerUp_iff : k.state = .powerUp ↔ Listing past
  initialised_iff : k.state = .initialised ↔ ¬ Listing past ∧ Woken past
  hostCaps_eq : k.hostCaps = capsTold past

/-- A new session recalls an empty past. -/
theorem recalls_new : Recalls {} [] where
  powerUp_iff := by simp [Listing]
  initialised_iff := by simp [Woken, sinceWarning]
  hostCaps_eq := rfl

/-- A byte becomes the latest part of the past that is recalled. -/
theorem Recalls.receive (h : Recalls k past) (b : UInt8) :
    Recalls (k.receive b).next (.byte b :: past) := by
  obtain ⟨hpowerUp, hinitialised, hcaps⟩ := h
  have hs := k.received b
  generalize k.receive b = s at hs
  cases hs with
  | listBegun hbyte =>
    subst hbyte
    have hlisting : Listing (.byte Amiga.powerUpStart :: past) :=
      listing_cons.mpr ⟨by decide, .inl rfl⟩
    exact ⟨by simp [hlisting], by simp [hlisting], hcaps⟩
  -- The end of the list wakes the session.
  | listEnded hbyte =>
    subst hbyte
    have hlisting : ¬ Listing (.byte Amiga.powerUpEnd :: past) := fun h => (listing_cons.mp h).1 rfl
    have hwoken : Woken (.byte Amiga.powerUpEnd :: past) :=
      woken_cons.mpr ⟨fun h => absurd h.1 (by decide), .inl ⟨_, rfl, .inl rfl⟩⟩
    exact ⟨by simp [hlisting], by simp [hlisting, hwoken], k.hostCaps_ready.trans hcaps⟩
  -- A byte of the list changes nothing: the list goes on.
  | listed hstate hstart hend =>
    have hlisting : Listing (.byte b :: past) :=
      listing_cons.mpr ⟨by simpa using hend, .inr (hpowerUp.mp hstate)⟩
    exact ⟨by simp [hstate, hlisting], by simp [hstate, hlisting], hcaps⟩
  -- The warning puts the session to sleep.
  | warned hstate hbyte =>
    subst hbyte
    have hlisting : ¬ Listing (.byte Amiga.resetWarning :: past) := fun h =>
      (listing_cons.mp h).2.elim (by decide) (mt hpowerUp.mpr hstate)
    have hwoken : ¬ Woken (.byte Amiga.resetWarning :: past) := fun h =>
      (woken_cons.mp h).1 ⟨rfl, mt hpowerUp.mpr hstate⟩
    exact ⟨by simp [hlisting], by simp [hwoken], hcaps⟩
  | announced hstate hbyte notes =>
    -- Such a code neither begins or ends a list nor wakes the session.
    have hcodes : ∀ c ∈ [Amiga.lostSync, Amiga.bufferOverflow, Amiga.selfTestFailed],
        c ≠ Amiga.powerUpEnd ∧ c ≠ Amiga.powerUpStart ∧ c ≠ Amiga.resetWarning ∧
          c ∈ announcements := forall_mem_of_all (by decide)
    obtain ⟨hend, hstart, hwarning, hmem⟩ := hcodes b hbyte
    refine ⟨?_, ?_, hcaps⟩
    · simp [hpowerUp, listing_cons, hend, hstart]
    · simp [hinitialised, listing_cons, woken_cons, hend, hstart, hwarning, hmem]
  -- Any other byte is a key. It wakes the session and is part of no list.
  | key hstate hbyte =>
    have hcodes : b ≠ Amiga.powerUpStart ∧ b ≠ Amiga.resetWarning := by
      refine ⟨?_, ?_⟩ <;> rintro rfl <;> exact hbyte (by decide)
    have hlisting : ¬ Listing (.byte b :: past) := fun h =>
      (listing_cons.mp h).2.elim (by simpa using hcodes.1) (mt hpowerUp.mpr hstate)
    have hwoken : Woken (.byte b :: past) :=
      woken_cons.mpr ⟨fun h => absurd h.1 (by simpa using hcodes.2), .inl ⟨b, rfl, .inr hbyte⟩⟩
    exact ⟨by simp [hlisting], by simp [hlisting, hwoken], k.hostCaps_ready.trans hcaps⟩

/-- What comes through of a byte is what its history says. -/
theorem Recalls.queued (h : Recalls k past) (b : UInt8) :
    k.queuedBy (.byte b) = through past b := by
  have hs := k.received b
  simp only [queuedBy, through]
  generalize k.receive b = s at hs
  cases hs with
  | listBegun hbyte | listEnded hbyte => simp [hbyte, announcements, Action.queued]
  | listed hstate => simp [h.powerUp_iff.mp hstate, Action.queued]
  | warned _ hbyte => simp [hbyte, announcements, Action.queued]
  | announced _ hbyte =>
    have hcodes : [Amiga.lostSync, Amiga.bufferOverflow, Amiga.selfTestFailed] ⊆ announcements := by
      decide
    simp [hcodes hbyte, Action.queued]
  | key hstate hbyte =>
    rw [if_neg (not_or.mpr ⟨hbyte, mt h.powerUp_iff.mpr hstate⟩), queued_keyAction, h.hostCaps_eq]

/-- A session that is not reset recalls every input as part of the past. -/
theorem Recalls.step (h : Recalls k past) {i : Input} (hi : i ≠ .reset) :
    Recalls (k.step i).next (i :: past) := by
  cases i with
  | byte b => exact h.receive b
  | tick now idle =>
    exact ⟨by simp [AmigaKeyboard.step, h.powerUp_iff, listing_cons],
      by simp [AmigaKeyboard.step, h.initialised_iff, listing_cons, woken_cons], h.hostCaps_eq⟩
  | reset => exact absurd rfl hi
  | leds wanted =>
    exact ⟨by simp [AmigaKeyboard.step, setLeds, h.powerUp_iff, listing_cons],
      by simp [AmigaKeyboard.step, setLeds, h.initialised_iff, listing_cons, woken_cons], rfl⟩

/-! ## Streams -/

/-- A session recalls all inputs of a run, and lets through what their past says. -/
theorem Recalls.run (h : Recalls k past) {inputs : List Input} (hinputs : .reset ∉ inputs) :
    Recalls (k.run inputs) (inputs.reverse ++ past) ∧
      k.queuedIn inputs = throughAll past inputs := by
  -- The history grows by what comes in, so that the induction is for every session and history.
  induction inputs generalizing k past with
  | nil => exact ⟨h, rfl⟩
  | cons i inputs ih =>
    rw [List.mem_cons, not_or] at hinputs
    obtain ⟨hrun, hqueued⟩ := ih (h.step (Ne.symm hinputs.1)) hinputs.2
    rw [List.reverse_cons, List.append_assoc, queuedIn, hqueued]
    refine ⟨hrun, ?_⟩
    cases i with
    | byte b => rw [h.queued b, throughAll]
    | tick | reset | leds => rfl

/-- Over any stream of bytes, ticks and LEDs told to a new session, what it queues is what comes
through by the history of each byte: the codes in which the keyboard speaks of itself and the lists
of keys held down at power-up are taken out, caps lock becomes a tap where keyboard and host
disagree and is taken out where they agree, and the rest is as it was. The session is ready exactly
if no list is coming in and the keyboard has ended one or sent a key since it last warned of a
reset. -/
theorem lets_through {inputs : List Input} (h : .reset ∉ inputs) :
    let k₀ : AmigaKeyboard := {}
    k₀.queuedIn inputs = throughAll [] inputs ∧
      (((amiga k₀).run inputs).isInitialised ↔
        ¬ Listing inputs.reverse ∧ Woken inputs.reverse) := by
  intro k₀
  obtain ⟨hrecalls, hqueued⟩ := recalls_new.run h
  rw [List.append_nil] at hrecalls
  refine ⟨hqueued, ?_⟩
  rw [device_run, ← hrecalls.initialised_iff]
  exact beq_iff_eq

/-- Two keys are listed at power-up, keys are pressed, and caps lock is toggled by both sides. -/
theorem lets_through_powerUp :
    let inputs : List Input :=
      [.byte 0xFD, .byte 0x20, .byte 0x78, .byte 0xFE, .byte 0x45, .tick 5 true, .byte 0x62,
        .leds { caps := true }, .byte 0xE2, .byte 0x62, .byte 0x78, .byte 0xF9, .byte 0xC5]
    let k₀ : AmigaKeyboard := {}
    .reset ∉ inputs ∧ k₀.queuedIn inputs = [0x45, 0x62, 0xE2, 0x62, 0xE2, 0xC5] ∧
      ((amiga k₀).run inputs).isInitialised := by
  intro inputs k₀
  have hinputs : .reset ∉ inputs := by decide
  obtain ⟨hqueued, hready⟩ := lets_through hinputs
  exact ⟨hinputs, hqueued.trans (by decide),
    hready.mpr ⟨by decide, 0xC5, by decide, .inr (by decide)⟩⟩

end KeyBridge.Device.AmigaKeyboard
