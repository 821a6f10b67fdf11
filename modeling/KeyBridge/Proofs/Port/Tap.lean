import KeyBridge.Bridge
import KeyBridge.Proofs.Device.AmigaStream
import KeyBridge.Proofs.Port.Accounts

/-!
# Taps of caps lock

An Amiga keyboard sends one byte when caps lock is pressed, and the session makes a press and a
release of it. The port puts the two into the ring one after the other, and looks for room for each
of them by itself: if there is room for one byte only, the press is queued and the release is not.

## Main definitions

- `Station.tap?`: the two bytes that a frame makes the port queue
- `Station.tears`: whether an event finds room for just one of them
- `paired`: whether the release of every press waits right behind it

## Key results

- `ByteRing.Valid.admitted_eq_take`: a ring admits bytes as long as it has room
- `contents_tap`: what of a tap gets into the ring
- `Whole.run`: a run that tears no tap leaves no press without its release
- `tap_queued`: both bytes are queued or neither is, unless exactly 30 are waiting
- `tap_torn`: with 30 bytes waiting the host gets a press without a release
-/

namespace KeyBridge

open ByteRing (Op Attended Simulates performAll onQueue)
open Command

variable {w : Nat}

/-! ## Room in a ring -/

namespace ByteRing

variable {r : ByteRing w} {q : List UInt8} {n : Nat}

/-- Of several bytes the first ones get in, as many as there is room for. -/
theorem Valid.admitted_eq_take (hv : r.Valid) (bs : List UInt8) :
    r.admitted bs = bs.take (capacity - r.length) := by
  induction bs generalizing r with
  | nil => simp [admitted]
  | cons b bs ih =>
    cases hput : r.put? b with
    | none =>
      have hfull : r.length = capacity := r.length_contents ▸ hv.put?_eq_none_iff.mp hput
      simp only [admitted, hput, ih hv, hfull, Nat.sub_self, List.take_zero]
    | some r' =>
      have hlength := hv.length_put? hput
      have hle := r'.length_le
      have hroom : capacity - r.length = capacity - r'.length + 1 := by omega
      simp only [admitted, hput, ih (hv.put? hput), hroom, List.take_succ_cons]

end ByteRing

/-! ## What a session has queued -/

namespace Device.AmigaKeyboard

variable {k : AmigaKeyboard} {b first second : UInt8}

/-- Nothing but a tap is queued in place of a byte, and the keyboard is ready then. -/
theorem receive_queue (h : (k.receive b).action = .queue first second) :
    first = 0x62 ∧ second = 0xE2 ∧ (k.receive b).next = k.ready := by
  unfold receive at h ⊢
  repeat' split at h
  all_goals try contradiction
  simp only [keyAction] at h
  split at h
  · split at h
    · contradiction
    · obtain ⟨rfl, rfl⟩ := Action.queue.inj h
      exact ⟨rfl, rfl, by simp [*]⟩
  · contradiction

/-- A session has the byte queued that it was given, or a tap, or nothing. -/
theorem queued_cases (k : AmigaKeyboard) (b : UInt8) :
    (k.receive b).action.queued b = [] ∨
      b ≠ 0x62 ∧ (k.receive b).action.queued b = [b] ∨
      (k.receive b).action = .queue 0x62 0xE2 := by
  unfold receive
  repeat' split
  all_goals try exact .inl rfl
  simp only [keyAction]
  split
  · split
    · exact .inl rfl
    · exact .inr (.inr rfl)
  · next hcaps => exact .inr (.inl ⟨fun h => hcaps (eq_capsLock_iff.mpr (.inl h)), rfl⟩)

/-- An epoch begins just if the keyboard has not been ready. -/
theorem epoch_ready_eq_iff (k : AmigaKeyboard) :
    k.ready.epoch = k.epoch ↔ k.isInitialised = true := by
  unfold ready isInitialised
  split
  · next h => simp [h]
  · next h => simpa using h

end Device.AmigaKeyboard

/-- A port for an Amiga keyboard has a session for one. -/
theorem Port.exists_amiga {p : Port} (hp : p.device.protocol = .amiga) :
    ∃ k, p.device = .amiga k := by
  cases hd : p.device with
  | amiga k => exact ⟨k, rfl⟩
  | _ => simp [hd, Device.protocol] at hp

namespace Station

/-! ## Presses and releases -/

/-- Whether every press of caps lock is followed by its release. -/
def paired : List UInt8 → Bool
  | [] => true
  | b :: bs => (b != 0x62 || bs.head? == some 0xE2) && paired bs

/-- Pairs after pairs are pairs. -/
theorem paired_append {bs cs : List UInt8} (hb : paired bs) (hc : paired cs) :
    paired (bs ++ cs) := by
  -- On the first pairs; a press at their end would lack its release.
  induction bs with
  | nil => exact hc
  | cons b bs ih =>
    simp only [paired, Bool.and_eq_true] at hb
    cases bs with
    | nil => simp_all [paired]
    | cons b' bs => simp_all [paired]

/-- When the first byte has been read, every press that is left is followed by its release. -/
theorem paired_tail {bs : List UInt8} (h : paired bs) : paired bs.tail := by
  cases bs with
  | nil => rfl
  | cons b bs => exact (Bool.and_eq_true _ _ ▸ h : _ ∧ _).2

/-! ## Frames -/

/-- The two bytes that a frame makes the port queue in place of the one received. -/
def tap? (s : Station w) (word : UInt32) : Option (UInt8 × UInt8) :=
  match Wire.decode s.port.format word with
  | .ok byte =>
    match (s.port.device.receive byte).action with
    | .queue first second => some (first, second)
    | .none | .send _ | .pass | .passAndSend _ | .restart => none
  | .error _ => none

/-- The ring that the bytes of a frame are put into. The first key of a keyboard begins an epoch,
and what was waiting is dropped. -/
def kept (s : Station w) : ByteRing w :=
  if s.port.device.isInitialised then s.ring else s.ring.discard

/-- Whether an event finds room for just one byte of a tap. -/
def tears (s : Station w) : Event → Bool
  | .call (.frame word) _ => (s.tap? word).isSome && s.kept.length == 30
  | .call (.tick _ _) _ | .call (.leds _) _ | .call .drain _ | .read => false

/-- Whether no event of a run does. -/
def spares (s : Station w) : List Event → Bool
  | [] => true
  | e :: events => !s.tears e && (s.step e).spares events

variable {s : Station w} {k : Device.AmigaKeyboard} {word : UInt32} {first second : UInt8}

/-- A frame brings a tap exactly if the session queues two bytes for it. -/
theorem tap?_eq_some_iff : s.tap? word = some (first, second) ↔
    ∃ byte, Wire.decode s.port.format word = .ok byte ∧
      (s.port.device.receive byte).action = .queue first second := by
  unfold tap?
  cases hdec : Wire.decode s.port.format word with
  | error e => simp
  | ok byte => cases haction : (s.port.device.receive byte).action <;> simp [haction]

/-- A tap is put into the ring that is kept. -/
theorem kept_of_tap (accepts : UInt32 → Bool) (hk : s.port.device = .amiga k)
    (h : s.tap? word = some (first, second)) :
    s.port.puts (.frame word) = [first, second] ∧
      s.port.keptAt ⟨.frame word, s.ring, accepts⟩ = s.kept ∧ first = 0x62 ∧ second = 0xE2 := by
  obtain ⟨byte, hdec, haction⟩ := tap?_eq_some_iff.mp h
  rw [hk] at haction
  obtain ⟨hfirst, hsecond, hnext⟩ := Device.AmigaKeyboard.receive_queue haction
  have hepoch : ((Device.amiga k).receive byte).next.epoch = (Device.amiga k).epoch ↔
      k.isInitialised = true := by
    rw [← Device.AmigaKeyboard.epoch_ready_eq_iff, ← hnext]
    rfl
  refine ⟨?_, ?_, hfirst, hsecond⟩
  · simp only [Port.puts, Port.input?, hdec, hk, haction, Device.Action.queued]
  · simp only [Port.keptAt, hdec, hk, Port.emptied, haction, reduceCtorEq, if_false, hepoch, kept,
      Device.isInitialised]

/-- A frame puts nothing into the ring, or a byte that is not the press of caps lock, or a tap. -/
theorem puts_cases (hk : s.port.device = .amiga k) (word : UInt32) :
    s.port.puts (.frame word) = [] ∨ (∃ b ≠ 0x62, s.port.puts (.frame word) = [b]) ∨
      s.tap? word = some (0x62, 0xE2) := by
  cases hdec : Wire.decode s.port.format word with
  | error e =>
    left
    cases e <;> simp [Port.puts, Port.input?, hdec, Wire.FrameError.losesPosition]
  | ok byte =>
    have hputs : s.port.puts (.frame word) = (k.receive byte).action.queued byte := by
      simp only [Port.puts, Port.input?, hdec, hk]
      rfl
    rw [hputs]
    rcases k.queued_cases byte with hnil | ⟨hbyte, hone⟩ | htwo
    · exact .inl hnil
    · exact .inr (.inl ⟨byte, hbyte, hone⟩)
    · exact .inr (.inr (tap?_eq_some_iff.mpr ⟨byte, hdec, by rw [hk]; exact htwo⟩))

/-- What a move keeps of the ring is valid. -/
theorem valid_keptAt (accepts : UInt32 → Bool) (hv : s.ring.Valid) (move : Port.Move) :
    (s.port.keptAt ⟨move, s.ring, accepts⟩).Valid := by
  unfold Port.keptAt
  split
  · split
    · exact Port.valid_emptied hv
    · split
      · exact hv.discard
      · exact hv
  · exact Port.valid_emptied hv
  all_goals exact hv

/-- A ring admits what is put into it as long as it has room. -/
theorem contents_call (accepts : UInt32 → Bool) (hv : s.ring.Valid) (move : Port.Move) :
    let kept := s.port.keptAt ⟨move, s.ring, accepts⟩
    (s.step (.call move accepts)).ring.contents =
      kept.contents ++ (s.port.puts move).take (31 - kept.length) := by
  have hkept := valid_keptAt accepts hv move
  exact (congrArg ByteRing.contents (s.port.ring_step ⟨move, s.ring, accepts⟩)).trans
    ((hkept.contents_putAll _).trans (congrArg (_ ++ ·) (hkept.admitted_eq_take _)))

/-- What of a tap gets into the ring. -/
theorem contents_tap (accepts : UInt32 → Bool) (hk : s.port.device = .amiga k)
    (hv : s.ring.Valid) (h : s.tap? word = some (first, second)) :
    (s.step (.call (.frame word) accepts)).ring.contents =
      s.kept.contents ++ [first, second].take (31 - s.kept.length) := by
  obtain ⟨hputs, hkept, -⟩ := kept_of_tap accepts hk h
  have hcontents := contents_call accepts hv (.frame word)
  rwa [hputs, hkept] at hcontents

/-! ## Runs -/

/-- With room for two bytes both get in, and with room for none neither does. -/
theorem paired_take_tap {n : Nat} (hle : n ≤ 31) (hne : n ≠ 30) :
    paired ([0x62, 0xE2].take (31 - n)) := by
  rcases Nat.lt_or_eq_of_le hle with hlt | rfl
  · rw [List.take_of_length_le (by simp only [List.length_cons, List.length_nil]; omega)]
    rfl
  · rfl

/-- What a frame puts into the ring has no press without its release. -/
theorem paired_puts {accepts : UInt32 → Bool} (hk : s.port.device = .amiga k)
    (h : s.tears (.call (.frame word) accepts) = false) :
    let kept := s.port.keptAt ⟨.frame word, s.ring, accepts⟩
    paired ((s.port.puts (.frame word)).take (31 - kept.length)) := by
  intro kept
  rcases puts_cases hk word with hnil | ⟨b, hb, hone⟩ | htap
  · rw [hnil, List.take_nil]
    rfl
  · rw [hone]
    -- A byte that is no press of caps lock can get in or not.
    cases 31 - kept.length <;> simp [paired, hb]
  · obtain ⟨hputs, hkept, -⟩ := kept_of_tap accepts hk htap
    have hne : s.kept.length ≠ 30 := by simpa [tears, htap] using h
    rw [hputs, show kept = s.kept from hkept]
    exact paired_take_tap s.kept.length_le hne

/-- No press waits without its release. -/
structure Whole (s : Station w) (n : Nat) : Prop where
  protocol_eq : s.port.device.protocol = .amiga
  /-- The counters of the ring have not met. -/
  simulates : ∃ q d, Simulates s.ring q n d
  pairs : paired s.ring.contents

variable {n : Nat} {q : List UInt8}

/-- Discards leave the pairs whole. -/
theorem paired_onQueue_discards (h : paired q) (k : Nat) :
    paired (performAll onQueue q (List.replicate k .discard)).1 := by
  induction k generalizing q with
  | zero => exact h
  | succ k ih => exact ih (q := []) rfl

/-- What an event keeps that tears no tap. -/
theorem Whole.step (h : s.Whole n) {e : Event} (hops : Attended w n (s.operations e))
    (hspares : s.tears e = false) : (s.step e).Whole ((s.operations e).foldl Op.unread n) := by
  obtain ⟨hp, ⟨q, d, hsim⟩, hpaired⟩ := h
  obtain ⟨hsim', -⟩ := hsim.performAll (s.operations e) hops
  rw [ring_step] at hsim'
  cases e with
  | read =>
    refine ⟨hp, ⟨_, _, hsim'⟩, ?_⟩
    -- The reader takes the first byte, and never the second one of a pair without it.
    have htail : (s.step .read).ring.contents = s.ring.contents.tail := hsim.valid.get_eq.2
    rw [htail]
    exact paired_tail hpaired
  | call move accepts =>
    refine ⟨(s.port.protocol_step _).trans hp, ⟨_, _, hsim'⟩, ?_⟩
    -- What the move keeps is a whole ring or an empty one; what it puts goes behind that.
    have hkept : paired (s.port.keptAt ⟨move, s.ring, accepts⟩).contents := by
      obtain ⟨hdiscards, -⟩ := hops.append
      obtain ⟨hsim'', -⟩ := hsim.performAll _ hdiscards
      rw [← s.port.keptAt_eq ⟨move, s.ring, accepts⟩, hsim''.contents_eq]
      exact paired_onQueue_discards (hsim.contents_eq ▸ hpaired) _
    rw [contents_call accepts hsim.valid]
    refine paired_append hkept ?_
    cases move with
    | frame word =>
      obtain ⟨k, hk⟩ := Port.exists_amiga hp
      exact paired_puts hk hspares
    | tick | leds | drain => rw [show s.port.puts _ = [] from rfl, List.take_nil]; rfl

/-- A run that tears no tap leaves no press without its release in the ring. -/
theorem Whole.run (h : s.Whole n) {events : List Event}
    (hops : Attended w n (s.operationsIn events)) (hspares : s.spares events = true) :
    paired (s.run events).ring.contents := by
  induction events generalizing s n with
  | nil => exact h.pairs
  | cons e events ih =>
    simp only [spares, Bool.and_eq_true, Bool.not_eq_true'] at hspares
    obtain ⟨hfirst, hrest⟩ := hops.append
    exact ih (h.step hfirst hspares.1) hrest hspares.2

/-- A port keeps its protocol, and a ring stays sound. -/
theorem protocol_and_valid_run (hv : s.ring.Valid) (events : List Event) :
    (s.run events).port.device.protocol = s.port.device.protocol ∧ (s.run events).ring.Valid := by
  induction events generalizing s with
  | nil => exact ⟨rfl, hv⟩
  | cons e events ih =>
    cases e with
    | read => exact ih (s := s.step .read) hv.get
    | call move accepts =>
      have hring : (s.step (.call move accepts)).ring.Valid := by
        change (s.port.step ⟨move, s.ring, accepts⟩).ring.Valid
        rw [s.port.ring_step]
        exact (valid_keptAt accepts hv move).putAll _
      obtain ⟨hprotocol, hvalid⟩ := ih hring
      exact ⟨hprotocol.trans (s.port.protocol_step _), hvalid⟩

/-- A station of an Amiga keyboard after any run, and a frame for which the session wants a tap
queued. What was waiting is kept, unless the frame begins an epoch. With at most 29 bytes kept both
bytes of the tap get in, one behind the other, and with 31 neither does; with 30 the first one does
and the second one does not. In a run in which this never happens the release of every press that
waits is right behind it, unless the ring discarded `2^w` times without being read. -/
theorem tap_queued (c : Config) (hc : c.protocol = .amiga) (events : List Event) :
    let s₀ : Station w := { port := .ofConfig c }
    let s := s₀.run events
    (∀ word accepts first second, s.tap? word = some (first, second) →
      let after := (s.step (.call (.frame word) accepts)).ring
      first = 0x62 ∧ second = 0xE2 ∧ s.kept.length ≤ 31 ∧
        (s.kept.length ≤ 29 → after.contents = s.kept.contents ++ [first, second]) ∧
        (s.kept.length = 30 → after.contents = s.kept.contents ++ [first]) ∧
        (s.kept.length = 31 → after.contents = s.kept.contents)) ∧
      (Attended w 0 (s₀.operationsIn events) → s₀.spares events = true →
        paired s.ring.contents = true) := by
  intro s₀ s
  have hp₀ : s₀.port.device.protocol = .amiga := by
    simp [s₀, Port.ofConfig, Device.ofConfig, hc, Device.protocol]
  obtain ⟨hp, hv⟩ := protocol_and_valid_run (s := s₀) ByteRing.valid_empty events
  obtain ⟨k, hk⟩ := Port.exists_amiga (hp.trans hp₀)
  refine ⟨?_, ?_⟩
  · intro word accepts first second htap after
    obtain ⟨-, -, hfirst, hsecond⟩ := kept_of_tap accepts hk htap
    have hafter : after.contents = s.kept.contents ++ [first, second].take (31 - s.kept.length) :=
      contents_tap accepts hk hv htap
    refine ⟨hfirst, hsecond, s.kept.length_le, fun hle => ?_, fun heq => ?_, fun heq => ?_⟩
    -- Room for two, for one and for none.
    · rw [hafter, List.take_of_length_le]
      simp only [List.length_cons, List.length_nil]
      omega
    · rw [hafter, heq]
      rfl
    · rw [hafter, heq, Nat.sub_self, List.take_zero, List.append_nil]
  · intro hops hspares
    have hwhole : s₀.Whole 0 := ⟨hp₀, ⟨[], 0, ByteRing.simulates_empty⟩,
      congrArg paired ByteRing.contents_empty⟩
    exact hwhole.run hops hspares

/-- A new station for an Amiga keyboard. -/
def amiga : Station 8 := { port := .ofConfig { protocol := .amiga } }

/-- A key goes down. -/
def key : Event := .call (.frame 0xBF) fun _ => true

/-- Caps lock goes down, and its LED comes on. -/
def caps : Event := .call (.frame 0x3B) fun _ => true

/-- The tap waits behind the release of a key whose press has been read. -/
theorem tap_queued_behind_key :
    let s := amiga.run [key]
    s.tap? 0x3B = some (0x62, 0xE2) ∧ (s.step caps).ring.contents = [0x20, 0x62, 0xE2] ∧
      paired (s.step caps).ring.contents = true := by
  intro s
  obtain ⟨hqueued, -⟩ := tap_queued (w := 8) { protocol := .amiga } rfl [key]
  obtain ⟨-, hpaired⟩ := tap_queued (w := 8) { protocol := .amiga } rfl [key, caps]
  have htap : s.tap? 0x3B = some (0x62, 0xE2) := by decide +kernel
  obtain ⟨-, -, -, hboth, -⟩ := hqueued 0x3B (fun _ => true) 0x62 0xE2 htap
  have hops : Attended 8 0 (amiga.operationsIn [key, caps]) :=
    ByteRing.attended_of_length_lt (by decide +kernel)
  exact ⟨htap, (hboth (by decide +kernel)).trans (by decide +kernel),
    hpaired hops (by decide +kernel)⟩

/-- With 30 keys waiting the press of caps lock is queued and its release is not, and the host never
gets the release. -/
theorem tap_torn :
    let s := amiga.run (List.replicate 30 key)
    let after := (s.step caps).ring
    let b : Bridge 8 := (Bridge.ofConfig { protocol := .amiga }).run
      (List.replicate 30 (.frame 0xBF) ++ [.frame 0x3B])
    s.tap? 0x3B = some (0x62, 0xE2) ∧
      ¬ (after.contents = s.ring.contents ++ [0x62, 0xE2] ∨ after.contents = s.ring.contents) ∧
      (b.drain 0).1.trace.events = List.replicate 30 (.press 0x20) ++ [.press 0x62] := by
  decide +kernel

end Station

end KeyBridge
