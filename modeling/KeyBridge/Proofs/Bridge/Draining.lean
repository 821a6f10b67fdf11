import KeyBridge.Proofs.Bridge.Operations

/-!
# Draining comes to an end

The coordinator has turn after turn while no frame comes in. A turn takes at most one byte out of
the ring, and none unless the host is ready. A timeout can also drop all that waits. The coordinator
sees that by the generation of the ring and leaves it alone for this turn, and then there is nothing
left to take. So the ring never gets fuller, whatever happens around the turns, and its length is a
bound for the turns that take a byte.

## Main definitions

- `Turned`: the three things that a turn can come to
- `Occasion`: what a turn meets, which may be something else every time
- `Sound`: the counters of the ring do not meet during the turns to come

## Key results

- `turned_poll`: a turn takes a byte, moves nothing, or finds everything dropped
- `Sound.turn`: what one turn keeps
- `draining_bounded`: all turns, from any bridge and on all occasions
- `pollUpTo_eq_drain`: draining stops because nothing moves, not because the turns run out
-/

namespace KeyBridge.Bridge

open ByteRing (Op Attended performAll)

variable {w : Nat} {b next : Bridge w} {n : Nat} {consumed : Bool}

/-! ## Turns -/

/-- What a turn of the coordinator comes to. -/
inductive Turned (b next : Bridge w) (consumed : Bool) : Prop where
  /-- The oldest byte is taken, and one event at most is delivered. -/
  | takes (attached : b.attached = true) (ready : b.ready = true) (consumed_eq : consumed = true)
      (byte : UInt8) (contents_eq : b.ring.contents = byte :: next.ring.contents)
      (lag : next.ring.Lag 0) (event? : Option Event)
      (events_eq : next.trace.events = b.trace.events ++ event?.toList)
  /-- Nothing moves. With a port and a host that is ready, there was nothing to move. -/
  | waits (consumed_eq : consumed = false) (contents_eq : next.ring.contents = b.ring.contents)
      (events_eq : next.trace.events = b.trace.events)
      (empty : b.attached = true → b.ready = true → b.ring.contents = [])
  /-- The port has dropped all bytes, which shows in the generation. Nothing moves. -/
  | drops (attached : b.attached = true) (consumed_eq : consumed = false)
      (contents_eq : next.ring.contents = []) (events_eq : next.trace.events = b.trace.events)
      (generation_ne : next.ring.generation ≠ b.ring.generation)

/-- The host gets one event at most. -/
theorem events_drainOne (b : Bridge w) (g : BitVec w) :
    ∃ event? : Option Event,
      (b.drainOne g).1.trace.events = b.trace.events ++ event?.toList := by
  simp only [drainOne]
  cases (b.coordinator.drainOne b.ring g b.ready).event with
  | none => exact ⟨none, (List.append_nil _).symm⟩
  | some e =>
    simp only [Option.elim, deliver]
    split
    · exact ⟨some e, rfl⟩
    · exact ⟨none, (List.append_nil _).symm⟩

/-- Without a discard the oldest byte is taken, if there is one and the host is ready. -/
theorem turned_of_kept (hb : b.attached = true) (hv : b.ring.Valid) {now : UInt32}
    (hring : (b.tick now).1.ring = b.ring) : Turned b (b.poll now).1 (b.poll now).2.1 := by
  obtain ⟨hpoll, hconsumed⟩ := poll_of_attached hb now
  have hready := b.ready_serviced now
  have hevents := b.events_serviced now
  -- The coordinator finds the ring and its generation as they were before.
  have hsame : (b.serviced now).ring = b.ring := (b.ring_serviced now).trans hring
  have hgeneration := congrArg ByteRing.generation hsame
  rw [hpoll, hconsumed]
  by_cases hr : b.ready = true
  · obtain ⟨hleft, htook⟩ := drainOne_of_ready _ (hready.trans hr) hgeneration
    obtain ⟨hhead, htail⟩ := hv.get_eq
    rw [hsame] at hleft htook
    cases hc : b.ring.contents with
    | nil =>
      rw [hc] at hhead htail
      have hempty : (b.serviced now).ring.get.1 = none := hsame ▸ hhead
      -- Reading an empty ring settles it, which does not show in its contents.
      rw [drainOne_of_nil _ (hready.trans hr) hgeneration hempty]
      refine .waits rfl ?_ hevents fun _ _ => hc
      show (b.serviced now).ring.get.2.contents = b.ring.contents
      rw [hsame, htail, hc]
      rfl
    | cons byte bytes =>
      rw [hc] at hhead htail
      obtain ⟨event?, hevent⟩ := events_drainOne (b.serviced now) b.ring.generation
      refine .takes hb hr ?_ byte ?_ ?_ event? (hevents ▸ hevent)
      · rw [htook, hhead]
        rfl
      · rw [hleft, htail, hc]
        rfl
      · rw [hleft]
        exact ByteRing.lag_get b.ring
  · have hwaits : ¬((b.serviced now).ready = true ∧
        (b.serviced now).ring.generation = b.ring.generation) := fun h => hr (hready ▸ h.1)
    rw [drainOne_of_waits _ hwaits]
    exact .waits rfl (congrArg ByteRing.contents hsame) hevents fun _ hr' => absurd hr' hr

/-- A turn takes a byte, moves nothing, or finds that everything was dropped. -/
theorem turned_poll (hv : b.ring.Valid) (hl : b.ring.Lag n) {now : UInt32}
    (hw : b.attached = true → n + b.dropsAt now < 2 ^ w) :
    Turned b (b.poll now).1 (b.poll now).2.1 := by
  by_cases hb : b.attached = true
  · have hw := hw hb
    -- A look at the time does nothing to the ring but discard.
    by_cases hdrops : b.dropsAt now = 0
    · refine turned_of_kept hb hv ?_
      rw [← ring_tickOperations, tickOperations_eq, hdrops]
      rfl
    · have hring := b.ring_tick_eq now
      rw [← ring_serviced] at hring
      -- The generations are told apart, as there are fewer than `2^w` discards.
      have hne : (b.serviced now).ring.generation ≠ b.ring.generation := by
        rw [hring, Port.generation_emptied]
        exact ByteRing.add_ofNat_ne _ (Nat.pos_of_ne_zero hdrops)
          (Nat.lt_of_le_of_lt (Nat.le_add_left _ n) hw)
      have hcontents : (b.serviced now).ring.contents = [] := by
        rw [hring, Port.contents_emptied hv hl hw]
        exact if_neg hdrops
      obtain ⟨hpoll, hconsumed⟩ := poll_of_attached hb now
      rw [hpoll, hconsumed, drainOne_of_waits _ fun h => hne h.2]
      exact .drops hb rfl hcontents (b.events_serviced now) hne
  · rw [Bridge.poll, if_neg hb]
    exact .waits rfl rfl rfl fun hb' => absurd hb' hb

/-- The ring never gets fuller, and a turn that takes a byte leaves one less. -/
theorem Turned.length_le (h : Turned b next consumed) :
    consumed.toNat + next.ring.length ≤ b.ring.length := by
  rw [← ByteRing.length_contents, ← ByteRing.length_contents]
  cases h with
  | takes _ _ hconsumed byte hcontents _ event? _ =>
    rw [hconsumed, hcontents]
    show 1 + next.ring.contents.length ≤ next.ring.contents.length + 1
    omega
  | waits hconsumed hcontents _ _ =>
    rw [hconsumed, hcontents]
    show 0 + b.ring.contents.length ≤ b.ring.contents.length
    omega
  | drops _ hconsumed hcontents _ _ =>
    rw [hconsumed, hcontents]
    show 0 + 0 ≤ b.ring.contents.length
    omega

/-- With a port and a host that is ready, a byte less is left if there was any. -/
theorem Turned.length_le_pred (h : Turned b next consumed) (hb : b.attached = true)
    (hr : b.ready = true) : next.ring.length ≤ b.ring.length - 1 := by
  rw [← ByteRing.length_contents, ← ByteRing.length_contents]
  cases h with
  | takes _ _ _ byte hcontents _ event? _ =>
    rw [hcontents]
    show next.ring.contents.length ≤ next.ring.contents.length + 1 - 1
    omega
  | waits _ hcontents _ hempty =>
    rw [hcontents, hempty hb hr]
    exact Nat.le_refl 0
  | drops _ _ hcontents _ _ =>
    rw [hcontents]
    exact Nat.zero_le _

/-- A turn that takes a byte has accounted for all discards. -/
theorem Turned.lag (h : Turned b next true) : next.ring.Lag 0 := by
  cases h with
  | takes _ _ _ _ _ hlag _ _ => exact hlag
  | waits hconsumed _ _ _ => exact nomatch hconsumed
  | drops _ hconsumed _ _ _ => exact nomatch hconsumed

/-! ## Runs of turns -/

/-- What a turn meets. All of it can have changed since the last one. -/
structure Occasion where
  now : UInt32
  /-- The state of the clock line. -/
  idle : Bool
  /-- Whether the host is ready for an event. -/
  ready : Bool
  /-- Whether there is a port. -/
  attached : Bool
  transmitter : Transmitter
  /-- The lock LEDs that the host wants, if it has said so since the last turn. -/
  leds? : Option LockLeds
deriving DecidableEq, Repr

/-- The bridge on an occasion. -/
def upon (b : Bridge w) (o : Occasion) : Bridge w :=
  { b with
    port := o.leds?.elim b.port b.port.setLeds
    idle := o.idle
    ready := o.ready
    attached := o.attached
    transmitter := o.transmitter }

/-- A turn on an occasion. The result says whether it took a byte. -/
def turn (b : Bridge w) (o : Occasion) : Bridge w × Bool :=
  let (b, consumed, _) := (b.upon o).poll o.now
  (b, consumed)

/-- The bridge after turns. -/
def after (b : Bridge w) (os : List Occasion) : Bridge w := os.foldl (fun b o => (b.turn o).1) b

/-- Which of the turns took a byte. -/
def consumptions (b : Bridge w) : List Occasion → List Bool
  | [] => []
  | o :: os => (b.turn o).2 :: (b.turn o).1.consumptions os

/-- What turns do to the ring. -/
def operationsUpon (b : Bridge w) : List Occasion → List Op
  | [] => []
  | o :: os => (b.upon o).operations (.poll o.now) ++ (b.turn o).1.operationsUpon os

/-- A turn does to the ring what its operations say. -/
theorem ring_turn (b : Bridge w) (o : Occasion) :
    (performAll ByteRing.apply b.ring ((b.upon o).operations (.poll o.now))).1 =
      (b.turn o).1.ring := (b.upon o).ring_step (.poll o.now)

/-- The ring is what these operations make of it. -/
theorem ring_after (b : Bridge w) (os : List Occasion) :
    (performAll ByteRing.apply b.ring (b.operationsUpon os)).1 = (b.after os).ring := by
  induction os generalizing b with
  | nil => rfl
  | cons o os ih =>
    rw [operationsUpon, ByteRing.performAll_append, ring_turn]
    exact ih (b.turn o).1

/-- A bridge whose ring has been emptied `n` times since it was last read, and not too often during
the turns to come. -/
structure Sound (b : Bridge w) (n : Nat) (os : List Occasion) : Prop where
  valid : b.ring.Valid
  lag : b.ring.Lag n
  attended : Attended w n (b.operationsUpon os)

variable {o : Occasion} {os pre : List Occasion}

/-- After a turn the bridge is sound for the turns that are left. -/
theorem Sound.turn (h : b.Sound n (o :: os)) :
    (b.turn o).1.Sound (((b.upon o).operations (.poll o.now)).foldl Op.unread n) os := by
  obtain ⟨-, hrest⟩ := h.attended.append
  obtain ⟨hvalid, hlag⟩ :=
    ByteRing.sound_performAll ((b.upon o).operations (.poll o.now)) h.valid h.lag
  rw [ring_turn] at hvalid hlag
  exact ⟨hvalid, hlag, hrest⟩

/-- A turn from a sound bridge takes a byte, moves nothing or finds everything dropped. -/
theorem Sound.turned (h : b.Sound n (o :: os)) :
    Turned (b.upon o) (b.turn o).1 (b.turn o).2 :=
  turned_poll (b := b.upon o) h.valid h.lag fun hb => lt_of_attended hb h.attended.append.1

/-- After some turns the bridge is sound for those that are left. -/
theorem Sound.after (h : b.Sound n (pre ++ os)) : ∃ k, (b.after pre).Sound k os := by
  induction pre generalizing b n with
  | nil => exact ⟨n, h⟩
  | cons o pre ih => exact ih h.turn

/-- Each turn that takes a byte leaves one less in the ring. -/
theorem Sound.count_le (h : b.Sound n os) :
    (b.consumptions os).count true + (b.after os).ring.length ≤ b.ring.length := by
  induction os generalizing b n with
  | nil => exact Nat.le_of_eq (Nat.zero_add _)
  | cons o os ih =>
    -- Each turn takes one byte at most, and what it leaves bounds the turns after it.
    have hrest := ih h.turn
    have hturn : (b.turn o).2.toNat + (b.turn o).1.ring.length ≤ b.ring.length := h.turned.length_le
    show ((b.turn o).2 :: (b.turn o).1.consumptions os).count true +
      ((b.turn o).1.after os).ring.length ≤ b.ring.length
    cases hc : (b.turn o).2 with
    | true =>
      rw [hc, Bool.toNat_true] at hturn
      rw [List.count_cons_self]
      omega
    | false =>
      rw [hc, Bool.toNat_false] at hturn
      rw [List.count_cons_of_ne (by decide)]
      omega

/-- Among more turns than there are bytes, one takes none. -/
theorem Sound.ends (h : b.Sound n os) (hlt : b.ring.length < os.length) :
    ∃ k rest, k ≤ b.ring.length ∧ b.consumptions os = List.replicate k true ++ false :: rest := by
  induction os generalizing b n with
  | nil => exact absurd hlt (Nat.not_lt_zero _)
  | cons o os ih =>
    rw [List.length_cons] at hlt
    have hturn : (b.turn o).2.toNat + (b.turn o).1.ring.length ≤ b.ring.length := h.turned.length_le
    cases hc : (b.turn o).2 with
    | false =>
      -- This turn is the one.
      refine ⟨0, (b.turn o).1.consumptions os, Nat.zero_le _, ?_⟩
      rw [consumptions, hc]
      rfl
    | true =>
      rw [hc, Bool.toNat_true] at hturn
      -- A byte is gone, so that the remaining turns are still more than the bytes.
      obtain ⟨k, rest, hk, hrest⟩ := ih h.turn (by omega)
      refine ⟨k + 1, rest, by omega, ?_⟩
      rw [consumptions, hc, hrest]
      rfl

/-- With a port and a host that is ready every time, each turn leaves a byte less. -/
theorem Sound.length_after_le (h : b.Sound n os)
    (hopen : ∀ o ∈ os, o.ready = true ∧ o.attached = true) :
    (b.after os).ring.length ≤ b.ring.length - os.length := by
  induction os generalizing b n with
  | nil => exact Nat.le_refl _
  | cons o os ih =>
    obtain ⟨⟨hready, hattached⟩, hopen⟩ := List.forall_mem_cons.mp hopen
    -- Each turn empties the ring by one byte, or altogether.
    have hrest := ih h.turn hopen
    have hturn : (b.turn o).1.ring.length ≤ b.ring.length - 1 :=
      h.turned.length_le_pred hattached hready
    show ((b.turn o).1.after os).ring.length ≤ b.ring.length - (os.length + 1)
    omega

/-- The coordinator has turns while no frame comes in. Whatever the port, the coordinator and the
host have been through, whatever was done to the ring before and whatever each turn meets: a turn
takes one byte at most and delivers one event at most, and neither unless the host is ready, and the
ring does not get fuller. The turns that take a byte are no more than there were bytes, of which
there were 31 at most, and among more turns than that there is one that takes none. With a port and
a host that is ready every time, the ring is empty after as many turns as it held bytes. At no point
may the ring have been emptied `2^w` times since it was last read; `ring_run` names what a run does
to it. -/
theorem draining_bounded (b : Bridge w) (before : List Op) (os : List Occasion)
    (hring : b.ring = (performAll ByteRing.apply .empty before).1)
    (hops : Attended w 0 (before ++ b.operationsUpon os)) :
    (performAll ByteRing.apply b.ring (b.operationsUpon os)).1 = (b.after os).ring ∧
      (∀ pre o post, os = pre ++ o :: post →
        let b' := b.after pre
        Turned (b'.upon o) (b'.turn o).1 (b'.turn o).2 ∧
          (b'.turn o).1.ring.length ≤ b'.ring.length) ∧
      (b.consumptions os).count true + (b.after os).ring.length ≤ b.ring.length ∧
      b.ring.length ≤ 31 ∧
      (b.ring.length < os.length → ∃ k rest, k ≤ b.ring.length ∧
        b.consumptions os = List.replicate k true ++ false :: rest) ∧
      ((∀ o ∈ os, o.ready = true ∧ o.attached = true) → b.ring.length ≤ os.length →
        (b.after os).ring.contents = []) := by
  obtain ⟨-, hturns⟩ := hops.append
  obtain ⟨hvalid, hlag⟩ := ByteRing.sound_performAll before ByteRing.valid_empty
    (ByteRing.lag_empty (w := w))
  rw [← hring] at hvalid hlag
  have hsound : b.Sound (before.foldl Op.unread 0) os := ⟨hvalid, hlag, hturns⟩
  -- The bound is the capacity of every ring, and the rest comes turn by turn.
  refine ⟨b.ring_after os, fun pre o post hos => ?_, hsound.count_le, b.ring.length_le,
    hsound.ends, fun hopen hle => ?_⟩
  · intro b'
    subst hos
    obtain ⟨k, hpre⟩ := hsound.after
    have hturned : Turned (b'.upon o) (b'.turn o).1 (b'.turn o).2 := hpre.turned
    exact ⟨hturned, Nat.le_trans (Nat.le_add_left _ _) hturned.length_le⟩
  -- As many turns as bytes leave nothing.
  · have hlength := hsound.length_after_le hopen
    rw [← List.length_eq_zero_iff, ByteRing.length_contents]
    omega

/-- A keyboard types four keys and is plugged in anew. -/
def replugged : List Move :=
  [0xAA, 0xAB, 0x83, 0x1C, 0x32, 0x21, 0x23, 0xAA].map
    fun byte => .frame (Wire.Frame.ofByte byte).toWord

/-- A turn amid silence, with a transmitter that takes everything. -/
def silence (ready : Bool) (now : UInt32) : Occasion where
  now
  idle := true
  ready
  attached := true
  transmitter := .queue none []
  leds? := none

/-- A key is taken, then the host is not ready and all others are dropped: the keyboard has not told
its id in time, so that a new epoch begins. Had the host been ready, it would have got them all. -/
theorem draining_bounded_replugged :
    let start : Bridge 8 := ofConfig {}
    let b := start.run replugged
    let late := silence true 0 :: [200, 400, 600, 800].map (silence false)
    let early := List.replicate 4 (silence true 0)
    b.ring.contents = [0x1C, 0x32, 0x21, 0x23] ∧
      b.consumptions late = [true, false, false, false, false] ∧
      (b.consumptions late).count true + (b.after late).ring.length ≤ b.ring.length ∧
      (b.after (late.take 4)).ring.contents = [0x32, 0x21, 0x23] ∧
      (b.after late).ring.contents = [] ∧ (b.after early).ring.contents = [] := by
  intro start b late early
  have hring : b.ring = (performAll ByteRing.apply .empty (start.operationsIn replugged)).1 :=
    (start.ring_run replugged).symm
  have hlate : Attended 8 0 (start.operationsIn replugged ++ b.operationsUpon late) :=
    ByteRing.attended_of_length_lt (by decide +kernel)
  have hearly : Attended 8 0 (start.operationsIn replugged ++ b.operationsUpon early) :=
    ByteRing.attended_of_length_lt (by decide +kernel)
  obtain ⟨-, -, hcount, -⟩ := draining_bounded b _ late hring hlate
  obtain ⟨-, -, -, -, -, hempty⟩ := draining_bounded b _ early hring hearly
  exact ⟨by decide +kernel, by decide +kernel, hcount, by decide +kernel, by decide +kernel,
    hempty (by decide) (by decide +kernel)⟩

/-! ## Draining at once -/

/-- More turns than there are bytes make no difference. -/
theorem pollUpTo_congr (hv : b.ring.Valid) (hl : b.ring.Lag n) (hw : n + 2 < 2 ^ w) (now : UInt32)
    {k m : Nat} (hk : b.ring.length < k) (hm : b.ring.length < m) :
    b.pollUpTo now k = b.pollUpTo now m := by
  induction k generalizing b n m with
  | zero => omega
  | succ k ih =>
    -- A turn that takes a byte has read the ring, so that the lag is not summed up over the turns.
    obtain ⟨m, rfl⟩ : ∃ m', m = m' + 1 := ⟨m - 1, by omega⟩
    have hdrops := b.dropsAt_le now
    have hturned : Turned b (b.poll now).1 (b.poll now).2.1 :=
      turned_poll hv hl fun _ => by omega
    cases hc : (b.poll now).2.1 with
    | false => rw [pollUpTo_of_waits hc, pollUpTo_of_waits hc]
    | true =>
      rw [hc] at hturned
      have hlength : 1 + (b.poll now).1.ring.length ≤ b.ring.length := hturned.length_le
      have hvalid : (b.poll now).1.ring.Valid :=
        b.ring_step (.poll now) ▸ (ByteRing.sound_performAll (b.operations (.poll now)) hv hl).1
      have hrest : (b.poll now).1.pollUpTo now k = (b.poll now).1.pollUpTo now m :=
        ih hvalid hturned.lag (by omega) (by omega) (by omega)
      rw [pollUpTo_of_takes hc, pollUpTo_of_takes hc, hrest]

/-- Draining stops because nothing moves any more, not because the turns run out. -/
theorem pollUpTo_eq_drain (hv : b.ring.Valid) (hl : b.ring.Lag n) (hw : n + 2 < 2 ^ w)
    (now : UInt32) {k : Nat} (hk : b.ring.length < k) : b.pollUpTo now k = b.drain now :=
  pollUpTo_congr hv hl hw now hk (Nat.lt_succ_self _)

end KeyBridge.Bridge
