import KeyBridge.Proofs.Decoder.Outputs

/-!
# Errors of decoders

`Decoder.step` reports a byte that does not fit, and `Decoder.feed` passes over it and resets the
decoder. The step alone has forgotten the sequence under way by then, each decoder in its own way.
That of a mouse leaves the bytes of earlier packets where they are, so that it is not the same as a
new one. `Alike` says that nothing else is different, and no reading ever tells.

## Key results

- `Alike.step`: decoders that are alike give the same reading and stay alike
- `Alike.of_unexpected`: after an error, a decoder is like one that was reset
- `feedings_eq`: feeding gives what the steps give, without the errors
- `errors_cut`: after an error, everything is as with a new decoder
-/

namespace KeyBridge

open Scan

/-! ## Streams -/

namespace Decoder

/-- The decoder after it has taken in bytes step by step. -/
def stepped (d : Decoder) : List UInt8 → Decoder
  | [] => d
  | b :: bs => (d.step b).1.stepped bs

/-- What a decoder makes of each of the bytes that it takes in. -/
def readings (d : Decoder) : List UInt8 → List Reading
  | [] => []
  | b :: bs => (d.step b).2 :: (d.step b).1.readings bs

/-- What a decoder gives for each of the bytes that it is fed with. -/
def feedings (d : Decoder) : List UInt8 → List (Option Event)
  | [] => []
  | b :: bs => (d.feed b).2 :: (d.feed b).1.feedings bs

/-- A decoder can be stepped through bytes in two parts. -/
theorem stepped_append (d : Decoder) (bs cs : List UInt8) :
    d.stepped (bs ++ cs) = (d.stepped bs).stepped cs := by
  induction bs generalizing d with
  | nil => rfl
  | cons b bs ih => exact ih _

/-- Bytes are read in two parts, the second from where the first has ended. -/
theorem readings_append (d : Decoder) (bs cs : List UInt8) :
    d.readings (bs ++ cs) = d.readings bs ++ (d.stepped bs).readings cs := by
  induction bs generalizing d with
  | nil => rfl
  | cons b bs ih => exact congrArg ((d.step b).2 :: ·) (ih _)

end Decoder

namespace Scan

/-! ## The packet under way -/

namespace Mouse

/-- The same bytes of the packet under way, whatever is left of earlier ones. -/
structure State.Alike (s t : State) : Prop where
  count_eq : s.count = t.count
  packet_eq : ∀ i < s.count, s.packet[i]? = t.packet[i]?

variable {s t u : State} {wheel : Bool} {p q : Vector UInt8 4}

theorem State.Alike.symm (h : s.Alike t) : t.Alike s :=
  ⟨h.count_eq.symm, fun i hi => (h.packet_eq i (h.count_eq ▸ hi)).symm⟩

/-- Likeness of mouse states carries over from one state to the next. -/
theorem State.Alike.trans (h : s.Alike t) (h' : t.Alike u) : s.Alike u :=
  ⟨h.count_eq.trans h'.count_eq,
    fun i hi => (h.packet_eq i hi).trans (h'.packet_eq i (h.count_eq ▸ hi))⟩

/-- Only the bytes of the packet are looked at. -/
theorem complete_congr (h : ∀ i < packetLength wheel, p[i]? = q[i]?) :
    complete wheel p = complete wheel q := by
  -- The first three bytes count for every mouse, the fourth one only with a wheel.
  have hlength : 3 ≤ packetLength wheel := by cases wheel <;> decide
  have hget : ∀ i (hi : i < 4), i < packetLength wheel → p[i] = q[i] := by
    intro i hi hlt
    have heq := h i hlt
    rwa [Vector.getElem?_eq_getElem hi, Vector.getElem?_eq_getElem hi, Option.some_inj] at heq
  have hturn : (if wheel then -signed4 p[3] else 0) = if wheel then -signed4 q[3] else 0 := by
    cases wheel with
    | false => rfl
    | true => rw [hget 3 (by decide) (by decide)]
  simp only [complete]
  rw [hget 0 (by decide) (by omega), hget 1 (by decide) (by omega),
    hget 2 (by decide) (by omega), hturn]

/-- The next byte is stored in the same place of both buffers. -/
theorem State.Alike.set (h : s.Alike t) (b : UInt8) :
    ∀ i < s.count + 1,
      (s.packet.setIfInBounds s.count b)[i]? = (t.packet.setIfInBounds t.count b)[i]? := by
  intro i hi
  rw [← h.count_eq, Vector.getElem?_setIfInBounds, Vector.getElem?_setIfInBounds]
  split
  · rfl
  · exact h.packet_eq i (by omega)

/-- A byte is read the same. -/
theorem State.Alike.step (h : s.Alike t) (wheel : Bool) (b : UInt8) :
    (Mouse.step wheel s b).2 = (Mouse.step wheel t b).2 ∧
      (Mouse.step wheel s b).1.Alike (Mouse.step wheel t b).1 := by
  have hset := h.set b
  simp only [Mouse.step, ← h.count_eq] at hset ⊢
  split
  · exact ⟨rfl, h⟩
  · split
    · exact ⟨rfl, rfl, hset⟩
    -- The packet is complete, and none of its bytes is an earlier one.
    · next hfull =>
      exact ⟨complete_congr fun i hi => hset i (by omega), rfl, fun i hi => absurd hi (by simp)⟩

/-- A packet that has not begun is like that of a new decoder. -/
theorem State.alike_of_count (h : s.count = 0) : s.Alike {} :=
  ⟨h, fun i hi => absurd hi (by omega)⟩

/-- After an error a mouse decoder is like a new one, whatever is left in its buffer. -/
theorem alike_of_unexpected {b : UInt8} (h : (step wheel s b).2.isUnexpected) :
    (step wheel s b).1.Alike {} := by
  have hcomplete : ∀ p, (complete wheel p).isUnexpected = false := by
    intro p
    simp only [complete]
    split <;> rfl
  -- A complete packet is never an error, so that the byte was no first byte of one.
  simp only [step] at h ⊢
  split
  · next hbad => exact State.alike_of_count (by simp_all)
  · next hgood =>
    rw [if_neg hgood] at h
    split at h
    · exact nomatch h
    · exact absurd h (by simp [hcomplete])

end Mouse

/-! ## Errors of keyboards -/

@[simp] theorem Reading.isUnexpected_key? (code : Option UInt8) (make : Bool) :
    (Reading.key? code make).isUnexpected = false := by
  cases code <;> rfl

section Keyboards

attribute [local simp] Reading.isUnexpected Reading.key

variable {b : UInt8}

/-- An error leaves a set 1 decoder in its initial state. -/
theorem Set1.init_of_unexpected {s : State} (h : (step s b).2.isUnexpected) :
    (step s b).1 = .init := by
  -- One goal for each state and each byte that it tells apart.
  cases s <;> simp only [step] at h ⊢ <;> repeat' split at h
  all_goals simp_all

/-- An error leaves a set 2 decoder in its initial state. -/
theorem Set2.init_of_unexpected {s : State} (h : (step s b).2.isUnexpected) :
    (step s b).1 = .init := by
  cases s <;> simp only [step, expect] at h ⊢ <;> repeat' split at h
  all_goals simp_all

/-- An error leaves a set 3 decoder in its initial state. -/
theorem Set3.init_of_unexpected {s : State} (h : (step s b).2.isUnexpected) :
    (step s b).1 = .init := by
  cases s <;> simp only [step] at h ⊢ <;> repeat' split at h
  all_goals simp_all

/-- An error leaves an M0110 decoder in its initial state. -/
theorem M0110.init_of_unexpected {s : State} (h : (step s b).2.isUnexpected) :
    (step s b).1 = .init := by
  cases s <;> simp only [step, begin] at h ⊢ <;> repeat' split at h
  all_goals simp_all

end Keyboards

end Scan

namespace Decoder

/-! ## Decoders that are alike -/

/-- Decoders that differ in what a mouse has left of earlier packets, if in anything. -/
inductive Alike : Decoder → Decoder → Prop where
  | refl (d : Decoder) : Alike d d
  | mouse {wheel : Bool} {s t : Mouse.State} (h : s.Alike t) : Alike (mouse wheel s) (mouse wheel t)

variable {d d' d'' : Decoder} {b : UInt8}

theorem Alike.of_eq (h : d = d') : d.Alike d' := h ▸ .refl d

/-- Likeness can be read both ways. -/
theorem Alike.symm (h : d.Alike d') : d'.Alike d := by
  cases h with
  | refl => exact .refl _
  | mouse h => exact .mouse h.symm

/-- Likeness carries over from one decoder to the next. -/
theorem Alike.trans (h : d.Alike d') (h' : d'.Alike d'') : d.Alike d'' := by
  cases h with
  | refl => exact h'
  | mouse h =>
    cases h' with
    | refl => exact .mouse h
    | mouse h' => exact .mouse (h.trans h')

/-- Decoders that are alike give the same reading and stay alike. -/
theorem Alike.step (h : d.Alike d') (b : UInt8) :
    (d.step b).2 = (d'.step b).2 ∧ (d.step b).1.Alike (d'.step b).1 := by
  cases h with
  | refl => exact ⟨rfl, .refl _⟩
  | mouse h => exact (h.step _ b).imp id .mouse

/-- After an error, a decoder is like one that was reset. -/
theorem Alike.of_unexpected (h : (d.step b).2.isUnexpected) : (d.step b).1.Alike d.reset := by
  -- The keyboards' decoders are the same as after a reset, that of a mouse is only like it.
  cases d with
  | set1 s => exact .of_eq (congrArg set1 (Set1.init_of_unexpected h))
  | set2 s => exact .of_eq (congrArg set2 (Set2.init_of_unexpected h))
  | set3 s => exact .of_eq (congrArg set3 (Set3.init_of_unexpected h))
  | amiga => exact .refl _
  | m0110 s => exact .of_eq (congrArg m0110 (M0110.init_of_unexpected h))
  | mouse wheel s => exact .mouse (Mouse.alike_of_unexpected h)

/-- Nothing but the sequence under way is ever forgotten. -/
theorem reset_step (d : Decoder) (b : UInt8) : (d.step b).1.reset = d.reset := by
  cases d <;> rfl

/-- A reset forgets the bytes that were read. -/
theorem reset_stepped (d : Decoder) (bytes : List UInt8) : (d.stepped bytes).reset = d.reset := by
  induction bytes generalizing d with
  | nil => rfl
  | cons b bytes ih => exact (ih _).trans (d.reset_step b)

/-- A decoder that was just selected is as after a reset. -/
theorem reset_select (protocol : Protocol) (codeSet : CodeSet) (wheel : Bool) :
    (select protocol codeSet wheel).reset = select protocol codeSet wheel := by
  cases protocol <;> first | rfl | (cases codeSet <;> rfl)

/-- The reset of `feed` makes no difference. -/
theorem alike_feed (d : Decoder) (b : UInt8) : (d.feed b).1.Alike (d.step b).1 := by
  have hreset := d.reset_step b
  have herror := Alike.of_unexpected (d := d) (b := b)
  simp only [feed]
  split
  · next h =>
    rw [h] at hreset herror ⊢
    rw [hreset]
    exact (herror rfl).symm
  · next h => exact .of_eq (congrArg Prod.fst h).symm

/-! ## Errors in streams -/

/-- Decoders that are alike read the same in the same bytes. -/
theorem Alike.readings_eq (h : d.Alike d') (bytes : List UInt8) :
    d.readings bytes = d'.readings bytes := by
  induction bytes generalizing d d' with
  | nil => rfl
  | cons b bytes ih => rw [readings, readings, (h.step b).1, ih (h.step b).2]

/-- Feeding gives what the steps give, without the errors. -/
theorem feedings_eq (d : Decoder) (bytes : List UInt8) :
    d.feedings bytes = (d.readings bytes).map Reading.event? := by
  induction bytes generalizing d with
  | nil => rfl
  | cons b bytes ih =>
    rw [feedings, readings, List.map_cons, event_feed, ih, (d.alike_feed b).readings_eq]

/-- Decoders that are alike hand over the same events for the same bytes. -/
theorem Alike.feedings_eq (h : d.Alike d') (bytes : List UInt8) :
    d.feedings bytes = d'.feedings bytes := by
  rw [Decoder.feedings_eq, Decoder.feedings_eq, h.readings_eq]

/-- A decoder that is fed is like one that takes in the bytes step by step. -/
theorem Alike.fed (h : d.Alike d') (bytes : List UInt8) :
    (d.fed bytes).Alike (d'.stepped bytes) := by
  induction bytes generalizing d d' with
  | nil => exact h
  | cons b bytes ih => exact ih ((d.alike_feed b).trans (h.step b).2)

/-- The events of a stream are those of the readings. -/
theorem outputs_eq_filterMap (d : Decoder) (bytes : List UInt8) :
    d.outputs bytes = (d.readings bytes).filterMap Reading.event? := by
  induction bytes generalizing d with
  | nil => rfl
  | cons b bytes ih =>
    rw [outputs, readings, List.filterMap_cons, event_feed, ih, (d.alike_feed b).readings_eq]
    cases (d.step b).2.event? <;> rfl

/-- An error is a clean cut. Whatever decoder is selected and whatever bytes it has taken in, once a
byte is unexpected it gives for all bytes that follow just what a newly selected one gives, step by
step as well as fed, and no matter in which of the two ways it came there. And a stream that is fed
to it gives what the steps give, with nothing in place of each error. -/
theorem errors_cut (protocol : Protocol) (codeSet : CodeSet) (wheel : Bool) :
    let d := select protocol codeSet wheel
    (∀ (before : List UInt8) (b : UInt8), ((d.stepped before).step b).2.isUnexpected →
      ∀ d' ∈ [d.stepped (before ++ [b]), d.fed (before ++ [b])], ∀ after : List UInt8,
        d'.readings after = d.readings after ∧ d'.feedings after = d.feedings after) ∧
    ∀ bytes, d.feedings bytes = (d.readings bytes).map Reading.event? := by
  intro d
  refine ⟨fun before b herror d' hd' after => ?_, d.feedings_eq⟩
  have hstepped : (d.stepped (before ++ [b])).Alike d := by
    -- An error resets the decoder, which brings back the one selected.
    have hreset : (d.stepped before).reset = d :=
      (d.reset_stepped before).trans (reset_select protocol codeSet wheel)
    have hlike := Alike.of_unexpected herror
    rw [hreset] at hlike
    rwa [stepped_append]
  have hlike : d'.Alike d := by
    simp only [List.mem_cons, List.not_mem_nil, or_false] at hd'
    -- `feed` resets the decoder after an error, which makes no difference.
    obtain rfl | rfl := hd'
    · exact hstepped
    · exact ((Alike.refl d).fed _).trans hstepped
  exact ⟨hlike.readings_eq after, hlike.feedings_eq after⟩

/-- After a packet of four bytes and an error, the bytes of the packet are still there. -/
theorem errors_cut_leftOver :
    let d := select .ps2Mouse .set2 true
    let before := [0x29, 0x05, 0xFD, 0x01]
    ((d.stepped before).step 0x40).2.isUnexpected ∧ d.stepped (before ++ [0x40]) ≠ d ∧
      (d.stepped (before ++ [0x40])).readings [0x08, 0x01, 0x00, 0x0F] =
        d.readings [0x08, 0x01, 0x00, 0x0F] := by
  intro d before
  have herror : ((d.stepped before).step 0x40).2.isUnexpected := by decide
  refine ⟨herror, by decide, ?_⟩
  exact ((errors_cut .ps2Mouse .set2 true).1 before 0x40 herror _ List.mem_cons_self _).1

end Decoder

end KeyBridge
