import KeyBridge.Decoder

/-!
# The outputs of a decoder

A decoder that is fed with bytes one after the other gives a list of events. Bytes that do not fit
are passed over, as `Decoder.feed` does.

## Key results

- `outputs_append`: the events of two parts of a stream, one after the other
- `isKey_of_feed`: a decoder gives events of keys, unless it is that of a mouse
-/

namespace KeyBridge

open Scan

namespace Decoder

/-! ## Streams -/

/-- The decoder after it has been fed with bytes. -/
def fed (d : Decoder) : List UInt8 → Decoder
  | [] => d
  | b :: bs => (d.feed b).1.fed bs

/-- The events that a decoder gives when it is fed with bytes. -/
def outputs (d : Decoder) : List UInt8 → List Event
  | [] => []
  | b :: bs => (d.feed b).2.toList ++ (d.feed b).1.outputs bs

@[simp] theorem fed_nil (d : Decoder) : d.fed [] = d := rfl

@[simp] theorem outputs_nil (d : Decoder) : d.outputs [] = [] := rfl

/-- A decoder can be fed in two parts. -/
theorem fed_append (d : Decoder) (bs cs : List UInt8) : d.fed (bs ++ cs) = (d.fed bs).fed cs := by
  induction bs generalizing d with
  | nil => rfl
  | cons b bs ih => exact ih _

/-- The events of two parts of a stream, one after the other. -/
theorem outputs_append (d : Decoder) (bs cs : List UInt8) :
    d.outputs (bs ++ cs) = d.outputs bs ++ (d.fed bs).outputs cs := by
  induction bs generalizing d with
  | nil => rfl
  | cons b bs ih =>
    simp only [List.cons_append, outputs, fed, ih, List.append_assoc]

/-- One byte more adds what it completes. -/
theorem outputs_concat (d : Decoder) (bs : List UInt8) (b : UInt8) :
    d.outputs (bs ++ [b]) = d.outputs bs ++ ((d.fed bs).feed b).2.toList := by
  rw [outputs_append, outputs, outputs_nil, List.append_nil]

end Decoder

/-! ## Readings of keyboards -/

namespace Scan

/-- The event of a reading, if there is one, is that of a key. -/
def Reading.AtMostKey (r : Reading) : Prop := ∀ e, r.event? = some e → e.isKey

namespace Reading

@[simp] theorem atMostKey_silent : silent.AtMostKey := fun _ h => nomatch h

@[simp] theorem atMostKey_unexpected (b : UInt8) : (unexpected b).AtMostKey := fun _ h => nomatch h

@[simp] theorem atMostKey_key (code : UInt8) (make : Bool) : (key code make).AtMostKey := by
  rintro _ ⟨⟩
  rfl

@[simp] theorem atMostKey_key? (code : Option UInt8) (make : Bool) :
    (key? code make).AtMostKey := by
  cases code <;> simp [key?]

end Reading

/-- A set 1 decoder reads keys only. -/
theorem Set1.atMostKey_step (s : Set1.State) (b : UInt8) : (Set1.step s b).2.AtMostKey := by
  cases s <;> simp only [Set1.step] <;> repeat' split
  all_goals simp

/-- A set 2 decoder reads keys only. -/
theorem Set2.atMostKey_step (s : Set2.State) (b : UInt8) : (Set2.step s b).2.AtMostKey := by
  -- One goal for each state and each byte that it tells apart.
  cases s <;> simp only [Set2.step, Set2.expect, Set2.extended] <;> repeat' split
  all_goals simp

/-- A set 3 decoder reads keys only. -/
theorem Set3.atMostKey_step (s : Set3.State) (b : UInt8) : (Set3.step s b).2.AtMostKey := by
  cases s <;> simp only [Set3.step] <;> repeat' split
  all_goals simp

/-- An M0110 decoder reads keys only. -/
theorem M0110.atMostKey_step (s : M0110.State) (b : UInt8) : (M0110.step s b).2.AtMostKey := by
  cases s <;> simp only [M0110.step, M0110.begin] <;> repeat' split
  all_goals simp

/-- An Amiga decoder reads keys only. -/
theorem Amiga.atMostKey_read (b : UInt8) : (Amiga.read b).AtMostKey := by
  simp only [Amiga.read]
  split <;> simp

end Scan

/-! ## Decoders of keyboards -/

namespace Decoder

/-- Whether a decoder is that of a mouse. -/
def isMouse : Decoder → Bool
  | mouse _ _ => true
  | set1 _ | set2 _ | set3 _ | amiga | m0110 _ => false

variable {d : Decoder}

/-- `feed` hands over the event of a reading, whether or not it resets the decoder. -/
theorem event_feed (d : Decoder) (b : UInt8) : (d.feed b).2 = (d.step b).2.event? := by
  simp only [feed]
  split
  · next h =>
    rw [h]
    rfl
  · next h => rw [h]

@[simp] theorem isMouse_reset (d : Decoder) : d.reset.isMouse = d.isMouse := by
  cases d <;> rfl

theorem isMouse_step (d : Decoder) (b : UInt8) : (d.step b).1.isMouse = d.isMouse := by
  cases d <;> rfl

/-- Feeding a byte does not make a decoder that of a mouse. -/
theorem isMouse_feed (d : Decoder) (b : UInt8) : (d.feed b).1.isMouse = d.isMouse := by
  rw [← d.isMouse_step b]
  simp only [feed]
  split
  · next h => rw [h, isMouse_reset]
  · next h => rw [h]

/-- Feeding bytes does not make a decoder that of a mouse. -/
theorem isMouse_fed (d : Decoder) (bs : List UInt8) : (d.fed bs).isMouse = d.isMouse := by
  induction bs generalizing d with
  | nil => rfl
  | cons b bs ih => exact (ih _).trans (d.isMouse_feed b)

/-- A decoder gives events of keys, unless it is that of a mouse. -/
theorem isKey_of_feed (hd : d.isMouse = false) {b : UInt8} {e : Event}
    (h : (d.feed b).2 = some e) : e.isKey := by
  rw [event_feed] at h
  cases d with
  | set1 s => exact Set1.atMostKey_step s b e h
  | set2 s => exact Set2.atMostKey_step s b e h
  | set3 s => exact Set3.atMostKey_step s b e h
  | amiga => exact Amiga.atMostKey_read b e h
  | m0110 s => exact M0110.atMostKey_step s b e h
  | mouse wheel s => exact nomatch hd

end Decoder

end KeyBridge
