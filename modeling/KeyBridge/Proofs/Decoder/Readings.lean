import KeyBridge.Proofs.Decoder.Outputs

/-!
# Clean readings

`Decoder.step` says of each byte what it makes of it, and `Decoder.feed` passes over the bytes that
do not fit. `Reads` follows the first through a stream in which every byte fits; there both come to
the same.

## Key results

- `Reads.append`, `Reads.flatMap`: items of a stream, one after the other
- `Reads.outputs_eq`, `Reads.fed_eq`: what feeding the stream gives
-/

namespace KeyBridge.Decoder

open Scan

/-- A decoder takes in bytes, none of which is unexpected, gives events and becomes another one. -/
inductive Reads : Decoder → List UInt8 → List Event → Decoder → Prop where
  | nil {d : Decoder} : Reads d [] [] d
  | silent {d d' d'' : Decoder} {b : UInt8} {bytes : List UInt8} {events : List Event}
      (hstep : d.step b = (d', .silent)) (hrest : Reads d' bytes events d'') :
      Reads d (b :: bytes) events d''
  | event {d d' d'' : Decoder} {b : UInt8} {e : Event} {bytes : List UInt8} {events : List Event}
      (hstep : d.step b = (d', .event e)) (hrest : Reads d' bytes events d'') :
      Reads d (b :: bytes) (e :: events) d''

namespace Reads

variable {d d' d'' : Decoder} {bytes more : List UInt8} {events later : List Event}

/-- What is read in two parts is read in one. -/
theorem append (h : Reads d bytes events d') (hmore : Reads d' more later d'') :
    Reads d (bytes ++ more) (events ++ later) d'' := by
  induction h with
  | nil => exact hmore
  | silent hstep _ ih => exact .silent hstep (ih hmore)
  | event hstep _ ih => exact .event hstep (ih hmore)

/-- Items of which each leaves the decoder as it was can follow one another in any number. -/
theorem flatMap {α : Type} {encode : α → List UInt8} {mean : α → List Event} {items : List α}
    (h : ∀ item ∈ items, Reads d (encode item) (mean item) d) :
    Reads d (items.flatMap encode) (items.flatMap mean) d := by
  induction items with
  | nil => exact .nil
  | cons item items ih =>
    rw [List.forall_mem_cons] at h
    rw [List.flatMap_cons, List.flatMap_cons]
    exact h.1.append (ih h.2)

/-- The events that are read are those that come out. -/
theorem outputs_eq (h : Reads d bytes events d') : d.outputs bytes = events := by
  induction h with
  | nil => rfl
  | silent hstep _ ih => simpa [outputs, feed, hstep, Reading.event?] using ih
  | event hstep _ ih => simpa [outputs, feed, hstep, Reading.event?] using ih

/-- The decoder that is reached is the one that was fed. -/
theorem fed_eq (h : Reads d bytes events d') : d.fed bytes = d' := by
  induction h with
  | nil => rfl
  | silent hstep _ ih => simpa [fed, feed, hstep] using ih
  | event hstep _ ih => simpa [fed, feed, hstep] using ih

end Reads

end KeyBridge.Decoder
