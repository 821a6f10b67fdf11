import KeyBridge.Config
import KeyBridge.Scan.Set1
import KeyBridge.Scan.Set2
import KeyBridge.Scan.Set3
import KeyBridge.Scan.Basic
import KeyBridge.Scan.M0110
import KeyBridge.Scan.Mouse

/-!
# Decoders

A `Decoder` reads the bytes of one device, whichever it is.

* `Decoder.select` — the decoder of a device;
* `Decoder.step` — takes in one byte and says what it makes of it;
* `Decoder.feed` — takes in one byte and passes over those that do not fit.
-/

namespace KeyBridge

open Scan

/-- A decoder with what it has read of the sequence under way. -/
inductive Decoder where
  | set1 (state : Set1.State)
  | set2 (state : Set2.State)
  | set3 (state : Set3.State)
  | amiga
  | m0110 (state : M0110.State)
  | mouse (wheel : Bool) (state : Mouse.State)
deriving DecidableEq, Repr

namespace Decoder

/-- The decoder of a scan code set. -/
def ofCodeSet : CodeSet → Decoder
  | .set1 => set1 .init
  | .set2 => set2 .init
  | .set3 => set3 .init

/-- The decoder of a device. The code set matters for IBM keyboards only, and the wheel for mice
only. -/
def select (protocol : Protocol) (codeSet : CodeSet) (wheel : Bool) : Decoder :=
  match protocol with
  | .atKeyboard | .xt => ofCodeSet codeSet
  | .ps2Mouse => mouse wheel {}
  | .amiga => amiga
  | .m0110 => m0110 .init

/-- Forgets the sequence under way. -/
def reset : Decoder → Decoder
  | set1 _ => set1 .init
  | set2 _ => set2 .init
  | set3 _ => set3 .init
  | amiga => amiga
  | m0110 _ => m0110 .init
  | mouse wheel _ => mouse wheel {}

/-- Takes in one byte and says what it makes of it. -/
def step (d : Decoder) (byte : UInt8) : Decoder × Reading :=
  match d with
  | set1 s => (Set1.step s byte).map set1 id
  | set2 s => (Set2.step s byte).map set2 id
  | set3 s => (Set3.step s byte).map set3 id
  | amiga => (amiga, Amiga.read byte)
  | m0110 s => (M0110.step s byte).map m0110 id
  | mouse wheel s => (Mouse.step wheel s byte).map (mouse wheel) id

/-- Takes in one byte and passes over one that does not fit, forgetting the sequence under way. -/
def feed (d : Decoder) (byte : UInt8) : Decoder × Option Event :=
  match d.step byte with
  | (d', .unexpected _) => (d'.reset, none)
  | (d', r) => (d', r.event?)

end Decoder

end KeyBridge
