import KeyBridge.Chip.Assembly
import KeyBridge.Wire.Format

/-!
# Receiver programs and their clock

One program for each frame format. A state machine runs at one million cycles per second, so that
delays read as microseconds. Pin 0 is the data line and pin 1 the clock line; the lines are pulled
low by turning a pin into an output, and released by turning it into an input.

* `atPs2` — receives eleven bits, least significant first, as the clock falls; a command pulls the
  clock low for 128 microseconds and then sends ten bits;
* `xt` — holds the clock low for about 20 milliseconds at the start, which resets the keyboard, then
  receives a start bit and eight data bits;
* `amiga` — receives eight bits, most significant first, and answers with 85 microseconds of low
  data;
* `m0110` — sends eight bits of a command, then receives the eight bits of the answer.

`Divider.ofRates` is the clock divider with which a state machine comes to that speed.
-/

namespace KeyBridge.Chip

open Operation

/-! ## Programs -/

/-- How many cycles a state machine makes per second. -/
def tickRate : UInt32 := 1000000

/-- The clock line among the pins of a state machine. -/
def clockIndex : UInt16 := 1

/-- Waits until the clock line is low. -/
def clockLow : Line := (wait false clockIndex).line

/-- Waits until the clock line is high. -/
def clockHigh : Line := (wait true clockIndex).line

/-- Both lines for AT and PS/2 devices. With nothing to send the register that is pulled from stays
zero; a command always carries a stop bit and is never zero. -/
def atPs2Program : Program :=
  [(set .pins 0).line,
    .repeatFrom,
    .label "idle",
    (set .x 0).line,
    (pull false).line,
    (move .x false .output).line,
    (jump .xZero "listen").line,
    -- Holds the clock low, then pulls data low and releases the clock.
    (set .y 3).line,
    (set .directions 2).line,
    .label "inhibit",
    (jump .yDecrement "inhibit").line 31,
    (set .directions 3).line,
    (set .directions 1).line 7,
    -- A released line reads one and a driven line zero.
    (move .output true .x).line,
    (set .y 9).line,
    .label "sendBit",
    clockLow,
    (outputDirections 1).line,
    clockHigh,
    (jump .yDecrement "sendBit").line,
    -- The device acknowledges.
    clockLow,
    clockHigh,
    (jump .always "idle").line,
    .label "listen",
    (jump .pin "idle").line,
    (set .y 10).line,
    .label "receiveBit",
    (input 1).line,
    clockHigh,
    (jump .yDecrement "receiveNext").line,
    (jump .always "idle").line,
    .label "receiveNext",
    clockLow,
    (jump .always "receiveBit").line,
    .repeatTo]

/-- Receives from XT keyboards. Some send a low start bit before the high one; it is skipped. -/
def xtProgram : Program :=
  [(set .pins 0).line,
    (set .directions 2).line,
    (set .y 19).line,
    .label "hold",
    (set .x 31).line,
    .label "holdInner",
    (jump .xDecrement "holdInner").line 31,
    (jump .yDecrement "hold").line,
    (set .directions 0).line,
    .repeatFrom,
    .label "frame",
    clockLow,
    (jump .pin "startBit").line,
    clockHigh,
    (jump .always "frame").line,
    .label "startBit",
    (input 1).line,
    clockHigh,
    (set .y 7).line,
    .label "dataBit",
    clockLow,
    (input 1).line,
    clockHigh,
    (jump .yDecrement "dataBit").line,
    .repeatTo]

/-- Receives from Amiga keyboards. -/
def amigaProgram : Program :=
  [(set .pins 0).line,
    (set .directions 0).line,
    .repeatFrom,
    (set .y 7).line,
    .label "bit",
    clockLow,
    (input 1).line,
    clockHigh,
    (jump .yDecrement "bit").line,
    (set .directions 1).line 31,
    nop.line 31,
    nop.line 20,
    (set .directions 0).line,
    .repeatTo]

/-- Both directions for M0110 keyboards. -/
def m0110Program : Program :=
  [(set .pins 0).line,
    (set .directions 0).line,
    .repeatFrom,
    (pull true).line,
    (move .output true .output).line,
    (set .directions 1).line 31,
    (set .y 7).line,
    .label "send",
    clockLow,
    (outputDirections 1).line,
    clockHigh,
    (jump .yDecrement "send").line,
    (set .directions 0).line,
    (set .y 7).line,
    .label "receive",
    clockLow,
    clockHigh,
    (input 1).line,
    (jump .yDecrement "receive").line,
    .repeatTo]

/-- The program for a frame format. -/
def program : Wire.Format → Program
  | .atPs2 => atPs2Program
  | .xt => xtProgram
  | .amiga => amigaProgram
  | .m0110 => m0110Program

/-! ## Clock dividers

A state machine runs at the system clock divided by a number with sixteen integer and eight
fractional bits. -/

/-- A clock divider: the whole part and the number of 256ths. -/
structure Divider where
  whole : UInt16
  fraction : UInt8
deriving DecidableEq, Repr

namespace Divider

/-- The divider as one number of 256ths. -/
def in256ths (d : Divider) : UInt32 := (d.whole.toUInt32 <<< 8) ||| d.fraction.toUInt32

/-- The divider that brings the system clock down to a rate. Its whole part is at least 1 and at
most 65535, and the fraction is that of the exact quotient. -/
def ofRates (system rate : UInt32) : Divider :=
  if rate = 0 then ⟨0xFFFF, 0xFF⟩
  else
    let q := system.toNat * 256 / rate.toNat
    ⟨.ofNat (min 0xFFFF (max 1 (q / 256))), .ofNat (q % 256)⟩

end Divider

end KeyBridge.Chip
