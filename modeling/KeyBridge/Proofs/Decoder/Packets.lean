import Mathlib.Data.List.Basic
import KeyBridge.Proofs.Byte
import KeyBridge.Proofs.Decoder.Errors

/-!
# Streams of mouse packets

A mouse reports a movement in a packet of three or four bytes, whose first byte has bit 3 set and
holds the signs of the other two. Bytes that cannot begin a packet may stand between packets, and a
packet in which a counter overflowed stands for nothing.

The decoder reads back every movement of such a stream. It negates two numbers that have one value
more below zero than above, but has more bits than those for them, so that nothing wraps.

## Key results

- `toInt_signed9`, `toInt_signed4`: the numbers of a packet
- `Movement.report_eq`: the bytes of a movement give its report
- `readings_bytes`: a packet gives one reading, with its last byte
- `count_lt`: a byte is always stored within the packet
- `mouse_read_back`: streams of packets are read back
-/

namespace KeyBridge.Scan

namespace Mouse

/-! ## Numbers -/

/-- A byte that is widened to 16 bits keeps its value. -/
theorem toInt_widened (low : UInt8) : low.toUInt16.toInt16.toInt = low.toNat := by
  have hlt := low.toNat_lt
  have hnat : low.toUInt16.toInt16.toBitVec.toNat = low.toNat := UInt8.toNat_toUInt16 low
  have hint := BitVec.toInt_eq_toNat_of_lt (x := low.toUInt16.toInt16.toBitVec) (by omega)
  rw [hnat] at hint
  exact hint

/-- Taking 256 off a byte in 16 bits does not overflow. -/
theorem not_subOverflow (negative : Bool) (low : UInt8) :
    ¬low.toUInt16.toInt16.toBitVec.ssubOverflow
      (if negative then (256 : Int16) else 0).toBitVec := by
  have hint : low.toUInt16.toInt16.toBitVec.toInt = low.toNat := toInt_widened low
  have hlt := low.toNat_lt
  rw [BitVec.ssubOverflow, hint]
  cases negative <;> simp
  all_goals omega

/-- Nine bits with the sign apart are the low eight, less 256 if the sign is set. -/
theorem toInt_signed9 (negative : Bool) (low : UInt8) :
    (signed9 negative low).toInt = low.toNat - if negative then 256 else 0 := by
  have hsub := BitVec.toInt_sub_of_not_ssubOverflow (not_subOverflow negative low)
  rw [Int16.toInt_toBitVec, Int16.toInt_toBitVec, toInt_widened] at hsub
  cases negative <;> exact hsub

/-- Nine bits with a sign can be negated in 16. -/
theorem not_negOverflow_signed9 (negative : Bool) (low : UInt8) :
    ¬(signed9 negative low).toBitVec.negOverflow := by
  have hlt := low.toNat_lt
  rw [BitVec.negOverflow, Int16.toInt_toBitVec, toInt_signed9]
  cases negative <;> simp
  all_goals omega

/-- Four bits with a sign are their value, less 16 from eight on. -/
theorem toInt_signed4 (byte : UInt8) :
    (signed4 byte).toInt = (byte.toNat % 16 : Int) - if 8 ≤ byte.toNat % 16 then 16 else 0 := by
  have hall : ∀ n < 256, (signed4 (UInt8.ofNat n)).toInt =
      (n % 16 : Int) - if 8 ≤ n % 16 then 16 else 0 := by
    decide +kernel
  simpa using hall byte.toNat byte.toNat_lt

/-- Four bits with a sign can be negated in eight. -/
theorem not_negOverflow_signed4 (byte : UInt8) : ¬(signed4 byte).toBitVec.negOverflow := by
  rw [BitVec.negOverflow, Int8.toInt_toBitVec, toInt_signed4]
  split
  · simp
    omega
  · simp
    omega

/-- The eight low bits of a number. -/
theorem toNat_ofInt (n : Int) : (UInt8.ofInt n).toNat = (n % 256).toNat := by
  rw [UInt8.ofInt, UInt8.toNat_ofNat']
  omega

/-- A number of nine bits is known from its sign and its low bits. -/
theorem toInt_signed9_ofInt {n : Int} (h : -256 ≤ n ∧ n ≤ 255) :
    (signed9 (decide (n < 0)) (UInt8.ofInt n)).toInt = n := by
  rw [toInt_signed9, toNat_ofInt]
  by_cases hn : n < 0
  · rw [decide_eq_true hn, if_pos rfl]
    omega
  · rw [decide_eq_false hn, if_neg nofun]
    omega

/-- The four low bits of a byte that was put together from two halves. -/
theorem toNat_halves (high low : UInt8) :
    ((high <<< 4) ||| (low &&& 0x0F)).toNat % 2 ^ 4 = low.toNat % 2 ^ 4 := by
  have hhigh : (high <<< 4).toNat % 2 ^ 4 = 0 := by
    rw [UInt8.toNat_shiftLeft, Nat.shiftLeft_eq]
    change high.toNat * 2 ^ 4 % 2 ^ 8 % 2 ^ 4 = 0
    omega
  have hlow : (low &&& 0x0F).toNat = low.toNat % 2 ^ 4 := toNat_and_lowBits low 4 rfl
  rw [UInt8.toNat_or, Nat.or_mod_two_pow, hhigh, hlow, Nat.zero_or, Nat.mod_mod]

/-- A number of four bits is known from those of any byte. -/
theorem toInt_signed4_ofInt {n : Int} (h : -8 ≤ n ∧ n ≤ 7) (high : UInt8) :
    (signed4 ((high <<< 4) ||| (UInt8.ofInt n &&& 0x0F))).toInt = n := by
  have hlow := toNat_halves high (UInt8.ofInt n)
  rw [toNat_ofInt] at hlow
  rw [toInt_signed4]
  split <;> omega

/-! ## Packets -/

/-- A movement that a packet can report. -/
structure Movement where
  report : MouseReport
  buttons_lt : report.buttons < 8
  dx_range : -256 ≤ report.dx.toInt ∧ report.dx.toInt ≤ 255
  dy_range : -255 ≤ report.dy.toInt ∧ report.dy.toInt ≤ 256
  wheel_range : -7 ≤ report.wheel.toInt ∧ report.wheel.toInt ≤ 8

namespace Movement

/-- The first byte of a packet: the buttons, the bit that is always set, and the signs. -/
def status (m : Movement) : UInt8 :=
  0x08 ||| m.report.buttons ||| (if decide (m.report.dx.toInt < 0) then 0x10 else 0) |||
    (if decide (-m.report.dy.toInt < 0) then 0x20 else 0)

/-- The low bits of X. -/
def x (m : Movement) : UInt8 := .ofInt m.report.dx.toInt

/-- The low bits of Y, which is positive upwards. -/
def y (m : Movement) : UInt8 := .ofInt (-m.report.dy.toInt)

/-- The wheel, which is positive towards the user, in the low half of a byte. -/
def z (m : Movement) (high : UInt8) : UInt8 :=
  (high <<< 4) ||| (.ofInt (-m.report.wheel.toInt) &&& 0x0F)

/-- What is reported of a movement; a plain mouse has no wheel. -/
def reported (wheel : Bool) (m : Movement) : MouseReport :=
  if wheel then m.report else { m.report with wheel := 0 }

/-- The first byte of a movement has its mark, no overflow, the buttons and the two signs. -/
theorem status_bits (m : Movement) :
    m.status &&& 0x08 ≠ 0 ∧ m.status &&& 0xC0 = 0 ∧ m.status &&& 0x07 = m.report.buttons ∧
      m.status.toNat.testBit 4 = decide (m.report.dx.toInt < 0) ∧
      m.status.toNat.testBit 5 = decide (-m.report.dy.toInt < 0) := by
  -- There are eight states of the buttons and four of the signs.
  have hall : ∀ n < 8, ∀ left up : Bool,
      let status := 0x08 ||| UInt8.ofNat n ||| (if left then 0x10 else 0) |||
        (if up then 0x20 else 0)
      status &&& 0x08 ≠ 0 ∧ status &&& 0xC0 = 0 ∧ status &&& 0x07 = UInt8.ofNat n ∧
        status.toNat.testBit 4 = left ∧ status.toNat.testBit 5 = up := by
    decide
  have hbits := hall m.report.buttons.toNat (UInt8.lt_iff_toNat_lt.mp m.buttons_lt)
  rw [UInt8.ofNat_toNat] at hbits
  exact hbits _ _

/-- The bytes of a movement give its report. -/
theorem report_eq (m : Movement) (wheel : Bool) (high : UInt8) :
    Mouse.report m.status m.x m.y (if wheel then -signed4 (m.z high) else 0) =
      m.reported wheel := by
  obtain ⟨-, -, hbuttons, hleft, hup⟩ := m.status_bits
  -- The sign of the movement to the right is a bit of the first byte.
  have hdx : signed9 (m.status.toNat.testBit 4) m.x = m.report.dx := by
    rw [hleft]
    exact Int16.toInt_inj.mp (toInt_signed9_ofInt m.dx_range)
  -- The mouse counts upwards and the report downwards, so that the value is negated.
  have hdy : -signed9 (m.status.toNat.testBit 5) m.y = m.report.dy := by
    have hneg := BitVec.toInt_neg_of_not_negOverflow
      (not_negOverflow_signed9 (m.status.toNat.testBit 5) m.y)
    have hy : (signed9 (m.status.toNat.testBit 5) m.y).toInt = -m.report.dy.toInt := by
      rw [hup]
      exact toInt_signed9_ofInt (by have := m.dy_range; omega)
    rw [Int16.toInt_toBitVec, hy, Int.neg_neg] at hneg
    exact Int16.toInt_inj.mp hneg
  -- So is that of the wheel, of which only the low four bits count.
  have hturn : -signed4 (m.z high) = m.report.wheel := by
    have hneg := BitVec.toInt_neg_of_not_negOverflow (not_negOverflow_signed4 (m.z high))
    have hz : (signed4 (m.z high)).toInt = -m.report.wheel.toInt :=
      toInt_signed4_ofInt (by have := m.wheel_range; omega) high
    rw [Int8.toInt_toBitVec, hz, Int.neg_neg] at hneg
    exact Int8.toInt_inj.mp hneg
  rw [Mouse.report, hbuttons, hdx, hdy, hturn, reported]
  cases wheel <;> rfl

end Movement

/-- What a mouse sends at a time. -/
inductive Packet where
  /-- A movement; the high half of the fourth byte means nothing. -/
  | movement (m : Movement) (high : UInt8)
  /-- A packet in which X or Y overflowed. -/
  | overflow (status x y z : UInt8) (hbegin : status &&& 0x08 ≠ 0)
      (hoverflow : status &&& 0xC0 ≠ 0)

namespace Packet

/-- The bytes of a packet. Only a mouse with a wheel sends a fourth one. -/
def bytes (wheel : Bool) : Packet → List UInt8
  | movement m high => [m.status, m.x, m.y] ++ if wheel then [m.z high] else []
  | overflow status x y z _ _ => [status, x, y] ++ if wheel then [z] else []

/-- What the host is told of a packet. -/
def report? (wheel : Bool) : Packet → Option MouseReport
  | movement m _ => some (m.reported wheel)
  | overflow _ _ _ _ _ _ => none

/-- The reading of the last byte of a packet. -/
def reading (wheel : Bool) (p : Packet) : Reading :=
  match p.report? wheel with
  | some r => .event (.mouse r)
  | none => .silent

end Packet

/-- A packet with bytes before it that cannot begin one. -/
structure Part where
  strays : List { b : UInt8 // b &&& 0x08 = 0 }
  packet : Packet

namespace Part

def bytes (wheel : Bool) (p : Part) : List UInt8 := p.strays.map (·.1) ++ p.packet.bytes wheel

/-- An error for each of the bytes before the packet, and one reading with its last byte. -/
def readings (wheel : Bool) (p : Part) : List Reading :=
  p.strays.map (.unexpected ·.1) ++ .replicate (packetLength wheel - 1) .silent ++
    [p.packet.reading wheel]

end Part

/-! ## Reading packets -/

section Steps

variable (wheel : Bool) (p : Vector UInt8 4)

/-- A byte that cannot begin a packet changes nothing. -/
theorem step_stray {b : UInt8} (h : b &&& 0x08 = 0) :
    (Decoder.mouse wheel ⟨p, 0⟩).step b = (.mouse wheel ⟨p, 0⟩, .unexpected b) := by
  simp [Decoder.step, step, h]

/-- Bytes without the mark of a first byte are errors, and nothing else comes of them. -/
theorem readings_strays (strays : List { b : UInt8 // b &&& 0x08 = 0 }) :
    (Decoder.mouse wheel ⟨p, 0⟩).readings (strays.map (·.1)) = strays.map (.unexpected ·.1) ∧
      (Decoder.mouse wheel ⟨p, 0⟩).stepped (strays.map (·.1)) = .mouse wheel ⟨p, 0⟩ := by
  induction strays with
  | nil => exact ⟨rfl, rfl⟩
  | cons b strays ih =>
    simp only [List.map_cons, Decoder.readings, Decoder.stepped, step_stray wheel p b.2]
    exact ⟨by rw [ih.1], ih.2⟩

/-- What the last byte of a packet gives, by the bytes of the packet. -/
def lastReading (wheel : Bool) (status x y z : UInt8) : Reading :=
  if status &&& 0xC0 != 0 then .silent
  else .event (.mouse (report status x y (if wheel then -signed4 z else 0)))

/-- A packet gives one reading, with its last byte. -/
theorem readings_bytes {status : UInt8} (h : status &&& 0x08 ≠ 0) (x y z : UInt8) :
    let bytes := [status, x, y] ++ if wheel then [z] else []
    (Decoder.mouse wheel ⟨p, 0⟩).readings bytes =
        List.replicate (packetLength wheel - 1) .silent ++ [lastReading wheel status x y z] ∧
      ∃ q, (Decoder.mouse wheel ⟨p, 0⟩).stepped bytes = .mouse wheel ⟨q, 0⟩ := by
  -- Whatever was left in the packet, each of its bytes is written before it is looked at.
  cases wheel <;>
    simp [Decoder.readings, Decoder.stepped, Decoder.step, step, packetLength, complete,
      lastReading, h, List.replicate]

/-- A packet is read silently up to its last byte, which gives its report, if it has one. -/
theorem readings_of_packet (packet : Packet) :
    (Decoder.mouse wheel ⟨p, 0⟩).readings (packet.bytes wheel) =
        List.replicate (packetLength wheel - 1) .silent ++ [packet.reading wheel] ∧
      ∃ q, (Decoder.mouse wheel ⟨p, 0⟩).stepped (packet.bytes wheel) = .mouse wheel ⟨q, 0⟩ := by
  cases packet with
  | movement m high =>
    obtain ⟨hbegin, hfits, -⟩ := m.status_bits
    have hlast : lastReading wheel m.status m.x m.y (m.z high) =
        (Packet.movement m high).reading wheel := by
      rw [lastReading, hfits, m.report_eq wheel high]
      rfl
    rw [← hlast]
    exact readings_bytes wheel p hbegin m.x m.y (m.z high)
  | overflow status x y z hbegin hoverflow =>
    -- A movement that has overflowed is dropped.
    have hlast : lastReading wheel status x y z = .silent := if_pos (bne_iff_ne.mpr hoverflow)
    have hbytes := readings_bytes wheel p hbegin x y z
    rwa [hlast] at hbytes

/-- A part is read as the errors of its strays and then as its packet. -/
theorem readings_part (part : Part) :
    (Decoder.mouse wheel ⟨p, 0⟩).readings (part.bytes wheel) = part.readings wheel ∧
      ∃ q, (Decoder.mouse wheel ⟨p, 0⟩).stepped (part.bytes wheel) = .mouse wheel ⟨q, 0⟩ := by
  obtain ⟨hstrays, hsame⟩ := readings_strays wheel p part.strays
  -- The strays leave the decoder as it is, between two packets.
  rw [Part.bytes, Decoder.readings_append, Decoder.stepped_append, hsame, hstrays,
    (readings_of_packet wheel p part.packet).1, Part.readings, List.append_assoc]
  exact ⟨rfl, (readings_of_packet wheel p part.packet).2⟩

/-- Parts one after the other are read one after the other. -/
theorem readings_parts (parts : List Part) :
    (Decoder.mouse wheel ⟨p, 0⟩).readings (parts.flatMap (Part.bytes wheel)) =
      parts.flatMap (Part.readings wheel) := by
  -- What earlier packets have left in the buffer is generalised.
  induction parts generalizing p with
  | nil => rfl
  | cons part parts ih =>
    obtain ⟨hreadings, q, hq⟩ := readings_part wheel p part
    rw [List.flatMap_cons, List.flatMap_cons, Decoder.readings_append, hreadings, hq, ih]

end Steps

/-! ## The place of the next byte, and the events -/

/-- A byte is always stored within the packet. -/
theorem count_lt {wheel : Bool} {s : State} (h : s.count < packetLength wheel) (b : UInt8) :
    (step wheel s b).1.count < packetLength wheel := by
  simp only [step]
  split
  · exact h
  · split
    · next hmore => exact hmore
    · exact Nat.zero_lt_of_lt h

/-- The place of the next byte is always within the packet. -/
theorem count_lt_stepped {wheel : Bool} (bytes : List UInt8) {s : State}
    (h : s.count < packetLength wheel) :
    ∃ t : State, (Decoder.mouse wheel s).stepped bytes = .mouse wheel t ∧
      t.count < packetLength wheel := by
  induction bytes generalizing s with
  | nil => exact ⟨s, rfl, h⟩
  | cons b bytes ih => exact ih (count_lt h b)

/-- The events of a part are those of its packet. -/
theorem filterMap_readings (wheel : Bool) (part : Part) :
    (part.readings wheel).filterMap Reading.event? =
      ((part.packet.report? wheel).map .mouse).toList := by
  have hstrays : (part.strays.map (Reading.unexpected ·.1)).filterMap Reading.event? = [] := by
    rw [List.filterMap_map]
    exact List.filterMap_eq_nil_iff.mpr fun b _ => rfl
  have hsilent : ∀ n, (List.replicate n Reading.silent).filterMap Reading.event? = [] :=
    fun n => List.filterMap_eq_nil_iff.mpr fun r hr => List.eq_of_mem_replicate hr ▸ rfl
  rw [Part.readings, List.filterMap_append, List.filterMap_append, hstrays, hsilent]
  simp only [Packet.reading]
  cases part.packet.report? wheel <;> rfl

end Mouse

/-- A new decoder of a mouse reads any number of packets, with any number of bytes before each of
them that cannot begin a packet. It reports an error for each of these and for no other byte, and a
movement with the last byte of each packet that has no overflow. So it gives the movements in their
order when it is fed with the bytes. Whatever it takes in, it stores the next byte within the
packet, and no operation on the numbers of a packet overflows. -/
theorem mouse_read_back (wheel : Bool) (parts : List Mouse.Part) :
    let d := Decoder.mouse wheel {}
    let bytes := parts.flatMap (Mouse.Part.bytes wheel)
    d.readings bytes = parts.flatMap (Mouse.Part.readings wheel) ∧
    d.outputs bytes = parts.filterMap (fun p => (p.packet.report? wheel).map .mouse) ∧
    (∀ anything, ∃ s : Mouse.State, d.stepped anything = .mouse wheel s ∧
      s.count < Mouse.packetLength wheel ∧ Mouse.packetLength wheel ≤ s.packet.size) ∧
    ∀ (negative : Bool) (byte : UInt8),
      ¬byte.toUInt16.toInt16.toBitVec.ssubOverflow
        (if negative then (256 : Int16) else 0).toBitVec ∧
      ¬(Mouse.signed9 negative byte).toBitVec.negOverflow ∧
      ¬(Mouse.signed4 byte).toBitVec.negOverflow := by
  intro d bytes
  have hreadings : d.readings bytes = parts.flatMap (Mouse.Part.readings wheel) :=
    Mouse.readings_parts wheel _ parts
  refine ⟨hreadings, ?_, fun anything => ?_, fun negative byte => ⟨Mouse.not_subOverflow _ _,
    Mouse.not_negOverflow_signed9 _ _, Mouse.not_negOverflow_signed4 _⟩⟩
  · rw [d.outputs_eq_filterMap, hreadings, List.filterMap_flatMap,
      List.filterMap_eq_flatMap_toList]
    simp only [Mouse.filterMap_readings]
  -- The buffer has room for the longer packet of a mouse with a wheel.
  · have hstart : (0 : Nat) < Mouse.packetLength wheel := by cases wheel <;> decide
    have hroom : Mouse.packetLength wheel ≤ 4 := by cases wheel <;> decide
    obtain ⟨s, hs, hlt⟩ := Mouse.count_lt_stepped anything (s := {}) hstart
    exact ⟨s, hs, hlt, hroom⟩

/-- The lowest value of each number of a packet, after a byte that cannot begin one. -/
example : (Decoder.mouse true {}).readings [0x40, 0x38, 0x00, 0x00, 0x08] =
    [.unexpected 0x40, .silent, .silent, .silent, .event (.mouse ⟨0, -256, 256, 8⟩)] := by
  decide

end KeyBridge.Scan
