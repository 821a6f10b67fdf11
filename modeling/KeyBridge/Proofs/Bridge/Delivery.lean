import KeyBridge.Proofs.Bridge.Turn
import KeyBridge.Proofs.Device.Typing
import KeyBridge.Proofs.Port.Ring

/-!
# Delivery of keys

A keyboard that is ready sends the bytes of keys, and whatever else happens meanwhile,
acknowledgements, turns of the coordinator, other lock LEDs or a host that is not ready, the host
gets every key once and in order, if only the ring has room.

The invariant is `Typing`: the bytes that came in are those that went through the decoder and those
that wait in the ring, and the decoder has read just the former.

## Key results

- `Typing.step`: what any move of such a run keeps
- `Typing.pollUpTo`: a host that is ready gets all that waits
- `keys_delivered`: every key arrives
-/

namespace KeyBridge.Bridge

open Device (AtKeyboard Step)

variable {w : Nat} {b : Bridge w} {s : CodeSet} {epoch : UInt16} {before : List Event}
  {sent taken : List UInt8} {word now : UInt32} {byte : UInt8}

/-! ## Runs -/

/-- A run of moves in which good frames bring some bytes, one after the other. Anything can happen
in between, and acknowledgements can come in. -/
inductive Carries : List UInt8 → List Move → Prop where
  | nil : Carries [] []
  | byte {byte : UInt8} {bytes : List UInt8} {word : UInt32} {moves : List Move}
      (h : Wire.decode .atPs2 word = .ok byte) (rest : Carries bytes moves) :
      Carries (byte :: bytes) (.frame word :: moves)
  | ack {bytes : List UInt8} {word : UInt32} {moves : List Move}
      (h : Wire.decode .atPs2 word = .ok Command.Ps2.ack) (rest : Carries bytes moves) :
      Carries bytes (.frame word :: moves)
  | other {bytes : List UInt8} {m : Move} {moves : List Move} (h : ∀ word, m ≠ .frame word)
      (rest : Carries bytes moves) : Carries bytes (m :: moves)

/-- Whether there is room for what a move brings. Acknowledgements need none. -/
def hasRoomFor (b : Bridge w) : Move → Bool
  | .frame word =>
    match Wire.decode .atPs2 word with
    | .ok byte => byte == Command.Ps2.ack || decide (b.ring.length < ByteRing.capacity)
    | .error _ => true
  | .tick _ | .poll _ | .leds _ | .ready _ | .idle _ | .flush => true

/-- Whether there is room for every byte that comes in. -/
def hasRoom (b : Bridge w) : List Move → Bool
  | [] => true
  | m :: moves => b.hasRoomFor m && (b.step m).hasRoom moves

/-! ## The invariant -/

/-- A keyboard that is ready has sent bytes since the host got the events `before`. -/
structure Typing (s : CodeSet) (epoch : UInt16) (before : List Event) (sent : List UInt8)
    (b : Bridge w) : Prop where
  attached : b.attached
  valid : b.ring.Valid
  keyboard : ∃ k, b.port.device = .atKeyboard k ∧ k.isInitialised ∧ k.codeSet = s ∧
    k.epoch = epoch
  /-- Some of the bytes were taken, the others wait. -/
  flow : ∃ taken, taken ++ b.ring.contents = sent ∧
    b.trace.events = before ++ (Decoder.ofCodeSet s).outputs taken ∧
    (b.coordinator.last.map (·.epoch) = some epoch →
      b.coordinator.decoder = (Decoder.ofCodeSet s).fed taken) ∧
    (b.coordinator.last.map (·.epoch) ≠ some epoch → taken = [])

/-- The frames of a keyboard that is typing are those of AT and PS/2. -/
theorem Typing.format (ht : Typing s epoch before sent b) : b.port.format = .atPs2 := by
  obtain ⟨k, hk, -⟩ := ht.keyboard
  rw [Port.format, hk]
  rfl

/-! ## Frames and time -/

/-- A step of the port that leaves the ring as it is, up to bytes at its end. -/
theorem Typing.settle {ps : PortStep w} {k' : AtKeyboard} {new : List UInt8}
    (ht : Typing s epoch before sent b) (hdev : ps.port.device = .atKeyboard k')
    (hk' : k'.isInitialised ∧ k'.codeSet = s ∧ k'.epoch = epoch) (hv : ps.ring.Valid)
    (hring : ps.ring.contents = b.ring.contents ++ new) :
    Typing s epoch before (sent ++ new) (b.settle ps) := by
  obtain ⟨taken, hbytes, hevents, hknown, hunknown⟩ := ht.flow
  refine ⟨by simpa using ht.attached, by simpa using hv, ⟨k', by simpa using hdev, hk'⟩, taken, ?_,
    by simpa using hevents, by simpa using hknown, by simpa using hunknown⟩
  rw [ring_settle, hring, ← List.append_assoc, hbytes]

/-- What a good frame does to the session and the ring while no epoch ends. -/
theorem receive_of_types {p : Port} {k : AtKeyboard} (ring : ByteRing w)
    (accepts : UInt32 → Bool) (hk : p.device = .atKeyboard k)
    (hdec : Wire.decode p.format word = .ok byte) (htypes : k.Types (k.receive byte))
    (haction : (k.receive byte).action ≠ .restart) :
    (p.receive ring accepts word).port.device = .atKeyboard (k.receive byte).next ∧
      (p.receive ring accepts word).ring =
        ring.putAll ((k.receive byte).action.queued byte) := by
  obtain ⟨hdev, hring, -⟩ := Port.receive_of_ok ring accepts hdec
  rw [hk] at hdev hring
  have hkept : Port.emptied (.atKeyboard k) ring ((k.receive byte).map .atKeyboard) = ring :=
    Port.emptied_of_kept htypes.epoch_eq haction
  exact ⟨hdev, hring.trans (congrArg (ByteRing.putAll · _) hkept)⟩

/-- The byte of a key goes into the ring. -/
theorem Typing.frame_key (ht : Typing s epoch before sent b)
    (hdec : Wire.decode .atPs2 word = .ok byte) (hb : byte ∉ replies)
    (hroom : b.ring.length < ByteRing.capacity) :
    Typing s epoch before (sent ++ [byte]) (b.step (.frame word)) := by
  obtain ⟨k, hk, hready, hset, hepoch⟩ := ht.keyboard
  obtain ⟨htypes, haction⟩ := AtKeyboard.typing_key hready hb
  rw [← ht.format] at hdec
  obtain ⟨hdev, hring⟩ := receive_of_types b.ring b.accepts hk hdec htypes (by simp [haction])
  rw [haction] at hring
  -- The ring has room, so that it takes the byte in.
  obtain ⟨r', hput⟩ : ∃ r', b.ring.put? byte = some r' := by
    rw [← Option.ne_none_iff_exists']
    intro hnone
    have hfull := ht.valid.put?_eq_none_iff.mp hnone
    rw [ByteRing.length_contents] at hfull
    omega
  have hring' : (b.port.receive b.ring b.accepts word).ring = r' := by
    rw [hring]
    simp only [Device.Action.queued, ByteRing.putAll, ByteRing.put_of_put?_eq_some hput]
  refine ht.settle hdev ⟨htypes.ready, htypes.codeSet_eq.trans hset, htypes.epoch_eq.trans hepoch⟩
    ?_ ?_ <;> rw [hring']
  · exact ht.valid.put? hput
  · exact ht.valid.contents_put? hput

/-- An acknowledgement leaves the ring as it is. -/
theorem Typing.frame_ack (ht : Typing s epoch before sent b)
    (hdec : Wire.decode .atPs2 word = .ok Command.Ps2.ack) :
    Typing s epoch before sent (b.step (.frame word)) := by
  obtain ⟨k, hk, hready, hset, hepoch⟩ := ht.keyboard
  obtain ⟨htypes, hqueued, haction⟩ := AtKeyboard.typing_ack hready
  rw [← ht.format] at hdec
  obtain ⟨hdev, hring⟩ := receive_of_types b.ring b.accepts hk hdec htypes haction
  rw [hqueued] at hring
  have hsettled := ht.settle hdev
    ⟨htypes.ready, htypes.codeSet_eq.trans hset, htypes.epoch_eq.trans hepoch⟩
    (by rw [hring]; exact ht.valid) (by rw [hring, List.append_nil]; rfl)
  rwa [List.append_nil] at hsettled

/-- The passing of time leaves the ring as it is. -/
theorem ring_tick_of_typing (ht : Typing s epoch before sent b) (now : UInt32) :
    (b.tick now).1.ring = b.ring := by
  obtain ⟨k, hk, hready, -⟩ := ht.keyboard
  obtain ⟨htypes, haction⟩ := AtKeyboard.typing_tick hready now b.idle
  simp only [tick, ring_settle, Port.ring_tick, hk, Device.tick, Step.map]
  exact Port.emptied_of_kept htypes.epoch_eq haction

/-- The passing of time keeps the invariant, with the same bytes sent. -/
theorem Typing.tick (ht : Typing s epoch before sent b) (now : UInt32) :
    Typing s epoch before sent (b.tick now).1 := by
  obtain ⟨k, hk, hready, hset, hepoch⟩ := ht.keyboard
  obtain ⟨htypes, -⟩ := AtKeyboard.typing_tick hready now b.idle
  have hring := ring_tick_of_typing ht now
  simp only [Bridge.tick, ring_settle] at hring
  have hdev : (b.port.tick b.ring b.accepts now b.idle).port.device =
      .atKeyboard (k.tick now b.idle).next := by
    rw [Port.device_tick, hk]
    rfl
  have hsettled := ht.settle hdev
    ⟨htypes.ready, htypes.codeSet_eq.trans hset, htypes.epoch_eq.trans hepoch⟩
    (by rw [hring]; exact ht.valid) (by rw [hring, List.append_nil])
  rwa [List.append_nil] at hsettled

/-! ## Turns -/

/-- After it has followed the status, the coordinator has the decoder of the epoch. -/
theorem Typing.follow (ht : Typing s epoch before sent b) :
    Typing s epoch before sent (b.follow b.port.status) ∧
      (b.follow b.port.status).coordinator.last.map (·.epoch) = some epoch := by
  obtain ⟨k, hk, hready, hset, hepoch⟩ := ht.keyboard
  obtain ⟨taken, hbytes, hevents, hknown, hunknown⟩ := ht.flow
  have hstatus : b.port.status.epoch = epoch := by
    rw [Port.status, hk]
    exact hepoch
  have hlast : (b.follow b.port.status).coordinator.last.map (·.epoch) = some epoch := by
    rw [coordinator_follow]
    simp [Coordinator.sync, hstatus]
  -- If the epoch is a new one, then no byte of it was taken, and a fresh decoder fits.
  have hfresh : b.coordinator.decoderFor b.port.status = Decoder.ofCodeSet s := by
    simp only [Coordinator.decoderFor, Port.status, hk, Device.protocol, Device.codeSet?, hset]
    rfl
  refine ⟨⟨by simpa using ht.attached, by simpa using ht.valid,
    ⟨k, by simpa using hk, hready, hset, hepoch⟩, taken, by simpa using hbytes,
    by simpa using hevents, fun _ => ?_, fun hne => absurd hlast hne⟩, hlast⟩
  rw [coordinator_follow]
  simp only [Coordinator.sync, hstatus]
  split
  · next h => exact hknown h
  · next h =>
    obtain rfl := hunknown h
    exact hfresh

/-- A byte that is taken goes through the decoder of the epoch. -/
theorem Typing.drainOne (ht : Typing s epoch before sent b)
    (hlast : b.coordinator.last.map (·.epoch) = some epoch) (g : BitVec w) :
    Typing s epoch before sent (b.drainOne g).1 := by
  obtain ⟨taken, hbytes, hevents, hknown, -⟩ := ht.flow
  by_cases hr : b.ready = true ∧ b.ring.generation = g
  · obtain ⟨hr, hg⟩ := hr
    obtain ⟨hhead, htail⟩ := ht.valid.get_eq
    cases hcontents : b.ring.contents with
    | nil =>
      rw [hcontents] at hhead htail
      rw [b.drainOne_of_nil hr hg hhead]
      refine ⟨ht.attached, ht.valid.get, ht.keyboard, taken, ?_, hevents, hknown,
        fun hne => absurd hlast hne⟩
      rw [htail, ← hbytes, hcontents]
      rfl
    | cons byte rest =>
      rw [hcontents] at hhead htail
      -- The oldest byte is now one of those taken, and its event comes last.
      -- The host takes every event of a keyboard.
      have hkeys : (Decoder.ofCodeSet s).isMouse = false := by cases s <;> rfl
      have htakes : ∀ e, (b.coordinator.decoder.feed byte).2 = some e →
          (e.isKey || b.takesMouse) = true := by
        intro e he
        rw [hknown hlast] at he
        rw [Decoder.isKey_of_feed ((Decoder.isMouse_fed _ _).trans hkeys) he, Bool.true_or]
      rw [b.drainOne_of_byte htakes hr hg hhead]
      refine ⟨ht.attached, ht.valid.get, ht.keyboard, taken ++ [byte], ?_, ?_, fun _ => ?_,
        fun hne => absurd hlast hne⟩
      · rw [htail, ← hbytes, hcontents, List.append_assoc]
        rfl
      · rw [Decoder.outputs_concat, ← hknown hlast, ← List.append_assoc, ← hevents]
      · rw [Decoder.fed_append, ← hknown hlast]
        rfl
  · rw [b.drainOne_of_waits hr]
    exact ht

/-- The log of the port is no part of the invariant. -/
theorem Typing.drainLog (ht : Typing s epoch before sent b) :
    Typing s epoch before sent b.drainLog :=
  ⟨ht.attached, ht.valid, ht.keyboard, ht.flow⟩

/-- A turn of the coordinator keeps the invariant: it is a tick, a status and a byte. -/
theorem Typing.poll (ht : Typing s epoch before sent b) (now : UInt32) :
    Typing s epoch before sent (b.poll now).1 := by
  rw [b.poll_eq ht.attached]
  obtain ⟨hfollowed, hlast⟩ := (ht.tick now).drainLog.follow
  exact hfollowed.drainOne hlast b.ring.generation

/-! ## Runs of moves -/

/-- Whatever is not a frame brings nothing and loses nothing. -/
theorem Typing.other (ht : Typing s epoch before sent b) {m : Move} (hm : ∀ word, m ≠ .frame word) :
    Typing s epoch before sent (b.step m) := by
  cases m with
  | frame word => exact absurd rfl (hm word)
  | tick now => exact ht.tick now
  | poll now => exact ht.poll now
  -- Other lock LEDs are noted in the session, which stays ready.
  | leds wanted =>
    obtain ⟨k, hk, hready, hset, hepoch⟩ := ht.keyboard
    have hdev : (b.port.setLeds wanted).device = .atKeyboard (k.setLeds wanted) := by
      rw [Port.setLeds, hk]
      rfl
    exact ⟨ht.attached, ht.valid, ⟨_, hdev, hready, hset, hepoch⟩, ht.flow⟩
  | ready value => exact ⟨ht.attached, ht.valid, ht.keyboard, ht.flow⟩
  | idle value => exact ⟨ht.attached, ht.valid, ht.keyboard, ht.flow⟩
  | flush => exact ⟨ht.attached, ht.valid, ht.keyboard, ht.flow⟩

/-- A run that carries the bytes of keys adds them to those sent, if there is room for each of them.
-/
theorem Typing.run {bytes : List UInt8} {moves : List Move} (ht : Typing s epoch before sent b)
    (hc : Carries bytes moves) (hbytes : ∀ x ∈ bytes, x ∉ replies) (hroom : b.hasRoom moves) :
    Typing s epoch before (sent ++ bytes) (b.run moves) := by
  induction hc generalizing b sent with
  | nil => simpa [Bridge.run] using ht
  | @byte byte bytes word moves hdec rest ih =>
    obtain ⟨hfree, hroom⟩ := Bool.and_eq_true_iff.mp hroom
    have hbyte : byte ∉ replies := hbytes byte List.mem_cons_self
    -- A byte of a key is no acknowledgement, so that `hasRoom` asks for room.
    have hack : byte ≠ Command.Ps2.ack := by
      rintro rfl
      exact hbyte (by decide)
    simp only [hasRoomFor, hdec, Bool.or_eq_true, beq_iff_eq, hack, false_or,
      decide_eq_true_eq] at hfree
    have hnext := ih (ht.frame_key hdec hbyte hfree)
      (fun x hx => hbytes x (List.mem_cons_of_mem _ hx)) hroom
    rwa [List.append_assoc, List.singleton_append] at hnext
  | ack hdec rest ih => exact ih (ht.frame_ack hdec) hbytes (Bool.and_eq_true_iff.mp hroom).2
  -- Acknowledgements and all other moves bring no byte of a key.
  | other hm rest ih => exact ih (ht.other hm) hbytes (Bool.and_eq_true_iff.mp hroom).2

/-! ## Draining -/

/-- If the host is ready, a turn takes the oldest byte, and says so. -/
theorem Typing.poll_of_ready (ht : Typing s epoch before sent b) (hr : b.ready = true)
    (now : UInt32) : (b.poll now).1.ready = true ∧
      (b.poll now).1.ring.contents = b.ring.contents.tail ∧
      (b.poll now).2.1 = b.ring.contents.head?.isSome := by
  rw [b.poll_eq ht.attached]
  -- Neither the passing of time nor the status changes ring or host.
  have hring : ((b.service now).1.follow (b.service now).1.port.status).ring = b.ring := by
    rw [ring_follow]
    exact ring_tick_of_typing ht now
  have hready : ((b.service now).1.follow (b.service now).1.port.status).ready = true := by
    rw [ready_follow]
    exact (ready_settle b _).trans hr
  obtain ⟨hleft, htook⟩ := drainOne_of_ready _ hready (congrArg ByteRing.generation hring)
  obtain ⟨hhead, htail⟩ := ht.valid.get_eq
  refine ⟨(ready_drainOne _ _).trans hready, ?_, ?_⟩
  · rw [hleft, hring, htail]
  · exact htook.trans (by rw [hring, hhead])

/-- A host that is ready gets all that waits. -/
theorem Typing.pollUpTo {n : Nat} (ht : Typing s epoch before sent b) (hr : b.ready = true)
    (hn : b.ring.contents.length < n) (now : UInt32) :
    Typing s epoch before sent (b.pollUpTo now n).1 ∧
      (b.pollUpTo now n).1.ring.contents = [] := by
  induction n generalizing b with
  | zero => omega
  | succ n ih =>
    obtain ⟨hr', hleft, htook⟩ := ht.poll_of_ready hr now
    have ht' := ht.poll now
    cases hcontents : b.ring.contents with
    | nil =>
      simp only [hcontents, List.head?_nil, Option.isSome_none, List.tail_nil] at htook hleft
      rw [pollUpTo_of_waits htook]
      exact ⟨ht', hleft⟩
    | cons byte rest =>
      simp only [hcontents, List.head?_cons, Option.isSome_some, List.tail_cons] at htook hleft
      -- One byte less waits, so that the turns that are left suffice.
      rw [pollUpTo_of_takes htook]
      rw [hcontents, List.length_cons] at hn
      exact ih ht' hr' (by rw [hleft]; omega)

/-! ## Rings of runs -/

/-- `drainOne` keeps the ring sound. -/
theorem valid_drainOne (hv : b.ring.Valid) (g : BitVec w) : (b.drainOne g).1.ring.Valid := by
  by_cases hr : b.ready = true ∧ b.ring.generation = g
  · rw [(drainOne_of_ready b hr.1 hr.2).1]
    exact hv.get
  · rw [b.drainOne_of_waits hr]
    exact hv

/-- Every move keeps a ring sound. -/
theorem valid_step (hv : b.ring.Valid) (m : Move) : (b.step m).ring.Valid := by
  cases m with
  | frame word =>
    rw [step, frame, ring_settle]
    exact Port.valid_receive hv
  | tick now =>
    rw [step, Bridge.tick, ring_settle]
    exact Port.valid_tick hv
  | poll now =>
    simp only [step]
    by_cases hb : b.attached = true
    -- A poll is a tick, after which the coordinator takes a byte out of the same ring.
    · have hticked : ((b.service now).1.follow (b.service now).1.port.status).ring.Valid := by
        rw [ring_follow]
        change ((b.settle _).ring).Valid
        rw [ring_settle]
        exact Port.valid_tick hv
      rw [b.poll_eq hb]
      exact valid_drainOne hticked _
    · rw [Bridge.poll, if_neg hb]
      exact hv
  | leds wanted => exact hv
  | ready value => exact hv
  | idle value => exact hv
  | flush => exact hv

/-- Every run keeps the ring sound. -/
theorem valid_run (hv : b.ring.Valid) (moves : List Move) : (b.run moves).ring.Valid := by
  induction moves generalizing b with
  | nil => exact hv
  | cons m moves ih => exact ih (valid_step hv m)

/-! ## Delivery -/

/-- A keyboard of set 2 or 3 has become ready since the coordinator last looked, and its ring is
empty. The bytes of keys come in, with anything in between, and there is room for them. Once a host
that is ready has drained the ring, it has got every key once and in order. -/
theorem keys_delivered {k : AtKeyboard} {keys : List (KeyEvent × List UInt8)} {moves : List Move}
    (hattached : b.attached = true) (hv : b.ring.Valid) (hempty : b.ring.contents = [])
    (hk : b.port.device = .atKeyboard k) (hready : k.state = .initialised)
    (hnew : ∀ st, b.coordinator.last = some st →
      ∃ n, 0 < n ∧ n < 65536 ∧ k.epoch = st.epoch + UInt16.ofNat n)
    (hkeys : ∀ p ∈ keys, Encodes k.codeSet p.1 p.2)
    (hmoves : Carries (keys.map (·.2)).flatten moves) (hroom : b.hasRoom moves) (now : UInt32) :
    let final := (((b.run moves).step (.ready true)).drain now).1
    final.ring.contents = [] ∧
      final.trace.events = b.trace.events ++ keys.map (.key ·.1) := by
  -- The coordinator has met another epoch, if any: fewer than 65536 have begun since.
  have hunknown : b.coordinator.last.map (·.epoch) ≠ some k.epoch := by
    intro hlast
    obtain ⟨st, hst, hepoch⟩ := Option.map_eq_some_iff.mp hlast
    obtain ⟨n, hpos, hlt, hn⟩ := hnew st hst
    have := congrArg UInt16.toNat (hepoch.trans hn)
    simp only [UInt16.toNat_add, UInt16.toNat_ofNat'] at this
    have := st.epoch.toNat_lt
    omega
  have hbegin : Typing k.codeSet k.epoch b.trace.events [] b :=
    ⟨hattached, hv, ⟨k, hk, by simp [AtKeyboard.isInitialised, hready], rfl, rfl⟩, [], hempty,
      by simp, fun h => absurd h hunknown, fun _ => rfl⟩
  -- None of the bytes makes the session do anything but pass it on.
  have hpasses : ∀ x ∈ (keys.map (·.2)).flatten, x ∉ replies := by
    intro x hx
    simp only [List.mem_flatten, List.mem_map] at hx
    obtain ⟨_, ⟨p, hp, rfl⟩, hx⟩ := hx
    exact (hkeys p hp).passes x hx
  have hrun := (hbegin.run hmoves hpasses hroom).other (m := .ready true) (fun _ => nofun)
  obtain ⟨hdrained, hnil⟩ := hrun.pollUpTo rfl (Nat.lt_succ_self _) now
  simp only [ByteRing.length_contents] at hdrained hnil
  refine ⟨hnil, ?_⟩
  obtain ⟨taken, hbytes, hevents, -⟩ := hdrained.flow
  rw [hnil, List.append_nil, List.nil_append] at hbytes
  rw [← outputs_flatten hkeys, ← hbytes]
  exact hevents

/-- The frame that carries a byte. -/
def good (byte : UInt8) : Move := .frame (Wire.Frame.ofByte byte).toWord

/-- A keyboard of set 2 that has just become ready. -/
def justReady : Bridge 32 := (ofConfig {}).run [good 0xAA, good 0xAB, good 0x83]

/-- A terminal keyboard, which sends set 3, that has just become ready. -/
def terminalReady : Bridge 32 := (ofConfig {}).run [good 0xAA, good 0xAB, good 0x85, good 0xFA]

/-- The up arrow goes down and another key comes up, while the lock LEDs change and the host is not
always ready. -/
def typed : List Move :=
  [good 0xE0, .leds ⟨true, false, false⟩, .poll 0, good 0x75, good 0xFA, .ready false, .poll 7,
    good 0xF0, good 0xFA, good 0x1C, .poll 9]

/-- F13 goes down, F7 comes up, and the minus of the keypad goes down. -/
def terminalTyped : List Move :=
  [good 0x85, .poll 0, good 0xFA, good 0xF0, .poll 3, good 0x83, .leds ⟨false, true, false⟩,
    good 0x84]

/-- Two keys of a keyboard of set 2 and three of a terminal keyboard, each with all else in between.
-/
theorem keys_delivered_typed :
    (((justReady.run typed).step (.ready true)).drain 10).1.trace.events =
        [.press 0x4F, .release 0x1C] ∧
      (((terminalReady.run terminalTyped).step (.ready true)).drain 10).1.trace.events =
        [.press 0x68, .release 0x02, .press 0x7F] := by
  have hmoves : Carries [0xE0, 0x75, 0xF0, 0x1C] typed :=
    .byte rfl <| .other nofun <| .other nofun <| .byte rfl <| .ack rfl <| .other nofun <|
      .other nofun <| .byte rfl <| .ack rfl <| .byte rfl <| .other nofun .nil
  have hkeys : ∀ p ∈ [(⟨0x4F, true⟩, [0xE0, 0x75]), (⟨0x1C, false⟩, [0xF0, 0x1C])],
      Encodes .set2 p.1 p.2 := by
    simpa using ⟨.extendedMake (by decide), .release (.same (.inl rfl) (by decide))⟩
  have hk : justReady.port.device = .atKeyboard
      { timing := {}, defaultSet := .set2, state := .initialised, id := 0xAB83,
        commands := .sent 0xF2, activity := 3, epoch := 1 } := by
    decide +kernel
  have hterminalMoves : Carries [0x85, 0xF0, 0x83, 0x84] terminalTyped :=
    .byte rfl <| .other nofun <| .ack rfl <| .byte rfl <| .other nofun <| .byte rfl <|
      .other nofun <| .byte rfl .nil
  have hterminalKeys : ∀ p ∈ [(⟨0x68, true⟩, [0x85]), (⟨0x02, false⟩, [0xF0, 0x83]),
      (⟨0x7F, true⟩, [0x84])], Encodes .set3 p.1 p.2 := by
    simpa using ⟨.make .f13, .release (.f7 (.inr rfl)), .make (.x84 (.inr rfl))⟩
  have hterminal : terminalReady.port.device = .atKeyboard
      { timing := {}, defaultSet := .set2, codeSet := .set3, state := .initialised, id := 0xAB85,
        commands := .sent 0xF8, activity := 4, epoch := 1 } := by
    decide +kernel
  constructor
  · exact (keys_delivered (b := justReady) rfl (valid_run ByteRing.valid_empty _)
      (by decide +kernel) hk rfl (fun st hst => nomatch hst) hkeys hmoves (by decide +kernel) 10).2
  · exact (keys_delivered (b := terminalReady) rfl (valid_run ByteRing.valid_empty _)
      (by decide +kernel) hterminal rfl (fun st hst => nomatch hst) hterminalKeys hterminalMoves
      (by decide +kernel) 10).2

end KeyBridge.Bridge
