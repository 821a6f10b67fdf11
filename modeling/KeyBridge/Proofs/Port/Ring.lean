import KeyBridge.Port
import KeyBridge.Proofs.ByteRing.Invariant
import KeyBridge.Proofs.Device.Visible

/-!
# What a port does to its session and its ring

Of a step of the port only three parts matter to the reader of the ring: the session after it, what
was discarded and which bytes the ring has taken in. Commands, counters and the log are left out
here.

## Key results

- `receive_of_ok` / `receive_of_error` / `device_tick`: the session and the ring after a step
- `receive_effect` / `tick_effect`: a step goes on with the epoch, loses the device or begins an
  epoch, and the ring holds nothing of an earlier one
-/

namespace KeyBridge

variable {w : Nat}

namespace ByteRing

/-- Offers bytes one after the other; those without room are dropped. -/
def putAll (r : ByteRing w) : List UInt8 → ByteRing w
  | [] => r
  | b :: bs => (r.put b).1.putAll bs

/-- Those of several bytes that a ring has room for when they are offered one after the other. -/
def admitted (r : ByteRing w) : List UInt8 → List UInt8
  | [] => []
  | b :: bs =>
    match r.put? b with
    | some r' => b :: r'.admitted bs
    | none => r.admitted bs

variable {r : ByteRing w} {n : Nat}

/-- Bytes that are put leave the ring valid. -/
theorem Valid.putAll (hv : r.Valid) (bs : List UInt8) : (r.putAll bs).Valid := by
  induction bs generalizing r with
  | nil => exact hv
  | cons b bs ih => exact ih (hv.put b)

/-- Bytes that are put leave the reader as far behind as it was. -/
theorem Lag.putAll (hl : Lag r n) (bs : List UInt8) : Lag (r.putAll bs) n := by
  induction bs generalizing r with
  | nil => exact hl
  | cons b bs ih => exact ih (hl.put b)

/-- Bytes that are put leave the generation. -/
theorem generation_putAll (r : ByteRing w) (bs : List UInt8) :
    (r.putAll bs).generation = r.generation := by
  induction bs generalizing r with
  | nil => rfl
  | cons b bs ih => exact (ih _).trans (r.generation_put b)

/-- The admitted bytes come last, in their order. -/
theorem Valid.contents_putAll (hv : r.Valid) (bs : List UInt8) :
    (r.putAll bs).contents = r.contents ++ r.admitted bs := by
  induction bs generalizing r with
  | nil => simp [ByteRing.putAll, admitted]
  | cons b bs ih =>
    cases hput : r.put? b with
    | none =>
      simp only [ByteRing.putAll, admitted, hput, put_of_put?_eq_none hput]
      exact ih hv
    | some r' =>
      simp only [ByteRing.putAll, admitted, hput, put_of_put?_eq_some hput]
      rw [ih (hv.put? hput), hv.contents_put? hput, List.append_assoc, List.singleton_append]

end ByteRing

namespace Port

open Device (Step Action Regular)

variable {p : Port} {ring : ByteRing w} {accepts : UInt32 → Bool} {word now : UInt32}
  {idle : Bool} {byte : UInt8}

/-! ## Parts of a step -/

@[simp] theorem device_note (p : Port) (d : Diagnostic) : (p.note d).device = p.device := rfl

@[simp] theorem device_enqueue (s : PortStep w) (b : UInt8) :
    (enqueue s b).port.device = s.port.device := by
  simp only [enqueue]
  split <;> rfl

@[simp] theorem ring_enqueue (s : PortStep w) (b : UInt8) :
    (enqueue s b).ring = (s.ring.put b).1 := by
  simp only [enqueue]
  split
  · next h => rw [ByteRing.put_of_put?_eq_some h]
  · next h => rw [ByteRing.put_of_put?_eq_none h]

@[simp] theorem outcome_enqueue (s : PortStep w) (b : UInt8) :
    (enqueue s b).outcome = s.outcome := by
  simp only [enqueue]
  split <;> rfl

@[simp] theorem device_transmit (s : PortStep w) (c : UInt8) :
    (transmit accepts s c).port.device = s.port.device := by
  simp only [transmit]
  split
  · split <;> rfl
  · rfl

@[simp] theorem ring_transmit (s : PortStep w) (c : UInt8) :
    (transmit accepts s c).ring = s.ring := by
  simp only [transmit]
  split
  · split <;> rfl
  · rfl

@[simp] theorem outcome_transmit (s : PortStep w) (c : UInt8) :
    (transmit accepts s c).outcome = s.outcome := by
  simp only [transmit]
  split
  · split <;> rfl
  · rfl

/-- Nothing of what the host wants of the lock LEDs can be seen. -/
theorem status_setLeds (p : Port) (leds : LockLeds) : (p.setLeds leds).status = p.status := by
  obtain ⟨_ | _ | _ | _ | _, _, _⟩ := p <;> rfl

/-! ## Steps -/

/-- The outcome of an action. -/
def outcomeOf (a : Action) : Outcome := if a = .restart then .restart else .proceed

/-- The ring when a session has taken a step: what was in it is dropped if a new epoch has begun or
the receiver is restarted. -/
def emptied (d : Device) (ring : ByteRing w) (s : Step Device) : ByteRing w :=
  let kept := if s.next.epoch = d.epoch then ring else ring.discard
  if s.action = .restart then kept.discard else kept

/-- How often the ring is emptied: once for a new epoch, and once for a restart of the receiver. -/
def drops (d : Device) (s : Step Device) : Nat :=
  (if s.next.epoch = d.epoch then 0 else 1) + (if s.action = .restart then 1 else 0)

/-- After a good frame the session has taken in its byte, and the ring what it passes on. -/
theorem receive_of_ok (ring : ByteRing w) (accepts : UInt32 → Bool)
    (h : Wire.decode p.format word = .ok byte) :
    (p.receive ring accepts word).port.device = (p.device.receive byte).next ∧
      (p.receive ring accepts word).ring =
        (emptied p.device ring (p.device.receive byte)).putAll
          ((p.device.receive byte).action.queued byte) ∧
      (p.receive ring accepts word).outcome = outcomeOf (p.device.receive byte).action := by
  have h' : Wire.decode { p with stats := { p.stats with frames := p.stats.frames + 1 } }.format
      word = .ok byte := h
  simp only [receive, h', emptied, outcomeOf]
  -- One goal for each action; what it sends shows in neither the session nor the ring.
  cases ha : (p.device.receive byte).action with
  | none => simp [perform, adopt, Action.queued, ByteRing.putAll]
  | send c => simp [perform, adopt, Action.queued, ByteRing.putAll]
  | pass => simp [perform, adopt, Action.queued, ByteRing.putAll]
  | passAndSend c => simp [perform, adopt, Action.queued, ByteRing.putAll]
  | queue a b => simp [perform, adopt, Action.queued, ByteRing.putAll]
  | restart => simp [perform, adopt, Action.queued, ByteRing.putAll, restart]

/-- After a bad frame the session is as before or, if the position in the bit stream is lost, reset
and the ring emptied. -/
theorem receive_of_error (ring : ByteRing w) (accepts : UInt32 → Bool) {e : Wire.FrameError}
    (h : Wire.decode p.format word = .error e) :
    (p.receive ring accepts word).port.device =
        (if e.losesPosition then p.device.reset else p.device) ∧
      (p.receive ring accepts word).ring = (if e.losesPosition then ring.discard else ring) ∧
      (p.receive ring accepts word).outcome =
        (if e.losesPosition then .restart else .proceed) := by
  have h' : Wire.decode { p with stats := { p.stats with frames := p.stats.frames + 1 } }.format
      word = .error e := h
  simp only [receive, h', refuse]
  split
  · exact ⟨rfl, rfl, rfl⟩
  · simp [note]

/-- A tick of the port is one of its session. -/
theorem device_tick : (p.tick ring accepts now idle).port.device =
    (p.device.tick now idle).next := by
  simp only [tick]
  split <;> simp [adopt, restart]

/-- A tick puts nothing into the ring, and empties it as the session needs it. -/
theorem ring_tick : (p.tick ring accepts now idle).ring =
    emptied p.device ring (p.device.tick now idle) := by
  simp only [tick, emptied]
  split <;> simp_all [adopt, restart]

/-- A tick restarts the interface if the session does. -/
theorem outcome_tick : (p.tick ring accepts now idle).outcome =
    outcomeOf (p.device.tick now idle).action := by
  simp only [tick, outcomeOf]
  split <;> simp_all [adopt, restart]

/-! ## Discards -/

/-- How often a step of the port discards what is in the ring. -/
def discards (p : Port) (s : PortStep w) : Nat :=
  (if s.port.device.epoch = p.device.epoch then 0 else 1) + (if s.outcome = .restart then 1 else 0)

/-- The bytes that the ring takes in with a frame. -/
def accepted (p : Port) (ring : ByteRing w) (word : UInt32) : List UInt8 :=
  match Wire.decode p.format word with
  | .ok byte =>
    let s := p.device.receive byte
    (emptied p.device ring s).admitted (s.action.queued byte)
  | .error _ => []

variable {d : Device} {s : Step Device} {n : Nat}

/-- Nothing is dropped in the middle of an epoch. -/
theorem emptied_of_kept (he : s.next.epoch = d.epoch) (ha : s.action ≠ .restart) :
    emptied d ring s = ring := by
  simp only [emptied, he, ha, if_true, if_false]

/-- Emptying leaves the ring valid. -/
theorem valid_emptied (hv : ring.Valid) : (emptied d ring s).Valid := by
  simp only [emptied]
  split <;> split <;> first | exact hv | exact hv.discard | exact hv.discard.discard

/-- Emptying puts the reader behind by the discards. -/
theorem lag_emptied (hl : ring.Lag n) : (emptied d ring s).Lag (n + drops d s) := by
  simp only [emptied, drops]
  split <;> split <;> first | exact hl | exact hl.discard | exact hl.discard.discard

/-- Emptying moves the generation on by the discards. -/
theorem generation_emptied :
    (emptied d ring s).generation = ring.generation + BitVec.ofNat w (drops d s) := by
  simp only [emptied, drops]
  split <;> split <;> simp [ByteRing.discard, BitVec.add_assoc, ← BitVec.ofNat_add]

/-- Unless the counters of the ring meet, a discard leaves nothing in it. -/
theorem contents_emptied (hv : ring.Valid) (hl : ring.Lag n) (hw : n + drops d s < 2 ^ w) :
    (emptied d ring s).contents = if drops d s = 0 then ring.contents else [] := by
  -- Without either nothing is dropped; with both, the second discard finds the ring empty.
  by_cases he : s.next.epoch = d.epoch <;> by_cases ha : s.action = .restart <;>
    simp only [emptied, drops, he, ha, if_true, if_false] at hw ⊢
  · exact hl.contents_discard hv hw
  · exact hl.discard.contents_discard hv.discard hw
  · exact hl.contents_discard hv hw

/-! ## Effects -/

/-- What a step makes of a session and of the bytes that wait for the decoder; `new` are those that
the ring takes in. -/
inductive Effect (d : Device) (waiting : List UInt8) (s : PortStep w) (new : List UInt8) : Prop
    where
  /-- The epoch goes on, and nothing is dropped. -/
  | goesOn (follows : d.Follows s.port.device) (epoch_eq : s.port.device.epoch = d.epoch)
      (contents_eq : s.ring.contents = waiting ++ new)
      (fed : new ≠ [] → s.port.device.isInitialised)
  /-- The device is lost, and with it all that waits. -/
  | loses (protocol_eq : s.port.device.protocol = d.protocol)
      (epoch_eq : s.port.device.epoch = d.epoch)
      (gone : s.port.device.isInitialised = false) (contents_eq : s.ring.contents = [])
      (new_eq : new = [])
  /-- An epoch begins, and what waited is dropped. -/
  | begins (absent : d.isInitialised = false) (ready : s.port.device.isInitialised)
      (epoch_eq : s.port.device.epoch = d.epoch + 1) (contents_eq : s.ring.contents = new)

/-- The effect of a step of the session, whose bytes `bs` are offered to the ring. -/
theorem Effect.of_regular {ps : PortStep w} {bs : List UInt8} (h : Regular d s)
    (hbs : bs ≠ [] → s.next.isInitialised) (hdev : ps.port.device = s.next)
    (hring : ps.ring = (emptied d ring s).putAll bs) (hv : ring.Valid) (hl : ring.Lag n)
    (hw : n + drops d s < 2 ^ w) :
    Effect d ring.contents ps ((emptied d ring s).admitted bs) := by
  have hnew : (emptied d ring s).admitted bs ≠ [] → bs ≠ [] := by
    rintro hne rfl
    exact hne rfl
  -- What the ring holds now: the old bytes unless it was emptied, then the new ones.
  have hcontents : ps.ring.contents =
      (if drops d s = 0 then ring.contents else []) ++ (emptied d ring s).admitted bs := by
    rw [hring, (valid_emptied hv).contents_putAll, contents_emptied hv hl hw]
  by_cases he : s.next.epoch = d.epoch
  · by_cases ha : s.action = .restart
    · have hgone : s.next.isInitialised = false := h.restart ha
      have hnil : (emptied d ring s).admitted bs = [] := by
        by_contra hne
        simp [hgone] at hbs
        simp_all
      -- A restart in the same epoch: the session lost the device and passes nothing on.
      rw [if_neg (by simp [drops, ha]), hnil] at hcontents
      exact .loses (hdev ▸ h.protocol_eq) (hdev ▸ he) (hdev ▸ hgone) hcontents hnil
    · rw [if_pos (by simp [drops, he, ha])] at hcontents
      exact .goesOn (.inr ⟨s, h, hdev.symm⟩) (hdev ▸ he) hcontents
        fun hne => hdev ▸ hbs (hnew hne)
  -- Another epoch: the device became ready in this step.
  · obtain ⟨habsent, hready⟩ := h.entered he
    have hepoch : s.next.epoch = d.epoch + 1 := by
      rw [h.epoch_eq, habsent, hready]
      rfl
    rw [if_neg (by simp [drops, he]), List.nil_append] at hcontents
    exact .begins habsent (hdev ▸ hready) (hdev ▸ hepoch) hcontents

/-- A session passes bytes on only if it is ready. -/
theorem isInitialised_of_queued (d : Device) (b : UInt8)
    (h : (d.receive b).action.queued b ≠ []) : (d.receive b).next.isInitialised := by
  apply (d.regular_receive b).feeds
  cases ha : (d.receive b).action <;> simp_all [Action.queued, Action.feeds]

/-- The interface is restarted exactly by the action that restarts it. -/
theorem outcomeOf_eq_restart_iff (a : Action) : outcomeOf a = .restart ↔ a = .restart := by
  simp [outcomeOf]

/-- A frame goes on with the epoch, loses the device or begins an epoch. -/
theorem receive_effect (hv : ring.Valid) (hl : ring.Lag n)
    (hw : n + discards p (p.receive ring accepts word) < 2 ^ w) :
    Effect p.device ring.contents (p.receive ring accepts word) (accepted p ring word) := by
  cases hdec : Wire.decode p.format word with
  | ok byte =>
    obtain ⟨hdev, hring, hout⟩ := receive_of_ok ring accepts hdec
    simp only [discards, hdev, hout, outcomeOf_eq_restart_iff] at hw
    simp only [accepted, hdec]
    exact .of_regular (p.device.regular_receive byte) (isInitialised_of_queued _ _) hdev hring
      hv hl hw
  | error e =>
    obtain ⟨hdev, hring, hout⟩ := receive_of_error ring accepts hdec
    simp only [accepted, hdec]
    cases he : e.losesPosition with
    | true =>
      simp only [he, if_true] at hdev hring hout
      -- A frame without a place in the bit stream resets the session.
      have hepoch : p.device.reset.epoch = p.device.epoch := Device.epoch_reset _
      simp only [discards, hdev, hout, hepoch, if_true] at hw
      refine .loses (hdev ▸ Device.protocol_reset _) (hdev ▸ hepoch)
        (hdev ▸ Device.isInitialised_reset _) ?_ rfl
      rw [hring]
      exact hl.contents_discard hv (by omega)
    | false =>
      simp only [he, Bool.false_eq_true, if_false] at hdev hring
      exact .goesOn (.inl hdev) (by rw [hdev]) (by rw [hring, List.append_nil])
        fun hne => absurd rfl hne

/-- A look at the time goes on with the epoch, loses the device or begins an epoch, and puts no byte
into the ring. -/
theorem tick_effect (hv : ring.Valid) (hl : ring.Lag n)
    (hw : n + discards p (p.tick ring accepts now idle) < 2 ^ w) :
    Effect p.device ring.contents (p.tick ring accepts now idle) [] := by
  simp only [discards, device_tick, outcome_tick, outcomeOf_eq_restart_iff] at hw
  have hring : (p.tick ring accepts now idle).ring =
      (emptied p.device ring (p.device.tick now idle)).putAll [] := ring_tick
  exact .of_regular (p.device.regular_tick now idle) (fun h => absurd rfl h) device_tick hring
    hv hl hw

/-! ## Counters -/

/-- The counters of a ring after a step that discards `k` times. -/
structure Counted (ring : ByteRing w) (n k : Nat) (s : PortStep w) : Prop where
  valid : s.ring.Valid
  lag : s.ring.Lag (n + k)
  generation_eq : s.ring.generation = ring.generation + BitVec.ofNat w k

/-- A ring stays sound. -/
theorem valid_receive (hv : ring.Valid) : (p.receive ring accepts word).ring.Valid := by
  cases hdec : Wire.decode p.format word with
  | ok byte =>
    rw [(receive_of_ok ring accepts hdec).2.1]
    exact (valid_emptied hv).putAll _
  | error e =>
    rw [(receive_of_error ring accepts hdec).2.1]
    split
    · exact hv.discard
    · exact hv

theorem valid_tick (hv : ring.Valid) : (p.tick ring accepts now idle).ring.Valid :=
  ring_tick ▸ valid_emptied hv

/-- The discards of a frame are counted. -/
theorem receive_counted (hv : ring.Valid) (hl : ring.Lag n) :
    Counted ring n (discards p (p.receive ring accepts word)) (p.receive ring accepts word) := by
  cases hdec : Wire.decode p.format word with
  | ok byte =>
    obtain ⟨hdev, hring, hout⟩ := receive_of_ok ring accepts hdec
    simp only [discards, hdev, hout, outcomeOf_eq_restart_iff]
    refine ⟨valid_receive hv, ?_, ?_⟩ <;> rw [hring]
    · exact (lag_emptied hl).putAll _
    · rw [ByteRing.generation_putAll, generation_emptied]
      rfl
  | error e =>
    obtain ⟨hdev, hring, hout⟩ := receive_of_error ring accepts hdec
    cases he : e.losesPosition with
    | true =>
      simp only [he, if_true] at hdev hring hout
      -- A reset stays in its epoch, so that the one discard is that of the restart.
      simp only [discards, hdev, hout, Device.epoch_reset, if_true]
      exact ⟨valid_receive hv, hring ▸ hl.discard, by rw [hring]; rfl⟩
    | false =>
      simp only [he, Bool.false_eq_true, if_false] at hdev hring hout
      -- The session is as it was, and so is the ring.
      simp only [discards, hdev, hout, if_true, reduceCtorEq, if_false]
      refine ⟨valid_receive hv, ?_, ?_⟩ <;> rw [hring]
      · exact hl
      · simp

/-- The discards of a tick are counted. -/
theorem tick_counted (hv : ring.Valid) (hl : ring.Lag n) :
    Counted ring n (discards p (p.tick ring accepts now idle))
      (p.tick ring accepts now idle) := by
  simp only [discards, device_tick, outcome_tick, outcomeOf_eq_restart_iff]
  exact ⟨valid_tick hv, ring_tick ▸ lag_emptied hl, ring_tick ▸ generation_emptied⟩

end Port

end KeyBridge
