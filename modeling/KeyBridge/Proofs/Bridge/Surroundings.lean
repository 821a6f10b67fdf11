import KeyBridge.Proofs.Bridge.Turn
import KeyBridge.Proofs.Port.Visible

/-!
# Host and transmitter never reach the session

A host that is not ready leaves bytes in the ring until it overflows, and a transmitter can refuse
any command. Neither may have an influence on the device session. Two runs of one bridge with the
same moves, each amid its own hosts and transmitters, are compared move by move: a `Glimpse` is what
the device, the receiver and the watcher of the session can see of a bridge.

Host and transmitter are replaced before each move. As a move offers one word at most, this covers
all answers that a transmitter could give and all that a host could be ready for.

## Key results

- `Alike.step`: bridges that are alike stay alike with every move
- `glimpses_amid_any`: two runs of the same moves look the same, after each of them
-/

namespace KeyBridge.Bridge

variable {w : Nat} {b b' : Bridge w}

/-! ## Runs amid surroundings -/

/-- The host and the transmitter at one move. -/
structure Surroundings where
  transmitter : Transmitter
  /-- Whether the host is ready for an event. -/
  ready : Bool
deriving DecidableEq, Repr

/-- The bridge with another host and another transmitter. -/
def amid (b : Bridge w) (s : Surroundings) : Bridge w :=
  { b with transmitter := s.transmitter, ready := s.ready }

/-- What the receiver is to do after a move. -/
def outcome (b : Bridge w) : Move → Outcome
  | .frame word => (b.frame word).2
  | .tick now => (b.tick now).2
  | .poll now => (b.poll now).2.2
  | .leds _ | .ready _ | .idle _ | .flush => .proceed

/-- What can be seen of a bridge after a move. -/
structure Glimpse where
  device : Device
  status : PortStatus
  outcome : Outcome
  /-- The words offered to the transmitter so far. -/
  offered : List UInt32
  /-- The reports so far on whether the device is ready. -/
  life : List Bool
  /-- The counts, those of dropped bytes apart. -/
  stats : PortStats
deriving DecidableEq, Repr

/-- What can be seen of a bridge after a move. -/
def glimpse (b : Bridge w) (m : Move) : Glimpse :=
  let next := b.step m
  { device := next.port.device
    status := next.port.status
    outcome := b.outcome m
    offered := next.trace.offered
    life := next.trace.life
    stats := next.port.stats.withoutOverflows }

/-- What can be seen after each move of a run. -/
def glimpses (b : Bridge w) : List (Surroundings × Move) → List Glimpse
  | [] => []
  | (s, m) :: moves => (b.amid s).glimpse m :: ((b.amid s).step m).glimpses moves

/-! ## The invariant -/

/-- Two bridges that differ at most in the ring, the logs, the decoder, the transmitter and what
has reached the host. -/
structure Alike (b b' : Bridge w) : Prop where
  port : b.port.Alike b'.port
  last_eq : b.coordinator.last = b'.coordinator.last
  offered_eq : b.trace.offered = b'.trace.offered
  life_eq : b.trace.life = b'.trace.life
  idle_eq : b.idle = b'.idle
  watched_eq : b.watched = b'.watched
  attached_eq : b.attached = b'.attached

/-- A bridge is like itself. -/
theorem Alike.refl (b : Bridge w) : b.Alike b := ⟨⟨rfl, rfl⟩, rfl, rfl, rfl, rfl, rfl, rfl⟩

/-- Likeness can be read both ways. -/
theorem Alike.symm (h : b.Alike b') : b'.Alike b :=
  ⟨⟨h.port.device_eq.symm, h.port.stats_eq.symm⟩, h.last_eq.symm, h.offered_eq.symm, h.life_eq.symm,
    h.idle_eq.symm, h.watched_eq.symm, h.attached_eq.symm⟩

/-- Likeness carries over from one bridge to the next. -/
theorem Alike.trans {b'' : Bridge w} (h : b.Alike b') (h' : b'.Alike b'') : b.Alike b'' :=
  ⟨⟨h.port.device_eq.trans h'.port.device_eq, h.port.stats_eq.trans h'.port.stats_eq⟩,
    h.last_eq.trans h'.last_eq, h.offered_eq.trans h'.offered_eq, h.life_eq.trans h'.life_eq,
    h.idle_eq.trans h'.idle_eq, h.watched_eq.trans h'.watched_eq,
    h.attached_eq.trans h'.attached_eq⟩

/-- The surroundings are no part of what is compared. -/
theorem alike_amid (b : Bridge w) (s : Surroundings) : (b.amid s).Alike b :=
  ⟨⟨rfl, rfl⟩, rfl, rfl, rfl, rfl, rfl, rfl⟩

/-- Events for the host are not compared. -/
theorem alike_deliver (b : Bridge w) (e : Event) : (b.deliver e).Alike b := by
  unfold deliver
  split <;> exact ⟨⟨rfl, rfl⟩, rfl, rfl, rfl, rfl, rfl, rfl⟩

/-- The log of the port is not compared. -/
theorem alike_drainLog (b : Bridge w) : b.drainLog.Alike b :=
  ⟨⟨rfl, rfl⟩, rfl, rfl, rfl, rfl, rfl, rfl⟩

/-- Whatever is done with a waiting byte, the coordinator keeps the status that it has seen. -/
theorem alike_drainOne (b : Bridge w) (g : BitVec w) : (b.drainOne g).1.Alike b := by
  have hlast : (b.coordinator.drainOne b.ring g b.ready).coordinator.last = b.coordinator.last := by
    unfold Coordinator.drainOne
    split
    · rcases b.ring.get with ⟨_ | byte, ring⟩ <;> rfl
    · rfl
  -- Decoder and ring may come out differently, and neither is compared.
  have hmoved : Alike { b with
      coordinator := (b.coordinator.drainOne b.ring g b.ready).coordinator
      ring := (b.coordinator.drainOne b.ring g b.ready).ring } b :=
    ⟨⟨rfl, rfl⟩, hlast, rfl, rfl, rfl, rfl, rfl⟩
  simp only [drainOne]
  cases (b.coordinator.drainOne b.ring g b.ready).event with
  | none => exact hmoved
  | some e => exact (alike_deliver _ e).trans hmoved

/-! ## Parts of a turn -/

/-- A word is offered alike, whether or not it is taken. -/
theorem Alike.offer (h : b.Alike b') (word : UInt32) : (b.offer word).Alike (b'.offer word) :=
  ⟨h.port, h.last_eq, congrArg (· ++ [word]) h.offered_eq, h.life_eq, h.idle_eq, h.watched_eq,
    h.attached_eq⟩

/-- Several words are offered alike. -/
theorem Alike.foldl_offer (h : b.Alike b') (words : List UInt32) :
    (words.foldl Bridge.offer b).Alike (words.foldl Bridge.offer b') := by
  induction words generalizing b b' with
  | nil => exact h
  | cons word words ih => exact ih (h.offer word)

/-- A step of the port is taken over alike. -/
theorem Alike.settle (h : b.Alike b') {s s' : PortStep w} (hs : s.Alike s') :
    (b.settle s).Alike (b'.settle s') := by
  have htaken : Alike { b with port := s.port, ring := s.ring }
      { b' with port := s'.port, ring := s'.ring } :=
    ⟨hs.port, h.last_eq, h.offered_eq, h.life_eq, h.idle_eq, h.watched_eq, h.attached_eq⟩
  simp only [Bridge.settle, hs.offered_eq]
  exact htaken.foldl_offer s'.offered

/-- A status is followed alike: the report depends on it and on the one before. -/
theorem Alike.follow (h : b.Alike b') :
    (b.follow b.port.status).Alike (b'.follow b'.port.status) := by
  have hchange : (b.coordinator.sync b.port.status).2 = (b'.coordinator.sync b'.port.status).2 := by
    simp only [Coordinator.sync, h.last_eq, h.port.status_eq]
  -- Both coordinators have seen the same status last, so that both or none report a change.
  have hlast : some b.port.status = some b'.port.status := congrArg some h.port.status_eq
  simp only [Bridge.follow, Bridge.sync, hchange]
  cases (b'.coordinator.sync b'.port.status).2 with
  | none =>
    exact ⟨h.port, hlast, h.offered_eq, h.life_eq, h.idle_eq, h.watched_eq, h.attached_eq⟩
  | some value =>
    simp only [Option.elim, report, h.watched_eq]
    split
    · refine ⟨h.port, hlast, h.offered_eq, ?_, h.idle_eq, rfl, h.attached_eq⟩
      exact congrArg (· ++ [value]) h.life_eq
    · exact ⟨h.port, hlast, h.offered_eq, h.life_eq, h.idle_eq, rfl, h.attached_eq⟩

/-- A look at the time comes to the same, and so does what the receiver is told. -/
theorem Alike.tick (h : b.Alike b') (now : UInt32) :
    (b.tick now).1.Alike (b'.tick now).1 ∧ (b.tick now).2 = (b'.tick now).2 := by
  have hs : (b.port.tick b.ring b.accepts now b.idle).Alike
      (b'.port.tick b'.ring b'.accepts now b'.idle) := h.idle_eq ▸ h.port.tick now b.idle
  exact ⟨h.settle hs, hs.outcome_eq⟩

/-- A turn of the coordinator comes to the same, whatever it does with the bytes that wait. -/
theorem Alike.poll (h : b.Alike b') (now : UInt32) :
    (b.poll now).1.Alike (b'.poll now).1 ∧ (b.poll now).2.2 = (b'.poll now).2.2 := by
  cases hb : b.attached with
  | true =>
    rw [b.poll_eq hb, b'.poll_eq (h.attached_eq ▸ hb)]
    -- The logs are emptied on both sides, and the bytes that are moved are not compared.
    obtain ⟨hticked, houtcome⟩ := h.tick now
    have hserviced : (b.service now).1.Alike (b'.service now).1 :=
      ((alike_drainLog _).trans hticked).trans (alike_drainLog _).symm
    exact ⟨((alike_drainOne _ _).trans hserviced.follow).trans (alike_drainOne _ _).symm, houtcome⟩
  | false =>
    have hb' : b'.attached = false := h.attached_eq ▸ hb
    simp only [Bridge.poll, hb, hb', Bool.false_eq_true, if_false]
    exact ⟨h, trivial⟩

/-! ## Moves -/

/-- Bridges that are alike stay so with every move, and the receiver is told the same. -/
theorem Alike.step (h : b.Alike b') (m : Move) :
    (b.step m).Alike (b'.step m) ∧ b.outcome m = b'.outcome m := by
  cases m with
  | frame word =>
    have hs : (b.port.receive b.ring b.accepts word).Alike
        (b'.port.receive b'.ring b'.accepts word) := h.port.receive word
    exact ⟨h.settle hs, hs.outcome_eq⟩
  | tick now => exact h.tick now
  | poll now => exact h.poll now
  | leds wanted =>
    refine ⟨⟨⟨?_, h.port.stats_eq⟩, h.last_eq, h.offered_eq, h.life_eq, h.idle_eq, h.watched_eq,
      h.attached_eq⟩, rfl⟩
    -- The wish goes to the session, which both have in common.
    exact congrArg (Device.setLeds · wanted) h.port.device_eq
  | idle value =>
    exact ⟨⟨h.port, h.last_eq, h.offered_eq, h.life_eq, rfl, h.watched_eq, h.attached_eq⟩, rfl⟩
  | ready value | flush =>
    exact ⟨⟨h.port, h.last_eq, h.offered_eq, h.life_eq, h.idle_eq, h.watched_eq, h.attached_eq⟩,
      rfl⟩

/-- Bridges that are alike look the same after a move. -/
theorem Alike.glimpse_eq (h : b.Alike b') (m : Move) : b.glimpse m = b'.glimpse m := by
  obtain ⟨hstep, houtcome⟩ := h.step m
  simp only [glimpse, hstep.port.device_eq, hstep.port.status_eq, houtcome, hstep.offered_eq,
    hstep.life_eq, hstep.port.stats_eq]

/-- Two bridges that are alike look the same after each move of a run, amid hosts and transmitters
of their own. -/
theorem Alike.glimpses_eq (h : b.Alike b') {moves moves' : List (Surroundings × Move)}
    (hmoves : moves.map (·.2) = moves'.map (·.2)) : b.glimpses moves = b'.glimpses moves' := by
  induction moves generalizing b b' moves' with
  | nil =>
    obtain rfl : moves' = [] := by simpa using hmoves.symm
    rfl
  | cons p moves ih =>
    cases moves' with
    | nil => simp at hmoves
    | cons p' moves' =>
      obtain ⟨s, m⟩ := p
      obtain ⟨s', m'⟩ := p'
      obtain ⟨rfl, htail⟩ : m = m' ∧ moves.map (·.2) = moves'.map (·.2) := by
        simpa using hmoves
      -- The surroundings are replaced on either side before the move.
      have hamid : (b.amid s).Alike (b'.amid s') :=
        ((alike_amid b s).trans h).trans (alike_amid b' s').symm
      simp only [glimpses, hamid.glimpse_eq m, ih (hamid.step m).1 htail]

/-- The same moves look the same amid any two courses of hosts and transmitters: after each of
them the session, its status, the outcome for the receiver, the words offered, the reports and
all counts but that of dropped bytes are equal. -/
theorem glimpses_amid_any (b : Bridge w) {moves moves' : List (Surroundings × Move)}
    (h : moves.map (·.2) = moves'.map (·.2)) : b.glimpses moves = b.glimpses moves' :=
  (Alike.refl b).glimpses_eq h

/-- A keyboard tells its id, a key is pressed and the coordinator has two turns. -/
def keyPress : List Move :=
  [0xAA, 0xAB, 0x83, 0x1C].map (fun byte => .frame (Wire.Frame.ofByte byte).toWord) ++
    [.poll 0, .poll 5]

/-- Amid a willing host and a busy one, a key press looks the same, although only the former gets an
event and only the free transmitter sends. -/
theorem glimpses_amid_any_keyPress :
    let reached (s : Surroundings) : Trace :=
      (keyPress.foldl (fun b m => (b.amid s).step m) (ofConfig {} : Bridge 32)).trace
    let willing : Surroundings := ⟨.queue none [], true⟩
    let closed : Surroundings := ⟨.receiveOnly, false⟩
    (ofConfig {} : Bridge 32).glimpses (keyPress.map (willing, ·)) =
        (ofConfig {} : Bridge 32).glimpses (keyPress.map (closed, ·)) ∧
      ((reached willing).events ≠ (reached closed).events ∧
        (reached willing).sent ≠ (reached closed).sent) :=
  ⟨glimpses_amid_any _ (by decide +kernel), by decide +kernel⟩

end KeyBridge.Bridge
