import KeyBridge.Proofs.Device.Notes
import KeyBridge.Proofs.Device.Patience
import KeyBridge.Proofs.Device.Reset
import KeyBridge.Proofs.Port.Runs

/-!
# The poll loop of an M0110 keyboard

An M0110 keyboard speaks only when it is asked. A question that is left out silences it for good,
and with one too many its answers meet. The port has to put the next question for each answer,
whatever the answer is and whatever becomes of it, and to ask for the model at first and whenever
an answer does not come.

## Key results

- `command?_receive`, `tick_cases`: when the session asks, and for what
- `offered_step`, `puts_eq`: what a move has the port ask, and what it passes on
- `Asked.step`, `Asked.run`: how many questions are open
- `awaits_of_offered`, `awaits_run`: the model is waited for until the keyboard speaks
- `polls_once`: the whole loop, for every run of a new port
-/

namespace KeyBridge

open Command

/-! ## The session -/

namespace Device.M0110Keyboard

variable (k : M0110Keyboard) (b : UInt8) (now : UInt32) (idle : Bool)

/-- A look at the time at which the keyboard is asked for its model: the first one, and each at
which it has not answered in time. -/
def AsksModel : Prop :=
  k.state = .uninitialised ∨ (k.tick now idle).notes.any Diagnostic.isTimeout

instance : Decidable (k.AsksModel now idle) := inferInstanceAs (Decidable (_ ∨ _))

/-- A byte makes a keyboard ready whose model was asked for. -/
theorem state_receive :
    (k.receive b).next.state =
      if k.state = .uninitialised then .uninitialised else .initialised := by
  cases hs : k.state <;> simp [receive, hs]

/-- A byte is followed by an inquiry once the model was asked for. -/
theorem command?_receive :
    (k.receive b).action.command? =
      if k.state = .uninitialised then none else some M0110.inquiry := by
  cases hs : k.state with
  | initialised =>
    simp only [receive, hs]
    split <;> rfl
  | uninitialised | awaitModel => simp [receive, hs, Action.command?]

/-- A keyboard that is ready has its bytes passed on, but for those that are no key. -/
theorem queued_receive :
    (k.receive b).action.queued b =
      if k.state = .initialised ∧ b ≠ M0110.noKey then [b] else [] := by
  cases hs : k.state with
  | initialised =>
    simp only [receive, hs]
    split <;> simp_all [Action.queued]
  | uninitialised | awaitModel => simp [receive, hs, Action.queued]

/-- No answer is a timeout. -/
theorem notes_receive : (k.receive b).notes.countP Diagnostic.isTimeout = 0 := by
  cases hs : k.state <;> simp [receive, hs, Diagnostic.isTimeout]

/-- The model is asked for, or nothing is done. -/
theorem tick_cases :
    (k.AsksModel now idle ∧ (k.tick now idle).next.state = .awaitModel ∧
        (k.tick now idle).action = .send M0110.model) ∨
      (¬ k.AsksModel now idle ∧ (k.tick now idle).next.state = k.state ∧
        (k.tick now idle).action = .none) := by
  simp only [AsksModel, tick]
  split
  · next hs => exact .inl ⟨.inl hs, rfl, rfl⟩
  · next hs =>
    split
    · exact .inr ⟨by simp [hs], rfl, rfl⟩
    · exact .inl ⟨.inr rfl, rfl, rfl⟩

/-- The receiver is not restarted. -/
theorem tick_ne_restart : (k.tick now idle).action ≠ .restart := by
  obtain ⟨-, -, haction⟩ | ⟨-, -, haction⟩ := k.tick_cases now idle <;> simp [haction]

/-- A tick notes a timeout each time it asks for the model, but for the first. -/
theorem notes_tick :
    (k.tick now idle).notes.countP Diagnostic.isTimeout =
      if k.AsksModel now idle ∧ k.state ≠ .uninitialised then 1 else 0 := by
  simp only [AsksModel, tick]
  split
  · next hs => simp [hs, queryModel]
  · next hs =>
    split
    · simp [hs]
    · simp [hs, queryModel, Diagnostic.isTimeout]

end Device.M0110Keyboard

theorem Device.phase_setLeds (d : Device) (wanted : LockLeds) :
    (d.setLeds wanted).phase = d.phase := by
  cases d <;> rfl

/-! ## Moves -/

namespace Port

open Device (M0110Keyboard)

variable {w : Nat} {p : Port} {move : Move}

/-- The commands that a move calls for. -/
def due (p : Port) (move : Move) : List UInt8 :=
  match move with
  | .frame _ => if p.device.phase = .m0110 .uninitialised then [] else [M0110.inquiry]
  | .tick _ _ =>
    if p.device.phase = .m0110 .uninitialised ∨ (p.notes move).any Diagnostic.isTimeout then
      [M0110.model]
    else []
  | .leds _ | .drain => []

/-- The byte that a move brings for the decoder. -/
def key (p : Port) : Move → List UInt8
  | .frame word =>
    if p.device.phase = .m0110 .initialised ∧ word.toUInt8 ≠ M0110.noKey then [word.toUInt8] else []
  | .tick _ _ | .leds _ | .drain => []

/-- A port for an M0110 has a session for one. -/
theorem exists_session (hp : p.device.protocol = .m0110) : ∃ k, p.device = .m0110 k := by
  cases hd : p.device with
  | m0110 k => exact ⟨k, rfl⟩
  | _ => simp [hd, Device.protocol] at hp

/-- At a tick the model is asked for if the session does so, and nothing else. -/
theorem due_tick {k : M0110Keyboard} (hk : p.device = .m0110 k) (now : UInt32) (idle : Bool) :
    p.due (.tick now idle) = if k.AsksModel now idle then [M0110.model] else [] := by
  simp only [due, notes, input?, hk, Device.phase, Device.Phase.m0110.injEq]
  rfl

section

variable (hp : p.device.protocol = .m0110)
include hp

/-- A port for an M0110 reads its frames. -/
theorem format_m0110 : p.format = .m0110 := congrArg Protocol.format hp

/-- Every frame of an M0110 keyboard is good. -/
theorem decode_m0110 (word : UInt32) : Wire.decode p.format word = .ok word.toUInt8 := by
  rw [format_m0110 hp]
  rfl

/-- Every frame of an M0110 is a byte for the session. -/
theorem input?_frame (word : UInt32) : p.input? (.frame word) = some (.byte word.toUInt8) := by
  simp only [input?, decode_m0110 hp]

/-- A move has the port offer what it calls for. -/
theorem offered_step (m : Moment w) :
    (p.step m).offered = (p.due m.move).map UInt8.toUInt32 := by
  obtain ⟨k, hk⟩ := exists_session hp
  have hformat := format_m0110 hp
  obtain ⟨move, ring, accepts⟩ := m
  cases move with
  | frame word =>
    show (p.receive ring accepts word).offered = _
    -- The session asks after each byte once it has begun.
    rw [offered_receive ring accepts (decode_m0110 hp word), hk]
    show ((k.receive word.toUInt8).action.command?.bind _).toList = _
    rw [M0110Keyboard.command?_receive, hformat]
    simp only [due, hk, Device.phase, Device.Phase.m0110.injEq]
    split <;> rfl
  | tick now idle =>
    show (p.tick ring accepts now idle).offered = _
    rw [offered_tick, due_tick hk, hk, hformat]
    show ((k.tick now idle).action.command?.bind _).toList = _
    -- At a tick it asks for the model or does nothing.
    obtain ⟨hasks, -, haction⟩ | ⟨hasks, -, haction⟩ := k.tick_cases now idle
    · rw [haction, if_pos hasks]
      rfl
    · rw [haction, if_neg hasks]
      rfl
  | leds wanted | drain => rfl

/-- A move has the port pass on the byte that it brings for the decoder. -/
theorem puts_eq (move : Move) : p.puts move = p.key move := by
  obtain ⟨k, hk⟩ := exists_session hp
  cases move with
  | frame word =>
    simp only [puts, input?_frame hp, key, hk, Device.phase, Device.Phase.m0110.injEq]
    exact k.queued_receive _
  | tick now idle | leds wanted | drain => rfl

/-- A keyboard that has been asked for its model is ready when it speaks. -/
theorem phase_frame (word : UInt32) (ring : ByteRing w) (accepts : UInt32 → Bool) :
    (p.step ⟨.frame word, ring, accepts⟩).port.device.phase =
      if p.device.phase = .m0110 .uninitialised then .m0110 .uninitialised
      else .m0110 .initialised := by
  obtain ⟨k, hk⟩ := exists_session hp
  rw [device_step, input?_frame hp, hk]
  show Device.Phase.m0110 (k.receive word.toUInt8).next.state = _
  rw [k.state_receive]
  simp only [Device.phase, Device.Phase.m0110.injEq]
  split <;> rfl

/-- No frame of an M0110 has a timeout noted. -/
theorem timeouts_frame (word : UInt32) :
    (p.notes (.frame word)).countP Diagnostic.isTimeout = 0 := by
  obtain ⟨k, hk⟩ := exists_session hp
  simp only [notes, input?_frame hp, hk]
  exact k.notes_receive _

omit hp in
/-- The session goes on as it is when nothing is heard and no time passes. -/
theorem phase_of_still {m : Moment w} (hframe : m.move.isFrame = false)
    (htick : m.move.isTick = false) : (p.step m).port.device.phase = p.device.phase := by
  obtain ⟨move, ring, accepts⟩ := m
  cases move with
  | frame | tick => contradiction
  | leds wanted => exact p.device.phase_setLeds wanted
  | drain => rfl

/-- A look at the time has the model asked for, of which a timeout is noted unless it is the first
one, or nothing happens. -/
theorem tick_asks (now : UInt32) (idle : Bool) (ring : ByteRing w) (accepts : UInt32 → Bool) :
    let phase := (p.step ⟨.tick now idle, ring, accepts⟩).port.device.phase
    let timeouts := (p.notes (.tick now idle)).countP Diagnostic.isTimeout
    (p.due (.tick now idle) = [M0110.model] ∧ phase = .m0110 .awaitModel ∧
        timeouts = if p.device.phase = .m0110 .uninitialised then 0 else 1) ∨
      (p.due (.tick now idle) = [] ∧ phase = p.device.phase ∧ timeouts = 0 ∧
        p.device.phase ≠ .m0110 .uninitialised) := by
  obtain ⟨k, hk⟩ := exists_session hp
  have hdue := due_tick hk now idle
  have hnotes : p.notes (.tick now idle) = (k.tick now idle).notes := by
    simp only [notes, input?, hk]
    rfl
  have hphase : p.device.phase = .m0110 k.state := congrArg Device.phase hk
  have hnext : (p.step ⟨.tick now idle, ring, accepts⟩).port.device.phase =
      .m0110 (k.tick now idle).next.state := by
    rw [device_step, hk]
    rfl
  simp only [hdue, hnotes, hnext, hphase, Device.Phase.m0110.injEq, ne_eq, k.notes_tick now idle]
  obtain ⟨hasks, hstate, -⟩ | ⟨hasks, hstate, -⟩ := k.tick_cases now idle
  · simp [hasks, hstate]
  · have hbegun : k.state ≠ .uninitialised := fun h => hasks (.inl h)
    simp [hasks, hstate, hbegun]

/-- Once the keyboard has been asked for its model, it is not taken for a new one again. -/
theorem begun_step (hbegun : p.device.phase ≠ .m0110 .uninitialised) (m : Moment w) :
    (p.step m).port.device.phase ≠ .m0110 .uninitialised := by
  obtain ⟨move, ring, accepts⟩ := m
  cases move with
  | frame word => simp [phase_frame hp, hbegun]
  | tick now idle =>
    obtain ⟨-, hphase, -⟩ | ⟨-, hphase, -⟩ := tick_asks hp now idle ring accepts
    · simp [hphase]
    · rwa [hphase]
  | leds wanted | drain => rwa [phase_of_still rfl rfl]

/-- After a tick the session has begun. -/
theorem begun_of_tick {m : Moment w} (hm : m.move.isTick) :
    (p.step m).port.device.phase ≠ .m0110 .uninitialised := by
  obtain ⟨move, ring, accepts⟩ := m
  cases move with
  | tick now idle =>
    obtain ⟨-, hphase, -⟩ | ⟨-, hphase, -, hbegun⟩ := tick_asks hp now idle ring accepts
    · simp [hphase]
    · rwa [hphase]
  | frame | leds | drain => contradiction

/-- A session has begun after a run with a tick in it. -/
theorem begun_run {moments : List (Moment w)} (htick : moments.any (·.move.isTick)) :
    (p.run moments).device.phase ≠ .m0110 .uninitialised := by
  induction moments generalizing p with
  | nil => contradiction
  | cons m moments ih =>
    rw [List.any_cons, Bool.or_eq_true] at htick
    have hnext := (p.protocol_step m).trans hp
    rcases htick with hm | hmoments
    -- The rest of the run keeps what the first tick has made so.
    · exact (run_kept (P := fun p => p.device.protocol = .m0110 ∧
        p.device.phase ≠ .m0110 .uninitialised)
        (fun p m h => ⟨(p.protocol_step m).trans h.1, begun_step h.1 h.2 m⟩)
        ⟨hnext, begun_of_tick hp hm⟩ moments).2
    · exact ih hnext hmoments

/-! ## The model -/

/-- When the model is asked for, it is waited for. -/
theorem awaits_of_offered {m : Moment w} (hm : M0110.model.toUInt32 ∈ (p.step m).offered) :
    (p.step m).port.device.phase = .m0110 .awaitModel := by
  rw [offered_step hp m] at hm
  obtain ⟨move, ring, accepts⟩ := m
  cases move with
  | frame word =>
    -- The word of an inquiry is another one.
    simp only [due] at hm
    split at hm <;> simp [M0110.model, M0110.inquiry] at hm
  | tick now idle =>
    obtain ⟨-, hphase, -⟩ | ⟨hnone, -⟩ := tick_asks hp now idle ring accepts
    · exact hphase
    · simp [hnone] at hm
  | leds wanted | drain => simp [due] at hm

/-- The model is waited for until the keyboard speaks. -/
theorem awaits_run (hawaits : p.device.phase = .m0110 .awaitModel) (moments : List (Moment w))
    (hsilent : ∀ m ∈ moments, ¬ m.move.isFrame) :
    (p.run moments).device.phase = .m0110 .awaitModel := by
  induction moments generalizing p with
  | nil => exact hawaits
  | cons m moments ih =>
    obtain ⟨hm, hsilent⟩ := List.forall_mem_cons.mp hsilent
    refine ih ((p.protocol_step m).trans hp) ?_ hsilent
    obtain ⟨move, ring, accepts⟩ := m
    cases move with
    | frame word => exact absurd rfl hm
    | tick now idle =>
      obtain ⟨-, hphase, -⟩ | ⟨-, hphase, -⟩ := tick_asks hp now idle ring accepts
      · exact hphase
      · rw [hphase, hawaits]
    | leds wanted | drain => rw [phase_of_still rfl rfl, hawaits]

/-! ## The ring -/

/-- A move of an M0110 keyboard empties the ring only to begin an epoch. -/
theorem ring_polled (m : Moment w) :
    (p.step m).ring =
      (if (p.step m).port.device.epoch = p.device.epoch then m.ring else m.ring.discard).putAll
        (p.puts m.move) := by
  obtain ⟨k, hk⟩ := exists_session hp
  rw [ring_step, device_step]
  obtain ⟨move, ring, accepts⟩ := m
  congr 1
  cases move with
  | frame word =>
    -- Neither a byte nor a tick restarts the receiver, so that only a new epoch empties the ring.
    have haction := p.device.receive_ne_restart word.toUInt8
    simp only [keptAt, decode_m0110 hp, emptied, input?_frame hp, if_neg haction]
    rfl
  | tick now idle =>
    have haction : (p.device.tick now idle).action ≠ .restart := by
      rw [hk]
      exact k.tick_ne_restart now idle
    simp only [keptAt, emptied, if_neg haction]
    rfl
  | leds wanted =>
    rw [hk]
    exact (if_pos rfl).symm
  | drain => exact (if_pos rfl).symm

end

/-! ## Open questions -/

/-- How many words the transmitter takes at a moment. -/
def taken (p : Port) (m : Moment w) : Nat := (p.step m).offered.countP m.accepts

/-- How many questions are open after a moment at which `n` were. The keyboard is one that only
ever answers: there is no such number if it speaks without having been asked. -/
def openAfter (p : Port) (n : Nat) (m : Moment w) : Option Nat :=
  match m.move with
  | .frame _ => if n = 0 then none else some (n - 1 + p.taken m)
  | .tick _ _ | .leds _ | .drain => some (n + p.taken m)

/-- How many questions are open after a run, in the same way. -/
def openIn (p : Port) (n : Nat) : List (Moment w) → Option Nat
  | [] => some n
  | m :: moments => (p.openAfter n m).bind fun n => (p.step m).port.openIn n moments

/-- How `n` questions that are open go with `t` timeouts that were noted: before the first tick
there are none of either, and from then on there is one question more than there were timeouts, as
each timeout has the model asked for again and each answer is followed by an inquiry. -/
def Asked (p : Port) (t n : Nat) : Prop :=
  if p.device.phase = .m0110 .uninitialised then t = 0 ∧ n = 0 else n = 1 + t

variable {m : Moment w} {t n n' : Nat}

/-- A transmitter that takes everything takes all that is due. -/
theorem taken_eq (hp : p.device.protocol = .m0110) (hall : ∀ word, m.accepts word) :
    p.taken m = (p.due m.move).length := by
  rw [taken, List.countP_eq_length.mpr fun word _ => hall word, offered_step hp, List.length_map]

/-- How many answers are open depends on the state of the session only. -/
theorem Asked.congr {p' : Port} (h : Asked p t n) (hphase : p'.device.phase = p.device.phase) :
    Asked p' t n := by
  rwa [Asked, hphase]

/-- A move keeps the questions that are open one more than the timeouts that were noted. -/
theorem Asked.step (h : Asked p t n) (hp : p.device.protocol = .m0110)
    (hall : ∀ word, m.accepts word) (hn : p.openAfter n m = some n') :
    Asked (p.step m).port (t + (p.notes m.move).countP Diagnostic.isTimeout) n' := by
  have htaken := taken_eq hp hall
  obtain ⟨move, ring, accepts⟩ := m
  cases move with
  | frame word =>
    have htimeouts := timeouts_frame hp word
    simp only [openAfter, Option.ite_none_left_eq_some, Option.some.injEq] at hn
    simp only [Asked, phase_frame hp]
    simp only [Asked] at h
    split at h
    -- Before the first tick no question is open that the frame could answer.
    · omega
    -- After it the frame answers one, and the inquiry is one more.
    · next hbegun =>
      have hdue : p.due (.frame word) = [M0110.inquiry] := if_neg hbegun
      simp only [hdue, List.length_singleton] at htaken
      simp only [hbegun, if_false, Device.Phase.m0110.injEq, reduceCtorEq]
      omega
  | tick now idle =>
    simp only [openAfter, Option.some.injEq] at hn
    simp only [Asked] at h ⊢
    obtain ⟨hdue, hphase, htimeouts⟩ | ⟨hdue, hphase, htimeouts, hbegun⟩ :=
      tick_asks hp now idle ring accepts
    -- What was not answered stays open when the model is asked for again.
    · simp only [hdue, List.length_singleton] at htaken
      simp only [hphase, htimeouts]
      split at h <;> simp_all
      omega
    · simp only [hdue, List.length_nil] at htaken
      simp only [hphase, htimeouts, hbegun, if_false]
      rw [if_neg hbegun] at h
      omega
  | leds wanted | drain =>
    obtain rfl : n + p.taken _ = n' := Option.some.inj hn
    rw [htaken]
    exact h.congr (phase_of_still rfl rfl)

/-- A run keeps the questions that are open one more than the timeouts that were noted. -/
theorem Asked.run (h : Asked p t n) (hp : p.device.protocol = .m0110) (moments : List (Moment w))
    (hall : ∀ m ∈ moments, ∀ word, m.accepts word) (hn : p.openIn n moments = some n') :
    Asked (p.run moments) (t + (p.notesIn moments).countP Diagnostic.isTimeout) n' := by
  induction moments generalizing p t n with
  | nil =>
    obtain rfl : n = n' := Option.some.inj hn
    exact h
  | cons m moments ih =>
    obtain ⟨hfirst, hrest⟩ := List.forall_mem_cons.mp hall
    obtain ⟨n₁, hn₁, hn⟩ := Option.bind_eq_some_iff.mp hn
    have := ih (h.step hp hfirst hn₁) ((p.protocol_step m).trans hp) hrest hn
    rwa [Nat.add_assoc, ← List.countP_append] at this

/-- Whatever words come to a new port for an M0110 keyboard, whenever it looks at the time and
whatever the host wants of the LEDs, the port asks for the model at the first tick and at each that
notes a timeout, and puts an inquiry for each frame from then on. What it passes on is each byte
that comes in while the keyboard is ready and is not the one for no key, and never the first byte
after the model was asked for. If the transmitter takes everything and the keyboard does nothing but
answer, the questions that are open after the first tick are one more than there were timeouts. -/
theorem polls_once {c : Config} (hc : c.protocol = .m0110) (moments : List (Moment w)) :
    let p := ofConfig c
    let p' := p.run moments
    p.offersIn moments = (p.trace (fun p m => p.due m.move) moments).map UInt8.toUInt32 ∧
      p.putsIn moments = p.trace (fun p m => p.key m.move) moments ∧
      (∀ m : Moment w, (p'.step m).ring =
        (if (p'.step m).port.device.epoch = p'.device.epoch then m.ring
          else m.ring.discard).putAll (p'.puts m.move)) ∧
      (∀ (m : Moment w) (between : List (Moment w)) (word : UInt32),
        M0110.model.toUInt32 ∈ (p'.step m).offered →
          (∀ m ∈ between, ¬ m.move.isFrame) →
            (p'.run (m :: between)).puts (.frame word) = []) ∧
      ((∀ m ∈ moments, ∀ word, m.accepts word) → moments.any (·.move.isTick) →
        ∀ n, p.openIn 0 moments = some n →
          n = 1 + (p.notesIn moments).countP Diagnostic.isTimeout) := by
  intro p p'
  have hdevice : p.device = .m0110 { timing := c.timing } := by
    simp only [p, ofConfig, Device.ofConfig, hc]
  have hp : p.device.protocol = .m0110 := congrArg Device.protocol hdevice
  -- That the port is one for an M0110 is all that the lemmas on single moments need.
  have hkept : ∀ (p : Port) (m : Moment w), p.device.protocol = .m0110 →
      (p.step m).port.device.protocol = .m0110 := fun p m h => (p.protocol_step m).trans h
  have hp' : p'.device.protocol = .m0110 := run_kept hkept hp moments
  refine ⟨?_, ?_, ring_polled hp', ?_, ?_⟩
  · rw [map_trace]
    exact trace_congr hkept (fun p m h => offered_step h m) hp moments
  · exact trace_congr hkept (fun p m h => puts_eq h m.move) hp moments
  · intro m between word hm hsilent
    -- The model is still waited for when the frame comes, so that the frame is its answer.
    have hm' := hkept p' m hp'
    have hawaits := awaits_run hm' (awaits_of_offered hp' hm) between hsilent
    rw [run_cons, puts_eq (run_kept hkept hm' between)]
    simp [key, hawaits]
  · intro hall htick n hn
    have hasked : Asked p 0 0 := by simp [Asked, hdevice, Device.phase]
    have := hasked.run hp moments hall hn
    rw [Asked, if_neg (begun_run hp htick)] at this
    omega

/-- A keyboard tells its model, that no key was pressed and that one was. Then it is silent until it
is asked for its model again, so that two questions are open. -/
theorem polls_once_silent :
    let p := ofConfig { protocol := .m0110 }
    let free : Move → Moment 8 := fun move => ⟨move, .empty, fun _ => true⟩
    let moments := [.tick 0 true, .frame 0x0B, .frame 0x7B, .frame 0x01, .leds { caps := true },
      .tick 600 true].map free
    let timeout := free (.tick 1200 true)
    p.offersIn (moments ++ [timeout]) = [0x16, 0x10, 0x10, 0x10, 0x16] ∧
      p.putsIn (moments ++ [timeout]) = [0x01] ∧
      2 = 1 + (p.notesIn (moments ++ [timeout])).countP Diagnostic.isTimeout ∧
      ((p.run moments).run [timeout]).puts (.frame 0x0B) = [] := by
  intro p free moments timeout
  obtain ⟨-, -, -, hmodel, -⟩ := polls_once (c := { protocol := .m0110 }) rfl moments
  obtain ⟨hoffers, hputs, -, -, hopen⟩ :=
    polls_once (c := { protocol := .m0110 }) rfl (moments ++ [timeout])
  refine ⟨hoffers.trans (by decide), hputs.trans (by decide), ?_, ?_⟩
  · exact hopen (by simp [moments, timeout, free]) (by decide) 2 (by decide)
  · exact hmodel timeout [] 0x0B (by decide) (by simp)

end Port

end KeyBridge
