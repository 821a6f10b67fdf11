import KeyBridge.Proofs.Device.Steps
import Mathlib.Data.List.Basic
import Mathlib.Data.List.Induction

/-!
# The knock at a mouse

A mouse with a wheel changes the size of its packets once it has been knocked at, and a session that
is wrong about the size reads nonsense from then on. So the session must not believe in a wheel
unless it has knocked: the three sample rates were set one after the other, each command was
acknowledged, and the mouse then answered the question for its id with that of a wheel mouse. Every
one of these steps can be repeated, given up or broken off.

`sinceId` writes down what has passed between session and mouse since the id that follows the self
test, and `InTurn` says of such a record that commands were sent in order.

## Key results

- `Received.knockEffect`, `Ticked.knockEffect`: how far a step gets on with the knock
- `knocked_run`: the record of every run in the middle of a knock
- `hasWheel_iff_run`: when a wheel is believed in, after every run
- `plain_run`: a mouse that is not to be knocked at
- `wheel_after_knock`: a wheel is believed in after a whole knock only
-/

namespace KeyBridge.Device.Ps2Mouse

open Command

variable {m : Ps2Mouse} {s : Step Ps2Mouse} {i : Input}

/-! ## What passes between session and mouse -/

/-- A byte that passes between the session and the mouse. -/
inductive Passed where
  | heard (byte : UInt8)
  | sent (command : UInt8)
deriving DecidableEq, Repr

/-- What is heard from the mouse in one step. -/
def heardIn : Input → List Passed
  | .byte b => [.heard b]
  | .tick _ _ | .reset | .leds _ => []

/-- What passes in one step. -/
def passedIn (s : Step Ps2Mouse) (i : Input) : List Passed :=
  heardIn i ++ (s.action.command?.map .sent).toList

/-- What has passed in a run since the session last left the state in which it waits for the id
after the self test. Before the run something had passed already. -/
def sinceId (m : Ps2Mouse) (record : List Passed) : List Input → List Passed
  | [] => record
  | i :: inputs =>
    (m.step i).next.sinceId
      ((if m.state = .awaitId then [] else record) ++ passedIn (m.step i) i) inputs

/-- Commands are sent in this order. Each may be sent several times, and the next one is sent when
the mouse acknowledges. -/
inductive InTurn : List UInt8 → List Passed → Prop where
  | first {record : List Passed} (command : UInt8) (hsilent : ∀ c, .sent c ∉ record) :
      InTurn [command] (record ++ [.sent command])
  | heard {commands : List UInt8} {record : List Passed} (byte : UInt8)
      (h : InTurn commands record) : InTurn commands (record ++ [.heard byte])
  | again {commands : List UInt8} {record : List Passed} (command : UInt8)
      (h : InTurn (commands ++ [command]) record) :
      InTurn (commands ++ [command]) (record ++ [.sent command])
  | next {commands : List UInt8} {record : List Passed} (command : UInt8)
      (h : InTurn commands record) :
      InTurn (commands ++ [command]) (record ++ [.heard Ps2.ack, .sent command])

/-! ## The knock -/

/-- The commands of a knock, with the question for the id after it. -/
def wholeKnock : List UInt8 :=
  Ps2.wheelKnock.flatMap (fun rate => [Ps2.setSampleRate, rate]) ++ [Ps2.getId]

theorem length_wholeKnock : wholeKnock.length = 2 * Ps2.wheelKnock.length + 1 := rfl

/-- At even places of the knock stands the command for a sample rate. -/
theorem wholeKnock_command :
    ∀ index, index < Ps2.wheelKnock.length → wholeKnock[2 * index]? = some Ps2.setSampleRate := by
  decide

/-- At odd places of the knock stand the sample rates. -/
theorem wholeKnock_rate :
    ∀ index, index < Ps2.wheelKnock.length →
      wholeKnock[2 * index + 1]? = Ps2.wheelKnock[index]? := by
  decide

/-- At the last place of the knock stands the question for the id. -/
theorem wholeKnock_question {n : Nat} (hn : n + 1 = wholeKnock.length) :
    wholeKnock[n]? = some Ps2.getId := by
  obtain rfl : n = 6 := by
    rw [length_wholeKnock] at hn
    exact Nat.succ.inj hn
  rfl

/-- How many of them have been sent. -/
def knocks? (m : Ps2Mouse) : Option Nat :=
  match m.state with
  | .knock index false => some (2 * index + 1)
  | .knock index true => some (2 * index + 2)
  | .readWheelId => some wholeKnock.length
  | .uninitialised | .awaitAck | .awaitSelfTest | .awaitId | .awaitEnableAck | .initialised => none

/-- What a step can do to the knock. -/
inductive KnockEffect (m : Ps2Mouse) (i : Input) (s : Step Ps2Mouse) : Prop where
  /-- There is none, or it is over. -/
  | outside (hnext : s.next.knocks? = none)
  | waited (hnext : s.next.knocks? = m.knocks?) (hsilent : s.action.command? = none)
  | repeated (command : UInt8) (hnext : s.next.knocks? = m.knocks?)
      (hlast : m.commands.command = some command) (haction : s.action = .send command)
  | begun (hstate : m.state = .awaitId) (hnext : s.next.knocks? = some 1)
      (haction : s.action = .send Ps2.setSampleRate)
  | advanced (n : Nat) (command : UInt8) (hn : m.knocks? = some n) (hi : i = .byte Ps2.ack)
      (hnext : s.next.knocks? = some (n + 1)) (hcommand : wholeKnock[n]? = some command)
      (haction : s.action = .send command)

/-- After the id the knock begins, or there is none. -/
theorem knockEffect_afterId (m : Ps2Mouse) (h : m.state = .awaitId) :
    KnockEffect m i m.afterId := by
  unfold afterId
  split
  · exact .begun h rfl rfl
  · exact .outside rfl

/-- The acknowledgement of the command leads on to the rate. -/
theorem knockEffect_sendRate {index : Nat} (hstate : m.state = .knock index false)
    (hindex : index < Ps2.wheelKnock.length) :
    KnockEffect m (.byte Ps2.ack) (m.sendRate index) := by
  refine .advanced (2 * index + 1) _ (by simp [knocks?, hstate]) rfl rfl ?_ rfl
  rw [wholeKnock_rate index hindex, List.getD_eq_getElem?_getD, List.getElem?_eq_getElem hindex,
    Option.getD_some]

/-- The acknowledgement of a rate leads on to the next command, or to the question. -/
theorem knockEffect_nextRate {index : Nat} (hstate : m.state = .knock index true)
    (hindex : index < Ps2.wheelKnock.length) :
    KnockEffect m (.byte Ps2.ack) (m.nextRate index) := by
  have hn : m.knocks? = some (2 * index + 2) := by simp [knocks?, hstate]
  unfold nextRate
  split
  · next hmore => exact .advanced _ _ hn rfl rfl (wholeKnock_command (index + 1) hmore) rfl
  · next hmore =>
    -- The last rate is followed by the question for the id.
    have hlast : 2 * index + 2 + 1 = wholeKnock.length := by
      rw [length_wholeKnock]
      omega
    exact .advanced _ _ hn rfl (congrArg some hlast.symm) (wholeKnock_question hlast) rfl

/-- A retry repeats the last command, or waits. -/
theorem knockEffect_retry (m : Ps2Mouse) : KnockEffect m i m.retry := by
  unfold retry
  split
  · next hrepeat => exact .repeated _ rfl (LastCommand.command_of_repeat? hrepeat).1 rfl
  · exact .waited rfl rfl

/-- What is known of a session does not depend on its timer and its count of bytes. -/
theorem KnockEffect.of_eq {m' : Ps2Mouse} (h : KnockEffect m' i s) (hstate : m'.state = m.state)
    (hcommands : m'.commands = m.commands) : KnockEffect m i s := by
  have hknocks : m'.knocks? = m.knocks? := by simp only [knocks?, hstate]
  cases h with
  | outside hnext => exact .outside hnext
  | waited hnext hsilent => exact .waited (hnext.trans hknocks) hsilent
  | repeated c hnext hlast haction =>
    exact .repeated c (hnext.trans hknocks) (hcommands ▸ hlast) haction
  | begun hs hnext haction => exact .begun (hstate ▸ hs) hnext haction
  | advanced n c hn hi hnext hc haction => exact .advanced n c (hknocks ▸ hn) hi hnext hc haction

/-- A note does not change how a step leads on in the knock. -/
theorem KnockEffect.note (h : KnockEffect m i s) (d : Diagnostic) : KnockEffect m i (s.note d) := by
  cases h with
  | outside hnext => exact .outside hnext
  | waited hnext hsilent => exact .waited hnext hsilent
  | repeated c hnext hlast haction => exact .repeated c hnext hlast haction
  | begun hs hnext haction => exact .begun hs hnext haction
  | advanced n c hn hi hnext hc haction => exact .advanced n c hn hi hnext hc haction

/-- The place of an armed session in the knock is one of the sample rates. -/
theorem index_lt (hm : Armed (.ps2Mouse m)) {index : Nat} {sent : Bool}
    (hstate : m.state = .knock index sent) : index < Ps2.wheelKnock.length :=
  hm.place_lt index (by simp [Device.place?, place?, hstate])

/-- How a byte leads on in the knock. -/
theorem Received.knockEffect {byte : UInt8} (hs : Received m byte s) (hm : Armed (.ps2Mouse m)) :
    KnockEffect m (.byte byte) s := by
  cases hs with
  | passed hstate => exact .outside (by simp [counted, knocks?, hstate])
  | refused | repeatedEnough | tested | resetAcked | wheelTold | enabled => exact .outside rfl
  | repeated command commands _ _ _ hrepeat =>
    exact .repeated command rfl (LastCommand.command_of_repeat? hrepeat).1 rfl
  | idTold hstate => exact .of_eq ((knockEffect_afterId m.counted hstate).note _) rfl rfl
  | rateAsked index hstate hbyte =>
    subst hbyte
    exact .of_eq (knockEffect_sendRate (m := m.counted) hstate (index_lt hm hstate)) rfl rfl
  | rateAcked index hstate hbyte =>
    subst hbyte
    exact .of_eq (knockEffect_nextRate (m := m.counted) hstate (index_lt hm hstate)) rfl rfl
  | ackIgnored => exact .waited rfl rfl

/-- How a look at the time leads on in the knock: it repeats a command at most, or leaves the knock.
-/
theorem Ticked.knockEffect (hs : Ticked m s) : KnockEffect m i s := by
  cases hs with
  | waited => exact .waited rfl rfl
  | resetAgain | wheelAssumed | enableAssumed => exact .outside rfl
  | enableRepeated _ _ hstate => exact .outside (by simp [knocks?, hstate])
  | idAssumed timer _ hstate =>
    exact .of_eq ((knockEffect_afterId { m with timer } hstate).note _) rfl rfl
  | knockRepeated timer => exact .of_eq ((knockEffect_retry { m with timer }).note _) rfl rfl

/-- How any input leads on in the knock. -/
theorem knockEffect_step (hm : Armed (.ps2Mouse m)) (i : Input) : KnockEffect m i (m.step i) := by
  cases i with
  | byte b => exact (m.received b).knockEffect hm
  | tick now idle => exact (m.ticked now idle).knockEffect
  | reset => exact .outside rfl
  | leds wanted => exact .waited rfl rfl

/-! ### The record of a knock -/

/-- The commands that a session in the middle of a knock has sent are the first ones of it. -/
def Knocked (m : Ps2Mouse) (record : List Passed) : Prop :=
  ∀ n, m.knocks? = some n → InTurn (wholeKnock.take n) record

/-- Outside the knock nothing is asked of the record. -/
theorem knocked_of_none {record : List Passed} (h : m.knocks? = none) : Knocked m record :=
  fun n hn => by simp [h] at hn

/-- The last command of a knock under way is the one whose answer is awaited. -/
theorem getElem?_wholeKnock (hm : Armed (.ps2Mouse m)) {n : Nat} (hn : m.knocks? = some n) :
    ∃ before c, n = before + 1 ∧ wholeKnock[before]? = some c ∧ m.awaited? = some c := by
  unfold knocks? at hn
  split at hn
  -- The command for a rate waits at an even place,
  · next index hstate =>
    refine ⟨2 * index, _, (Option.some.inj hn).symm,
      wholeKnock_command index (index_lt hm hstate), ?_⟩
    simp only [awaited?, hstate]
  -- the rate itself at the odd place after it,
  · next index hstate =>
    have hrate := wholeKnock_rate index (index_lt hm hstate)
    rw [List.getElem?_eq_getElem (index_lt hm hstate)] at hrate
    refine ⟨2 * index + 1, _, (Option.some.inj hn).symm, hrate, ?_⟩
    simp only [awaited?, hstate, List.getElem?_eq_getElem (index_lt hm hstate)]
  -- and the question for the id at the end.
  · next hstate =>
    refine ⟨_, _, (Option.some.inj hn).symm, wholeKnock_question rfl, ?_⟩
    simp only [awaited?, hstate]
  all_goals simp at hn

/-- What has been heard does not change which commands were sent. -/
theorem InTurn.append_heard {commands : List UInt8} {record : List Passed}
    (h : InTurn commands record) (i : Input) : InTurn commands (record ++ heardIn i) := by
  cases i with
  | byte b => exact h.heard b
  | tick _ _ | reset | leds _ => simpa [heardIn] using h

/-- In the knock the id has come. -/
theorem ne_awaitId_of_knocks? {n : Nat} (hn : m.knocks? = some n) : m.state ≠ .awaitId :=
  fun hstate => by simp [knocks?, hstate] at hn

/-- One step keeps the record of a knock. -/
theorem Knocked.step {record : List Passed} (h : Knocked m record) (hm : Armed (.ps2Mouse m))
    (i : Input) :
    Knocked (m.step i).next
      ((if m.state = .awaitId then [] else record) ++ passedIn (m.step i) i) := by
  intro n hn
  cases knockEffect_step hm i with
  | outside hnext => simp [hnext] at hn
  -- Whatever was heard comes after the record, in which the knock stands as before.
  | waited hnext hsilent =>
    have hn' : m.knocks? = some n := hnext ▸ hn
    simpa [ne_awaitId_of_knocks? hn', passedIn, hsilent] using (h n hn').append_heard i
  | repeated c hnext hlast haction =>
    have hn' : m.knocks? = some n := hnext ▸ hn
    -- What is repeated is the command sent last, which is the last one of the knock so far.
    obtain ⟨before, c', rfl, hc', hawaited⟩ := getElem?_wholeKnock hm hn'
    obtain rfl : c' = c := Option.some.inj ((hm.last_eq c' hawaited).symm.trans hlast)
    have hheard := (h _ hn').append_heard i
    rw [List.take_add_one, hc', Option.toList_some] at hheard ⊢
    simpa [ne_awaitId_of_knocks? hn', passedIn, haction, Action.command?] using hheard.again c'
  -- The record begins anew with the first command.
  | begun hstate hnext haction =>
    obtain rfl : 1 = n := Option.some.inj (hnext.symm.trans hn)
    have hsilent : ∀ c, Passed.sent c ∉ heardIn i := by cases i <;> simp [heardIn]
    have hfirst : wholeKnock.take 1 = [Ps2.setSampleRate] := rfl
    simpa [hstate, hfirst, passedIn, haction, Action.command?] using
      InTurn.first Ps2.setSampleRate hsilent
  -- An acknowledgement comes in, and the next command of the knock goes out.
  | advanced n' c hn' hi hnext hc haction =>
    obtain rfl : n' + 1 = n := Option.some.inj (hnext.symm.trans hn)
    subst hi
    rw [List.take_add_one, hc]
    simpa [ne_awaitId_of_knocks? hn', passedIn, haction, Action.command?, heardIn]
      using (h n' hn').next c

/-- A session that waits for an answer sent its command last, step by step. -/
theorem armed_step (hm : Armed (.ps2Mouse m)) (i : Input) : Armed (.ps2Mouse (m.step i).next) := by
  have := armed_run hm (.inr rfl) [i]
  rwa [device_run] at this

/-- In the middle of a knock the session has sent the commands up to the one under way, each of them
after the mouse acknowledged the one before. -/
theorem knocked_run {record : List Passed} (h : Knocked m record) (hm : Armed (.ps2Mouse m))
    (inputs : List Input) : Knocked (m.run inputs) (m.sinceId record inputs) := by
  -- The record so far is generalised, as each step adds to it or begins a new one.
  induction inputs generalizing m record with
  | nil => exact h
  | cons i inputs ih => exact ih (h.step hm i) (armed_step hm i)

/-! ## The wheel -/

/-- Whether the question for a wheel lies behind the session. -/
def isSettled (m : Ps2Mouse) : Bool := m.state == .awaitEnableAck || m.state == .initialised

/-- Whether the mouse answers the question for a wheel with yes. -/
def TellsWheel (m : Ps2Mouse) (i : Input) : Prop :=
  m.state = .readWheelId ∧ i = .byte Ps2.wheelMouseId

/-- A mouse that tells of its wheel has one from then on, and is enabled. -/
theorem hasWheel_of_tellsWheel (h : m.TellsWheel i) :
    (m.step i).next.hasWheel ∧ (m.step i).next.isSettled := by
  obtain ⟨hstate, rfl⟩ := h
  simp [step, receive, hstate, Ps2.wheelMouseId, Ps2.resendRequest, Ps2.ack, enable, enter,
    Step.note, isSettled]

/-- A wheel is believed in by settled sessions only. -/
def WheelSettled (m : Ps2Mouse) : Prop := m.hasWheel → m.isSettled

/-- Before the knock is settled no mouse has a wheel. -/
theorem WheelSettled.hasWheel_eq_false (hm : m.WheelSettled) (h : m.isSettled = false) :
    m.hasWheel = false := by
  simpa [WheelSettled, h] using hm

/-- A step that changes neither the state nor the belief in a wheel. -/
theorem WheelSettled.hasWheel_eq_and (hm : m.WheelSettled) {m' : Ps2Mouse}
    (hstate : m'.state = m.state) :
    m.hasWheel = (m.hasWheel && m'.isSettled) := by
  have hsettled : m'.isSettled = m.isSettled := by simp only [isSettled, hstate]
  rw [hsettled]
  exact (Bool.and_eq_left_iff_imp.mpr hm).symm

@[simp] theorem afterId_hasWheel (m : Ps2Mouse) : m.afterId.next.hasWheel = m.hasWheel := by
  unfold afterId
  split <;> rfl

@[simp] theorem nextRate_hasWheel (m : Ps2Mouse) (index : Nat) :
    (m.nextRate index).next.hasWheel = m.hasWheel := by
  unfold nextRate
  split <;> rfl

/-- A byte that does not tell of a wheel keeps the wheel while the knock is settled, and drops it
otherwise. -/
theorem Received.hasWheel_eq {byte : UInt8} (hs : Received m byte s) (hm : m.WheelSettled)
    (htold : ¬m.TellsWheel (.byte byte)) :
    s.next.hasWheel = (m.hasWheel && s.next.isSettled) := by
  cases hs with
  | passed | repeated | ackIgnored => exact hm.hasWheel_eq_and rfl
  | refused | repeatedEnough => exact (Bool.and_false _).symm
  -- From here on the session was not settled, so that no wheel was believed in.
  | tested hstate =>
    have hnone := hm.hasWheel_eq_false (by rcases hstate with h | h | h <;> simp [isSettled, h])
    simp [counted, hnone]
  | resetAcked hstate | idTold hstate | rateAsked index hstate | rateAcked index hstate =>
    have hnone := hm.hasWheel_eq_false (by simp [isSettled, hstate])
    simp [counted, Step.note, sendRate, hnone]
  | wheelTold hstate =>
    have hnone := hm.hasWheel_eq_false (by simp [isSettled, hstate])
    have hbyte : byte ≠ Ps2.wheelMouseId := fun h => htold ⟨hstate, congrArg _ h⟩
    simp [counted, Step.note, enable, enter, hnone, hbyte]
  | enabled => exact (Bool.and_true _).symm

/-- A look at the time keeps the wheel while the knock is settled, and drops it otherwise. -/
theorem Ticked.hasWheel_eq (hs : Ticked m s) (hm : m.WheelSettled) :
    s.next.hasWheel = (m.hasWheel && s.next.isSettled) := by
  cases hs with
  | waited | enableRepeated => exact hm.hasWheel_eq_and rfl
  | resetAgain => exact (Bool.and_false _).symm
  | idAssumed _ _ hstate =>
    have hnone := hm.hasWheel_eq_false (by simp [isSettled, hstate])
    simp [Step.note, hnone]
  -- Within the knock no mouse has told of a wheel yet.
  | knockRepeated _ _ hstate =>
    have hnone := hm.hasWheel_eq_false (by
      rcases hstate with ⟨_, _, h⟩ | h <;> simp [isSettled, h])
    unfold retry
    split <;> simp [Step.note, hnone]
  | wheelAssumed _ _ hstate =>
    have hnone := hm.hasWheel_eq_false (by
      rcases hstate with ⟨_, _, h⟩ | h <;> simp [isSettled, h])
    simp [Step.note, enable, enter, hnone]
  | enableAssumed => exact (Bool.and_true _).symm

/-- A wheel is believed in after a step if the session is then settled and either the mouse just
told of a wheel or it was believed in before. -/
theorem hasWheel_step (hm : m.WheelSettled) (i : Input) :
    (m.step i).next.hasWheel ↔ (m.step i).next.isSettled ∧ (m.TellsWheel i ∨ m.hasWheel) := by
  by_cases htold : m.TellsWheel i
  · simp [htold, hasWheel_of_tellsWheel htold]
  have heq : (m.step i).next.hasWheel = (m.hasWheel && (m.step i).next.isSettled) := by
    cases i with
    | byte b => exact (m.received b).hasWheel_eq hm htold
    | tick now idle => exact (m.ticked now idle).hasWheel_eq hm
    | reset => exact (Bool.and_false _).symm
    | leds wanted => exact hm.hasWheel_eq_and rfl
  simp [htold, heq, and_comm]

/-- Every step keeps a wheel from being there before the knock is settled. -/
theorem WheelSettled.step (hm : m.WheelSettled) (i : Input) : (m.step i).next.WheelSettled :=
  fun h => ((hasWheel_step hm i).mp h).1

/-- Every run keeps a wheel from being there before the knock is settled. -/
theorem wheelSettled_run (hm : m.WheelSettled) (inputs : List Input) :
    (m.run inputs).WheelSettled := by
  induction inputs generalizing m with
  | nil => exact hm
  | cons i inputs ih => exact ih (hm.step i)

/-- The last input of a run is its last step. -/
theorem run_append_singleton (m : Ps2Mouse) (inputs : List Input) (i : Input) :
    m.run (inputs ++ [i]) = ((m.run inputs).step i).next := by
  simp [run]

/-- At some point the mouse told of a wheel, and the session has been settled ever since. -/
def ToldOfWheel (m : Ps2Mouse) (inputs : List Input) : Prop :=
  ∃ earlier later, inputs = earlier ++ .byte Ps2.wheelMouseId :: later ∧
    (m.run earlier).state = .readWheelId ∧
    ∀ part, part <+: later → (m.run (earlier ++ .byte Ps2.wheelMouseId :: part)).isSettled

/-- No mouse has told of a wheel before it said anything. -/
theorem not_toldOfWheel_nil (m : Ps2Mouse) : ¬m.ToldOfWheel [] := by
  simp [ToldOfWheel]

/-- A mouse has told of its wheel if the last input does so, or if it had before and the knock is
still settled. -/
theorem toldOfWheel_append_singleton (m : Ps2Mouse) (inputs : List Input) (i : Input) :
    m.ToldOfWheel (inputs ++ [i]) ↔
      (m.run (inputs ++ [i])).isSettled ∧ ((m.run inputs).TellsWheel i ∨ m.ToldOfWheel inputs) := by
  constructor
  · rintro ⟨earlier, later, heq, hstate, hparts⟩
    rw [heq]
    refine ⟨hparts later List.prefix_rfl, ?_⟩
    -- The byte that told of the wheel is either the last input or one of those before it.
    rcases List.eq_nil_or_concat' later with rfl | ⟨later, j, rfl⟩
    · obtain ⟨rfl, hi⟩ := List.append_inj' heq rfl
      exact .inl ⟨hstate, List.singleton_inj.mp hi⟩
    · rw [← List.cons_append, ← List.append_assoc] at heq
      obtain ⟨rfl, -⟩ := List.append_inj' heq rfl
      exact .inr ⟨earlier, later, rfl, hstate, fun part hpart =>
        hparts part (hpart.trans (List.prefix_append later [j]))⟩
  · rintro ⟨hsettled, ⟨hstate, rfl⟩ | ⟨earlier, later, rfl, hstate, hparts⟩⟩
    · refine ⟨inputs, [], rfl, hstate, fun part hpart => ?_⟩
      rwa [List.prefix_nil.mp hpart]
    · refine ⟨earlier, later ++ [i], by simp, hstate, fun part hpart => ?_⟩
      rcases List.prefix_concat_iff.mp hpart with rfl | hpart
      · rwa [List.append_assoc, List.cons_append] at hsettled
      · exact hparts part hpart

/-- When a wheel is believed in, after every run. -/
theorem hasWheel_iff_run (h : m.hasWheel = false) (inputs : List Input) :
    (m.run inputs).hasWheel ↔ m.ToldOfWheel inputs := by
  have hm : m.WheelSettled := by simp [WheelSettled, h]
  -- What has been settled ever since is extended at the end of the run.
  induction inputs using List.reverseRecOn with
  | nil => simp [run, h, not_toldOfWheel_nil]
  | append_singleton inputs i ih =>
    rw [toldOfWheel_append_singleton, run_append_singleton,
      hasWheel_step (wheelSettled_run hm inputs)]
    exact and_congr_right' (or_congr_right ih)

/-! ## A mouse that is not to be knocked at -/

/-- A session that is not to look for a wheel, has found none and is not about to ask for one. -/
structure Plain (m : Ps2Mouse) : Prop where
  detectWheel_eq : m.detectWheel = false
  knocks?_eq : m.knocks? = none
  hasWheel_eq : m.hasWheel = false
  command_ne : m.commands.command ≠ some Ps2.setSampleRate

/-- A step of such a session to another one, without a word about sample rates. -/
structure StaysPlain (s : Step Ps2Mouse) : Prop where
  next : s.next.Plain
  unsent : s.action.command? ≠ some Ps2.setSampleRate

theorem StaysPlain.note (h : StaysPlain s) (d : Diagnostic) : StaysPlain (s.note d) :=
  ⟨h.next, h.unsent⟩

/-- What is known of such a session does not depend on its timer and its count of bytes. -/
theorem Plain.of_eq {m' : Ps2Mouse} (hm : m.Plain) (hdetect : m'.detectWheel = m.detectWheel)
    (hstate : m'.state = m.state) (hwheel : m'.hasWheel = m.hasWheel)
    (hcommand : m'.commands.command = m.commands.command) : m'.Plain := by
  obtain ⟨h₁, h₂, h₃, h₄⟩ := hm
  refine ⟨hdetect ▸ h₁, ?_, hwheel ▸ h₃, hcommand ▸ h₄⟩
  simpa only [knocks?, hstate] using h₂

/-- A step that is silent, to a session with the same command. -/
theorem StaysPlain.of_silent (hm : s.next.Plain) (h : s.action.command? = none) : StaysPlain s :=
  ⟨hm, by simp [h]⟩

/-- A state outside the knock is entered without a command for a sample rate. -/
theorem staysPlain_enter {state : State} {command : UInt8} (hdetect : m.detectWheel = false)
    (hwheel : m.hasWheel = false) (hknocks : (m.enter state command).next.knocks? = none)
    (hcommand : command ≠ Ps2.setSampleRate) : StaysPlain (m.enter state command) :=
  ⟨⟨hdetect, hknocks, hwheel, fun h => hcommand (Option.some.inj h)⟩,
    fun h => hcommand (Option.some.inj h)⟩

theorem staysPlain_resetDevice (hdetect : m.detectWheel = false) : StaysPlain m.resetDevice :=
  staysPlain_enter (m := { m with hasWheel := false }) hdetect rfl rfl (by decide)

/-- After the id, a mouse that is not asked for a wheel is enabled at once. -/
theorem Plain.afterId (hm : m.Plain) : StaysPlain m.afterId := by
  rw [Ps2Mouse.afterId, hm.detectWheel_eq]
  exact staysPlain_enter hm.detectWheel_eq hm.hasWheel_eq rfl (by decide)

/-- No byte makes a mouse look for a wheel. -/
theorem Received.staysPlain {byte : UInt8} (hs : Received m byte s) (hm : m.Plain) :
    StaysPlain s := by
  have hcounted : m.counted.Plain := hm.of_eq rfl rfl rfl rfl
  cases hs with
  | passed | ackIgnored => exact .of_silent hcounted rfl
  | refused | repeatedEnough => exact (staysPlain_resetDevice hcounted.detectWheel_eq).note _
  | repeated command commands _ _ _ hrepeat =>
    obtain ⟨hlast, hlast'⟩ := LastCommand.command_of_repeat? hrepeat
    exact ⟨hcounted.of_eq rfl rfl rfl (hlast'.trans hlast.symm),
      fun haction => hm.command_ne (hlast.trans haction)⟩
  | tested | resetAcked | enabled =>
    exact .of_silent ⟨hm.detectWheel_eq, rfl, hm.hasWheel_eq, hm.command_ne⟩ rfl
  | idTold => exact hcounted.afterId.note _
  -- The states of a knock are not reached.
  | rateAsked _ hstate | rateAcked _ hstate | wheelTold hstate =>
    exact absurd hm.knocks?_eq (by simp [knocks?, hstate])

/-- No look at the time makes a mouse look for a wheel. -/
theorem Ticked.staysPlain (hs : Ticked m s) (hm : m.Plain) : StaysPlain s := by
  have htimer : ∀ timer, Plain { m with timer } := fun _ => hm.of_eq rfl rfl rfl rfl
  cases hs with
  | waited timer => exact .of_silent (htimer timer) rfl
  | resetAgain timer => exact (staysPlain_resetDevice (htimer timer).detectWheel_eq).note _
  | idAssumed timer => exact (htimer timer).afterId.note _
  | knockRepeated _ _ hstate | wheelAssumed _ _ hstate =>
    -- A mouse that is not asked for a wheel is never in the knock.
    exact absurd hm.knocks?_eq (by rcases hstate with ⟨_, _ | _, h⟩ | h <;> simp [knocks?, h])
  | enableRepeated =>
    have hne : some Ps2.enableReporting ≠ some Ps2.setSampleRate := by decide
    exact ⟨⟨hm.detectWheel_eq, hm.knocks?_eq, hm.hasWheel_eq, hne⟩, hne⟩
  | enableAssumed => exact .of_silent ⟨hm.detectWheel_eq, rfl, hm.hasWheel_eq, hm.command_ne⟩ rfl

/-- No input makes a mouse look for a wheel. -/
theorem Plain.step (hm : m.Plain) (i : Input) : StaysPlain (m.step i) := by
  cases i with
  | byte b => exact (m.received b).staysPlain hm
  | tick now idle => exact (m.ticked now idle).staysPlain hm
  | reset => exact .of_silent ⟨hm.detectWheel_eq, rfl, rfl, nofun⟩ rfl
  | leds wanted => exact .of_silent hm rfl

/-- A session that is not to look for a wheel never asks for one. -/
theorem plain_run (hm : m.Plain) (inputs : List Input) : (m.run inputs).Plain := by
  induction inputs generalizing m with
  | nil => exact hm
  | cons i inputs ih => exact ih (hm.step i).next

/-! ## Every run -/

/-- A wheel is believed in after a whole knock only, whatever a mouse session has gone through.
While it waits for the answer that tells of a wheel, the commands sent since the id after the self
test are those of the knock in their order, each repeated any number of times and acknowledged
before the next. A wheel is believed in exactly if that answer was the id of a wheel mouse and the
session has been settled ever since. A mouse that is not to be knocked at is never sent a sample
rate, and the knock never goes beyond the last rate. -/
theorem wheel_after_knock (timing : Timing) (detectWheel : Bool) (inputs : List Input) :
    let mouse : Ps2Mouse := { timing, detectWheel }
    let m := mouse.run inputs
    (m.state = .readWheelId →
      InTurn [0xF3, 200, 0xF3, 100, 0xF3, 80, 0xF2] (mouse.sinceId [] inputs)) ∧
    (m.hasWheel ↔
      ∃ earlier later, inputs = earlier ++ .byte 0x03 :: later ∧
        (mouse.run earlier).state = .readWheelId ∧
        ∀ part, part <+: later →
          (mouse.run (earlier ++ .byte 0x03 :: part)).state = .awaitEnableAck ∨
          (mouse.run (earlier ++ .byte 0x03 :: part)).state = .initialised) ∧
    (m.hasWheel → m.state = .awaitEnableAck ∨ m.state = .initialised) ∧
    (detectWheel = false → m.hasWheel = false ∧ ∀ i, (m.step i).action.command? ≠ some 0xF3) ∧
    (∀ index rateSent, m.state = .knock index rateSent → index < Ps2.wheelKnock.length) := by
  intro mouse m
  -- A new session waits for nothing, and every run keeps it armed.
  have harmed : Armed (.ps2Mouse mouse) := armed_of_awaited?_eq_none rfl rfl
  have hsettled (m : Ps2Mouse) :
      m.isSettled ↔ m.state = .awaitEnableAck ∨ m.state = .initialised := by simp [isSettled]
  refine ⟨fun hstate => ?_, ?_, fun hwheel => ?_, fun hdetect => ?_,
    fun index rateSent hstate => ?_⟩
  -- Where the reply is awaited all of the knock was sent, and each part was acknowledged.
  · have hknocked : Knocked m (mouse.sinceId [] inputs) :=
      knocked_run (knocked_of_none rfl) harmed inputs
    exact hknocked wholeKnock.length (by simp only [knocks?, hstate])
  · simp only [← hsettled]
    exact hasWheel_iff_run rfl inputs
  · exact (hsettled m).mp (wheelSettled_run (by simp [WheelSettled, mouse]) inputs hwheel)
  -- Without a search for a wheel the mouse never leaves the plain path.
  · have hplain : m.Plain :=
      plain_run ⟨hdetect, rfl, rfl, by simp [mouse, LastCommand.none]⟩ inputs
    exact ⟨hplain.hasWheel_eq, fun i => (hplain.step i).unsent⟩
  · have hrun : Armed (.ps2Mouse m) := by
      have := armed_run harmed (.inr rfl) inputs
      rwa [device_run] at this
    exact index_lt hrun hstate

/-- A command of the knock is asked for again, and a rate is sent twice for want of an answer; the
mouse tells of its wheel. -/
theorem wheel_after_knock_repeated :
    let knock : List Input := [.byte 0xAA, .byte 0x00, .byte 0xFE, .byte 0xFA, .tick 0 true,
      .tick 200 true, .tick 400 true, .byte 0xFA, .byte 0xFA, .byte 0xFA, .byte 0xFA, .byte 0xFA]
    let mouse : Ps2Mouse := { timing := {}, detectWheel := true }
    let plain : Ps2Mouse := { timing := {}, detectWheel := false }
    (mouse.run knock).state = .readWheelId ∧
      mouse.sinceId [] knock = [.heard 0x00, .sent 0xF3, .heard 0xFE, .sent 0xF3, .heard 0xFA,
        .sent 200, .sent 200, .heard 0xFA, .sent 0xF3, .heard 0xFA, .sent 100, .heard 0xFA,
        .sent 0xF3, .heard 0xFA, .sent 80, .heard 0xFA, .sent 0xF2] ∧
      InTurn [0xF3, 200, 0xF3, 100, 0xF3, 80, 0xF2] (mouse.sinceId [] knock) ∧
      (mouse.run (knock ++ [.byte 0x03, .byte 0xFA])).hasWheel ∧
      (mouse.run (knock ++ [.byte 0x03, .byte 0xFA])).state = .initialised ∧
      (plain.run knock).hasWheel = false := by
  intro knock mouse plain
  have hstate : (mouse.run knock).state = .readWheelId := by decide
  obtain ⟨hknocked, -, -, -, -⟩ := wheel_after_knock {} true knock
  obtain ⟨-, hwheel, -, -, -⟩ := wheel_after_knock {} true (knock ++ [.byte 0x03, .byte 0xFA])
  obtain ⟨-, -, -, hplain, -⟩ := wheel_after_knock {} false knock
  refine ⟨hstate, by decide, hknocked hstate, ?_, by decide, (hplain rfl).1⟩
  refine hwheel.mpr ⟨knock, [.byte 0xFA], rfl, hstate, fun part hpart => ?_⟩
  rcases List.prefix_cons_iff.mp hpart with rfl | ⟨_, rfl, htail⟩
  · exact .inl (by decide)
  · rw [List.prefix_nil.mp htail]
    exact .inr (by decide)

end KeyBridge.Device.Ps2Mouse
