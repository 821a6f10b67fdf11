import KeyBridge.Proofs.Device.Epoch

/-!
# Commands and the states that wait on them

A command is worth sending only if the session then waits for what the device answers to it. Here
each state of a keyboard or mouse session is given the command whose answer it waits for from the
first byte on, `awaited?`, and each session the command it sent last. The invariant `Armed` says
that a state which waits for an answer was entered with its command.

A device can ask for the last command again. That request is answered in every state but the one
before anything was sent, also when the answer has begun to come in or nothing is waited for any
more; only there the command and the state do not belong together.

## Key results

- `AtKeyboard.answers_receive`, `AtKeyboard.agrees_tick` and those of mice: what one step sends
- `armed_run`: the invariant of every run
- `send_awaited`: after every run, what is sent is awaited, repetitions apart
-/

namespace KeyBridge.Device

open Command

/-! ## What is waited for -/

/-- The command whose answer is awaited, from its first byte on. -/
def AtKeyboard.awaited? (k : AtKeyboard) : Option UInt8 :=
  match k.state with
  | .awaitAck => some Ps2.reset
  | .readId1 => some Ps2.getId
  | .setup => some Ps2.setAllMakeBreak
  | .setLeds .command => some Ps2.setLockLeds
  | .setLeds .value => some k.pendingLeds.bitmap
  | .uninitialised | .awaitSelfTest | .readId2 | .initialised => none

/-- The command whose answer a mouse session waits for. -/
def Ps2Mouse.awaited? (m : Ps2Mouse) : Option UInt8 :=
  match m.state with
  | .awaitAck => some Ps2.reset
  | .knock _ false => some Ps2.setSampleRate
  | .knock index true => Ps2.wheelKnock[index]?
  | .readWheelId => some Ps2.getId
  | .awaitEnableAck => some Ps2.enableReporting
  | .uninitialised | .awaitSelfTest | .awaitId | .initialised => none

/-- The command whose answer a session waits for. -/
def awaited? : Device → Option UInt8
  | atKeyboard k => k.awaited?
  | ps2Mouse m => m.awaited?
  | xt _ | amiga _ | m0110 _ => none

/-- The place in the knock. -/
def Ps2Mouse.place? (m : Ps2Mouse) : Option Nat :=
  match m.state with
  | .knock index _ => some index
  | _ => none

/-- The place in the knock at which a session is. -/
def place? : Device → Option Nat
  | ps2Mouse m => m.place?
  | atKeyboard _ | xt _ | amiga _ | m0110 _ => none

/-- The command that was sent last. -/
def lastCommand? : Device → Option UInt8
  | atKeyboard k => k.commands.command
  | ps2Mouse m => m.commands.command
  | xt _ | amiga _ | m0110 _ => none

/-- Whether the first byte of an answer has come and the next one is awaited. -/
def hasHeard : Device → Bool
  | atKeyboard k => k.state == .awaitSelfTest || k.state == .readId2
  | ps2Mouse m => m.state == .awaitSelfTest || m.state == .awaitId
  | xt _ | amiga _ | m0110 _ => false

/-! ## Steps -/

/-- A session that waits for an answer sent the command last, and the place in the knock is one of
the sample rates. -/
structure Armed (d : Device) : Prop where
  last_eq : ∀ c, d.awaited? = some c → d.lastCommand? = some c
  place_lt : ∀ index, d.place? = some index → index < Ps2.wheelKnock.length

/-- A step after which the session waits for the answer to what it sends. -/
structure Agrees (s : Step Device) : Prop where
  armed : s.next.Armed
  sent : ∀ c, s.action = .send c → s.next.awaited? = some c

/-- A step that repeats the last command although its answer has begun to come in or is not waited
for any more. -/
structure Repeats (d : Device) (s : Step Device) : Prop where
  armed : s.next.Armed
  sent : ∀ c, s.action = .send c → d.lastCommand? = some c
  unawaited : d.awaited? = none
  heard : d.isInitialised ∧ s.next.isInitialised ∨ d.hasHeard

/-- A step that sends nothing. -/
theorem Agrees.of_silent {s : Step Device} (h : s.next.Armed) (hs : s.action.command? = none) :
    Agrees s :=
  ⟨h, fun c hc => by simp [hc, Action.command?] at hs⟩

theorem Agrees.note {s : Step Device} (h : Agrees s) (n : Diagnostic) : Agrees (s.note n) :=
  ⟨h.armed, h.sent⟩

/-- A step can be noted before or after it is taken for one of a device. -/
theorem Step.map_note {σ τ : Type} (f : σ → τ) (s : Step σ) (n : Diagnostic) :
    (s.note n).map f = (s.map f).note n :=
  rfl

/-- The last command is sent again, and nothing else changes of what is waited for. -/
theorem answers_again {d d' : Device} {c : UInt8} {notes : List Diagnostic} (hd : d.Armed)
    (hd' : d'.Armed) (hawaited : d'.awaited? = d.awaited?) (hlast : d.lastCommand? = some c)
    (hrest : d.awaited? = none → d.isInitialised ∧ d'.isInitialised ∨ d.hasHeard) :
    Agrees ⟨d', .send c, notes⟩ ∨ Repeats d ⟨d', .send c, notes⟩ := by
  cases hd_awaited : d.awaited? with
  | none =>
    exact .inr ⟨hd', fun c' hc' => (Action.send.inj hc') ▸ hlast, hd_awaited, hrest hd_awaited⟩
  | some c₀ =>
    -- An answer that is awaited is that to the last command.
    obtain rfl : c₀ = c := Option.some.inj ((hd.last_eq c₀ hd_awaited).symm.trans hlast)
    refine .inl ⟨hd', fun c' hc' => ?_⟩
    rw [← Action.send.inj hc', hawaited, hd_awaited]

/-- Only the last command is repeated, and it stays the last one. -/
theorem LastCommand.command_of_repeat? {l l' : LastCommand} {c : UInt8}
    (h : l.repeat? = some (c, l')) : l.command = some c ∧ l'.command = some c := by
  unfold repeat? at h
  split at h
  · next hc =>
    split at h
    · obtain ⟨rfl, rfl⟩ := Prod.mk.inj (Option.some.inj h)
      exact ⟨hc, hc⟩
    · simp at h
  · simp at h

/-! ## AT and PS/2 keyboards -/

namespace AtKeyboard

variable {k : AtKeyboard}

/-- A keyboard session is armed if the command that it waits for is the last one sent. -/
theorem armed_iff : Armed (.atKeyboard k) ↔
    ∀ c, k.awaited? = some c → k.commands.command = some c :=
  ⟨fun h => h.last_eq, fun h => ⟨h, nofun⟩⟩

/-- A state that waits for no answer can be entered with any command. -/
theorem armed_of_awaited?_eq_none (h : k.awaited? = none) : Armed (.atKeyboard k) :=
  armed_iff.mpr fun c hc => by simp [h] at hc

/-- A command is issued into a state that waits for its answer. -/
theorem agrees_issue {c : UInt8} (h : k.awaited? = some c) :
    Agrees ((k.issue c).map .atKeyboard) := by
  refine ⟨armed_iff.mpr fun c' hc' => ?_, fun c' hc' => ?_⟩
  · exact congrArg some (Option.some.inj (h.symm.trans hc'))
  · exact h.trans (congrArg some (Action.send.inj hc'))

theorem agrees_resetDevice (k : AtKeyboard) : Agrees (k.resetDevice.map .atKeyboard) :=
  agrees_issue rfl

/-- The reset of a keyboard that said something unknown is waited for. -/
theorem agrees_refuse (k : AtKeyboard) (byte : UInt8) :
    Agrees ((k.refuse byte).map .atKeyboard) :=
  k.agrees_resetDevice.note _

theorem agrees_requestId (k : AtKeyboard) : Agrees (k.requestId.map .atKeyboard) :=
  agrees_issue rfl

/-- A step that sends nothing into a state that waits for no answer. -/
theorem agrees_of_none {s : Step AtKeyboard} (h : s.next.awaited? = none)
    (hs : s.action.command? = none) : Agrees (s.map .atKeyboard) :=
  .of_silent (armed_of_awaited?_eq_none h) hs

/-- After an id, what is sent is the setup of a terminal keyboard, or nothing. -/
theorem agrees_identified (k : AtKeyboard) : Agrees (k.identified.map .atKeyboard) := by
  unfold identified
  split
  · exact (agrees_issue (k := { k with codeSet := .set3, state := .setup, retried := false })
      rfl).note _
  · exact agrees_of_none rfl rfl

/-- What a request to repeat the last command leads to. -/
theorem answers_repeatCommand (hk : Armed (.atKeyboard k)) (hs : k.state ≠ .uninitialised) :
    Agrees (k.repeatCommand.map .atKeyboard) ∨
      Repeats (.atKeyboard k) (k.repeatCommand.map .atKeyboard) := by
  unfold repeatCommand
  cases hrepeat : k.commands.repeat? with
  | none => exact .inl (k.agrees_resetDevice.note _)
  | some p =>
    obtain ⟨c, commands⟩ := p
    obtain ⟨hlast, hlast'⟩ := LastCommand.command_of_repeat? hrepeat
    have hk' : Armed (.atKeyboard { k with commands }) :=
      armed_iff.mpr fun c' hc' => hlast'.trans (hlast.symm.trans (hk.last_eq c' hc'))
    -- A state without a command of its own is the normal one or in the middle of an answer.
    refine answers_again hk hk' rfl hlast fun hnone => ?_
    cases hstate : k.state <;> simp_all [Device.awaited?, awaited?, Device.isInitialised,
      isInitialised, hasHeard]

theorem agrees_replugged (k : AtKeyboard) : Agrees (k.replugged.map .atKeyboard) :=
  agrees_requestId _

/-- When the id is asked for a second time it is waited for again. -/
theorem agrees_requestId_again (k : AtKeyboard) :
    Agrees ((k.requestId.map fun k => { k with retried := true }).map .atKeyboard) :=
  agrees_issue (k := { k with state := .readId1, id := 0, retried := true }) rfl

/-- What is sent when a byte comes in is awaited, unless the last command was asked for again. -/
theorem answers_receive (hk : Armed (.atKeyboard k)) (byte : UInt8) :
    Agrees ((k.receive byte).map .atKeyboard) ∨ byte = Ps2.resendRequest ∧
      Repeats (.atKeyboard k) ((k.receive byte).map .atKeyboard) := by
  have hk' : Armed (.atKeyboard { k with activity := k.activity + 1 }) := ⟨hk.last_eq, nofun⟩
  by_cases hbyte : byte = Ps2.resendRequest
  -- A request to repeat is the same in all states, but for the one in which nothing was sent yet.
  · simp only [receive, hbyte, if_true, true_and]
    split
    · exact .inl (agrees_refuse _ _)
    · next hs =>
      exact (answers_repeatCommand hk' hs).imp_right
        fun h => ⟨h.armed, h.sent, h.unawaited, h.heard⟩
  refine .inl ?_
  obtain ⟨_, _, state, _, _, _, _, _, _, _, _, _, _⟩ := k
  cases state <;> simp only [receive, hbyte, if_false]
  case uninitialised =>
    split
    · exact agrees_requestId _
    · exact agrees_refuse _ _
  case awaitAck =>
    split
    · exact agrees_requestId _
    · split
      · exact agrees_of_none rfl rfl
      · exact agrees_refuse _ _
  case awaitSelfTest =>
    split
    · exact agrees_requestId _
    · split
      · exact (agrees_resetDevice _).note _
      · exact agrees_refuse _ _
  case readId1 =>
    split
    -- The answer may begin with an acknowledgement, which changes nothing.
    · exact .of_silent hk' rfl
    · exact agrees_of_none rfl rfl
  case readId2 => exact agrees_identified _
  case setup =>
    split
    · exact agrees_of_none rfl rfl
    · exact agrees_refuse _ _
  -- While the LEDs are set, keys come in between, and all but an acknowledgement is passed on or
  -- noted.
  case setLeds stage =>
    split
    · cases stage with
      | command => exact agrees_issue rfl
      | value => exact agrees_of_none rfl rfl
    · split
      · exact agrees_replugged _
      · exact .of_silent hk' rfl
  case initialised =>
    split
    · exact .of_silent hk' rfl
    · split
      · exact .of_silent hk' rfl
      · split
        · exact agrees_replugged _
        · exact .of_silent hk' rfl

/-- What a keyboard session sends when it gives up waiting is waited for. -/
theorem agrees_expire (hk : Armed (.atKeyboard k)) : Agrees (k.expire.map .atKeyboard) := by
  obtain ⟨_, _, state, _, _, retried, _, _, _, _, _, _, _⟩ := k
  cases state with
  | uninitialised | awaitAck | awaitSelfTest => exact agrees_resetDevice _
  -- The id is asked for twice, and then taken to be that of an ordinary keyboard.
  | readId1 | readId2 =>
    cases retried with
    | true => exact agrees_of_none rfl rfl
    | false => exact agrees_requestId_again _
  | setup =>
    cases retried with
    | true => exact agrees_of_none rfl rfl
    | false => exact agrees_issue rfl
  | setLeds stage => exact agrees_of_none rfl rfl
  | initialised => exact .of_silent hk rfl

/-- What is sent as time passes is awaited. -/
theorem agrees_tick (hk : Armed (.atKeyboard k)) (now : UInt32) (idle : Bool) :
    Agrees ((k.tick now idle).map .atKeyboard) := by
  have hk' : ∀ timer, Armed (.atKeyboard { k with timer }) := fun _ => ⟨hk.last_eq, nofun⟩
  simp only [tick]
  split
  · unfold updateLeds
    split
    · exact .of_silent (hk' _) rfl
    · exact agrees_issue rfl
  · split
    · exact .of_silent (hk' _) rfl
    · rw [Step.map_note]
      exact (agrees_expire (hk' _)).note _

end AtKeyboard
/-! ## PS/2 mice -/

namespace Ps2Mouse

variable {m : Ps2Mouse}

/-- A mouse session is armed if the command that it waits for is the last one sent, at a place
within the knock. -/
theorem armed_iff : Armed (.ps2Mouse m) ↔
    (∀ c, m.awaited? = some c → m.commands.command = some c) ∧
      ∀ index, m.place? = some index → index < Ps2.wheelKnock.length :=
  ⟨fun h => ⟨h.last_eq, h.place_lt⟩, fun h => ⟨h.1, h.2⟩⟩

/-- A mouse state that waits for no answer, outside the knock, can be entered with any command. -/
theorem armed_of_awaited?_eq_none (h : m.awaited? = none)
    (hplace : m.place? = none) : Armed (.ps2Mouse m) :=
  armed_iff.mpr ⟨fun c hc => by simp [h] at hc, fun index hs => by simp [hplace] at hs⟩

/-- What is waited for depends on the state alone. -/
theorem armed_of_eq {m' : Ps2Mouse} (hm : Armed (.ps2Mouse m)) (hs : m'.state = m.state)
    (hc : m'.commands.command = m.commands.command) : Armed (.ps2Mouse m') := by
  have hawaited : m'.awaited? = m.awaited? := by simp only [awaited?, hs]
  have hplace : m'.place? = m.place? := by simp only [place?, hs]
  obtain ⟨hlast, hlt⟩ := armed_iff.mp hm
  exact armed_iff.mpr ⟨hc ▸ hawaited ▸ hlast, hplace ▸ hlt⟩

/-- A step that sends nothing into a mouse state that waits for no answer. -/
theorem agrees_of_none {s : Step Ps2Mouse} (h : s.next.awaited? = none)
    (hplace : s.next.place? = none) (hs : s.action.command? = none) : Agrees (s.map .ps2Mouse) :=
  .of_silent (armed_of_awaited?_eq_none h hplace) hs

/-- A step into the state that waits for the command that it sends. -/
theorem agrees_of_sent {s : Step Ps2Mouse} {c : UInt8} (haction : s.action = .send c)
    (hlast : s.next.commands.command = some c) (h : s.next.awaited? = some c)
    (hplace : ∀ index, s.next.place? = some index → index < Ps2.wheelKnock.length) :
    Agrees (s.map .ps2Mouse) := by
  refine ⟨armed_iff.mpr ⟨fun c' hc' => ?_, hplace⟩, fun c' hc' => ?_⟩
  · exact hlast.trans (h.symm.trans hc')
  · exact h.trans (congrArg some (Action.send.inj (haction.symm.trans hc')))

theorem agrees_resetDevice (m : Ps2Mouse) : Agrees (m.resetDevice.map .ps2Mouse) :=
  agrees_of_sent rfl rfl rfl nofun

theorem agrees_refuse (m : Ps2Mouse) (byte : UInt8) : Agrees ((m.refuse byte).map .ps2Mouse) :=
  m.agrees_resetDevice.note _

theorem agrees_enable (m : Ps2Mouse) : Agrees (m.enable.map .ps2Mouse) :=
  agrees_of_sent rfl rfl rfl nofun

/-- After the id, what is sent is the first command of the knock or the one to report, and it is
waited for. -/
theorem agrees_afterId (m : Ps2Mouse) : Agrees (m.afterId.map .ps2Mouse) := by
  unfold afterId
  split
  · refine agrees_of_sent rfl rfl rfl fun index hindex => ?_
    obtain rfl : 0 = index := Option.some.inj hindex
    decide
  · exact m.agrees_enable

/-- A sample rate of the knock is waited for. -/
theorem agrees_sendRate (m : Ps2Mouse) {index : Nat} (h : index < Ps2.wheelKnock.length) :
    Agrees ((m.sendRate index).map .ps2Mouse) := by
  have hrate : Ps2.wheelKnock[index]? = some (Ps2.wheelKnock.getD index 0) := by
    simp [List.getD_eq_getElem?_getD, h]
  refine agrees_of_sent rfl rfl hrate fun index' hindex => ?_
  obtain rfl : index = index' := Option.some.inj hindex
  exact h

/-- After a sample rate, what is sent is the next command of the knock or the question for the id,
and it is waited for. -/
theorem agrees_nextRate (m : Ps2Mouse) (index : Nat) :
    Agrees ((m.nextRate index).map .ps2Mouse) := by
  unfold nextRate
  split
  · next h =>
    refine agrees_of_sent rfl rfl rfl fun index' hindex => ?_
    obtain rfl : index + 1 = index' := Option.some.inj hindex
    exact h
  · exact agrees_of_sent rfl rfl rfl nofun

/-- What a request to repeat the last command of a mouse leads to. -/
theorem answers_repeatCommand (hm : Armed (.ps2Mouse m)) (hs : m.state ≠ .uninitialised)
    (hs' : m.state ≠ .initialised) : Agrees (m.repeatCommand.map .ps2Mouse) ∨
      Repeats (.ps2Mouse m) (m.repeatCommand.map .ps2Mouse) := by
  unfold repeatCommand
  cases hrepeat : m.commands.repeat? with
  | none => exact .inl (m.agrees_resetDevice.note _)
  | some p =>
    obtain ⟨c, commands⟩ := p
    obtain ⟨hlast, hlast'⟩ := LastCommand.command_of_repeat? hrepeat
    refine answers_again hm (armed_of_eq hm rfl (hlast'.trans hlast.symm)) rfl hlast
      fun hnone => .inr ?_
    cases hstate : m.state with
    -- A command of the knock is tried once more, then the mouse is taken to have no wheel.
    | knock index sent =>
      -- The place in the knock has a rate, so that it waits for something.
      have := (armed_iff.mp hm).2 index (by simp [place?, hstate])
      cases sent <;> simp_all [Device.awaited?, awaited?]
    | _ => simp_all [Device.awaited?, awaited?, hasHeard]

/-- What is sent when a byte of a mouse comes in is awaited, unless the last command was asked for
again. -/
theorem answers_receive (hm : Armed (.ps2Mouse m)) (byte : UInt8) :
    Agrees ((m.receive byte).map .ps2Mouse) ∨ byte = Ps2.resendRequest ∧
      Repeats (.ps2Mouse m) ((m.receive byte).map .ps2Mouse) := by
  have hm' : Armed (.ps2Mouse { m with activity := m.activity + 1 }) :=
    armed_of_eq hm rfl rfl
  by_cases hstate : m.state = .initialised
  -- A mouse that is ready has each byte passed on.
  · simp only [receive, hstate, if_true]
    exact .inl (.of_silent (armed_of_awaited?_eq_none rfl rfl) rfl)
  by_cases hbyte : byte = Ps2.resendRequest
  · simp only [receive, hstate, hbyte, if_false, if_true, true_and]
    split
    · exact .inl (agrees_refuse _ _)
    · next hs =>
      exact (answers_repeatCommand hm' hs hstate).imp_right
        fun h => ⟨h.armed, h.sent, h.unawaited, h.heard⟩
  refine .inl ?_
  obtain ⟨_, _, state, _, _, _, _, _, _⟩ := m
  cases state <;> simp only [receive, hbyte, reduceCtorEq, if_false]
  case uninitialised =>
    split
    · exact agrees_of_none rfl rfl rfl
    · exact agrees_refuse _ _
  case awaitAck =>
    split
    · exact agrees_of_none rfl rfl rfl
    · split
      · exact agrees_of_none rfl rfl rfl
      · exact agrees_refuse _ _
  case awaitSelfTest =>
    split
    · exact agrees_of_none rfl rfl rfl
    · split
      · exact (agrees_resetDevice _).note _
      · exact agrees_refuse _ _
  case awaitId => exact (agrees_afterId _).note _
  -- Each acknowledgement leads on in the knock, and anything else ends it.
  case knock index sent =>
    have hindex := (armed_iff.mp hm).2 index rfl
    split
    · split
      · exact agrees_nextRate _ _
      · exact agrees_sendRate _ hindex
    · exact agrees_refuse _ _
  case readWheelId =>
    split
    -- The answer may begin with an acknowledgement, which changes nothing.
    · exact .of_silent hm' rfl
    · exact (agrees_enable _).note _
  case awaitEnableAck =>
    split
    · exact agrees_of_none rfl rfl rfl
    · exact agrees_refuse _ _
  case initialised => exact absurd rfl hstate

/-- A command of the knock that is tried again is waited for again. -/
theorem agrees_retry (hm : Armed (.ps2Mouse m)) (h : m.awaited? ≠ none) :
    Agrees (m.retry.map .ps2Mouse) := by
  unfold retry
  cases hrepeat : m.commands.repeat? with
  | none => exact .of_silent (armed_of_eq hm rfl rfl) rfl
  | some p =>
    obtain ⟨c, commands⟩ := p
    obtain ⟨c', hc'⟩ := Option.ne_none_iff_exists'.mp h
    -- What is repeated is the last command, for which the session waits already.
    obtain ⟨hlast, hlast'⟩ := LastCommand.command_of_repeat? hrepeat
    obtain rfl : c' = c := Option.some.inj ((hm.last_eq c' hc').symm.trans hlast)
    exact ⟨armed_of_eq hm rfl (hlast'.trans hlast.symm),
      fun c hc => hc'.trans (congrArg some (Action.send.inj hc))⟩

/-- What a mouse session sends when it gives up waiting is waited for. -/
theorem agrees_expire (hm : Armed (.ps2Mouse m)) : Agrees (m.expire.map .ps2Mouse) := by
  obtain ⟨_, _, state, _, retried, _, _, _, _⟩ := m
  cases state with
  | uninitialised | awaitAck | awaitSelfTest => exact agrees_resetDevice _
  | awaitId => exact agrees_afterId _
  | knock index sent =>
    cases retried with
    | true => exact agrees_enable _
    | false =>
      have hindex := (armed_iff.mp hm).2 index rfl
      refine agrees_retry hm ?_
      cases sent <;> simp [awaited?, hindex]
  | readWheelId =>
    cases retried with
    | true => exact agrees_enable _
    | false => exact agrees_retry hm (by simp [awaited?])
  | awaitEnableAck =>
    cases retried with
    | true => exact agrees_of_none rfl rfl rfl
    | false => exact agrees_of_sent rfl rfl rfl nofun
  | initialised => exact .of_silent hm rfl

/-- What is sent to a mouse as time passes is awaited. -/
theorem agrees_tick (hm : Armed (.ps2Mouse m)) (now : UInt32) (idle : Bool) :
    Agrees ((m.tick now idle).map .ps2Mouse) := by
  have hm' : ∀ timer, Armed (.ps2Mouse { m with timer }) :=
    fun _ => armed_of_eq hm rfl rfl
  simp only [tick]
  split
  · exact .of_silent (hm' _) rfl
  · rw [Step.map_note]
    exact (agrees_expire (hm' _)).note _

end Ps2Mouse

/-! ## Runs -/

/-- Whether commands are sent to a device which answers them and can ask for them again. -/
def isPs2 (d : Device) : Prop := d.protocol = .atKeyboard ∨ d.protocol = .ps2Mouse

variable {d : Device}

/-- What a step sends is awaited, unless the device asked for the last command again. -/
theorem answers_step (hd : d.Armed) (hp : d.isPs2) (i : Input) :
    Agrees (d.step i) ∨ i = .byte Ps2.resendRequest ∧ Repeats d (d.step i) := by
  cases d with
  | atKeyboard k =>
    cases i with
    | byte b =>
      exact (AtKeyboard.answers_receive hd b).imp_right fun ⟨hb, h⟩ => ⟨congrArg _ hb, h⟩
    | tick now idle => exact .inl (AtKeyboard.agrees_tick hd now idle)
    -- A reset and other LEDs send nothing.
    | reset => exact .inl (.of_silent (AtKeyboard.armed_of_awaited?_eq_none rfl) rfl)
    | leds wanted => exact .inl (.of_silent ⟨hd.last_eq, nofun⟩ rfl)
  | ps2Mouse m =>
    cases i with
    | byte b =>
      exact (Ps2Mouse.answers_receive hd b).imp_right fun ⟨hb, h⟩ => ⟨congrArg _ hb, h⟩
    | tick now idle => exact .inl (Ps2Mouse.agrees_tick hd now idle)
    | reset => exact .inl (.of_silent (Ps2Mouse.armed_of_awaited?_eq_none rfl rfl) rfl)
    | leds wanted => exact .inl (.of_silent hd rfl)
  | xt k | amiga k | m0110 k => exact absurd hp (by simp [isPs2, protocol])

theorem isPs2_step (hp : d.isPs2) (i : Input) : (d.step i).next.isPs2 := by
  rwa [isPs2, step_protocol]

/-- A session that waits for an answer has sent its command last, after every run. -/
theorem armed_run (hd : d.Armed) (hp : d.isPs2) (inputs : List Input) : (d.run inputs).Armed := by
  -- One step keeps the invariant whether it agrees or repeats.
  induction inputs generalizing d with
  | nil => exact hd
  | cons i inputs ih =>
    have hnext : (d.step i).next.Armed :=
      (answers_step hd hp i).elim (·.armed) fun h => h.2.armed
    exact ih hnext (isPs2_step hp i)

/-- A new session waits for nothing. -/
theorem armed_ofConfig (c : Config) : (ofConfig c).Armed := by
  unfold ofConfig
  split
  · exact AtKeyboard.armed_of_awaited?_eq_none rfl
  · exact Ps2Mouse.armed_of_awaited?_eq_none rfl rfl
  · exact ⟨nofun, nofun⟩
  · exact ⟨nofun, nofun⟩
  · exact ⟨nofun, nofun⟩

/-- Whatever a keyboard or mouse session has gone through, a command that it sends is one whose
answer it then awaits. The exception is the last command, sent once more because the device asked
for it when nothing was awaited: by a session that is ready and stays so, or by one that has heard
the beginning of the answer. -/
theorem send_awaited {c : Config} (hc : c.protocol = .atKeyboard ∨ c.protocol = .ps2Mouse)
    (inputs : List Input) (i : Input) {command : UInt8}
    (hsend : (((ofConfig c).run inputs).step i).action = .send command) :
    let d := (ofConfig c).run inputs
    let next := (d.step i).next
    next.awaited? = some command ∨
      i = .byte Ps2.resendRequest ∧ d.lastCommand? = some command ∧ d.awaited? = none ∧
        (d.isInitialised ∧ next.isInitialised ∨ d.hasHeard) := by
  have hp : (ofConfig c).isPs2 := by
    rcases hc with hc | hc
    · exact .inl (by rw [ofConfig, hc]; rfl)
    · exact .inr (by rw [ofConfig, hc]; rfl)
  have hrun : ((ofConfig c).run inputs).isPs2 := by rwa [isPs2, protocol_run]
  -- The run keeps the session armed, so that its next step agrees or repeats.
  rcases answers_step (armed_run (armed_ofConfig c) hp inputs) hrun i with h | ⟨hi, h⟩
  · exact .inl (h.sent command hsend)
  · exact .inr ⟨hi, h.sent command hsend, h.unawaited, h.heard⟩

/-- The first rate of the knock is sent to a mouse that asked for the command before it again. -/
theorem send_awaited_firstRate :
    let mouse := (ofConfig { protocol := .ps2Mouse }).run [.byte 0xAA, .byte 0x00, .byte 0xFE]
    (mouse.step (.byte 0xFA)).action = .send 200 ∧
      (mouse.step (.byte 0xFA)).next.awaited? = some 200 :=
  ⟨rfl, (send_awaited (.inr rfl) [.byte 0xAA, .byte 0x00, .byte 0xFE] (.byte 0xFA)
    rfl).resolve_right (by decide)⟩

/-- The exceptions are real. A keyboard that is ready, has sent the first byte of its id or has
acknowledged a reset gets the last command again, as does a mouse that has acknowledged a reset or
has passed its self test after it; none of these sessions then awaits the answer from its
beginning. -/
theorem repeated_unawaited :
    [(Protocol.atKeyboard, [0xAA, 0xFA, 0xAB, 0x83]), (.atKeyboard, [0xAA, 0xFA, 0xAB]),
        (.atKeyboard, [0x00, 0xFA]), (.ps2Mouse, [0x00, 0xFA]), (.ps2Mouse, [0x00, 0xFA, 0xAA])].map
      (fun p =>
        let d := (ofConfig { protocol := p.1 }).run (p.2.map .byte)
        let s := d.step (.byte Ps2.resendRequest)
        (s.action, s.next.awaited?)) =
    [(.send Ps2.getId, none), (.send Ps2.getId, none), (.send Ps2.reset, none),
      (.send Ps2.reset, none), (.send Ps2.reset, none)] := by
  decide

end KeyBridge.Device
