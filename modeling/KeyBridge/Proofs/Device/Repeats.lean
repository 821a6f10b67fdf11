import KeyBridge.Proofs.Device.Steps

/-!
# Repeating what was sent

A keyboard or a mouse that did not understand a command asks for it again, and gets it again three
times at most. Here is what it gets: in every state that waits for something, the command that this
state waits on, although states and commands are kept apart. `sentIn` writes down what a session
sends in a run, each command with whether it was sent for the first time.

## Key results

- `Sends`: what a step can send, given what was sent last
- `told_run`: the last command and its count tell how what was sent ends
- `AtKeyboard.owes_run`, `Ps2Mouse.owes_run`: what a state waits on is the last command
- `request_answered`: how a request for the last command is answered
-/

namespace KeyBridge.Device

open Command

/-! ## What a step sends -/

/-- What a step sends, given what was sent last: nothing, a command for the first time, or the last
command again. -/
inductive Sends (last : LastCommand) : Action → LastCommand → Prop where
  | nothing {action : Action} (h : action.command? = none) : Sends last action last
  | afresh (command : UInt8) : Sends last (.send command) (.sent command)
  | again (command : UInt8) (next : LastCommand) (h : last.repeat? = some (command, next)) :
      Sends last (.send command) next

/-- A byte has a keyboard session send nothing, a new command or the last one again. -/
theorem AtKeyboard.Received.sends {k : AtKeyboard} {byte : UInt8} {s : Step AtKeyboard}
    (hs : Received k byte s) : Sends k.commands s.action s.next.commands := by
  cases hs with
  | refused | repeatedEnough | tested | identifiedTerminal | ledsAcked | replugged =>
    exact .afresh _
  | repeated _ _ _ _ hrepeat => exact .again _ _ hrepeat
  | resetAcked | idBegun | identified | setupAcked | bitmapAcked | ackIgnored => exact .nothing rfl
  | kept _ _ _ _ _ hsilent => exact .nothing hsilent

/-- A tick has a keyboard session send nothing, a new command or the last one again. -/
theorem AtKeyboard.Ticked.sends {k : AtKeyboard} {s : Step AtKeyboard} (hs : Ticked k s) :
    Sends k.commands s.action s.next.commands := by
  cases hs with
  | waited | idAssumed | setupAssumed | ledsAssumed => exact .nothing rfl
  | ledsBegun | resetAgain | idAskedAgain | setupRepeated => exact .afresh _

/-- After the id a new command is sent. -/
theorem Ps2Mouse.sends_afterId (m : Ps2Mouse) :
    Sends m.commands m.afterId.action m.afterId.next.commands := by
  unfold afterId
  split
  · exact .afresh _
  · exact .afresh _

/-- After a sample rate a new command is sent. -/
theorem Ps2Mouse.sends_nextRate (m : Ps2Mouse) (index : Nat) :
    Sends m.commands (m.nextRate index).action (m.nextRate index).next.commands := by
  unfold nextRate
  split
  · exact .afresh _
  · exact .afresh _

/-- A retry sends the last command again, or nothing. -/
theorem Ps2Mouse.sends_retry (m : Ps2Mouse) :
    Sends m.commands m.retry.action m.retry.next.commands := by
  unfold retry
  split
  · next h => exact .again _ _ h
  · exact .nothing rfl

/-- A byte has a mouse session send nothing, a new command or the last one again. -/
theorem Ps2Mouse.Received.sends {m : Ps2Mouse} {byte : UInt8} {s : Step Ps2Mouse}
    (hs : Received m byte s) : Sends m.commands s.action s.next.commands := by
  cases hs with
  | passed | tested | resetAcked | ackIgnored | enabled => exact .nothing rfl
  | refused | repeatedEnough | rateAsked | wheelTold => exact .afresh _
  | repeated _ _ _ _ _ hrepeat => exact .again _ _ hrepeat
  | idTold => exact m.counted.sends_afterId
  | rateAcked index => exact m.counted.sends_nextRate index

/-- A tick has a mouse session send nothing, a new command or the last one again. -/
theorem Ps2Mouse.Ticked.sends {m : Ps2Mouse} {s : Step Ps2Mouse} (hs : Ticked m s) :
    Sends m.commands s.action s.next.commands := by
  cases hs with
  | waited | enableAssumed => exact .nothing rfl
  | resetAgain | wheelAssumed | enableRepeated => exact .afresh _
  | idAssumed timer => exact ({ m with timer } : Ps2Mouse).sends_afterId
  | knockRepeated timer => exact ({ m with timer } : Ps2Mouse).sends_retry

/-- The last command and how often it has been repeated. -/
def commands : Device → LastCommand
  | atKeyboard k => k.commands
  | ps2Mouse m => m.commands
  | xt _ | amiga _ | m0110 _ => .none

variable {d : Device}

/-- Every input but a reset has a session send nothing, a new command or the last one again. -/
theorem sends_step (hp : d.isPs2) {i : Input} (hi : i ≠ .reset) :
    Sends d.commands (d.step i).action (d.step i).next.commands := by
  cases d with
  | atKeyboard k =>
    cases i with
    | byte b => exact (k.received b).sends
    | tick now idle => exact (k.ticked now idle).sends
    -- A reset forgets the last command, and is left out here.
    | reset => exact absurd rfl hi
    | leds wanted => exact .nothing rfl
  | ps2Mouse m =>
    cases i with
    | byte b => exact (m.received b).sends
    | tick now idle => exact (m.ticked now idle).sends
    | reset => exact absurd rfl hi
    | leds wanted => exact .nothing rfl
  | xt k | amiga k | m0110 k => exact absurd hp (by simp [isPs2, protocol])

/-! ## What a run has sent -/

/-- A command that was sent. -/
structure Sent where
  command : UInt8
  /-- Whether it was no repetition. -/
  afresh : Bool
deriving DecidableEq, Repr

/-- What a step adds to that. A command is a repetition if it is the last one, taken to be sent once
more (`Sends.again`), and is sent afresh otherwise (`Sends.afresh`). -/
def sentBy (last : LastCommand) (action : Action) (next : LastCommand) : List Sent :=
  (action.command?.map fun command =>
    ⟨command, decide (last.repeat? ≠ some (command, next))⟩).toList

/-- What a session sends in a run, after what it has sent before. It forgets that at a reset. -/
def sentIn (d : Device) (sent : List Sent) : List Input → List Sent
  | [] => sent
  | i :: inputs =>
    let s := d.step i
    s.next.sentIn
      (if i = .reset then [] else sent ++ sentBy d.commands s.action s.next.commands) inputs

/-- What was sent ends with a command sent for the first time and a number of its repetitions. -/
def EndsWith (sent : List Sent) (command : UInt8) (n : Nat) : Prop :=
  ∃ before, sent = before ++ ⟨command, true⟩ :: List.replicate n ⟨command, false⟩

/-- A command that was sent afresh was not repeated. -/
theorem EndsWith.afresh (sent : List Sent) (command : UInt8) :
    EndsWith (sent ++ [⟨command, true⟩]) command 0 :=
  ⟨sent, rfl⟩

/-- A command that is sent again was repeated once more. -/
theorem EndsWith.again {sent : List Sent} {command : UInt8} {n : Nat}
    (h : EndsWith sent command n) : EndsWith (sent ++ [⟨command, false⟩]) command (n + 1) := by
  obtain ⟨before, rfl⟩ := h
  exact ⟨before, by rw [List.replicate_succ', List.append_assoc, List.cons_append]⟩

/-- The number of repetitions can be read off what was sent. -/
theorem EndsWith.eq_length {sent : List Sent} {command : UInt8} {n : Nat}
    (h : EndsWith sent command n) : n = (sent.reverse.takeWhile (!·.afresh)).length := by
  obtain ⟨before, rfl⟩ := h
  rw [List.reverse_append, List.reverse_cons, List.reverse_replicate, List.append_assoc,
    List.takeWhile_append_of_pos (by simp), List.singleton_append,
    List.takeWhile_cons_of_neg (by simp), List.append_nil, List.length_replicate]

/-- What the last command and the count of its repetitions tell of all that was sent. -/
inductive Told : LastCommand → List Sent → Prop where
  | nothing : Told .none []
  | repeated {sent : List Sent} (command : UInt8) (n : Nat) (hn : n ≤ LastCommand.maxRepeats)
      (hsent : EndsWith sent command n) : Told ⟨some command, n⟩ sent

/-- A command is repeated while the count is below its limit, and the count goes up by one. -/
theorem LastCommand.eq_of_repeat? {last next : LastCommand} {command : UInt8}
    (h : last.repeat? = some (command, next)) :
    ∃ n < maxRepeats, last = ⟨some command, n⟩ ∧ next = ⟨some command, n + 1⟩ := by
  obtain ⟨last, n⟩ := last
  cases last with
  | none => simp [repeat?] at h
  | some command' =>
    simp only [repeat?] at h
    split at h
    · next hn =>
      obtain ⟨rfl, rfl⟩ := Prod.mk.inj (Option.some.inj h)
      exact ⟨n, hn, rfl, rfl⟩
    · simp at h

/-- What is sent goes into the list and keeps the last command that of its end. -/
theorem Told.sends {last next : LastCommand} {action : Action} {sent : List Sent}
    (h : Told last sent) (hs : Sends last action next) :
    Told next (sent ++ sentBy last action next) := by
  cases hs with
  | nothing hsilent => simpa [sentBy, hsilent] using h
  | afresh command =>
    -- What is repeated has been repeated once at least.
    have hafresh : last.repeat? ≠ some (command, .sent command) := by
      intro hrepeat
      obtain ⟨n, -, -, hnext⟩ := LastCommand.eq_of_repeat? hrepeat
      exact absurd (congrArg LastCommand.repeats hnext) (Nat.succ_ne_zero n).symm
    have hadds : sentBy last (.send command) (.sent command) = [⟨command, true⟩] := by
      simp [sentBy, Action.command?, hafresh]
    rw [hadds]
    exact .repeated command 0 (Nat.zero_le _) (.afresh sent command)
  | again command _ hrepeat =>
    have hadds : sentBy last (.send command) next = [⟨command, false⟩] := by
      simp [sentBy, Action.command?, hrepeat]
    rw [hadds]
    obtain ⟨n, hn, rfl, rfl⟩ := LastCommand.eq_of_repeat? hrepeat
    cases h with
    | repeated _ _ _ hsent => exact .repeated command (n + 1) hn hsent.again

/-- The list ends with the last command and as many repetitions as were counted. -/
theorem Told.endsWith {last : LastCommand} {sent : List Sent} {c : UInt8} (h : Told last sent)
    (hc : last.command = some c) :
    ∃ n, n ≤ LastCommand.maxRepeats ∧ last = ⟨some c, n⟩ ∧ EndsWith sent c n := by
  cases h with
  | nothing => simp [LastCommand.none] at hc
  | repeated command n hn hsent =>
    obtain rfl : command = c := Option.some.inj hc
    exact ⟨n, hn, rfl, hsent⟩

/-- When no command was sent last, none was sent at all. -/
theorem Told.eq_nil {sent : List Sent} (h : Told .none sent) : sent = [] := by
  cases h with
  | nothing => rfl

/-- The last command and its count tell of what was sent, after every run. -/
theorem told_run (hp : d.isPs2) {sent : List Sent} (h : Told d.commands sent)
    (inputs : List Input) : Told (d.run inputs).commands (d.sentIn sent inputs) := by
  induction inputs generalizing d sent with
  | nil => exact h
  | cons i inputs ih =>
    refine ih (isPs2_step hp i) ?_
    split
    · next hi =>
      subst hi
      -- After a reset neither side remembers a command.
      cases d with
      | atKeyboard | ps2Mouse => exact .nothing
      | xt | amiga | m0110 => exact absurd hp (by simp [isPs2, protocol])
    · next hi => exact h.sends (sends_step hp hi)

/-! ## What a state waits on -/

namespace AtKeyboard

variable {k : AtKeyboard} {s : Step AtKeyboard}

/-- The command whose answer a keyboard waits for, from its first byte or from a later one on. -/
def pending? (k : AtKeyboard) : Option UInt8 :=
  match k.state with
  | .awaitAck | .awaitSelfTest => some Ps2.reset
  | .readId1 | .readId2 => some Ps2.getId
  | .setup => some Ps2.setAllMakeBreak
  | .setLeds .command => some Ps2.setLockLeds
  | .setLeds .value => some k.pendingLeds.bitmap
  | .uninitialised | .initialised => none

/-- The command that a state waits on is the one that was sent last. -/
def Owes (k : AtKeyboard) : Prop := ∀ c, k.pending? = some c → k.commands.command = some c

/-- A keyboard session that waits for nothing owes nothing. -/
theorem Owes.of_none (h : k.pending? = none) : k.Owes := fun c hc => by simp [h] at hc

/-- A byte keeps the command that is pending the last one sent. -/
theorem Received.owes {byte : UInt8} (hs : Received k byte s) (h : k.Owes) : s.next.Owes := by
  cases hs with
  -- The command is sent as the state is entered.
  | refused | repeatedEnough | tested | identifiedTerminal | ledsAcked | replugged =>
    exact fun _ hc => hc
  | repeated _ _ _ _ hrepeat =>
    obtain ⟨hlast, hlast'⟩ := LastCommand.command_of_repeat? hrepeat
    exact fun c hc => hlast'.trans (hlast.symm.trans (h c hc))
  | resetAcked hstate => exact fun c hc => h c (by simpa [pending?, hstate] using hc)
  | idBegun hstate => exact fun c hc => h c (by simpa [pending?, hstate] using hc)
  | identified | setupAcked | bitmapAcked => exact .of_none rfl
  | ackIgnored | kept => exact h

/-- A tick keeps the command that is pending the last one sent. -/
theorem Ticked.owes (hs : Ticked k s) (h : k.Owes) : s.next.Owes := by
  cases hs with
  | waited => exact h
  | ledsBegun | resetAgain | idAskedAgain => exact fun _ hc => hc
  | setupRepeated _ _ hstate =>
    exact fun c hc => by simpa [pending?, issue, LastCommand.sent, hstate] using hc
  | idAssumed | setupAssumed | ledsAssumed => exact .of_none rfl

/-- Every run keeps the command that is pending the last one sent. -/
theorem owes_run (h : k.Owes) (inputs : List Input) : (k.run inputs).Owes := by
  induction inputs generalizing k with
  | nil => exact h
  | cons i inputs ih =>
    refine ih ?_
    cases i with
    | byte b => exact (k.received b).owes h
    | tick now idle => exact (k.ticked now idle).owes h
    | reset => exact .of_none rfl
    | leds wanted => exact h

/-- Between its first command and normal operation a keyboard session has a command pending. -/
theorem exists_pending? (h : k.state ≠ .uninitialised) (h' : k.state ≠ .initialised) :
    ∃ c, k.pending? = some c := by
  cases hs : k.state with
  | setLeds stage => cases stage <;> simp [pending?, hs]
  | _ => simp_all [pending?]

/-- A keyboard that asks again is sent the last command while the count is below its limit. -/
theorem receive_request_again {c : UInt8} {n : Nat} (hstate : k.state ≠ .uninitialised)
    (hlast : k.commands = ⟨some c, n⟩) (hn : n < LastCommand.maxRepeats) :
    k.receive Ps2.resendRequest =
      { next := { k.counted with commands := ⟨some c, n + 1⟩ }
        action := .send c
        notes := [.resendRequested c] } := by
  simp only [receive, if_true, if_neg hstate, repeatCommand, hlast, LastCommand.repeat?, if_pos hn]
  rfl

/-- A keyboard that asks again is reset when there is nothing to repeat any more. -/
theorem receive_request_enough (hstate : k.state ≠ .uninitialised)
    (hrepeat : k.commands.repeat? = none) :
    k.receive Ps2.resendRequest =
      k.counted.resetDevice.note (.resendRequested (k.commands.command.getD 0)) := by
  simp only [receive, if_true, if_neg hstate, repeatCommand, hrepeat]
  rfl

end AtKeyboard

namespace Ps2Mouse

variable {m : Ps2Mouse} {s : Step Ps2Mouse}

/-- The command whose answer a mouse waits for, from its first byte or from a later one on. The id
belongs to the answer to a reset. -/
def pending? (m : Ps2Mouse) : Option UInt8 :=
  match m.state with
  | .awaitAck | .awaitSelfTest | .awaitId => some Ps2.reset
  | .knock _ false => some Ps2.setSampleRate
  | .knock index true => Ps2.wheelKnock[index]?
  | .readWheelId => some Ps2.getId
  | .awaitEnableAck => some Ps2.enableReporting
  | .uninitialised | .initialised => none

/-- The command that a state waits on is the one that was sent last. A mouse that has passed its
self test at power-up sends its id as well, and may do so before anything was sent to it. -/
structure Owes (m : Ps2Mouse) : Prop where
  silent : m.state = .uninitialised → m.commands = .none
  last : ∀ c, m.pending? = some c →
    m.commands.command = some c ∨ m.state = .awaitId ∧ m.commands = .none

/-- A mouse session that waits for nothing and has sent nothing owes nothing. -/
theorem Owes.of_none (hpending : m.pending? = none) (hcommands : m.commands = .none) : m.Owes :=
  ⟨fun _ => hcommands, fun c hc => by simp [hpending] at hc⟩

/-- A state is entered with the command that it waits on. -/
theorem Owes.of_sent {c : UInt8} (hpending : m.pending? = some c)
    (hlast : m.commands.command = some c) : m.Owes :=
  ⟨fun h => by simp [pending?, h] at hpending,
    fun _ hc => .inl (hlast.trans (hpending.symm.trans hc))⟩

/-- A mouse session that is ready owes nothing. -/
theorem Owes.of_ready (h : m.state = .initialised) : m.Owes :=
  ⟨fun h' => by simp [h] at h', fun c hc => by simp [pending?, h] at hc⟩

/-- What a mouse owes depends on its state and on the last command alone. -/
theorem Owes.of_eq {m' : Ps2Mouse} (h : m.Owes) (hstate : m'.state = m.state)
    (hcommands : m'.commands = m.commands) : m'.Owes := by
  have hpending : m'.pending? = m.pending? := by simp only [pending?, hstate]
  exact ⟨by rw [hstate, hcommands]; exact h.silent,
    by rw [hpending, hstate, hcommands]; exact h.last⟩

/-- Once something was sent it can be sent again. -/
theorem Owes.again {m' : Ps2Mouse} {command : UInt8} (h : m.Owes) (hstate : m'.state = m.state)
    (hrepeat : m.commands.repeat? = some (command, m'.commands)) : m'.Owes := by
  obtain ⟨hlast, hlast'⟩ := LastCommand.command_of_repeat? hrepeat
  have hsent : m.commands ≠ .none := fun hnone => by simp [hnone, LastCommand.none] at hlast
  have hpending : m'.pending? = m.pending? := by simp only [pending?, hstate]
  refine ⟨fun hs => absurd (h.silent (hstate.symm.trans hs)) hsent, fun c hc => .inl ?_⟩
  rcases h.last c (hpending.symm.trans hc) with hc | ⟨-, hnone⟩
  · exact hlast'.trans (hlast.symm.trans hc)
  · exact absurd hnone hsent

/-- After the id the command that is pending is the one just sent. -/
theorem owes_afterId (m : Ps2Mouse) : m.afterId.next.Owes := by
  unfold afterId
  split
  · exact .of_sent rfl rfl
  · exact .of_sent rfl rfl

/-- After a sample rate the command that is pending is the one just sent. -/
theorem owes_nextRate (m : Ps2Mouse) (index : Nat) : (m.nextRate index).next.Owes := by
  unfold nextRate
  split
  · exact .of_sent rfl rfl
  · exact .of_sent rfl rfl

/-- A retry keeps the command that is pending the last one sent. -/
theorem owes_retry (h : m.Owes) : m.retry.next.Owes := by
  unfold retry
  split
  · next hrepeat => exact h.again rfl hrepeat
  · exact h.of_eq rfl rfl

/-- A byte keeps the command that a mouse has pending the last one sent, but for a mouse that was
just plugged in. -/
theorem Received.owes {byte : UInt8} (hs : Received m byte s) (h : m.Owes) : s.next.Owes := by
  cases hs with
  | passed | ackIgnored => exact h.of_eq rfl rfl
  | refused | repeatedEnough | wheelTold => exact .of_sent rfl rfl
  | repeated _ _ _ _ _ hrepeat => exact h.again rfl hrepeat
  | tested hstate =>
    refine ⟨(State.noConfusion ·), fun c hc => ?_⟩
    obtain rfl : Ps2.reset = c := Option.some.inj hc
    rcases hstate with hs | hs | hs
    -- At power-up nothing has been sent yet.
    · exact .inr ⟨rfl, h.silent hs⟩
    · exact .inl ((h.last _ (by simp [pending?, hs])).resolve_right (by simp [hs]))
    · exact .inl ((h.last _ (by simp [pending?, hs])).resolve_right (by simp [hs]))
  | resetAcked hs =>
    exact .of_sent rfl ((h.last _ (by simp [pending?, hs])).resolve_right (by simp [hs]))
  | idTold => exact m.counted.owes_afterId
  | rateAsked index =>
    refine ⟨(State.noConfusion ·), fun c hc => .inl ?_⟩
    have hc : Ps2.wheelKnock[index]? = some c := hc
    simp [sendRate, LastCommand.sent, List.getD_eq_getElem?_getD, hc]
  | rateAcked index => exact m.counted.owes_nextRate index
  | enabled => exact .of_ready rfl

/-- A tick keeps the command that a mouse has pending the last one sent, but for a mouse that was
just plugged in. -/
theorem Ticked.owes (hs : Ticked m s) (h : m.Owes) : s.next.Owes := by
  cases hs with
  | waited => exact h.of_eq rfl rfl
  | resetAgain | wheelAssumed => exact .of_sent rfl rfl
  | idAssumed timer => exact ({ m with timer } : Ps2Mouse).owes_afterId
  | knockRepeated timer =>
    have htimer : ({ m with timer } : Ps2Mouse).Owes := h.of_eq rfl rfl
    exact owes_retry htimer
  | enableRepeated _ _ hs => exact .of_sent (by simp [pending?, hs]) rfl
  | enableAssumed => exact .of_ready rfl

/-- Every run of a mouse session keeps it so. -/
theorem owes_run (h : m.Owes) (inputs : List Input) : (m.run inputs).Owes := by
  induction inputs generalizing m with
  | nil => exact h
  | cons i inputs ih =>
    refine ih ?_
    cases i with
    | byte b => exact (m.received b).owes h
    | tick now idle => exact (m.ticked now idle).owes h
    | reset => exact .of_none rfl rfl
    | leds wanted => exact h

/-- Between its first byte and normal operation a mouse session has a command pending. -/
theorem exists_pending? (hm : Armed (.ps2Mouse m)) (h : m.state ≠ .uninitialised)
    (h' : m.state ≠ .initialised) : ∃ c, m.pending? = some c := by
  cases hs : m.state with
  | knock index sent =>
    -- The place in the knock has a rate.
    have hindex := hm.place_lt index (by simp [Device.place?, place?, hs])
    cases sent <;> simp [pending?, hs, hindex]
  | _ => simp_all [pending?]

/-- A mouse that asks again is sent the last command while the count is below its limit. -/
theorem receive_request_again {c : UInt8} {n : Nat} (hstate : m.state ≠ .uninitialised)
    (hstate' : m.state ≠ .initialised) (hlast : m.commands = ⟨some c, n⟩)
    (hn : n < LastCommand.maxRepeats) :
    m.receive Ps2.resendRequest =
      { next := { m.counted with commands := ⟨some c, n + 1⟩ }
        action := .send c
        notes := [.resendRequested c] } := by
  simp only [receive, if_true, if_neg hstate, if_neg hstate', repeatCommand, hlast,
    LastCommand.repeat?, if_pos hn]
  rfl

/-- A mouse that asks again is reset when there is nothing to repeat any more. -/
theorem receive_request_enough (hstate : m.state ≠ .uninitialised)
    (hstate' : m.state ≠ .initialised) (hrepeat : m.commands.repeat? = none) :
    m.receive Ps2.resendRequest =
      m.counted.resetDevice.note (.resendRequested (m.commands.command.getD 0)) := by
  simp only [receive, if_true, if_neg hstate, if_neg hstate', repeatCommand, hrepeat]
  rfl

end Ps2Mouse

/-! ## Requests -/

/-- At its limit the count lets nothing be repeated. -/
theorem LastCommand.repeat?_eq_none (command : UInt8) :
    repeat? ⟨some command, maxRepeats⟩ = Option.none :=
  rfl

/-- A keyboard that is told what was sent last repeats it three times at most. -/
theorem AtKeyboard.answers_request {k : AtKeyboard} {sent : List Sent}
    (hstate : k.state ≠ .uninitialised) (hstate' : k.state ≠ .initialised) (howes : k.Owes)
    (htold : Told k.commands sent) :
    ∃ c n, k.pending? = some c ∧ n ≤ LastCommand.maxRepeats ∧ EndsWith sent c n ∧
      (n < LastCommand.maxRepeats → (k.receive Ps2.resendRequest).action = .send c ∧
        (k.receive Ps2.resendRequest).next.state = k.state) ∧
      (n = LastCommand.maxRepeats → (k.receive Ps2.resendRequest).action = .send Ps2.reset ∧
        (k.receive Ps2.resendRequest).next.state = .awaitAck) := by
  obtain ⟨c, hc⟩ := exists_pending? hstate hstate'
  obtain ⟨n, hn, hlast, hsent⟩ := htold.endsWith (howes c hc)
  refine ⟨c, n, hc, hn, hsent, fun hlt => ?_, ?_⟩
  · rw [receive_request_again hstate hlast hlt]
    exact ⟨rfl, rfl⟩
  · rintro rfl
    rw [receive_request_enough hstate (by rw [hlast, LastCommand.repeat?_eq_none])]
    exact ⟨rfl, rfl⟩

/-- How a mouse session answers a request, given what was sent before. -/
theorem Ps2Mouse.answers_request {m : Ps2Mouse} {sent : List Sent} (harmed : Armed (ps2Mouse m))
    (hstate : m.state ≠ .uninitialised) (hstate' : m.state ≠ .initialised) (howes : m.Owes)
    (htold : Told m.commands sent) :
    (∃ c n, m.pending? = some c ∧ n ≤ LastCommand.maxRepeats ∧ EndsWith sent c n ∧
      (n < LastCommand.maxRepeats → (m.receive Ps2.resendRequest).action = .send c ∧
        (m.receive Ps2.resendRequest).next.state = m.state) ∧
      (n = LastCommand.maxRepeats → (m.receive Ps2.resendRequest).action = .send Ps2.reset ∧
        (m.receive Ps2.resendRequest).next.state = .awaitAck)) ∨
    m.state = .awaitId ∧ sent = [] ∧ (m.receive Ps2.resendRequest).action = .send Ps2.reset ∧
      (m.receive Ps2.resendRequest).next.state = .awaitAck := by
  obtain ⟨c, hc⟩ := exists_pending? harmed hstate hstate'
  -- The command that is pending was the last one sent, unless the mouse spoke up by itself.
  rcases howes.last c hc with hlast | ⟨hid, hnone⟩
  · obtain ⟨n, hn, hlast, hsent⟩ := htold.endsWith hlast
    refine .inl ⟨c, n, hc, hn, hsent, fun hlt => ?_, ?_⟩
    · rw [receive_request_again hstate hstate' hlast hlt]
      exact ⟨rfl, rfl⟩
    · rintro rfl
      rw [receive_request_enough hstate hstate' (by rw [hlast, LastCommand.repeat?_eq_none])]
      exact ⟨rfl, rfl⟩
  · rw [hnone] at htold
    rw [receive_request_enough hstate hstate' (by rw [hnone]; rfl)]
    exact .inr ⟨hid, htold.eq_nil, rfl, rfl⟩

/-- What a keyboard or a mouse gets that asks for the last command again, after any run and in any
state but the first and the normal one. The command that the state waits on was sent, and has been
repeated a number of times since: it is repeated with the state unchanged, or the device is reset
once three repetitions have not helped. A mouse that has passed its self test at power-up may ask
before anything was sent to it, and is reset as well. -/
theorem request_answered (timing : Timing) (defaultSet : CodeSet) (detectWheel : Bool)
    (inputs : List Input) :
    (let k₀ : AtKeyboard := { timing, defaultSet }
      let k := k₀.run inputs
      let s := k.receive Ps2.resendRequest
      k.state ≠ .uninitialised → k.state ≠ .initialised →
        ∃ c n, k.pending? = some c ∧ n ≤ LastCommand.maxRepeats ∧
          EndsWith ((atKeyboard k₀).sentIn [] inputs) c n ∧
          (n < LastCommand.maxRepeats → s.action = .send c ∧ s.next.state = k.state) ∧
          (n = LastCommand.maxRepeats →
            s.action = .send Ps2.reset ∧ s.next.state = .awaitAck)) ∧
    (let m₀ : Ps2Mouse := { timing, detectWheel }
      let m := m₀.run inputs
      let s := m.receive Ps2.resendRequest
      m.state ≠ .uninitialised → m.state ≠ .initialised →
        (∃ c n, m.pending? = some c ∧ n ≤ LastCommand.maxRepeats ∧
          EndsWith ((ps2Mouse m₀).sentIn [] inputs) c n ∧
          (n < LastCommand.maxRepeats → s.action = .send c ∧ s.next.state = m.state) ∧
          (n = LastCommand.maxRepeats →
            s.action = .send Ps2.reset ∧ s.next.state = .awaitAck)) ∨
        m.state = .awaitId ∧ (ps2Mouse m₀).sentIn [] inputs = [] ∧
          s.action = .send Ps2.reset ∧ s.next.state = .awaitAck) := by
  refine ⟨fun hstate hstate' => ?_, fun hstate hstate' => ?_⟩
  · have htold := told_run (d := atKeyboard { timing, defaultSet }) (.inl rfl) .nothing inputs
    rw [AtKeyboard.device_run] at htold
    -- The list that was sent ends with what the session owes, so that its answer can be read off.
    exact AtKeyboard.answers_request hstate hstate' (AtKeyboard.owes_run (.of_none rfl) inputs)
      htold
  · have htold := told_run (d := ps2Mouse { timing, detectWheel }) (.inr rfl) .nothing inputs
    have harmed := armed_run (d := ps2Mouse { timing, detectWheel })
      (Ps2Mouse.armed_of_awaited?_eq_none rfl rfl) (.inr rfl) inputs
    rw [Ps2Mouse.device_run] at htold harmed
    exact Ps2Mouse.answers_request harmed hstate hstate'
      (Ps2Mouse.owes_run (.of_none rfl rfl) inputs) htold

/-- A fourth request is answered with a reset, a third one is not, even if the command was sent
again for want of an answer; and a mouse that was just plugged in is reset. -/
theorem request_answered_fourth :
    let slow : List Input := [.byte 0xAA, .byte 0xAB, .byte 0x83, .leds { caps := true },
      .tick 0 true, .byte 0xFA, .byte 0xFE, .byte 0xFE, .byte 0xFE]
    let knock : List Input := [.byte 0xAA, .byte 0x00, .byte 0xFA, .byte 0xFA, .byte 0xFA,
      .byte 0xFE, .tick 0 true, .tick 200 true, .tick 400 true]
    let k := ({ timing := {}, defaultSet := .set2 } : AtKeyboard).run slow
    let m := ({ timing := {}, detectWheel := true } : Ps2Mouse).run knock
    let m' := ({ timing := {}, detectWheel := true } : Ps2Mouse).run [.byte 0xAA]
    k.state = .setLeds .value ∧ (k.receive 0xFE).next.state = .awaitAck ∧
      m.state = .knock 1 true ∧ (m.receive 0xFE).action = .send 100 ∧
      m'.state = .awaitId ∧ (m'.receive 0xFE).next.state = .awaitAck := by
  intro slow knock k m m'
  obtain ⟨c, n, -, -, hends, -, henough⟩ :=
    (request_answered {} .set2 true slow).1 (by decide) (by decide)
  -- The bitmap was sent and repeated three times.
  have hn : n = 3 := hends.eq_length.trans (by decide)
  refine ⟨by decide, (henough hn).2, by decide, ?_, by decide, ?_⟩
  · obtain ⟨c, n, hc, -, hends, hagain, -⟩ | ⟨hid, -⟩ :=
      (request_answered {} .set2 true knock).2 (by decide) (by decide)
    -- The rate was sent, repeated on request and tried again once.
    · have hn : n = 2 := hends.eq_length.trans (by decide)
      obtain rfl : 100 = c := Option.some.inj hc
      exact (hagain (by rw [hn]; decide)).1
    · exact absurd hid (by decide)
  · obtain ⟨c, n, -, -, ⟨before, hsent⟩, -⟩ | ⟨-, -, -, hreset⟩ :=
      (request_answered {} .set2 true [.byte 0xAA]).2 (by decide) (by decide)
    · have hnone :
          (ps2Mouse { timing := {}, detectWheel := true }).sentIn [] [.byte 0xAA] = [] := by
        decide
      exact absurd (hnone.symm.trans hsent) (by simp)
    · exact hreset

end KeyBridge.Device
