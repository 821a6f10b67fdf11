import KeyBridge.Proofs.Device.Commands

/-!
# What one step can do

What a byte or a tick does to the session of a keyboard or of a mouse, one constructor for each
thing that can happen. A constructor gives the step with all that it changes, and what is known of
the session and of the byte when it happens. What steps keep is shown from these relations, without
another look into the definition of a step.

## Key results

- `AtKeyboard.received`, `AtKeyboard.ticked`: nothing else happens to a keyboard
- `Ps2Mouse.received`, `Ps2Mouse.ticked`: nothing else happens to a mouse
-/

namespace KeyBridge.Device

open Command

/-! ## AT and PS/2 keyboards -/

namespace AtKeyboard

/-- A keyboard from which one more byte has come. -/
def counted (k : AtKeyboard) : AtKeyboard := { k with activity := k.activity + 1 }

/-- What a byte can do to a keyboard session. -/
inductive Received (k : AtKeyboard) (byte : UInt8) : Step AtKeyboard → Prop where
  /-- Nobody waited for it, or it says that the self test has failed. -/
  | refused (reason : Diagnostic) (hready : k.isInitialised = false) :
      Received k byte (k.counted.resetDevice.note reason)
  | repeated (command : UInt8) (commands : LastCommand) (hstate : k.state ≠ .uninitialised)
      (hbyte : byte = Ps2.resendRequest) (hrepeat : k.commands.repeat? = some (command, commands)) :
      Received k byte
        { next := { k.counted with commands }
          action := .send command
          notes := [.resendRequested command] }
  | repeatedEnough (hstate : k.state ≠ .uninitialised) (hbyte : byte = Ps2.resendRequest)
      (hrepeat : k.commands.repeat? = none) :
      Received k byte
        (k.counted.resetDevice.note (.resendRequested (k.commands.command.getD 0)))
  | tested (hstate : k.state = .uninitialised ∨ k.state = .awaitAck ∨ k.state = .awaitSelfTest)
      (hbyte : byte = Ps2.selfTestPassed) :
      Received k byte k.counted.requestId
  | resetAcked (hstate : k.state = .awaitAck) (hbyte : byte = Ps2.ack) :
      Received k byte { next := { k.counted with state := .awaitSelfTest } }
  | idBegun (hstate : k.state = .readId1) (hbyte : byte ≠ Ps2.resendRequest) :
      Received k byte
        { next := { k.counted with id := byte.toUInt16 <<< 8, state := .readId2 } }
  | identified (id : UInt16) (hstate : k.state = .readId2) (hbyte : byte ≠ Ps2.resendRequest)
      (hid : id = k.id ||| byte.toUInt16) (hterminal : isTerminalId id = false) :
      Received k byte
        { next := { k.counted with id, codeSet := k.defaultSet }.ready, notes := [.identified id] }
  | identifiedTerminal (id : UInt16) (hstate : k.state = .readId2)
      (hbyte : byte ≠ Ps2.resendRequest) (hid : id = k.id ||| byte.toUInt16)
      (hterminal : isTerminalId id = true) :
      Received k byte
        (({ k.counted with id, codeSet := .set3, state := .setup, retried := false }.issue
          Ps2.setAllMakeBreak).note (.identified id))
  | setupAcked (hstate : k.state = .setup) (hbyte : byte = Ps2.ack) :
      Received k byte { next := k.counted.ready }
  | ledsAcked (hstate : k.state = .setLeds .command) (hbyte : byte = Ps2.ack) :
      Received k byte ({ k.counted with state := .setLeds .value }.issue k.pendingLeds.bitmap)
  | bitmapAcked (hstate : k.state = .setLeds .value) (hbyte : byte = Ps2.ack) :
      Received k byte
        { next := { k.counted with deviceLeds := some k.pendingLeds, state := .initialised } }
  | replugged (hready : k.isInitialised) (hset : k.codeSet ≠ .set1)
      (hbyte : byte = Ps2.selfTestPassed) :
      Received k byte k.counted.replugged
  /-- An answer may begin with an acknowledgement, and one may come late. -/
  | ackIgnored (hstate : k.state = .readId1 ∨ k.state = .initialised) (hbyte : byte = Ps2.ack) :
      Received k byte { next := k.counted }
  /-- It is passed on, absorbed or noted. -/
  | kept (action : Action) (notes : List Diagnostic) (hready : k.isInitialised)
      (hbyte : byte ≠ Ps2.resendRequest) (hack : byte ≠ Ps2.ack)
      (hsilent : action.command? = none) :
      Received k byte { next := k.counted, action, notes }

/-- What a tick can do to a keyboard session. The timer has been looked at, and may have been
restarted. -/
inductive Ticked (k : AtKeyboard) : Step AtKeyboard → Prop where
  /-- The wait goes on, or there is none. -/
  | waited (timer : StallTimer) (hleds : k.state = .initialised → k.deviceLeds = some k.hostLeds) :
      Ticked k { next := { k with timer } }
  | ledsBegun (timer : StallTimer) (hstate : k.state = .initialised)
      (hleds : k.deviceLeds ≠ some k.hostLeds) :
      Ticked k ({ k with pendingLeds := k.hostLeds, state := .setLeds .command, timer }.issue
        Ps2.setLockLeds)
  | resetAgain (timer : StallTimer) (stalls : UInt8)
      (hstate : k.state = .uninitialised ∨ k.state = .awaitAck ∨ k.state = .awaitSelfTest) :
      Ticked k ({ k with timer }.resetDevice.note (.timeout stalls false))
  | idAskedAgain (timer : StallTimer) (stalls : UInt8)
      (hstate : k.state = .readId1 ∨ k.state = .readId2) (hretried : k.retried = false) :
      Ticked k (({ k with timer }.requestId.map
        fun k : AtKeyboard => { k with retried := true }).note (.timeout stalls false))
  | idAssumed (timer : StallTimer) (stalls : UInt8)
      (hstate : k.state = .readId1 ∨ k.state = .readId2) (hretried : k.retried = true) :
      Ticked k ({ k with timer }.assumeDefault.note (.timeout stalls true))
  | setupRepeated (timer : StallTimer) (stalls : UInt8) (hstate : k.state = .setup)
      (hretried : k.retried = false) :
      Ticked k (({ k with timer, retried := true }.issue Ps2.setAllMakeBreak).note
        (.timeout stalls false))
  | setupAssumed (timer : StallTimer) (stalls : UInt8) (hstate : k.state = .setup)
      (hretried : k.retried = true) :
      Ticked k { next := { k with timer }.ready, notes := [.timeout stalls true] }
  | ledsAssumed (timer : StallTimer) (stalls : UInt8) (stage : LedStage)
      (hstate : k.state = .setLeds stage) :
      Ticked k
        { next := { k with timer, deviceLeds := some k.pendingLeds, state := .initialised }
          notes := [.timeout stalls true] }

/-- What a keyboard session makes of a byte is one of the cases of `Received`. -/
theorem received (k : AtKeyboard) (byte : UInt8) : Received k byte (k.receive byte) := by
  -- A request to repeat is answered in every state alike; any other byte is a matter of the state.
  by_cases hbyte : byte = Ps2.resendRequest
  · simp only [receive, hbyte, if_true]
    split
    · next hs => exact .refused _ (by simp [isInitialised, hs])
    · next hs =>
      cases hrepeat : k.commands.repeat? with
      | none =>
        simp only [repeatCommand, hrepeat]
        exact .repeatedEnough hs rfl hrepeat
      | some p =>
        have hlast := (LastCommand.command_of_repeat? hrepeat).1
        simp only [repeatCommand, hrepeat, hlast]
        exact .repeated p.1 p.2 hs rfl hrepeat
  obtain ⟨_, _, state, _, _, _, _, _, _, _, _, _, _⟩ := k
  cases state with
  | uninitialised =>
    simp only [receive, hbyte, if_false]
    split
    · next h => exact .tested (.inl rfl) h
    · exact .refused _ rfl
  | awaitAck =>
    simp only [receive, hbyte, if_false]
    split
    · next h => exact .tested (.inr (.inl rfl)) h
    · split
      · next h => exact .resetAcked rfl h
      · exact .refused _ rfl
  | awaitSelfTest =>
    simp only [receive, hbyte, if_false]
    split
    · next h => exact .tested (.inr (.inr rfl)) h
    · split
      · exact .refused _ rfl
      · exact .refused _ rfl
  | readId1 =>
    simp only [receive, hbyte, if_false]
    split
    · next h => exact .ackIgnored (.inl rfl) h
    · exact .idBegun rfl hbyte
  | readId2 =>
    simp only [receive, hbyte, if_false, AtKeyboard.identified]
    split
    · next h => exact .identifiedTerminal _ rfl hbyte rfl h
    · next h => exact .identified _ rfl hbyte rfl (Bool.not_eq_true _ ▸ h)
  | setup =>
    simp only [receive, hbyte, if_false]
    split
    · next h => exact .setupAcked rfl h
    · exact .refused _ rfl
  | setLeds stage =>
    simp only [receive, hbyte, if_false]
    split
    · next h =>
      cases stage with
      | command => exact .ledsAcked rfl h
      | value => exact .bitmapAcked rfl h
    · next hack =>
      split
      · next h => exact .replugged rfl h.2 h.1
      · exact .kept .pass [] rfl hbyte hack rfl
  | initialised =>
    simp only [receive, hbyte, if_false]
    by_cases hack : byte = Ps2.ack
    · rw [if_pos (.inl hack)]
      exact .ackIgnored (.inr rfl) hack
    · split
      · exact .kept .none [] rfl hbyte hack rfl
      · split
        · exact .kept .none [_] rfl hbyte hack rfl
        · split
          · next h => exact .replugged rfl h.2 h.1
          · exact .kept .pass [] rfl hbyte hack rfl

/-- What a keyboard session makes of a tick is one of the cases of `Ticked`. -/
theorem ticked (k : AtKeyboard) (now : UInt32) (idle : Bool) : Ticked k (k.tick now idle) := by
  obtain ⟨_, _, state, _, _, retried, _, _, _, _, _, _, _⟩ := k
  simp only [tick]
  split
  · next hstate =>
    unfold updateLeds
    split
    · next hleds => exact .waited _ fun _ => hleds
    · next hleds => exact .ledsBegun _ hstate hleds
  · next hstate =>
    split
    · exact .waited _ fun h => absurd h hstate
    · cases state with
      | uninitialised => exact .resetAgain _ _ (.inl rfl)
      | awaitAck => exact .resetAgain _ _ (.inr (.inl rfl))
      | awaitSelfTest => exact .resetAgain _ _ (.inr (.inr rfl))
      | readId1 =>
        cases retried with
        | false => exact .idAskedAgain _ _ (.inl rfl) rfl
        | true => exact .idAssumed _ _ (.inl rfl) rfl
      | readId2 =>
        cases retried with
        | false => exact .idAskedAgain _ _ (.inr rfl) rfl
        | true => exact .idAssumed _ _ (.inr rfl) rfl
      | setup =>
        cases retried with
        | false => exact .setupRepeated _ _ rfl rfl
        | true => exact .setupAssumed _ _ rfl rfl
      | setLeds stage => exact .ledsAssumed _ _ stage rfl
      | initialised => exact absurd rfl hstate

end AtKeyboard

/-! ## PS/2 mice -/

namespace Ps2Mouse

/-- A mouse from which one more byte has come. -/
def counted (m : Ps2Mouse) : Ps2Mouse := { m with activity := m.activity + 1 }

/-- What a byte can do to a mouse session. -/
inductive Received (m : Ps2Mouse) (byte : UInt8) : Step Ps2Mouse → Prop where
  | passed (hstate : m.state = .initialised) :
      Received m byte { next := m.counted, action := .pass }
  /-- Nobody waited for it, or it says that the self test has failed. -/
  | refused (reason : Diagnostic) (hstate : m.state ≠ .initialised) :
      Received m byte (m.counted.resetDevice.note reason)
  | repeated (command : UInt8) (commands : LastCommand) (hstate : m.state ≠ .uninitialised)
      (hstate' : m.state ≠ .initialised) (hbyte : byte = Ps2.resendRequest)
      (hrepeat : m.commands.repeat? = some (command, commands)) :
      Received m byte
        { next := { m.counted with commands }
          action := .send command
          notes := [.resendRequested command] }
  | repeatedEnough (hstate : m.state ≠ .uninitialised) (hstate' : m.state ≠ .initialised)
      (hbyte : byte = Ps2.resendRequest) (hrepeat : m.commands.repeat? = none) :
      Received m byte
        (m.counted.resetDevice.note (.resendRequested (m.commands.command.getD 0)))
  | tested (hstate : m.state = .uninitialised ∨ m.state = .awaitAck ∨ m.state = .awaitSelfTest)
      (hbyte : byte = Ps2.selfTestPassed) :
      Received m byte { next := { m.counted with state := .awaitId } }
  | resetAcked (hstate : m.state = .awaitAck) (hbyte : byte = Ps2.ack) :
      Received m byte { next := { m.counted with state := .awaitSelfTest } }
  | idTold (hstate : m.state = .awaitId) (hbyte : byte ≠ Ps2.resendRequest) :
      Received m byte (m.counted.afterId.note (.identified byte.toUInt16))
  | rateAsked (index : Nat) (hstate : m.state = .knock index false) (hbyte : byte = Ps2.ack) :
      Received m byte (m.counted.sendRate index)
  | rateAcked (index : Nat) (hstate : m.state = .knock index true) (hbyte : byte = Ps2.ack) :
      Received m byte (m.counted.nextRate index)
  /-- The answer may begin with an acknowledgement. -/
  | ackIgnored (hstate : m.state = .readWheelId) (hbyte : byte = Ps2.ack) :
      Received m byte { next := m.counted }
  | wheelTold (hstate : m.state = .readWheelId) (hbyte : byte ≠ Ps2.resendRequest)
      (hack : byte ≠ Ps2.ack) :
      Received m byte (({ m.counted with hasWheel := byte == Ps2.wheelMouseId } :
        Ps2Mouse).enable.note (.identified byte.toUInt16))
  | enabled (hstate : m.state = .awaitEnableAck) (hbyte : byte = Ps2.ack) :
      Received m byte { next := m.counted.ready }

/-- What a tick can do to a mouse session. -/
inductive Ticked (m : Ps2Mouse) : Step Ps2Mouse → Prop where
  /-- The wait goes on, or there is none. -/
  | waited (timer : StallTimer) : Ticked m { next := { m with timer } }
  | resetAgain (timer : StallTimer) (stalls : UInt8)
      (hstate : m.state = .uninitialised ∨ m.state = .awaitAck ∨ m.state = .awaitSelfTest) :
      Ticked m ({ m with timer }.resetDevice.note (.timeout stalls false))
  | idAssumed (timer : StallTimer) (stalls : UInt8) (hstate : m.state = .awaitId) :
      Ticked m ({ m with timer }.afterId.note (.timeout stalls false))
  | knockRepeated (timer : StallTimer) (stalls : UInt8)
      (hstate : (∃ index sent, m.state = .knock index sent) ∨ m.state = .readWheelId)
      (hretried : m.retried = false) :
      Ticked m ({ m with timer }.retry.note (.timeout stalls false))
  | wheelAssumed (timer : StallTimer) (stalls : UInt8)
      (hstate : (∃ index sent, m.state = .knock index sent) ∨ m.state = .readWheelId)
      (hretried : m.retried = true) :
      Ticked m ({ m with timer, hasWheel := false }.enable.note (.timeout stalls true))
  | enableRepeated (timer : StallTimer) (stalls : UInt8) (hstate : m.state = .awaitEnableAck)
      (hretried : m.retried = false) :
      Ticked m
        { next := { m with timer, retried := true, commands := .sent Ps2.enableReporting }
          action := .send Ps2.enableReporting
          notes := [.timeout stalls false] }
  | enableAssumed (timer : StallTimer) (stalls : UInt8) (hstate : m.state = .awaitEnableAck)
      (hretried : m.retried = true) :
      Ticked m { next := { m with timer }.ready, notes := [.timeout stalls true] }

/-- What a mouse session makes of a byte is one of the cases of `Received`. -/
theorem received (m : Ps2Mouse) (byte : UInt8) : Received m byte (m.receive byte) := by
  -- A mouse that is ready has every byte passed on, also a request to repeat.
  by_cases hstate : m.state = .initialised
  · simp only [receive, hstate, if_true]
    exact hstate ▸ .passed hstate
  by_cases hbyte : byte = Ps2.resendRequest
  · simp only [receive, hstate, hbyte, if_true, if_false]
    split
    · exact .refused _ hstate
    · next hs =>
      cases hrepeat : m.commands.repeat? with
      | none =>
        simp only [repeatCommand, hrepeat]
        exact .repeatedEnough hs hstate rfl hrepeat
      | some p =>
        have hlast := (LastCommand.command_of_repeat? hrepeat).1
        simp only [repeatCommand, hrepeat, hlast]
        exact .repeated p.1 p.2 hs hstate rfl hrepeat
  obtain ⟨_, _, state, _, _, _, _, _, _⟩ := m
  cases state with
  | uninitialised =>
    simp only [receive, hbyte, reduceCtorEq, if_false]
    split
    · next h => exact .tested (.inl rfl) h
    · exact .refused _ hstate
  | awaitAck =>
    simp only [receive, hbyte, reduceCtorEq, if_false]
    split
    · next h => exact .tested (.inr (.inl rfl)) h
    · split
      · next h => exact .resetAcked rfl h
      · exact .refused _ hstate
  | awaitSelfTest =>
    simp only [receive, hbyte, reduceCtorEq, if_false]
    split
    · next h => exact .tested (.inr (.inr rfl)) h
    · split
      · exact .refused _ hstate
      · exact .refused _ hstate
  | awaitId =>
    simp only [receive, hbyte, reduceCtorEq, if_false]
    exact .idTold rfl hbyte
  | knock index sent =>
    simp only [receive, hbyte, reduceCtorEq, if_false]
    split
    · next h =>
      cases sent with
      | false => exact .rateAsked index rfl h
      | true => exact .rateAcked index rfl h
    · exact .refused _ hstate
  | readWheelId =>
    simp only [receive, hbyte, reduceCtorEq, if_false]
    split
    · next h => exact .ackIgnored rfl h
    · next h => exact .wheelTold rfl hbyte h
  | awaitEnableAck =>
    simp only [receive, hbyte, reduceCtorEq, if_false]
    split
    · next h => exact .enabled rfl h
    · exact .refused _ hstate
  | initialised => exact absurd rfl hstate

/-- What a mouse session makes of a tick is one of the cases of `Ticked`. -/
theorem ticked (m : Ps2Mouse) (now : UInt32) (idle : Bool) : Ticked m (m.tick now idle) := by
  obtain ⟨_, _, state, _, retried, _, _, _, _⟩ := m
  simp only [tick]
  split
  · exact .waited _
  · next hwait =>
    cases state with
    | uninitialised => exact .resetAgain _ _ (.inl rfl)
    | awaitAck => exact .resetAgain _ _ (.inr (.inl rfl))
    | awaitSelfTest => exact .resetAgain _ _ (.inr (.inr rfl))
    | awaitId => exact .idAssumed _ _ rfl
    | knock index sent =>
      cases retried with
      | false => exact .knockRepeated _ _ (.inl ⟨index, sent, rfl⟩) rfl
      | true => exact .wheelAssumed _ _ (.inl ⟨index, sent, rfl⟩) rfl
    | readWheelId =>
      cases retried with
      | false => exact .knockRepeated _ _ (.inr rfl) rfl
      | true => exact .wheelAssumed _ _ (.inr rfl) rfl
    | awaitEnableAck =>
      cases retried with
      | false => exact .enableRepeated _ _ rfl rfl
      | true => exact .enableAssumed _ _ rfl rfl
    | initialised => exact absurd (.inl rfl) hwait

end Ps2Mouse

end KeyBridge.Device
