import KeyBridge.Proofs.Device.Repeats
import KeyBridge.Proofs.List

/-!
# Requests from a keyboard that is ready

A keyboard that asks for the last command too often is reset, also when it is ready. What counts is
how often it has asked since a command was last sent of the session's own accord. The count does not
go back when other bytes come in, so that requests of which each was answered, hours apart and with
any number of keys in between, reset the keyboard in the end.

## Key results

- `Received.unasked`, `Ticked.unasked`: what is sent of the session's own accord
- `counted_run`: how often the last command was repeated is the number of requests since
- `reset_iff_requests`: which request resets a keyboard that is ready
-/

namespace KeyBridge.Device.AtKeyboard

open Command

variable {k : AtKeyboard} {s : Step AtKeyboard}

/-! ## What comes in since the last command -/

/-- A step that sends a command, otherwise than because the last one is asked for. -/
def sendsUnasked (k : AtKeyboard) (i : Input) : Bool :=
  i != .byte Ps2.resendRequest && (k.step i).action.command?.isSome

/-- The bytes of some inputs. -/
def bytes (inputs : List Input) : List UInt8 :=
  inputs.filterMap fun
    | .byte b => some b
    | .tick _ _ | .reset | .leds _ => none

/-- The bytes received in a run since a command was last sent unasked. Before the run there were
some already. -/
def recent (k : AtKeyboard) (heard : List UInt8) : List Input → List UInt8
  | [] => heard
  | i :: inputs =>
    (k.step i).next.recent (if k.sendsUnasked i then [] else heard ++ bytes [i]) inputs

/-- What was heard recently is the end of what was heard. -/
theorem recent_suffix (k : AtKeyboard) (heard : List UInt8) (inputs : List Input) :
    k.recent heard inputs <:+ heard ++ bytes inputs := by
  induction inputs generalizing k heard with
  | nil => simp [recent, bytes]
  | cons i inputs ih =>
    have happend : bytes (i :: inputs) = bytes [i] ++ bytes inputs :=
      List.filterMap_append (l := [i])
    refine (ih _ _).trans ?_
    rw [happend]
    split
    · exact (List.suffix_append _ _).trans (List.suffix_append _ _)
    · exact (List.append_assoc ..).symm ▸ List.suffix_refl _

/-! ## Counting requests -/

/-- Whether the keyboard has passed its self test since it was last reset. -/
def hasPassed (k : AtKeyboard) : Bool :=
  match k.state with
  | .uninitialised | .awaitAck | .awaitSelfTest => false
  | .readId1 | .readId2 | .setup | .setLeds _ | .initialised => true

/-- A step that is no answer to a request: it sends nothing, or a command for the first time. -/
inductive Unasked (k : AtKeyboard) (s : Step AtKeyboard) : Prop where
  | silent (hsilent : s.action.command? = none) (hcommands : s.next.commands = k.commands)
      (hpassed : s.next.hasPassed → k.hasPassed)
  | afresh (command : UInt8) (haction : s.action = .send command)
      (hcommands : s.next.commands = .sent command)

/-- A keyboard that is ready has passed its self test. -/
theorem hasPassed_of_isInitialised (h : k.isInitialised) : k.hasPassed := by
  cases hs : k.state <;> simp_all [isInitialised, hasPassed]

/-- What a byte other than a request has a session send, it sends unasked. -/
theorem Received.unasked {byte : UInt8} (hs : Received k byte s)
    (hbyte : byte ≠ Ps2.resendRequest) : Unasked k s := by
  cases hs with
  | repeated _ _ _ h | repeatedEnough _ h => exact absurd h hbyte
  | refused | tested | identifiedTerminal | ledsAcked | replugged => exact .afresh _ rfl rfl
  | resetAcked => exact .silent rfl rfl (Bool.noConfusion ·)
  | idBegun hstate | identified _ hstate | setupAcked hstate | bitmapAcked hstate =>
    exact .silent rfl rfl fun _ => by simp [hasPassed, hstate]
  | ackIgnored => exact .silent rfl rfl fun h => h
  | kept _ _ _ _ _ hsilent => exact .silent hsilent rfl fun h => h

/-- What a tick has a session send, it sends unasked. -/
theorem Ticked.unasked (hs : Ticked k s) : Unasked k s := by
  cases hs with
  | waited => exact .silent rfl rfl fun h => h
  | ledsBegun | resetAgain | idAskedAgain | setupRepeated => exact .afresh _ rfl rfl
  | idAssumed _ _ hstate =>
    exact .silent rfl rfl fun _ => by rcases hstate with h | h <;> simp [hasPassed, h]
  | setupAssumed _ _ hstate | ledsAssumed _ _ _ hstate =>
    exact .silent rfl rfl fun _ => by simp [hasPassed, hstate]

/-- The last command has been repeated as often as it was asked for, once the keyboard has passed
its self test. -/
def Counted (k : AtKeyboard) (heard : List UInt8) : Prop :=
  k.hasPassed → heard.count Ps2.resendRequest ≤ LastCommand.maxRepeats ∧
    ∃ c, k.commands = ⟨some c, heard.count Ps2.resendRequest⟩

variable {heard : List UInt8}

/-- Before the self test nothing is counted. -/
theorem Counted.of_not_passed (h : k.hasPassed = false) : Counted k heard :=
  fun hpassed => absurd hpassed (by simp [h])

/-- A step that sends unasked begins to count anew, and one that does not goes on. -/
theorem Unasked.counted (hs : Unasked k s) (h : Counted k heard) {more : List UInt8}
    (hmore : Ps2.resendRequest ∉ more) :
    Counted s.next (if s.action.command?.isSome then [] else heard ++ more) := by
  cases hs with
  | silent hsilent hcommands hpassed =>
    rw [hsilent, Option.isSome_none, if_neg Bool.false_ne_true]
    intro hnext
    rw [List.count_append, List.count_eq_zero.mpr hmore, Nat.add_zero, hcommands]
    exact h (hpassed hnext)
  | afresh command haction hcommands =>
    rw [haction]
    exact fun _ => ⟨Nat.zero_le _, command, hcommands⟩

/-- A request that is answered is one more that was counted. -/
theorem Received.counted_request (hs : Received k Ps2.resendRequest s) (h : Counted k heard) :
    Counted s.next (heard ++ [Ps2.resendRequest]) := by
  cases hs with
  | repeated command commands _ _ hrepeat =>
    intro hpassed
    obtain ⟨-, c, hcommands⟩ := h hpassed
    obtain ⟨n, hn, hlast, hnext⟩ := LastCommand.eq_of_repeat? hrepeat
    have hcount : n = heard.count Ps2.resendRequest :=
      congrArg LastCommand.repeats (hlast.symm.trans hcommands)
    rw [List.count_append, List.count_singleton_self, ← hcount]
    exact ⟨hn, command, hnext⟩
  -- The keyboard has been reset, and has to pass its self test again.
  | refused | repeatedEnough => exact .of_not_passed rfl
  | tested _ hbyte | resetAcked _ hbyte | setupAcked _ hbyte | ledsAcked _ hbyte
    | bitmapAcked _ hbyte | replugged _ _ hbyte | ackIgnored _ hbyte =>
    exact absurd hbyte (by decide)
  | idBegun _ hbyte | identified _ _ hbyte | identifiedTerminal _ _ hbyte | kept _ _ _ hbyte =>
    exact absurd rfl hbyte

/-- Every input keeps the count that of the requests heard recently. -/
theorem counted_step (h : Counted k heard) (i : Input) :
    Counted (k.step i).next (if k.sendsUnasked i then [] else heard ++ bytes [i]) := by
  cases i with
  | byte b =>
    by_cases hbyte : b = Ps2.resendRequest
    · subst hbyte
      exact (k.received Ps2.resendRequest).counted_request h
    · have hmore : Ps2.resendRequest ∉ bytes [.byte b] := by
        simpa [bytes] using Ne.symm hbyte
      -- What is sent for any other byte is sent unasked.
      have hunasked : k.sendsUnasked (.byte b) = (k.receive b).action.command?.isSome := by
        simp [sendsUnasked, step, hbyte]
      rw [hunasked]
      exact ((k.received b).unasked hbyte).counted h hmore
  | tick now idle => exact (k.ticked now idle).unasked.counted h List.not_mem_nil
  | reset => exact .of_not_passed rfl
  | leds wanted =>
    have hsame : Counted (k.setLeds wanted) heard := h
    simpa [sendsUnasked, step, bytes, Action.command?] using hsame

/-- How often the last command was repeated is the number of requests since, after every run. -/
theorem counted_run (h : Counted k heard) (inputs : List Input) :
    Counted (k.run inputs) (k.recent heard inputs) := by
  induction inputs generalizing k heard with
  | nil => exact h
  | cons i inputs ih => exact ih (counted_step h i)

/-! ## The request that is too much -/

/-- A keyboard that is ready stays in its state, or is reset. -/
theorem Counted.receive_request (h : Counted k heard) (hready : k.isInitialised) :
    ((k.receive Ps2.resendRequest).next.state = .awaitAck ↔
      heard.count Ps2.resendRequest = LastCommand.maxRepeats) ∧
    ((k.receive Ps2.resendRequest).next.state = .awaitAck →
      (k.receive Ps2.resendRequest).action = .send Ps2.reset) := by
  obtain ⟨hle, c, hlast⟩ := h (hasPassed_of_isInitialised hready)
  have hstate : k.state ≠ .uninitialised := fun hs => by simp [isInitialised, hs] at hready
  have hstate' : k.state ≠ .awaitAck := fun hs => by simp [isInitialised, hs] at hready
  -- Below the limit the last command is sent again, at the limit the keyboard is reset.
  by_cases hlt : heard.count Ps2.resendRequest < LastCommand.maxRepeats
  · rw [receive_request_again hstate hlast hlt]
    exact ⟨⟨fun h => absurd h hstate', fun h => absurd h (Nat.ne_of_lt hlt)⟩,
      fun h => absurd h hstate'⟩
  · have heq := Nat.le_antisymm hle (Nat.le_of_not_lt hlt)
    rw [receive_request_enough hstate (by rw [hlast, heq, LastCommand.repeat?_eq_none])]
    exact ⟨⟨fun _ => heq, fun _ => rfl⟩, fun _ => rfl⟩

/-- As many requests as were received lately are the last bytes of all if they are the last bytes
received lately. -/
theorem replicate_suffix_bytes_iff {inputs : List Input} {n : Nat}
    (hcount : (k.recent [] inputs).count Ps2.resendRequest = n) :
    List.replicate n Ps2.resendRequest <:+ bytes inputs ↔
      ∀ b ∈ (k.recent [] inputs).dropWhile (· != Ps2.resendRequest), b = Ps2.resendRequest := by
  rw [← replicate_suffix_iff hcount]
  have hrecent : k.recent [] inputs <:+ bytes inputs := k.recent_suffix [] inputs
  refine ⟨fun h => List.suffix_of_suffix_length_le h hrecent ?_, fun h => h.trans hrecent⟩
  rw [List.length_replicate, ← hcount]
  exact List.count_le_length

/-- After any run, a request for the last command resets a keyboard that is ready exactly if three
others have come in since the session last sent a command of its own accord. These three need not
be the last bytes before it: they are exactly if nothing else has come in after the first of them.
-/
theorem reset_iff_requests (timing : Timing) (defaultSet : CodeSet) (inputs : List Input)
    (hready : (({ timing, defaultSet } : AtKeyboard).run inputs).isInitialised) :
    let k₀ : AtKeyboard := { timing, defaultSet }
    let s := (k₀.run inputs).receive Ps2.resendRequest
    let recent := k₀.recent [] inputs
    (s.next.state = .awaitAck ↔ recent.count Ps2.resendRequest = LastCommand.maxRepeats) ∧
      (s.next.state = .awaitAck → s.action = .send Ps2.reset ∧
        (List.replicate LastCommand.maxRepeats Ps2.resendRequest <:+ bytes inputs ↔
          ∀ b ∈ recent.dropWhile (· != Ps2.resendRequest), b = Ps2.resendRequest)) := by
  intro k₀ s recent
  have hcounted : Counted (k₀.run inputs) recent := counted_run (.of_not_passed rfl) inputs
  obtain ⟨hreset, haction⟩ := hcounted.receive_request hready
  exact ⟨hreset, fun hs => ⟨haction hs, replicate_suffix_bytes_iff (hreset.mp hs)⟩⟩

/-- Three requests in a row, although time passes in between. -/
theorem reset_iff_requests_row :
    let inputs : List Input := [.byte 0xAA, .byte 0xAB, .byte 0x83, .byte 0x1C, .tick 0 true,
      .byte 0x1C, .byte 0xFE, .tick 10 true, .byte 0xFE, .byte 0xFE]
    let k := ({ timing := {}, defaultSet := .set2 } : AtKeyboard).run inputs
    k.isInitialised ∧ (k.receive 0xFE).next.state = .awaitAck ∧
      (k.receive 0xFE).action = .send Ps2.reset ∧ [0xFE, 0xFE, 0xFE] <:+ bytes inputs := by
  intro inputs k
  have hready : k.isInitialised := by decide
  obtain ⟨hreset, hbytes⟩ := reset_iff_requests {} .set2 inputs hready
  have hstate := hreset.mpr (by decide)
  obtain ⟨haction, hrow⟩ := hbytes hstate
  have hlast : (({ timing := {}, defaultSet := .set2 } : AtKeyboard).recent [] inputs).dropWhile
      (· != Ps2.resendRequest) = List.replicate 3 Ps2.resendRequest := by decide
  exact ⟨hready, hstate, haction, hrow.mpr fun b hb => List.eq_of_mem_replicate (hlast ▸ hb)⟩

/-- A keyboard asks for the last command once after each of three keys. Each of these requests is
answered, and the next one resets the keyboard although a key came in between. -/
theorem reset_amid_keys :
    let k := ({ timing := {}, defaultSet := .set2 } : AtKeyboard).run
      [.byte 0xAA, .byte 0xAB, .byte 0x83, .byte 0xFE, .byte 0x1C, .byte 0xFE, .byte 0x1C,
        .byte 0xFE, .byte 0x1C]
    k.isInitialised ∧ (k.receive 0xFE).next.state = .awaitAck ∧
      (k.receive 0xFE).action = .send Ps2.reset := by
  decide

end KeyBridge.Device.AtKeyboard
