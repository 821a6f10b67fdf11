import KeyBridge.Proofs.Device.Typing

/-!
# What a keyboard that is ready keeps to itself

Among the bytes of keys, a keyboard sends some that are meant for the session: acknowledgements,
requests to repeat a command, the result of a self test, and reports of lost keys. `Absorbs` says
which of them the session of a keyboard that is ready does not pass on, in the normal state and
while the LEDs are set. The releases of scan code set 1 have their top bit set, as most of these
bytes do, so that a release can be taken for one of them.

## Key results

- `feeds_of_absorbs` / `receive_of_not_absorbs`: what is passed on and what is not
- `receive_overrun`: lost keys are noted in the normal state only
- `passes_reply_iff`: which replies get through to the decoder of set 2 or 3
- `release_passed`: which keys of set 1 come up again
-/

namespace KeyBridge.Device.AtKeyboard

open Command

variable {k : AtKeyboard} {byte : UInt8}

/-- The bytes that a keyboard which is ready does not pass on. -/
def Absorbs (k : AtKeyboard) (byte : UInt8) : Prop :=
  byte = Ps2.resendRequest ∨ byte = Ps2.ack ∨ (byte = Ps2.selfTestPassed ∧ k.codeSet ≠ .set1) ∨
    (k.state = .initialised ∧ byte ∈ [Ps2.echoReply, Ps2.keyError, Ps2.bufferOverrun])

instance (k : AtKeyboard) (byte : UInt8) : Decidable (k.Absorbs byte) :=
  inferInstanceAs (Decidable (_ ∨ _))

/-! ## Passing on -/

/-- A byte that is not absorbed is passed on, and changes nothing but the count of bytes. -/
theorem receive_of_not_absorbs (hk : k.isInitialised) (h : ¬ k.Absorbs byte) :
    k.receive byte = { next := { k with activity := k.activity + 1 }, action := .pass } := by
  simp only [Absorbs, List.mem_cons, List.not_mem_nil, or_false, not_or, not_and] at h
  obtain ⟨hresend, hack, htest, hnormal⟩ := h
  have htest' : ¬ (byte = Ps2.selfTestPassed ∧ k.codeSet ≠ .set1) := fun h => htest h.1 h.2
  cases hs : k.state with
  | initialised =>
    obtain ⟨hecho, herror, hoverrun⟩ := hnormal hs
    simp only [receive, hresend, hack, htest', hecho, herror, hoverrun, hs, or_self, if_false]
  | setLeds stage => simp only [receive, hresend, hack, htest', hs, if_false]
  | _ => simp [isInitialised, hs] at hk

/-- A repetition brings the decoder nothing. -/
theorem feeds_repeatCommand (k : AtKeyboard) : k.repeatCommand.action.feeds = false := by
  unfold repeatCommand
  split <;> rfl

/-- A keyboard that reports lost keys has that noted, and nothing else comes of it. -/
theorem receive_overrun (hs : k.state = .initialised)
    (hbyte : byte ∈ [Ps2.keyError, Ps2.bufferOverrun]) :
    k.receive byte =
      { next := { k with activity := k.activity + 1 }, notes := [.deviceOverrun byte] } := by
  have hresend : byte ≠ Ps2.resendRequest := by rintro rfl; exact absurd hbyte (by decide)
  have hreply : ¬ (byte = Ps2.ack ∨ byte = Ps2.echoReply) := by
    rintro (rfl | rfl) <;> exact absurd hbyte (by decide)
  have hlost : byte = Ps2.keyError ∨ byte = Ps2.bufferOverrun := by simpa using hbyte
  simp only [receive, hresend, hs, hreply, hlost, if_true, if_false]

/-- A self test that was passed means that the keyboard was plugged in anew, unless the byte can be
one of set 1. -/
theorem receive_selfTest (hk : k.isInitialised) (hset : k.codeSet ≠ .set1) :
    k.receive Ps2.selfTestPassed =
      ({ k with activity := k.activity + 1 } : AtKeyboard).replugged := by
  have hresend : Ps2.selfTestPassed ≠ Ps2.resendRequest := by decide
  have hack : Ps2.selfTestPassed ≠ Ps2.ack := by decide
  have hreply : ¬ (Ps2.selfTestPassed = Ps2.ack ∨ Ps2.selfTestPassed = Ps2.echoReply) := by decide
  have hlost : ¬ (Ps2.selfTestPassed = Ps2.keyError ∨ Ps2.selfTestPassed = Ps2.bufferOverrun) := by
    decide
  cases hs : k.state with
  -- Plugged in again, the keyboard is asked for its id in both states.
  | initialised =>
    simp only [receive, hresend, hreply, hlost, hs, hset, ne_eq, not_false_eq_true, and_self,
      if_true, if_false]
  | setLeds stage =>
    simp only [receive, hresend, hack, hs, hset, ne_eq, not_false_eq_true, and_self, if_true,
      if_false]
  | _ => simp [isInitialised, hs] at hk

/-- A byte that is absorbed is not passed on. -/
theorem feeds_of_absorbs (hk : k.isInitialised) (h : k.Absorbs byte) :
    (k.receive byte).action.feeds = false := by
  rcases h with rfl | rfl | ⟨rfl, hset⟩ | ⟨hs, hbyte⟩
  -- A request to repeat.
  · simp only [receive, if_true]
    split
    · rfl
    · exact feeds_repeatCommand _
  -- An acknowledgement.
  · exact typing_feeds hk (i := .byte Ps2.ack) (.inr rfl) (by decide)
  -- A self test that was passed.
  · rw [receive_selfTest hk hset]
    rfl
  · rcases List.mem_cons.mp hbyte with rfl | hlost
    · have hresend : Ps2.echoReply ≠ Ps2.resendRequest := by decide
      simp only [receive, hresend, hs, or_true, if_true, if_false]
      rfl
    · rw [receive_overrun hs hlost]
      rfl

/-- A byte is passed on exactly if it is not absorbed. -/
theorem feeds_iff_not_absorbs (hk : k.isInitialised) :
    (k.receive byte).action.feeds ↔ ¬ k.Absorbs byte := by
  by_cases h : k.Absorbs byte
  · simp [feeds_of_absorbs hk h, h]
  · simp [receive_of_not_absorbs hk h, h, Action.feeds]

/-! ## Sets 2 and 3 -/

/-- A reply is absorbed, but for three of them while the LEDs are set. -/
theorem absorbs_reply_iff (hset : k.codeSet ≠ .set1) (hb : byte ∈ replies) :
    k.Absorbs byte ↔
      k.state = .initialised ∨ byte ∉ [Ps2.echoReply, Ps2.keyError, Ps2.bufferOverrun] := by
  constructor
  · rintro (rfl | rfl | ⟨rfl, -⟩ | ⟨hs, -⟩)
    · exact .inr (by decide)
    · exact .inr (by decide)
    · exact .inr (by decide)
    · exact .inl hs
  · intro h
    -- Three replies are absorbed in normal operation only, the other ones always.
    by_cases hlate : byte ∈ [Ps2.echoReply, Ps2.keyError, Ps2.bufferOverrun]
    · exact .inr (.inr (.inr ⟨h.resolve_right (not_not_intro hlate), hlate⟩))
    · simp only [replies, List.mem_cons, List.not_mem_nil, or_false, not_or] at hb hlate
      rcases hb with hack | hresend | htest | hecho | herror | hoverrun
      · exact .inr (.inl hack)
      · exact .inl hresend
      · exact .inr (.inr (.inl ⟨htest, hset⟩))
      · exact absurd hecho hlate.1
      · exact absurd herror hlate.2.1
      · exact absurd hoverrun hlate.2.2

/-- With a keyboard that speaks set 2 or 3, no byte that is meant for the session gets through in
the normal state, and lost keys are noted. While the LEDs are set, the reply to an echo and the
reports of lost keys are passed on as if they were keys, and lost keys are not noted. -/
theorem passes_reply_iff (hk : k.isInitialised) (hset : k.codeSet ≠ .set1) (hb : byte ∈ replies) :
    ((k.receive byte).action.feeds ↔
      k.state ≠ .initialised ∧ byte ∈ [Ps2.echoReply, Ps2.keyError, Ps2.bufferOverrun]) ∧
    (byte ∈ [Ps2.keyError, Ps2.bufferOverrun] →
      (.deviceOverrun byte ∈ (k.receive byte).notes ↔ k.state = .initialised)) := by
  refine ⟨?_, fun hlost => ?_⟩
  · rw [feeds_iff_not_absorbs hk, absorbs_reply_iff hset hb, not_or, Decidable.not_not]
  · by_cases hs : k.state = .initialised
    · simp [receive_overrun hs hlost, hs]
    · have habsorbs : ¬ k.Absorbs byte := by
        rw [absorbs_reply_iff hset hb]
        exact not_or.mpr ⟨hs, not_not_intro (List.mem_cons_of_mem _ hlost)⟩
      simp [receive_of_not_absorbs hk habsorbs, hs]

/-- An overrun is noted and not passed on while no LEDs are set. -/
theorem passes_reply_iff_overrun :
    let k := ({ timing := {}, defaultSet := .set2 } : AtKeyboard).run
      [.byte 0xAA, .byte 0xAB, .byte 0x83]
    k.isInitialised ∧ k.codeSet = .set2 ∧ (k.receive 0x00).action.feeds = false ∧
      .deviceOverrun 0x00 ∈ (k.receive 0x00).notes := by
  intro k
  have hk : k.isInitialised := by decide
  have hset : k.codeSet ≠ .set1 := by decide
  have hb : 0x00 ∈ replies := by decide
  obtain ⟨hfeeds, hnoted⟩ := passes_reply_iff hk hset hb
  refine ⟨hk, by decide, ?_, (hnoted (by decide)).mpr (by decide)⟩
  exact Bool.eq_false_iff.mpr fun h => (hfeeds.mp h).1 (by decide)

/-- The keyboard has been identified and its LEDs are being set. The reports of lost keys and the
reply to an echo reach the decoder, and nothing is noted. -/
theorem replies_passed_amid_leds :
    let k := ({ timing := {}, defaultSet := .set2 } : AtKeyboard).run
      [.byte 0xAA, .byte 0xAB, .byte 0x83, .tick 0 true]
    k.isInitialised ∧ k.codeSet = .set2 ∧
      [0xFF, 0x00, 0xEE].map (fun byte => ((k.receive byte).action, (k.receive byte).notes)) =
        [(.pass, []), (.pass, []), (.pass, [])] := by
  decide

/-! ## Set 1 -/

/-- What is no reply is not absorbed. -/
theorem not_absorbs_of_not_mem (h : byte ∉ replies) : ¬ k.Absorbs byte := by
  rintro (rfl | rfl | ⟨rfl, -⟩ | ⟨-, hbyte⟩)
  · exact h (by decide)
  · exact h (by decide)
  · exact h (by decide)
  · have hsub : ∀ b ∈ [Ps2.echoReply, Ps2.keyError, Ps2.bufferOverrun], b ∈ replies :=
      forall_mem_of_all (by decide)
    exact h (hsub byte hbyte)

/-- No make code is a reply. -/
theorem not_mem_replies_of_makeCode {key : UInt8} (hkey : 0x01 ≤ key ∧ key ≤ 0x7F) :
    key ∉ replies := by
  have hreplies : ∀ b ∈ replies, ¬ (0x01 ≤ b ∧ b ≤ 0x7F) := forall_mem_of_all (by decide)
  exact fun h => hreplies key h hkey

/-- A key of set 1 that goes down for the host comes up as well, unless its release is the byte of
an acknowledgement or of a request to repeat a command, or, in the normal state, that of the reply
to an echo or of lost keys. -/
theorem release_passed (hk : k.isInitialised) (hset : k.codeSet = .set1) {key : UInt8}
    (hkey : 0x01 ≤ key ∧ key ≤ 0x7F)
    (hreply : key ||| Scan.releaseBit ∉ [Ps2.ack, Ps2.resendRequest])
    (hnormal : k.state = .initialised → key ||| Scan.releaseBit ∉ [Ps2.echoReply, Ps2.keyError]) :
    (k.receive key).action = .pass ∧
      ((k.receive key).next.receive (key ||| Scan.releaseBit)).action = .pass := by
  have hdown :=
    receive_of_not_absorbs hk (not_absorbs_of_not_mem (not_mem_replies_of_makeCode hkey))
  -- Nothing but the count of bytes has changed since the key went down.
  have hready : (k.receive key).next.isInitialised := by
    rw [hdown]
    exact hk
  have hrelease : ¬ (k.receive key).next.Absorbs (key ||| Scan.releaseBit) := by
    rw [hdown]
    rintro (h | h | ⟨-, h⟩ | ⟨hs, h⟩)
    · exact hreply (by simp [h])
    · exact hreply (by simp [h])
    · exact h hset
    · have hne : key ||| Scan.releaseBit ≠ Ps2.bufferOverrun := by
        simp [Scan.releaseBit, Ps2.bufferOverrun]
      exact hnormal hs (by simpa [hne] using h)
  exact ⟨by rw [hdown], by rw [receive_of_not_absorbs hready hrelease]⟩

/-- The left shift key comes up while the LEDs are set. -/
theorem release_passed_shift :
    let k := ({ timing := {}, defaultSet := .set1 } : AtKeyboard).run
      [.byte 0xAA, .byte 0xAB, .byte 0x83, .tick 0 true]
    k.isInitialised ∧ k.codeSet = .set1 ∧ (k.receive 0x2A).action = .pass ∧
      ((k.receive 0x2A).next.receive 0xAA).action = .pass := by
  intro k
  have hk : k.isInitialised := by decide
  have hset : k.codeSet = .set1 := by decide
  have hkey : (0x01 : UInt8) ≤ 0x2A ∧ (0x2A : UInt8) ≤ 0x7F := by decide
  exact ⟨hk, hset, release_passed hk hset hkey (by decide) (by decide)⟩

/-- Four keys go down and never come up. In the normal state their releases are taken for the reply
to an echo, an acknowledgement, a request to repeat a command and a report of lost keys. -/
theorem release_absorbed :
    let k := ({ timing := {}, defaultSet := .set1 } : AtKeyboard).run
      [.byte 0xAA, .byte 0xAB, .byte 0x83]
    k.isInitialised ∧ k.codeSet = .set1 ∧
      [0x6E, 0x7A, 0x7E, 0x7F].map (fun key =>
        let down := k.receive key
        (down.action, (down.next.receive (key ||| Scan.releaseBit)).action)) =
      [(.pass, .none), (.pass, .none), (.pass, .send Ps2.getId), (.pass, .none)] := by
  decide

end KeyBridge.Device.AtKeyboard
