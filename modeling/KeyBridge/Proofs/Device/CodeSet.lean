import KeyBridge.Coordinator
import KeyBridge.Proofs.Device.Steps
import Mathlib.Data.List.Infix

/-!
# The code set and the id

The keys of a keyboard are decoded with the scan code set of its session, by a decoder that is
chosen once an epoch. The session writes down the id, the code set and the epoch at different
moments: the code set of a terminal keyboard before its set-up, the epoch after it, and an id of
which only the first byte has come. Whenever the keyboard is ready they belong together.

## Key results

- `FollowsId.step`, `followsId_run`: the code set in use is that of the id
- `step_keeps`, `run_keeps`: id, code set and epoch stay as long as the keyboard is ready
- `codeSet_follows_id`: both for every run, and what they mean for the decoder
-/

namespace KeyBridge.Device.AtKeyboard

variable {k : AtKeyboard} {s : Step AtKeyboard}

/-! ## The code set in use -/

/-- The scan code set that the keyboard with the recorded id speaks. -/
def spokenSet (k : AtKeyboard) : CodeSet := if isTerminalId k.id then .set3 else k.defaultSet

/-- The code set in use is that of the id, and only a terminal keyboard is set up. -/
structure FollowsId (k : AtKeyboard) : Prop where
  ready : k.isInitialised → k.codeSet = k.spokenSet
  setup : k.state = .setup → isTerminalId k.id ∧ k.codeSet = .set3

/-- The id that is assumed is not that of a terminal keyboard. -/
theorem isTerminalId_unknownId : isTerminalId unknownId = false := by decide

/-- Nothing is known of a keyboard that is being identified. -/
theorem followsId_of_unready (hready : k.isInitialised = false) (hsetup : k.state ≠ .setup) :
    FollowsId k :=
  ⟨fun h => absurd h (by simp [hready]), fun h => absurd h hsetup⟩

/-- A keyboard that is ready once its id is known not to be that of a terminal keyboard. -/
theorem followsId_ready_default (hid : isTerminalId k.id = false) :
    FollowsId { k with codeSet := k.defaultSet }.ready :=
  ⟨fun _ => by simp [ready, spokenSet, hid], nofun⟩

/-- A terminal keyboard that is ready. -/
theorem followsId_ready_terminal (hid : isTerminalId k.id) (hset : k.codeSet = .set3) :
    FollowsId k.ready :=
  ⟨fun _ => by simp [ready, spokenSet, hid, hset], nofun⟩

/-- A keyboard whose LEDs are being set has been ready all the time. -/
theorem FollowsId.of_ready {k' : AtKeyboard} (h : k.FollowsId) (hready : k.isInitialised)
    (hset : k'.codeSet = k.codeSet) (hspoken : k'.spokenSet = k.spokenSet)
    (hsetup : k'.state ≠ .setup) : k'.FollowsId :=
  ⟨fun _ => hset.trans ((h.ready hready).trans hspoken.symm), fun hs => absurd hs hsetup⟩

/-- A step that does not touch the state either. -/
theorem FollowsId.of_eq {k' : AtKeyboard} (h : k.FollowsId) (hstate : k'.state = k.state)
    (hset : k'.codeSet = k.codeSet) (hid : k'.id = k.id) (hdefault : k'.defaultSet = k.defaultSet) :
    k'.FollowsId := by
  have hspoken : k'.spokenSet = k.spokenSet := by simp only [spokenSet, hid, hdefault]
  have hready : k'.isInitialised = k.isInitialised := by simp only [isInitialised, hstate]
  refine ⟨fun h' => ?_, fun h' => ?_⟩
  · rw [hset, hspoken, h.ready (hready ▸ h')]
  · rw [hid, hset]
    exact h.setup (hstate ▸ h')

/-- A byte keeps the code set that of the id. -/
theorem Received.followsId {byte : UInt8} (hs : Received k byte s) (h : k.FollowsId) :
    s.next.FollowsId := by
  cases hs with
  | refused | repeatedEnough | tested | resetAcked | idBegun | replugged =>
    exact followsId_of_unready rfl nofun
  | repeated | ackIgnored | kept => exact h.of_eq rfl rfl rfl rfl
  -- The code set is written down with the id in one step, or with a set-up before readiness.
  | identified id _ _ _ hterminal =>
    exact followsId_ready_default (k := { k.counted with id }) hterminal
  | identifiedTerminal _ _ _ _ hterminal => exact ⟨nofun, fun _ => ⟨hterminal, rfl⟩⟩
  | setupAcked hstate =>
    obtain ⟨hid, hset⟩ := h.setup hstate
    exact followsId_ready_terminal (k := k.counted) hid hset
  | ledsAcked hstate | bitmapAcked hstate =>
    exact h.of_ready (by simp [isInitialised, hstate]) rfl rfl nofun

/-- A look at the time keeps the code set that of the id. -/
theorem Ticked.followsId (hs : Ticked k s) (h : k.FollowsId) : s.next.FollowsId := by
  cases hs with
  | waited => exact h.of_eq rfl rfl rfl rfl
  | ledsBegun _ hstate => exact h.of_ready (by simp [isInitialised, hstate]) rfl rfl nofun
  | resetAgain | idAskedAgain => exact followsId_of_unready rfl nofun
  -- An id that never came is taken for that of an ordinary keyboard.
  | idAssumed timer =>
    exact followsId_ready_default (k := { k with timer, id := unknownId }) isTerminalId_unknownId
  | setupRepeated => exact h.of_eq rfl rfl rfl rfl
  -- The id was told before the setup, so that the code set is already that of a terminal.
  | setupAssumed timer _ hstate =>
    obtain ⟨hid, hset⟩ := h.setup hstate
    exact followsId_ready_terminal (k := { k with timer }) hid hset
  | ledsAssumed _ _ stage hstate =>
    exact h.of_ready (by simp [isInitialised, hstate]) rfl rfl nofun

/-- Every input keeps the code set that of the id. -/
theorem FollowsId.step (h : k.FollowsId) (i : Input) : (k.step i).next.FollowsId := by
  cases i with
  | byte b => exact (k.received b).followsId h
  | tick now idle => exact (k.ticked now idle).followsId h
  | reset => exact followsId_of_unready rfl nofun
  | leds wanted => exact h.of_eq rfl rfl rfl rfl

/-- The code set in use is that of the id after every run. -/
theorem followsId_run (h : k.FollowsId) (inputs : List Input) : (k.run inputs).FollowsId := by
  induction inputs generalizing k with
  | nil => exact h
  | cons i inputs ih => exact ih (h.step i)

/-! ## The configured code set -/

theorem Received.defaultSet_eq {byte : UInt8} (hs : Received k byte s) :
    s.next.defaultSet = k.defaultSet := by
  cases hs <;> rfl

theorem Ticked.defaultSet_eq (hs : Ticked k s) : s.next.defaultSet = k.defaultSet := by
  cases hs <;> rfl

/-- No input changes the default set. -/
theorem step_defaultSet (k : AtKeyboard) (i : Input) :
    (k.step i).next.defaultSet = k.defaultSet := by
  cases i with
  | byte b => exact (k.received b).defaultSet_eq
  | tick now idle => exact (k.ticked now idle).defaultSet_eq
  | reset | leds wanted => rfl

/-- No run changes the default set. -/
theorem run_defaultSet (k : AtKeyboard) (inputs : List Input) :
    (k.run inputs).defaultSet = k.defaultSet := by
  induction inputs generalizing k with
  | nil => rfl
  | cons i inputs ih => exact (ih _).trans (k.step_defaultSet i)

/-! ## What stays as long as the keyboard is ready -/

/-- The keyboard is the same, and so is the epoch. -/
structure Keeps (k k' : AtKeyboard) : Prop where
  id_eq : k'.id = k.id
  codeSet_eq : k'.codeSet = k.codeSet
  epoch_eq : k'.epoch = k.epoch

/-- What is kept by two runs is kept by both together. -/
theorem Keeps.trans {k₁ k₂ k₃ : AtKeyboard} (h : Keeps k₁ k₂) (h' : Keeps k₂ k₃) : Keeps k₁ k₃ :=
  ⟨h'.id_eq.trans h.id_eq, h'.codeSet_eq.trans h.codeSet_eq, h'.epoch_eq.trans h.epoch_eq⟩

/-- A byte that does not end normal operation keeps id, code set and epoch. -/
theorem Received.keeps {byte : UInt8} (hs : Received k byte s) (hready : k.isInitialised)
    (hready' : s.next.isInitialised) : Keeps k s.next := by
  cases hs with
  | repeated | ledsAcked | bitmapAcked | ackIgnored | kept => exact ⟨rfl, rfl, rfl⟩
  -- The session is not ready afterwards.
  | refused | repeatedEnough | tested | resetAcked | idBegun | identifiedTerminal | replugged =>
    exact absurd hready' Bool.false_ne_true
  -- It was not ready before.
  | identified _ hstate | setupAcked hstate => simp [isInitialised, hstate] at hready

/-- A look at the time that does not end normal operation keeps id, code set and epoch. -/
theorem Ticked.keeps (hs : Ticked k s) (hready : k.isInitialised) (hready' : s.next.isInitialised) :
    Keeps k s.next := by
  cases hs with
  | waited | ledsBegun | ledsAssumed => exact ⟨rfl, rfl, rfl⟩
  | resetAgain | idAskedAgain => exact absurd hready' Bool.false_ne_true
  | idAssumed _ _ hstate => rcases hstate with h | h <;> simp [isInitialised, h] at hready
  | setupRepeated _ _ hstate | setupAssumed _ _ hstate => simp [isInitialised, hstate] at hready

/-- An input that does not end normal operation keeps id, code set and epoch. -/
theorem step_keeps {i : Input} (hready : k.isInitialised)
    (hready' : (k.step i).next.isInitialised) : Keeps k (k.step i).next := by
  cases i with
  | byte b => exact (k.received b).keeps hready hready'
  | tick now idle => exact (k.ticked now idle).keeps hready hready'
  | reset => exact absurd hready' Bool.false_ne_true
  | leds wanted => exact ⟨rfl, rfl, rfl⟩

/-- A keyboard that is ready all through a run is the same at its end. -/
theorem run_keeps {inputs : List Input}
    (hready : ∀ part, part <+: inputs → (k.run part).isInitialised) : Keeps k (k.run inputs) := by
  induction inputs generalizing k with
  | nil => exact ⟨rfl, rfl, rfl⟩
  | cons i inputs ih =>
    have hlater : ∀ part, part <+: inputs → ((k.step i).next.run part).isInitialised :=
      fun part hpart => hready (i :: part) (List.cons_prefix_cons.mpr ⟨rfl, hpart⟩)
    have hstep : Keeps k (k.step i).next :=
      step_keeps (hready [] List.nil_prefix) (hlater [] List.nil_prefix)
    exact hstep.trans (ih hlater)

/-! ## The decoder -/

/-- A coordinator that has followed a keyboard need not follow one that has stayed the same,
whatever its decoder has read since. -/
theorem Keeps.sync_eq {k' : AtKeyboard} (h : Keeps k k')
    (hready : k'.isInitialised = k.isInitialised) {p p' : Port} (hp : p.device = .atKeyboard k)
    (hp' : p'.device = .atKeyboard k') (c : Coordinator) (decoder : Decoder) :
    let followed : Coordinator := { (c.sync p.status).1 with decoder }
    followed.sync p'.status = (followed, none) := by
  have hstatus : p'.status = p.status := by
    simp [Port.status, hp, hp', Device.protocol, Device.isInitialised, Device.epoch,
      Device.codeSet?, Device.wheel?, hready, h.epoch_eq, h.codeSet_eq]
  simp [Coordinator.sync, hstatus]

/-- The decoder that is chosen at the beginning of an epoch is that for the code set in use. -/
theorem decoder_sync {p : Port} (hp : p.device = .atKeyboard k) {c : Coordinator}
    (hnew : c.last.map (·.epoch) ≠ some k.epoch) :
    (c.sync p.status).1.decoder = .select .atKeyboard k.codeSet false := by
  simp [Coordinator.sync, Coordinator.decoderFor, Port.status, hp, Device.epoch, Device.protocol,
    Device.codeSet?, Device.wheel?, hnew]

/-! ## Every run -/

/-- Whatever a keyboard session has gone through, the code set in use belongs to the recorded id.
Once the keyboard is ready it is set 3 for a terminal keyboard and the configured set for any other,
and only a terminal keyboard is set up, for set 3. As long as the keyboard stays ready the id, the
code set and the epoch stay as well. So a coordinator which follows the session into a new epoch
chooses the decoder for the id, and keeps it, whatever it reads, as long as the keyboard stays
ready. -/
theorem codeSet_follows_id (timing : Timing) (defaultSet : CodeSet) (inputs later : List Input) :
    let k := ({ timing, defaultSet } : AtKeyboard).run inputs
    (k.isInitialised → k.codeSet = if isTerminalId k.id then .set3 else defaultSet) ∧
    (k.state = .setup → isTerminalId k.id ∧ k.codeSet = .set3) ∧
    ((∀ part, part <+: later → (k.run part).isInitialised) →
      let k' := k.run later
      k'.id = k.id ∧ k'.codeSet = k.codeSet ∧ k'.epoch = k.epoch ∧
      ∀ (c : Coordinator) (p p' : Port), p.device = .atKeyboard k → p'.device = .atKeyboard k' →
        c.last.map (·.epoch) ≠ some k.epoch →
        (c.sync p.status).1.decoder =
          .select .atKeyboard (if isTerminalId k'.id then .set3 else defaultSet) false ∧
        ∀ decoder : Decoder,
          let followed : Coordinator := { (c.sync p.status).1 with decoder }
          followed.sync p'.status = (followed, none)) := by
  intro k
  have hk : k.FollowsId :=
    followsId_run (followsId_of_unready rfl State.noConfusion) inputs
  have hdefault : k.defaultSet = defaultSet := run_defaultSet _ inputs
  have hset (h : k.isInitialised) :
      k.codeSet = if isTerminalId k.id then .set3 else defaultSet := by
    rw [hk.ready h, spokenSet, hdefault]
  refine ⟨hset, hk.setup, fun hready => ?_⟩
  -- While the keyboard stays ready, nothing changes that a decoder depends on.
  have hkeeps : Keeps k (k.run later) := run_keeps hready
  have hnow : k.isInitialised := hready [] List.nil_prefix
  have hlater : (k.run later).isInitialised := hready later List.prefix_rfl
  refine ⟨hkeeps.id_eq, hkeeps.codeSet_eq, hkeeps.epoch_eq, fun c p p' hp hp' hnew => ⟨?_, ?_⟩⟩
  · rw [decoder_sync hp hnew, hset hnow, hkeeps.id_eq]
  · exact hkeeps.sync_eq (hlater.trans hnow.symm) hp hp' c

/-- A terminal keyboard is set up and its lock LEDs are set. -/
theorem codeSet_follows_id_terminal :
    let setUp : List Input := [.byte 0xAA, .byte 0xBF, .byte 0xB0]
    let later : List Input := [.leds { caps := true }, .tick 0 true, .byte 0xFA, .byte 0x1C]
    let start : AtKeyboard := { timing := {}, defaultSet := .set2 }
    let k := start.run (setUp ++ [.byte 0xFA])
    let port : Port := { device := .atKeyboard k }
    (start.run setUp).state = .setup ∧ (start.run setUp).codeSet = .set3 ∧
      k.isInitialised ∧ k.codeSet = .set3 ∧
      (k.run later).state = .setLeds .value ∧ (k.run later).id = 0xBFB0 ∧
      (k.run later).codeSet = .set3 ∧
      ((Coordinator.ofConfig {}).sync port.status).1.decoder = .set3 .init := by
  intro setUp later start k port
  -- The keyboard is ready after each part of the later inputs.
  have hready : ∀ part, part <+: later → (k.run part).isInitialised := by
    have hinits : ∀ part ∈ later.inits, (k.run part).isInitialised := by decide
    exact fun part hpart => hinits part ((List.mem_inits part later).mpr hpart)
  have hsetUp : (start.run setUp).state = .setup := by decide
  obtain ⟨-, hsetup, -⟩ := codeSet_follows_id {} .set2 setUp []
  obtain ⟨hset, -, hkept⟩ := codeSet_follows_id {} .set2 (setUp ++ [.byte 0xFA]) later
  obtain ⟨hid, hsame, -, hdecoder⟩ := hkept hready
  have hnow : k.isInitialised := by decide
  refine ⟨hsetUp, (hsetup hsetUp).2, hnow, (hset hnow).trans (by decide), by decide,
    hid.trans (by decide), hsame.trans (by decide), ?_⟩
  have hchosen := (hdecoder (.ofConfig {}) port { device := .atKeyboard (k.run later) } rfl rfl
    (by decide)).1
  exact hchosen.trans (by decide)

end KeyBridge.Device.AtKeyboard
