import KeyBridge.Proofs.Pipeline.History

/-!
# Isolation of epochs

However frames come in between the parts of a turn, the events for the host are, epoch after epoch,
what a fresh decoder makes of the bytes that the ring took in first. Bytes and decoder states of
different epochs never meet.

The invariant has two halves. `Flow` says where the bytes of the current epoch are: those that the
coordinator took come first, and the others wait in the ring unless the device was lost. `AtStage`
says what the coordinator knows: either it has met the current epoch and its decoder has read just
the bytes that it took, or it has taken none, and will not take any in this turn because its
generation is out of date.

## Key results

- `Flow.ported`: what a step of the port keeps
- `step_invariant`: what any move keeps
- `events_accounted`: the events of every run
-/

namespace KeyBridge.Pipeline

open Device (Follows Regular)

variable {w : Nat} {c : Config} {ring : ByteRing w} {h : History} {past events : List Event}
  {part new : List UInt8} {b s t : PortStatus}

/-! ## Statuses of one epoch -/

/-- What a status has in common with the one with which its epoch began, while no byte is lost. -/
structure Kept (b s : PortStatus) : Prop where
  ready : s.initialised → s.codeSet? = b.codeSet? ∧ s.wheel? = b.wheel?
  /-- Only a keyboard can be away while its bytes wait. -/
  away : s.initialised = false →
    s.wheel? = none ∧ b.wheel? = none ∧ (s.codeSet? = b.codeSet? ∨ s.codeSet? = some .set3)

/-- An epoch is kept by the status that it begins with. -/
theorem kept_refl (hs : s.initialised = true) : Kept s s :=
  ⟨fun _ => ⟨rfl, rfl⟩, fun h => absurd h (by simp [hs])⟩

/-- A status that keeps an epoch suits it. -/
theorem Kept.suits (hk : Kept b s) : s.Suits b := by
  cases hs : s.initialised with
  | true => exact .inl (hk.ready hs)
  | false =>
    obtain ⟨hsw, hbw, hset | hset⟩ := hk.away hs
    · exact .inl ⟨hset, hsw.trans hbw.symm⟩
    · exact .inr ⟨hs, hset⟩

/-- The status of a session goes on as its epoch does. -/
theorem Kept.follows {p p' : Port} (hk : Kept b p.status) (hf : Follows p.device p'.device)
    (he : p'.device.epoch = p.device.epoch) : Kept b p'.status := by
  obtain heq | ⟨s, hs, hnext⟩ := hf
  · simpa only [Port.status, heq] using hk
  · rw [← hnext] at he
    -- Whether there is a wheel at all depends on the protocol only.
    have hprotocol : s.next.wheel? = none ↔ p.device.wheel? = none := by
      rw [Device.wheel?_eq_none_iff, Device.wheel?_eq_none_iff, hs.protocol_eq]
    obtain ⟨hready, haway⟩ := hk
    simp only [Port.status] at hready haway
    constructor <;> simp only [Port.status, ← hnext] <;> intro hi
    -- Ready now without a new epoch, so ready before.
    · have hd : p.device.isInitialised = true := by
        by_contra hd
        simp [hs.not_ready he (by simpa using hd)] at hi
      obtain ⟨hset, hwheel⟩ := hs.kept hd hi
      exact ⟨hset.trans (hready hd).1, hwheel.trans (hready hd).2⟩
    · cases hd : p.device.isInitialised with
      | true =>
        -- It has just stopped being ready: it is no mouse, and its code set stays.
        obtain ⟨hset, hwheel⟩ := hs.lost hd hi
        exact ⟨hprotocol.mpr hwheel, (hready hd).2 ▸ hwheel, .inl (hset.trans (hready hd).1)⟩
      | false =>
        -- It was away already, and can only turn out to be a terminal keyboard.
        obtain ⟨hwheel, hbegun, hset⟩ := haway hd
        refine ⟨hprotocol.mpr hwheel, hbegun, ?_⟩
        obtain hsame | hthird := hs.waiting hd hi
        · rwa [hsame]
        · exact .inr hthird

/-! ## Where the bytes are -/

/-- Where the bytes of the current epoch are: `part` has gone through the decoder, and `past` are
the events of earlier epochs. -/
structure Flow (c : Config) (s : PortStatus) (ring : ByteRing w) (events : List Event) (h : History)
    (past : List Event) (part : List UInt8) : Prop where
  valid : ring.Valid
  lag : ring.Lag h.unread
  protocol_eq : h.current.begun.protocol = s.protocol
  accounted : Accounted c.codeSet h.past past
  events_eq : events = past ++ (h.current.decoder c.codeSet).outputs part
  suits : part ≠ [] → h.current.seen.Suits h.current.begun
  taken : part <+: h.current.accepted
  /-- What the coordinator has not taken waits, unless the device was lost. -/
  waits : (part ++ ring.contents = h.current.accepted ∧ Kept h.current.begun s ∧
      h.current.seen.Suits h.current.begun) ∨
    (ring.contents = [] ∧ s.initialised = false)

/-- All events are accounted for. -/
theorem Flow.all (hf : Flow c s ring events h past part) :
    Accounted c.codeSet h.epochs events := by
  rw [hf.events_eq]
  exact .epoch h.current part hf.accounted hf.taken hf.suits

/-! ## What the coordinator knows -/

/-- What a coordinator between two turns knows of the current epoch. -/
structure Settled (c : Config) (k : Coordinator) (epoch : UInt16) (h : History)
    (part : List UInt8) : Prop where
  defaultSet_eq : k.defaultSet = c.codeSet
  new : h.unmet = none → k.last = none ∧ h.current.met = none ∧ part = []
  counts : ∀ n, h.unmet = some n →
    ∃ s, k.last = some s ∧ epoch = s.epoch + UInt16.ofNat n
  /-- It has met the current epoch, and its decoder has read what it took. -/
  met : h.unmet = some 0 →
    h.current.met ≠ none ∧ k.decoder = (h.current.decoder c.codeSet).fed part
  /-- It has not met the current epoch, and has taken nothing of it. -/
  unmet : ∀ n, h.unmet = some (n + 1) → h.current.met = none ∧ part = []

/-- There were `n` discards since the generation was looked at. -/
structure Since (g : BitVec w) (ring : ByteRing w) (h : History) (n : Nat) : Prop where
  le : n ≤ h.unread
  generation_eq : ring.generation = g + BitVec.ofNat w n

/-- What is known at a stage of a turn. If nothing was discarded since the generation was looked at,
then the current epoch is the one whose status was given. -/
def AtStage (c : Config) (p : Pipeline w) (h : History) (part : List UInt8) : Prop :=
  match p.stage with
  | .resting => Settled c p.bridge.coordinator p.bridge.port.status.epoch h part
  | .looked g =>
    Settled c p.bridge.coordinator p.bridge.port.status.epoch h part ∧
      ∃ n, Since g p.bridge.ring h n
  | .serviced g s =>
    Settled c (p.bridge.coordinator.sync s).1 p.bridge.port.status.epoch h part ∧
      ∃ n, Since g p.bridge.ring h n ∧ (n = 0 → h.unmet = some 0)
  | .synced g =>
    Settled c p.bridge.coordinator p.bridge.port.status.epoch h part ∧
      ∃ n, Since g p.bridge.ring h n ∧ (n = 0 → h.unmet = some 0)

/-- The invariant of a run. -/
structure Invariant (c : Config) (p : Pipeline w) (h : History) : Prop where
  takesMouse : p.bridge.takesMouse = true
  unread_le : h.unread ≤ h.mostUnread
  flow : ∃ past part,
    Flow c p.bridge.port.status p.bridge.ring p.bridge.trace.events h past part ∧
      AtStage c p h part

/-! ## Steps of the port -/

/-- What is known of the bytes after a step of the port, in the same epoch or in a new one. -/
theorem Flow.ported {p : Port} {ps : PortStep w} (hf : Flow c p.status ring events h past part)
    (he : Port.Effect p.device ring.contents ps new)
    (hc : Port.Counted ring h.unread (p.discards ps) ps) :
    ∃ past' part', Flow c ps.port.status ps.ring events (h.ported p ps new) past' part' ∧
      ∀ k, Settled c k p.status.epoch h part →
        Settled c k ps.port.status.epoch (h.ported p ps new) part' := by
  cases he with
  | goesOn hfollows hepoch hcontents hfed =>
    -- The coordinator has taken nothing in this step, so that only the ring is longer.
    refine ⟨past, part, ⟨hc.valid, ?_, ?_, ?_, ?_, ?_, ?_, ?_⟩, fun k hk => ?_⟩ <;>
      simp only [History.ported, hepoch, if_true]
    · exact hc.lag
    · exact hf.protocol_eq.trans hfollows.protocol_eq.symm
    · exact hf.accounted
    · exact hf.events_eq
    · exact hf.suits
    · exact hf.taken.trans (List.prefix_append _ _)
    · obtain ⟨hbytes, hkept, hsuits⟩ | ⟨hnil, hgone⟩ := hf.waits
      · refine .inl ⟨?_, hkept.follows hfollows hepoch, hsuits⟩
        rw [hcontents, ← List.append_assoc, hbytes]
        rfl
      · -- A device that was lost passes nothing on before its next epoch.
        have hgone' : ps.port.device.isInitialised = false := hfollows.not_ready hepoch hgone
        have hnew : new = [] := by
          by_contra hne
          simp [hfed hne] at hgone'
        exact .inr ⟨by rw [hcontents, hnil, hnew, List.append_nil], hgone'⟩
    · have : ps.port.status.epoch = p.status.epoch := hepoch
      rw [this]
      exact ⟨hk.defaultSet_eq, hk.new, hk.counts, hk.met, hk.unmet⟩
  | loses hprotocol hepoch hgone hcontents hnew =>
    subst hnew
    -- What the coordinator took stays accounted for, and the rest is gone.
    refine ⟨past, part, ⟨hc.valid, ?_, ?_, ?_, ?_, ?_, ?_, .inr ⟨hcontents, hgone⟩⟩,
      fun k hk => ?_⟩ <;>
      simp only [History.ported, hepoch, if_true]
    · exact hc.lag
    · exact hf.protocol_eq.trans hprotocol.symm
    · exact hf.accounted
    · exact hf.events_eq
    · exact hf.suits
    · exact hf.taken.trans (List.prefix_append _ _)
    · have : ps.port.status.epoch = p.status.epoch := hepoch
      rw [this]
      exact ⟨hk.defaultSet_eq, hk.new, hk.counts, hk.met, hk.unmet⟩
  | begins habsent hready hepoch hcontents =>
    have hne : ps.port.device.epoch ≠ p.device.epoch := by simp [hepoch]
    -- All events so far belong to epochs that are over, and nothing of the new one is taken yet.
    refine ⟨events, [], ⟨hc.valid, ?_, ?_, ?_, ?_, ?_, ?_, .inl ⟨?_, ?_, ?_⟩⟩, fun k hk => ?_⟩ <;>
      simp only [History.ported, hne, if_false]
    · exact hc.lag
    · rfl
    · exact hf.all
    · exact (List.append_nil _).symm
    · exact fun hpart => absurd rfl hpart
    · exact List.nil_prefix
    · exact hcontents
    · exact kept_refl hready
    · exact .inl ⟨rfl, rfl⟩
    -- One more epoch has begun since the coordinator was last given a status.
    · have hcounts : ∀ n, (h.unmet.map (· + 1)) = some n → ∃ m, h.unmet = some m ∧ n = m + 1 := by
        intro n hn
        cases hu : h.unmet with
        | none => simp [hu] at hn
        | some m => exact ⟨m, rfl, by simpa [hu, eq_comm] using hn⟩
      refine ⟨hk.defaultSet_eq, fun hn => ?_, fun n hn => ?_, fun hn => ?_, fun n hn => ⟨rfl, rfl⟩⟩
      · have hn : h.unmet = none := by
          simpa [History.entered, History.accept, History.discarded] using hn
        exact ⟨(hk.new hn).1, rfl, rfl⟩
      · obtain ⟨m, hm, rfl⟩ := hcounts n hn
        obtain ⟨s, hlast, hs⟩ := hk.counts m hm
        refine ⟨s, hlast, ?_⟩
        have hs' : p.device.epoch = s.epoch + UInt16.ofNat m := hs
        simp only [Port.status, hepoch, hs', UInt16.ofNat_add, UInt16.add_assoc]
        rfl
      · obtain ⟨m, -, hm⟩ := hcounts 0 hn
        omega

/-- The discards of a step of the port count since a generation was read. -/
theorem Since.ported {g : BitVec w} {n : Nat} {p : Port} {ps : PortStep w} (hs : Since g ring h n)
    (hc : Port.Counted ring h.unread (p.discards ps) ps) (new : List UInt8) :
    Since g ps.ring (h.ported p ps new) (n + p.discards ps) := by
  constructor
  · have := Nat.add_le_add_right hs.le (p.discards ps)
    simp only [History.ported]
    split <;> exact this
  · rw [hc.generation_eq, hs.generation_eq, BitVec.ofNat_add, BitVec.add_assoc]

/-- Without a discard no epoch has begun. -/
theorem unmet_ported {p : Port} {ps : PortStep w} (hd : p.discards ps = 0) (new : List UInt8) :
    (h.ported p ps new).unmet = h.unmet := by
  have he : ps.port.device.epoch = p.device.epoch := by
    by_contra hne
    simp [Port.discards, hne] at hd
  simp only [History.ported, he, if_true]
  rfl

/-- A step of the port in the middle of a turn. -/
theorem Invariant.ported {p : Pipeline w} (hi : Invariant c p h) (ps : PortStep w)
    (he : ∀ n, p.bridge.ring.Lag n → n + p.bridge.port.discards ps < 2 ^ w →
      Port.Effect p.bridge.port.device p.bridge.ring.contents ps new)
    (hc : ∀ n, p.bridge.ring.Lag n → Port.Counted p.bridge.ring n (p.bridge.port.discards ps) ps)
    (hw : (h.ported p.bridge.port ps new).mostUnread < 2 ^ w) :
    Invariant c { p with bridge := p.bridge.settle ps } (h.ported p.bridge.port ps new) := by
  obtain ⟨hmouse, -, past, part, hf, hstage⟩ := hi
  have hc := hc _ hf.lag
  have hunread : h.unread + p.bridge.port.discards ps < 2 ^ w :=
    Nat.lt_of_le_of_lt
      (Nat.le_trans (Nat.le_max_right _ _) (h.mostUnread_le_ported p.bridge.port ps new)) hw
  obtain ⟨past', part', hf', hsettled⟩ := hf.ported (he _ hf.lag hunread) hc
  refine ⟨by simpa using hmouse, h.unread_le_ported p.bridge.port ps new, past', part',
    by simpa using hf', ?_⟩
  -- If nothing was discarded in this step either, then no epoch has begun.
  have hsince : ∀ {g : BitVec w} {n : Nat}, Since g p.bridge.ring h n →
      (n = 0 → h.unmet = some 0) →
      ∃ n, Since g ps.ring (h.ported p.bridge.port ps new) n ∧
        (n = 0 → (h.ported p.bridge.port ps new).unmet = some 0) := by
    intro g n hs hn
    refine ⟨_, hs.ported hc new, fun hzero => ?_⟩
    rw [unmet_ported (by omega)]
    exact hn (by omega)
  obtain ⟨bridge, stage⟩ := p
  cases stage with
  | resting => simpa [AtStage] using hsettled _ hstage
  | looked g =>
    obtain ⟨hk, n, hs⟩ := hstage
    exact ⟨by simpa using hsettled _ hk, _, by simpa using hs.ported hc new⟩
  | serviced g t =>
    obtain ⟨hk, n, hs, hn⟩ := hstage
    exact ⟨by simpa using hsettled _ hk, by simpa using hsince hs hn⟩
  | synced g =>
    obtain ⟨hk, n, hs, hn⟩ := hstage
    exact ⟨by simpa using hsettled _ hk, by simpa using hsince hs hn⟩

/-! ## Statuses for the coordinator -/

/-- The first status of an epoch is given before any of its bytes is taken. -/
theorem Settled.part_eq_nil {k : Coordinator} {epoch : UInt16} (hk : Settled c k epoch h part)
    (hmet : h.current.met = none) : part = [] := by
  cases hu : h.unmet with
  | none => exact (hk.new hu).2.2
  | some n =>
    cases n with
    | zero => exact absurd hmet (hk.met hu).1
    | succ n => exact (hk.unmet n hu).2

/-- The status that an epoch was seen with is the first one that is met. -/
theorem seen_meet (h : History) (s : PortStatus) :
    (h.meet s).current.seen = h.current.met.getD s := rfl

/-- A later status of an epoch does not change its decoder. -/
theorem seen_meet_of_some (hmet : h.current.met = some t) (s : PortStatus) :
    (h.meet s).current.seen = h.current.seen := by
  rw [seen_meet, Epoch.seen, hmet]
  rfl

/-- An epoch that has been met keeps its decoder. -/
theorem decoder_meet_of_some (hmet : h.current.met = some t) (s : PortStatus) :
    (h.meet s).current.decoder c.codeSet = h.current.decoder c.codeSet := by
  simp only [Epoch.decoder, seen_meet_of_some hmet]
  rfl

/-- The coordinator meets a status, and what flows is accounted for as before. -/
theorem Flow.meet {k : Coordinator} {epoch : UInt16} (hf : Flow c s ring events h past part)
    (hk : Settled c k epoch h part) : Flow c s ring events (h.meet s) past part := by
  cases hmet : h.current.met with
  | some t =>
    refine ⟨hf.valid, hf.lag, hf.protocol_eq, hf.accounted, ?_, ?_, hf.taken, ?_⟩
    · rw [decoder_meet_of_some hmet]
      exact hf.events_eq
    · rw [seen_meet_of_some hmet]
      exact hf.suits
    · rw [seen_meet_of_some hmet]
      exact hf.waits
  | none =>
    obtain rfl := hk.part_eq_nil hmet
    refine ⟨hf.valid, hf.lag, hf.protocol_eq, hf.accounted, hf.events_eq,
      fun hpart => absurd rfl hpart, hf.taken, ?_⟩
    obtain ⟨hbytes, hkept, -⟩ | hlost := hf.waits
    · refine .inl ⟨hbytes, hkept, ?_⟩
      rw [seen_meet, hmet]
      exact hkept.suits
    · exact .inr hlost

/-- The decoder is replaced just when the epoch was not met before. -/
theorem Settled.meet {k : Coordinator} (hk : Settled c k s.epoch h part)
    (hprotocol : h.current.begun.protocol = s.protocol) (hgap : h.unmet.getD 0 < 65536) :
    Settled c (k.sync s).1 s.epoch (h.meet s) part := by
  have hdecoder : h.current.met = none →
      k.decoderFor s = (h.meet s).current.decoder c.codeSet := by
    intro hmet
    simp only [Coordinator.decoderFor, Epoch.decoder, seen_meet, hmet, hk.defaultSet_eq,
      Option.getD_none]
    rw [← hprotocol]
    rfl
  refine ⟨hk.defaultSet_eq, (nomatch ·), fun n hn => ⟨s, rfl, ?_⟩, fun _ => ⟨(nomatch ·), ?_⟩,
    fun n hn => ?_⟩
  · obtain rfl : n = 0 := by simpa [History.meet, eq_comm] using hn
    simp
  · simp only [Coordinator.sync]
    cases hu : h.unmet with
    | none =>
      obtain ⟨hlast, hmet, rfl⟩ := hk.new hu
      simp only [hlast, Option.map_none, reduceCtorEq, if_false, Decoder.fed_nil]
      exact hdecoder hmet
    | some n =>
      obtain ⟨t, hlast, hepoch⟩ := hk.counts n hu
      cases n with
      | zero =>
        obtain ⟨hmet, hfed⟩ := hk.met hu
        obtain ⟨t', hmet⟩ := Option.ne_none_iff_exists'.mp hmet
        -- The same epoch as before: the decoder goes on.
        rw [if_pos (by simp [hlast, hepoch]), decoder_meet_of_some hmet]
        exact hfed
      | succ n =>
        obtain ⟨hmet, rfl⟩ := hk.unmet n hu
        have hne : t.epoch ≠ s.epoch := by
          rw [hepoch]
          intro heq
          -- Fewer than 65536 epochs have begun in between, so that their numbers differ.
          have hn : n + 1 < 65536 := by simpa [hu] using hgap
          have := congrArg UInt16.toNat heq
          simp only [UInt16.toNat_add, UInt16.toNat_ofNat'] at this
          have := t.epoch.toNat_lt
          omega
        rw [if_neg (by simpa [hlast] using hne)]
        exact hdecoder hmet
  · simp [History.meet] at hn

/-- The status of the port is given to the coordinator. -/
theorem invariant_drainLog {bridge : Bridge w} {g : BitVec w}
    (hi : Invariant c { bridge, stage := .looked g } h) (hgap : h.unmet.getD 0 < 65536) :
    Invariant c { bridge := bridge.drainLog, stage := .serviced g bridge.drainLog.port.status }
      (h.meet bridge.port.status) := by
  obtain ⟨hmouse, hu, past, part, hf, hk, n, hs⟩ := hi
  exact ⟨hmouse, hu, past, part, hf.meet hk, hk.meet hf.protocol_eq hgap, n,
    ⟨hs.le, hs.generation_eq⟩, fun _ => rfl⟩

/-- The coordinator follows the status that it was given. -/
theorem invariant_sync {bridge : Bridge w} {g : BitVec w} {now : UInt32}
    (hi : Invariant c { bridge, stage := .serviced g t } h) :
    Invariant c (step { bridge, stage := .serviced g t } (.part now)) h := by
  obtain ⟨hmouse, hu, past, part, hf, hk, n, hs, hn⟩ := hi
  change Invariant c { bridge := bridge.follow t, stage := .synced g } h
  exact ⟨by simpa using hmouse, hu, past, part, by simpa using hf, by simpa using hk, n,
    by simpa using hs, hn⟩

/-! ## Bytes for the decoder -/

/-- If the generation is that which was looked at, then nothing was discarded in between. -/
theorem Since.eq_zero {n : Nat} (hs : Since ring.generation ring h n) (hw : h.unread < 2 ^ w) :
    n = 0 := by
  have hle := hs.le
  by_contra hne
  exact ByteRing.add_ofNat_ne ring.generation (by omega) (by omega) hs.generation_eq.symm

/-- A byte is taken by the decoder of its own epoch. -/
theorem Flow.read {k : Coordinator} {byte : UInt8} (hf : Flow c s ring events h past part)
    (hk : Settled c k s.epoch h part) (hu : h.unmet = some 0) (hget : ring.get.1 = some byte) :
    Flow c s ring.get.2 (events ++ (k.decoder.feed byte).2.toList) h.read past (part ++ [byte]) ∧
      Settled c { k with decoder := (k.decoder.feed byte).1 } s.epoch h.read (part ++ [byte]) := by
  obtain ⟨hmet, hfed⟩ := hk.met hu
  rw [hf.valid.get_eq.1] at hget
  -- The byte that is read is the first of those that wait.
  obtain ⟨rest, hrest⟩ : ∃ rest, ring.contents = byte :: rest := List.head?_eq_some_iff.mp hget
  obtain ⟨hbytes, hkept, hsuits⟩ | ⟨hnil, -⟩ := hf.waits
  · have htaken : part ++ [byte] ++ rest = h.current.accepted := by
      rw [← hbytes, hrest, List.append_assoc]
      rfl
    constructor
    · refine ⟨hf.valid.get, ByteRing.lag_get ring, hf.protocol_eq, hf.accounted, ?_,
        fun _ => hsuits, ⟨rest, htaken⟩, .inl ⟨?_, hkept, hsuits⟩⟩
      · change _ = past ++ (h.current.decoder c.codeSet).outputs (part ++ [byte])
        rw [Decoder.outputs_concat, ← hfed, hf.events_eq, List.append_assoc]
      · rw [hf.valid.get_eq.2, hrest]
        exact htaken
    · refine ⟨hk.defaultSet_eq, fun hn => ?_, hk.counts, fun _ => ⟨hmet, ?_⟩, fun n hn => ?_⟩
      · exact nomatch hu.symm.trans hn
      · change (k.decoder.feed byte).1 = (h.current.decoder c.codeSet).fed (part ++ [byte])
        rw [Decoder.fed_append, ← hfed]
        rfl
      · exact nomatch hu.symm.trans hn
  -- The ring of a device that was lost holds nothing to be read.
  · rw [hnil] at hrest
    exact nomatch hrest

/-- Nothing is taken out of an empty ring. -/
theorem Flow.read_nil (hf : Flow c s ring events h past part) (hget : ring.get.1 = none) :
    Flow c s ring.get.2 events h.read past part := by
  have hcontents : ring.get.2.contents = ring.contents := by
    rw [hf.valid.get_eq.1, List.head?_eq_none_iff] at hget
    rw [hf.valid.get_eq.2, hget]
    rfl
  refine ⟨hf.valid.get, ByteRing.lag_get ring, hf.protocol_eq, hf.accounted, hf.events_eq, hf.suits,
    hf.taken, ?_⟩
  rw [hcontents]
  exact hf.waits

/-- The last part of a turn. -/
theorem invariant_drainOne {bridge : Bridge w} {g : BitVec w} {now : UInt32}
    (hi : Invariant c { bridge, stage := .synced g } h)
    (hw : (h.observe { bridge, stage := .synced g } (.part now)).mostUnread < 2 ^ w) :
    Invariant c { bridge := (bridge.drainOne g).1 }
      (h.observe { bridge, stage := .synced g } (.part now)) := by
  have hw := Nat.lt_of_le_of_lt (h.mostUnread_le_observe _ _) hw
  obtain ⟨hmouse, hu, past, part, hf, hk, n, hs, hn⟩ := hi
  simp only [History.observe]
  by_cases hready : bridge.ready = true ∧ bridge.ring.generation = g
  · obtain ⟨hr, rfl⟩ := hready
    rw [if_pos ⟨hr, rfl⟩]
    cases hget : bridge.ring.get.1 with
    | none =>
      rw [bridge.drainOne_of_nil hr rfl hget]
      exact ⟨hmouse, Nat.zero_le _, past, part, hf.read_nil hget,
        ⟨hk.defaultSet_eq, hk.new, hk.counts, hk.met, hk.unmet⟩⟩
    | some byte =>
      -- The generation is still that which was looked at, so that the current epoch is known.
      obtain rfl := hs.eq_zero (by omega)
      obtain ⟨hf', hk'⟩ := hf.read hk (hn rfl) hget
      have htakes : ∀ e, (bridge.coordinator.decoder.feed byte).2 = some e →
          (e.isKey || bridge.takesMouse) = true := by
        intro e _
        simp [show bridge.takesMouse = true from hmouse]
      rw [bridge.drainOne_of_byte htakes hr rfl hget]
      exact ⟨hmouse, Nat.zero_le _, past, part ++ [byte], hf', hk'⟩
  · rw [if_neg hready, bridge.drainOne_of_waits hready]
    exact ⟨hmouse, hu, past, part, hf, hk⟩

/-! ## Runs -/

/-- Every move keeps the invariant, unless a counter goes round. -/
theorem step_invariant {p : Pipeline w} (hi : Invariant c p h) (m : Move)
    (hw : (h.observe p m).mostUnread < 2 ^ w) (hgap : (h.observe p m).widestGap < 65536) :
    Invariant c (p.step m) (h.observe p m) := by
  cases m with
  | frame word =>
    obtain ⟨-, -, _, _, hf, -⟩ := id hi
    -- A frame can come at any stage of a turn.
    exact hi.ported _ (fun _ hl hn => Port.receive_effect hf.valid hl hn)
      (fun _ hl => Port.receive_counted hf.valid hl) hw
  | leds wanted =>
    obtain ⟨hmouse, hu, past, part, hf, hstage⟩ := hi
    have hstatus : (p.bridge.port.setLeds wanted).status = p.bridge.port.status :=
      p.bridge.port.status_setLeds wanted
    refine ⟨hmouse, hu, past, part, hstatus ▸ hf, ?_⟩
    simpa only [AtStage, step, Bridge.step, History.observe, hstatus] using hstage
  | ready value => exact ⟨hi.takesMouse, hi.unread_le, hi.flow⟩
  | idle value => exact ⟨hi.takesMouse, hi.unread_le, hi.flow⟩
  | flush => exact ⟨hi.takesMouse, hi.unread_le, hi.flow⟩
  | part now =>
    obtain ⟨bridge, stage⟩ := p
    cases stage with
    | resting =>
      obtain ⟨hmouse, hu, past, part, hf, hk⟩ := hi
      have hg : bridge.ring.generation = bridge.ring.generation + BitVec.ofNat w 0 := by simp
      exact ⟨hmouse, hu, past, part, hf, hk, 0, Nat.zero_le _, hg⟩
    | looked g =>
      obtain ⟨-, -, _, _, hf, -⟩ := id hi
      have hticked := hi.ported (bridge.port.tick bridge.ring bridge.accepts now bridge.idle)
        (fun _ hl hn => Port.tick_effect hf.valid hl hn)
        (fun _ hl => Port.tick_counted hf.valid hl) hw
      have hunmet := Nat.lt_of_le_of_lt (Nat.le_max_right _ _) hgap
      have hmet := invariant_drainLog hticked hunmet
      rw [Bridge.port_settle] at hmet
      exact hmet
    | serviced g t => exact invariant_sync hi
    | synced g => exact invariant_drainOne hi hw

/-- What is known at the beginning of a run. -/
def start (c : Config) : History := { current := { begun := (Port.ofConfig c).status } }

theorem isInitialised_ofConfig (c : Config) : (Device.ofConfig c).isInitialised = false := by
  unfold Device.ofConfig
  cases c.protocol <;> rfl

/-- The invariant holds at the start. -/
theorem invariant_start (c : Config) : Invariant c (ofConfig c : Pipeline w) (start c) := by
  refine ⟨rfl, Nat.le_refl _, [], [], ⟨ByteRing.valid_empty, ByteRing.lag_empty, rfl, .nil, rfl,
    fun hpart => absurd rfl hpart, List.nil_prefix, ?_⟩, ?_⟩
  · exact .inr ⟨ByteRing.contents_empty, isInitialised_ofConfig c⟩
  · exact ⟨rfl, fun _ => ⟨rfl, rfl, rfl⟩, fun _ => (nomatch ·), (nomatch ·), fun _ => (nomatch ·)⟩

/-- Every run keeps the invariant, as long as its counts do not go round. -/
theorem run_invariant {p : Pipeline w} (hi : Invariant c p h) (moves : List Move)
    (hw : (h.observed p moves).mostUnread < 2 ^ w)
    (hgap : (h.observed p moves).widestGap < 65536) :
    Invariant c (p.run moves) (h.observed p moves) := by
  induction moves generalizing p h with
  | nil => exact hi
  | cons m ms ih =>
    have hw' := Nat.lt_of_le_of_lt (History.mostUnread_le_observed _ _ ms) hw
    have hgap' := Nat.lt_of_le_of_lt (History.widestGap_le_observed _ _ ms) hgap
    exact ih (step_invariant hi m hw' hgap') hw hgap

/-- The history of a run of the configured device. -/
def history (c : Config) (moves : List Move) : History :=
  (start c).observed (ofConfig c : Pipeline w) moves

/-- The events of every run are, epoch after epoch, what a fresh decoder makes of the bytes that the
ring took in first. -/
theorem events_accounted (c : Config) (moves : List Move)
    (hunread : (history (w := w) c moves).mostUnread < 2 ^ w)
    (hgap : (history (w := w) c moves).widestGap < 65536) :
    Accounted c.codeSet (history (w := w) c moves).epochs
      ((ofConfig c : Pipeline w).run moves).bridge.trace.events := by
  obtain ⟨-, -, _, _, hf, -⟩ := run_invariant (invariant_start c) moves hunread hgap
  exact hf.all

/-- Good frames of an AT keyboard. -/
def frames (bytes : List UInt8) : List Move :=
  bytes.map fun b => .frame (Wire.Frame.ofByte b).toWord

/-- Turns of the coordinator with nothing in between their parts. -/
def turns (n : Nat) : List Move := .replicate (4 * n) (.part 0)

/-- A keyboard that is plugged in again in the middle of a turn and of a sequence. -/
def pluggedIn : List Move :=
  frames [0xAA, 0xAB, 0x83, 0xE0] ++ turns 1 ++ [.part 0] ++ frames [0x75, 0xF0] ++ turns 1 ++
    frames [0xAA, 0xAB, 0x83, 0x1C] ++ turns 1

/-- A keyboard is plugged in again while its bytes wait, and the events of both epochs are told
apart. -/
theorem events_accounted_pluggedIn :
    (history (w := 32) {} pluggedIn).mostUnread < 2 ^ 32 ∧
      (history (w := 32) {} pluggedIn).widestGap < 65536 ∧
      (history (w := 32) {} pluggedIn).epochs.map (·.accepted) = [[], [0xE0, 0x75, 0xF0], [0x1C]] ∧
      ((ofConfig {} : Pipeline 32).run pluggedIn).bridge.trace.events = [.press 0x4F] ∧
      Accounted .set2 (history (w := 32) {} pluggedIn).epochs
        ((ofConfig {} : Pipeline 32).run pluggedIn).bridge.trace.events :=
  ⟨by decide +kernel, by decide +kernel, by decide +kernel, by decide +kernel,
    events_accounted {} pluggedIn (by decide +kernel) (by decide +kernel)⟩

/-- A keyboard of the configured kind whose bytes wait while a terminal keyboard takes its place. -/
def replacedByTerminal : List Move :=
  frames [0xAA, 0xAB, 0x83, 0xE0, 0x75, 0xAA, 0xBF, 0xBF] ++ turns 3

/-- The second alternative of `PortStatus.Suits` happens: bytes of set 2 meet a decoder of set 3. -/
theorem events_replacedByTerminal :
    (history (w := 32) {} replacedByTerminal).current.begun.codeSet? = some .set2 ∧
      (history (w := 32) {} replacedByTerminal).current.accepted = [0xE0, 0x75] ∧
      (Decoder.select .atKeyboard .set2 false).outputs [0xE0, 0x75] = [.press 0x4F] ∧
      ((ofConfig {} : Pipeline 32).run replacedByTerminal).bridge.trace.events = [.press 0x75] := by
  decide +kernel

end KeyBridge.Pipeline
