import KeyBridge.Proofs.Config.PlainLines
import KeyBridge.Proofs.Config.Ranges

/-!
# Reading plain documents

The reader of configurations takes in one setting of a plain document after the other.

## Key results

- `read_render`: a document is read setting by setting
- `foldlM_apply`: settings that can be applied one by one can be applied in a row
- `pinGiven_foldlM`: a pin is that of a setting, or the one before
-/

namespace KeyBridge

open Config (ReadError Section)

/-! ## Sections and keys -/

namespace Config

/-- The name of a section. -/
def Section.name : Section → String
  | interface => "interface"
  | timing => "timing"
  | mouse => "mouse"
  | status => "status"

/-- A section is found by its name and by no other. -/
theorem Section.ofName?_eq_some {name : List Char} {s : Section} :
    Section.ofName? name = some s ↔ name = s.name.toList := by
  constructor
  · intro h
    unfold Section.ofName? at h
    repeat' split at h
    all_goals cases h <;> assumption
  · rintro rfl
    cases s <;> decide

/-- The section of a key. -/
def Key.section : Key → Section
  | protocol | codeSet | dataPin | clockPin => .interface
  | stallPeriod | ackStalls | idStalls | responseTimeout => .timing
  | wheel => .mouse
  | ledPin => .status

/-- The name of a key. -/
def Key.name : Key → String
  | protocol => "protocol"
  | codeSet => "code_set"
  | dataPin => "data_pin"
  | clockPin => "clock_pin"
  | stallPeriod => "stall_period_ms"
  | ackStalls => "ack_stall_limit"
  | idStalls => "id_stall_limit"
  | responseTimeout => "response_timeout_ms"
  | wheel => "wheel"
  | ledPin => "led_pin"

/-- A key is found by its name in its own section only. -/
theorem Section.key?_eq_some {s : Section} {name : List Char} {key : Key} :
    s.key? name = some key ↔ s = key.section ∧ name = key.name.toList := by
  constructor
  · intro h
    -- The table of a section holds keys of this section, each with its name.
    have hkeys : ∀ k ∈ s.keys, s = k.2.section ∧ k.1 = k.2.name := by
      cases s <;> decide
    obtain ⟨k, hk, rfl⟩ := Option.map_eq_some_iff.mp h
    obtain ⟨hsection, hname⟩ := hkeys k (List.mem_of_find?_eq_some hk)
    have hfound := List.find?_some hk
    exact ⟨hsection, by rw [← hname, beq_iff_eq.mp hfound]⟩
  · rintro ⟨rfl, rfl⟩
    cases key <;> decide

/-- The pin under a key. -/
def pin? (c : Config) : Key → Option Pin
  | .dataPin => some c.dataPin
  | .clockPin => some c.clockPin
  | .ledPin => c.ledPin
  | _ => none

/-- Whether a key is that of a pin. -/
def Key.isPin : Key → Bool
  | dataPin | clockPin | ledPin => true
  | _ => false

/-- A setting changes only the pin that it is for. -/
theorem pin?_apply {c c' : Config} {key key' : Key} {value : List Char}
    (h : c.apply key value = .ok c') (hkey : key'.isPin = true) :
    if key = key' then ∃ pin, readPin value = .ok pin ∧ c'.pin? key' = some pin
    else c'.pin? key' = c.pin? key' := by
  split
  · next heq =>
    subst heq
    cases key <;> first | contradiction | exact map_eq_ok h |>.imp fun _ ⟨hx, hc⟩ => ⟨hx, hc ▸ rfl⟩
  · next hne =>
    cases key <;> obtain ⟨x, -, rfl⟩ := map_eq_ok h <;> cases key' <;> first | rfl | contradiction

end Config

namespace Plain

open Config (pin?)

variable {c c' : Config} {ss : List Setting} {items : List Item} {above : Option (List Char)}

/-! ## Settings -/

/-- The key that a setting is for, if its header names a section and the section has such a key. -/
def Setting.target? (s : Setting) : Option Config.Key :=
  (s.header.bind Section.ofName?).bind (·.key? s.key)

/-- A setting is for a key if it stands in the section of the key and has its name. -/
theorem Setting.target?_eq_some {s : Setting} {key : Config.Key} :
    s.target? = some key ↔ s.header = some key.section.name.toList ∧ s.key = key.name.toList := by
  constructor
  · intro h
    obtain ⟨named, hnamed, hkey⟩ := Option.bind_eq_some_iff.mp h
    obtain ⟨t, ht, hname⟩ := Option.bind_eq_some_iff.mp hnamed
    obtain ⟨rfl, hkeyname⟩ := Section.key?_eq_some.mp hkey
    exact ⟨by rw [ht, Section.ofName?_eq_some.mp hname], hkeyname⟩
  · rintro ⟨hheader, hkey⟩
    rw [Setting.target?, hheader, Option.bind_some, Section.ofName?_eq_some.mpr rfl,
      Option.bind_some]
    exact Section.key?_eq_some.mpr ⟨rfl, hkey⟩

/-- The configuration with a setting applied. -/
def Setting.apply (c : Config) (s : Setting) : Except ReadError Config :=
  match s.target? with
  | some key => c.apply key s.value.render
  | none => .error .unknownKey

/-- Settings that can be applied one by one can be applied in a row. -/
theorem foldlM_apply (h : ∀ s ∈ ss, ∀ c, ∃ c', s.apply c = .ok c') (c : Config) :
    ∃ c', ss.foldlM Setting.apply c = .ok c' := by
  induction ss generalizing c with
  | nil => exact ⟨c, rfl⟩
  | cons s ss ih =>
    obtain ⟨c', hc'⟩ := h s List.mem_cons_self c
    obtain ⟨c'', hc''⟩ := ih (fun s' hs' => h s' (List.mem_cons_of_mem s hs')) c'
    refine ⟨c'', ?_⟩
    rw [List.foldlM_cons, hc']
    exact hc''

/-- Where a pin comes from: a setting for its key, or if there is none, the pin before. -/
def PinGiven (ss : List Setting) (key : Config.Key) (before after : Option Pin) : Prop :=
  (∃ s ∈ ss, s.target? = some key ∧ ∃ pin, Config.readPin s.value.render = .ok pin ∧
    after = some pin) ∨
  (∀ s ∈ ss, s.target? ≠ some key) ∧ after = before

/-- After some settings a pin is that of the last one for its key, or as before if there is none. -/
theorem pinGiven_foldlM {key : Config.Key} (hkey : key.isPin = true)
    (h : ss.foldlM Setting.apply c = .ok c') :
    PinGiven ss key (c.pin? key) (c'.pin? key) := by
  induction ss generalizing c with
  | nil =>
    cases h
    exact .inr ⟨by simp, rfl⟩
  | cons s ss ih =>
    rw [List.foldlM_cons] at h
    obtain ⟨d, hs, h⟩ := Config.bind_eq_ok h
    obtain ⟨s', hs', hrest⟩ | ⟨hnone, hpin⟩ := ih h
    -- A later setting for the key takes precedence over this one.
    · exact .inl ⟨s', List.mem_cons_of_mem s hs', hrest⟩
    · unfold Setting.apply at hs
      split at hs
      · next key' htarget =>
        have hfirst := Config.pin?_apply hs hkey
        split at hfirst
        · next heq =>
          obtain ⟨pin, hread, hpin'⟩ := hfirst
          exact .inl ⟨s, List.mem_cons_self, heq ▸ htarget, pin, hread, hpin.trans hpin'⟩
        · next hne =>
          -- Neither this setting nor a later one is for the key.
          refine .inr ⟨?_, hpin.trans hfirst⟩
          rintro s' (_ | ⟨_, hs'⟩)
          · rw [htarget]
            exact fun heq => hne (Option.some.inj heq)
          · exact hnone s' hs'
      · exact nomatch hs

/-! ## Documents -/

/-- Every setting stands under some header or under none. -/
theorem mem_settings {key : List Char} {value : Value} (h : Item.setting key value ∈ items)
    (above : Option (List Char)) : ∃ t, ⟨t, key, value⟩ ∈ settings above items := by
  induction items generalizing above with
  | nil => exact nomatch h
  | cons i items ih =>
    obtain rfl | h := List.mem_cons.mp h
    · exact ⟨above, List.mem_cons_self⟩
    · obtain ⟨t, ht⟩ := ih h (i.under above)
      exact ⟨t, List.mem_append_right _ ht⟩

/-- A setting stands under the header above all, or under one of the items. -/
theorem header_mem_of_mem_settings {s : Setting} {t : List Char} (h : s ∈ settings above items)
    (ht : s.header = some t) : above = some t ∨ Item.header t ∈ items := by
  induction items generalizing above with
  | nil => exact nomatch h
  | cons i items ih =>
    rw [settings, List.mem_append, Option.mem_toList] at h
    cases i with
    | header name =>
      -- A header is no setting, and from here on it is the one above.
      obtain hs | hs := h
      · exact nomatch hs
      · obtain hname | hmem := ih hs
        · cases hname
          exact .inr List.mem_cons_self
        · exact .inr (List.mem_cons_of_mem _ hmem)
    | setting key value =>
      obtain hs | hs := h
      · cases hs
        exact .inl ht
      · exact (ih hs).imp id (List.mem_cons_of_mem _)

/-- Items are read setting by setting, if their headers name sections. -/
theorem foldlM_take {p : Config.Progress} (habove : p.current = above.bind Section.ofName?)
    (hheaders : ∀ t, Item.header t ∈ items → ∃ s, Section.ofName? t = some s) :
    (items.foldlM take p).map (·.config) =
      (settings above items).foldlM Setting.apply p.config := by
  induction items generalizing p above with
  | nil => rfl
  | cons i items ih =>
    have hrest : ∀ t, Item.header t ∈ items → ∃ s, Section.ofName? t = some s :=
      fun t ht => hheaders t (List.mem_cons_of_mem i ht)
    rw [List.foldlM_cons, settings, List.foldlM_append]
    cases i with
    -- The reader goes on in the section that the header names.
    | header t =>
      obtain ⟨s, hs⟩ := hheaders t List.mem_cons_self
      have htake : take p (.header t) = .ok { p with current := some s } := by
        rw [take, hs]
        rfl
      rw [htake]
      exact ih hs.symm hrest
    | setting key value =>
      -- The section of the reader is that of the header above.
      have htake : (take p (.setting key value)).map (·.config) =
          Setting.apply p.config ⟨above, key, value⟩ := by
        simp only [take, Config.Progress.next, Setting.apply, Setting.target?, habove]
        cases (above.bind Section.ofName?).bind (·.key? key) with
        | none => rfl
        | some k =>
          dsimp only
          cases p.config.apply k value.render <;> rfl
      have hone : ([⟨above, key, value⟩] : List Setting).foldlM Setting.apply p.config =
          Setting.apply p.config ⟨above, key, value⟩ := by simp
      change ((take p (.setting key value)) >>= fun q => items.foldlM take q).map _ =
        ([⟨above, key, value⟩] : List Setting).foldlM Setting.apply p.config >>= _
      rw [hone, ← htake]
      cases hq : take p (.setting key value) with
      | error => rfl
      | ok q =>
        -- A setting does not change the section.
        have hcurrent : q.current = above.bind Section.ofName? := by
          rw [← habove]
          simp only [take, Config.Progress.next] at hq
          split at hq
          · contradiction
          · obtain ⟨c, -, rfl⟩ := Config.map_eq_ok hq
            rfl
        exact ih hcurrent hrest

/-- A document is read setting by setting. -/
theorem read_render (d : Document)
    (hhash : ∀ s ∈ d.settings, '#' ∉ s.value.render)
    (hheaders : ∀ t, Item.header t ∈ d.items → ∃ s, Section.ofName? t = some s) :
    Config.read d.render = (do
      let c ← d.settings.foldlM Setting.apply {}
      if c.pinsAgree then .ok c else .error .invalidPin) := by
  -- The lines are read by their items, and the items by their settings.
  have hitems : ∀ key value, Item.setting key value ∈ d.items → '#' ∉ value.render := by
    intro key value h
    obtain ⟨above, hs⟩ := mem_settings h none
    exact hhash _ hs
  have hread : (d.items.foldlM take {}).map (·.config) = d.settings.foldlM Setting.apply {} :=
    foldlM_take rfl hheaders
  rw [Config.read, readLines_render d {} hitems, ← hread]
  cases d.items.foldlM take {} <;> rfl

end Plain

end KeyBridge
