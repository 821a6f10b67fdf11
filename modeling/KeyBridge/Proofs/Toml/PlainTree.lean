import KeyBridge.Proofs.Toml.Flat
import KeyBridge.Proofs.Toml.PlainStatements

/-!
# Plain documents as tables

The reader takes a plain document for what TOML says of it: a table that holds just what the
document says, the tables of its headers and in each of them the settings under the header.

## Key results

- `add_item` / `foldlM_add`: what items add
- `readsPlain_read`: what the table of a document holds
-/

namespace KeyBridge.Plain

open Toml
open Toml.Value (mem_of_lookup get?_table)

variable {p p' : Toml.Progress} {es es' : Entries} {above : Option Key} {i : Item}
  {st : Statement} {items : List Item} {d : Document} {k t : Key} {t' : Option Key} {x : Toml.Value}

/-! ## Tables and cells -/

/-- Whether a document has a table with a header of its own under a key. -/
def HasTable (es : Entries) (t : Key) : Prop := ∃ inner, es.lookup t = some (.table .header inner)

/-- The value of a setting is a scalar. -/
theorem Value.toml?_isScalar {v : Value} (h : v.toml? = some x) : x.isScalar = true := by
  cases v with
  | text => cases h; rfl
  | number =>
    rw [integer_of_toml? h]
    rfl
  | truth => cases h; rfl

theorem get?_of_isScalar (h : x.isScalar = true) (k : Key) : x.get? k = none := by
  cases x <;> first | rfl | exact nomatch h

/-- The values under a header are scalars. -/
theorem isScalar_of_cell (h : IsFlat es) (hx : cell (.table .header es) (some t) k = some x) :
    x.isScalar = true := by
  obtain ⟨v, hv, hx⟩ := Option.bind_eq_some_iff.mp hx
  cases (h _ (mem_of_lookup hv)).2 with
  | scalar hs =>
    rw [get?_of_isScalar hs] at hx
    exact nomatch hx
  | table hs => exact (hs _ (mem_of_lookup hx)).2

/-! ## Items -/

/-- A flat document as far as it has been put together, with its last header. -/
structure Flat (p : Toml.Progress) (above : Option Key) : Prop where
  entries : IsFlat p.entries
  current : p.current = above.toList
  opened : ∀ t, above = some t → HasTable p.entries t

/-- What items add to a document. -/
structure Adds (above : Option Key) (items : List Item) (es es' : Entries) : Prop where
  tables : ∀ t, HasTable es' t ↔ HasTable es t ∨ Item.header t ∈ items
  cells : ∀ t k x, x.isScalar = true →
    (cell (.table .header es') t k = some x ↔
      cell (.table .header es) t k = some x ∨ IsSetting (settings above items) t k x)

/-- A flat table stays so with a flat entry. -/
theorem isFlat_append (h : IsFlat es) (hk : k ≠ dateKey) (hx : x.Flat) :
    IsFlat (es ++ [(k, x)]) := by
  intro e he
  rw [List.mem_append, List.mem_singleton] at he
  obtain he | rfl := he
  · exact h e he
  · exact ⟨hk, hx⟩

/-- A flat table stays so when a setting enters one of its tables. -/
theorem isFlat_replace {inner : Entries} (h : IsFlat es)
    (ht : es.lookup t = some (.table .header inner)) (hk : k ≠ dateKey) (hx : x.isScalar = true) :
    IsFlat (replace t (.table .header (inner ++ [(k, x)])) es) := by
  -- What is a table in a flat one holds scalars only, and gets one more.
  obtain ⟨hdate, htable⟩ := h _ (mem_of_lookup ht)
  have hinner : AllScalar (inner ++ [(k, x)]) := by
    intro e he
    rw [List.mem_append, List.mem_singleton] at he
    obtain he | rfl := he
    · cases htable with
      | scalar hs => exact nomatch hs
      | table hs => exact hs e he
    · exact ⟨hk, hx⟩
  intro e he
  obtain ⟨f, hf, rfl⟩ := List.mem_map.mp he
  split
  · exact ⟨hdate, .table hinner⟩
  · exact h f hf

/-- With a new entry a table has the tables it had, and that one. -/
theorem hasTable_append (h : es.lookup k = none) :
    HasTable (es ++ [(k, x)]) t ↔ HasTable es t ∨ (t = k ∧ HasTable [(k, x)] k) := by
  unfold HasTable
  rw [lookup_append_new h]
  by_cases ht : t = k
  · subst ht
    simp [h]
  · simp [ht]

/-- With a new entry a table has the cells it had, and those of that entry. -/
theorem cell_append (h : es.lookup k = none) (t : Option Key) (j : Key) :
    cell (.table .header (es ++ [(k, x)])) t j =
      if t = none ∧ j = k then some x
      else if t = some k then x.get? j
      else cell (.table .header es) t j := by
  cases t with
  | none => simp [cell, lookup_append_new h]
  | some t =>
    by_cases ht : t = k <;> simp [cell, lookup_append_new h, ht]

/-- The only setting of a setting is itself. -/
theorem isSetting_setting {key : Key} {v : Value} (hv : v.toml? = some x) (y : Toml.Value) :
    IsSetting (settings above [.setting key v]) t' k y ↔ above = t' ∧ key = k ∧ x = y := by
  simp [IsSetting, settings, Item.setting?, hv]

/-- A header adds its table. -/
theorem adds_header (hlookup : es.lookup t = none) :
    Adds above [.header t] es (es ++ [(t, .table .header [])]) := by
  constructor
  · intro j
    rw [hasTable_append hlookup]
    simp [HasTable]
  · intro j k x hx
    have hnone : ¬IsSetting (settings above [.header t]) j k x := by
      simp [IsSetting, settings, Item.setting?]
    rw [cell_append hlookup]
    split
    · next h =>
      -- The new entry is a table, and no scalar.
      obtain ⟨rfl, rfl⟩ := h
      simp [hnone, cell, hlookup]
      rintro rfl
      exact nomatch hx
    · split
      · next h =>
        subst h
        simp [hnone, cell, hlookup, Toml.Value.get?, Toml.Value.entries?]
      · simp [hnone]

/-- A setting before all headers adds its value. -/
theorem adds_root {key : Key} {v : Value} (hlookup : es.lookup key = none)
    (hv : v.toml? = some x) : Adds none [.setting key v] es (es ++ [(key, x)]) := by
  have hscalar := Value.toml?_isScalar hv
  constructor
  · intro j
    rw [hasTable_append hlookup]
    have : ∀ inner, x ≠ .table .header inner := by
      rintro _ rfl
      exact nomatch hscalar
    simp [HasTable, this]
  · intro j k y hy
    rw [cell_append hlookup, isSetting_setting hv]
    split
    · next h =>
      obtain ⟨rfl, rfl⟩ := h
      simp [cell, hlookup]
    · next hne =>
      split
      · next h =>
        subst h
        simp [cell, hlookup, get?_of_isScalar hscalar]
      -- Any other cell is as before.
      · have hother : ¬(none = j ∧ key = k ∧ x = y) := by
          rintro ⟨rfl, rfl, -⟩
          exact hne ⟨rfl, rfl⟩
        simp [hother]

/-- A setting under a header adds its value to the table. -/
theorem adds_table {key : Key} {v : Value} {inner : Entries}
    (ht : es.lookup t = some (.table .header inner)) (hlookup : inner.lookup key = none)
    (hv : v.toml? = some x) :
    Adds (some t) [.setting key v] es
      (replace t (.table .header (inner ++ [(key, x)])) es) := by
  constructor
  · intro j
    unfold HasTable
    rw [lookup_replace, ht]
    by_cases hj : j = t
    · subst hj
      simp [ht]
    · simp [hj]
  · intro j k y hy
    rw [isSetting_setting hv]
    -- The root has what it had: the entry of the header stays a table, which is no value of a
    -- setting.
    cases j with
    | none =>
      have htable : ∀ form es, y ≠ .table form es := by
        rintro _ _ rfl
        exact nomatch hy
      by_cases hk : k = t
      · subst hk
        simp [cell, lookup_replace, ht, (htable _ _).symm]
      · simp [cell, lookup_replace, hk]
    | some j =>
      by_cases hj : j = t
      · subst hj
        have hget : (Toml.Value.table .header (inner ++ [(key, x)])).get? k =
            if k = key then some x else inner.lookup k := lookup_append_new hlookup x k
        have hcell : cell (.table .header es) (some j) k = inner.lookup k := by
          rw [cell, get?_table, ht]
          rfl
        rw [hcell, cell, get?_table, lookup_replace, if_pos rfl, ht, Option.map_some,
          Option.bind_some, hget]
        by_cases hk : k = key
        · subst hk
          simp [hlookup]
        · simp [hk, Ne.symm hk]
      · simp [cell, lookup_replace, hj, Ne.symm hj]

/-- One item adds what it says. -/
theorem add_item (hp : Flat p above) (hi : i.name ≠ dateKey) (hst : i.statement? = some st)
    (hadd : p.add st = some p') :
    Flat p' (i.under above) ∧ Adds above [i] p.entries p'.entries := by
  obtain ⟨current, es⟩ := p
  cases i with
  | header name =>
    cases hst
    obtain ⟨es', hes', rfl⟩ := Option.map_eq_some_iff.mp hadd
    obtain ⟨hlookup, rfl⟩ := openTable_flat hp.entries hes'
    refine ⟨⟨?_, rfl, ?_⟩, adds_header hlookup⟩
    · exact isFlat_append hp.entries hi (.table (by simp [AllScalar]))
    · rintro _ ⟨⟩
      -- From here on settings stand under this header, whose table is there now.
      have hadds : Adds above [.header name] _ _ := adds_header hlookup
      exact (hadds.tables name).mpr (.inr List.mem_cons_self)
  | setting key v =>
    obtain ⟨x, hv, rfl⟩ := Option.map_eq_some_iff.mp hst
    obtain ⟨es', hes', rfl⟩ := Option.map_eq_some_iff.mp hadd
    obtain rfl : current = above.toList := hp.current
    have hscalar := Value.toml?_isScalar hv
    cases above with
    | none =>
      obtain ⟨hlookup, rfl⟩ := define_root hes'
      exact ⟨⟨isFlat_append hp.entries hi (.scalar hscalar), rfl, nofun⟩, adds_root hlookup hv⟩
    | some t =>
      obtain ⟨inner, ht⟩ := hp.opened t rfl
      obtain ⟨hlookup, rfl⟩ := define_table ht hes'
      have hadds := adds_table ht hlookup hv
      refine ⟨⟨?_, rfl, ?_⟩, hadds⟩
      · exact isFlat_replace hp.entries ht hi hscalar
      · rintro _ ⟨⟩
        exact (hadds.tables t).mpr (.inl ⟨inner, ht⟩)

/-! ## Documents -/

theorem Adds.nil : Adds above [] es es := by
  constructor <;> simp [IsSetting, settings]

/-- The first item adds what it says, and then the others do. -/
theorem Adds.cons {es'' : Entries} (h : Adds above [i] es es')
    (h' : Adds (i.under above) items es' es'') : Adds above (i :: items) es es'' := by
  constructor
  · intro t
    rw [h'.tables, h.tables, List.mem_singleton, List.mem_cons, or_assoc]
  · intro t k x hx
    -- The settings of the rest stand under the header after this item.
    have hsplit : settings above (i :: items) =
        settings above [i] ++ settings (i.under above) items := by simp [settings]
    rw [h'.cells t k x hx, h.cells t k x hx, or_assoc, hsplit]
    simp only [IsSetting, List.mem_append, or_and_right, exists_or]

/-- Items add what they say. -/
theorem foldlM_add {ss : List Statement} (hp : Flat p above)
    (hitems : ∀ i ∈ items, i.name ≠ dateKey) (hss : items.mapM Item.statement? = some ss)
    (hadd : ss.foldlM Toml.Progress.add p = some p') :
    IsFlat p'.entries ∧ Adds above items p.entries p'.entries := by
  induction items generalizing p above ss with
  | nil =>
    cases hss
    cases hadd
    exact ⟨hp.entries, .nil⟩
  | cons i items ih =>
    rw [List.mapM_cons] at hss
    obtain ⟨st, hst, hss⟩ := Option.bind_eq_some_iff.mp hss
    obtain ⟨more, hmore, hss⟩ := Option.bind_eq_some_iff.mp hss
    cases hss
    obtain ⟨q, hq, hadd⟩ := Option.bind_eq_some_iff.mp hadd
    -- The first item is added to what is there, and the others to the outcome.
    obtain ⟨hflat, hfirst⟩ := add_item hp (hitems i List.mem_cons_self) hst hq
    obtain ⟨hflat', hrest⟩ := ih hflat (fun j hj => hitems j (List.mem_cons_of_mem i hj)) hmore hadd
    exact ⟨hflat', hfirst.cons hrest⟩

/-- No name of a document is the one that dates are read by. -/
theorem items_name_ne (d : Document) : ∀ i ∈ d.items, i.name ≠ dateKey := by
  have hcontent : ∀ (k : Content) (i : Item), k.item? = some i → i.name ≠ dateKey := by
    intro k i hi
    have hname : ∀ name : Name, name.chars ≠ dateKey := by
      intro name h
      have hdollar : '$' ∉ name.chars := name.not_mem (by decide)
      exact hdollar (h ▸ by decide)
    cases k <;> cases hi <;> exact hname _
  intro i hi
  rw [Document.items, List.mem_append, List.mem_filterMap, Option.mem_toList] at hi
  obtain ⟨l, -, hl⟩ | hl := hi
  · exact hcontent l.1.content i hl
  · exact hcontent d.last.content i hl

/-- Where every item is a statement, every setting has a value. -/
theorem toml?_of_mapM {ss : List Statement} (h : items.mapM Item.statement? = some ss) :
    ∀ s ∈ settings above items, ∃ x, s.value.toml? = some x := by
  induction items generalizing above ss with
  | nil => simp [settings]
  | cons i items ih =>
    rw [List.mapM_cons] at h
    obtain ⟨st, hst, h⟩ := Option.bind_eq_some_iff.mp h
    obtain ⟨more, hmore, -⟩ := Option.bind_eq_some_iff.mp h
    intro s hs
    rw [settings, List.mem_append, Option.mem_toList] at hs
    obtain hs | hs := hs
    · cases i with
      | header => exact nomatch hs
      | setting key v =>
        cases hs
        obtain ⟨x, hx, -⟩ := Option.map_eq_some_iff.mp hst
        exact ⟨x, hx⟩
    · exact ih hmore s hs

/-- The table of a document without reserved keys holds what the document says. -/
theorem holds_of_adds (hflat : IsFlat es) (hadds : Adds none d.items [] es)
    (hvalues : ∀ s ∈ d.settings, ∃ x, s.value.toml? = some x) :
    Holds (.table .header es) d := by
  have hscalar : ∀ {t k x}, cell (.table .header es) t k = some x → x.isTable = false →
      x.isScalar = true := by
    intro t k x hx htable
    cases t with
    | none =>
      cases (hflat _ (mem_of_lookup hx)).2 with
      | scalar hs => exact hs
      | table => exact nomatch htable
    | some t => exact isScalar_of_cell hflat hx
  refine ⟨rfl, hvalues, ?_, ?_, ?_⟩
  · intro t
    -- The tables are those of the headers, as there are none at first.
    have htables : HasTable es t ↔ Item.header t ∈ d.items := by
      rw [hadds.tables]
      simp [HasTable]
    rw [← htables]
    constructor
    · rintro ⟨v, hv, htable⟩
      cases (hflat _ (mem_of_lookup hv)).2 with
      | scalar hs => cases v <;> contradiction
      | table => exact ⟨_, hv⟩
    · rintro ⟨inner, hinner⟩
      exact ⟨_, hinner, rfl⟩
  -- A cell that is no table was said by a setting, and a setting says a scalar.
  · intro t k x htable
    have hnone : cell (.table .header []) t k = none := by cases t <;> rfl
    have hcells : x.isScalar = true →
        (cell (.table .header es) t k = some x ↔ IsSetting d.settings t k x) := by
      intro hx
      rw [hadds.cells t k x hx, hnone]
      simp [Document.settings]
    constructor
    · intro hx
      exact (hcells (hscalar hx htable)).mp hx
    · rintro ⟨s, hs, hsetting⟩
      exact (hcells (Value.toml?_isScalar hsetting.2.2)).mpr ⟨s, hs, hsetting⟩
  · intro t k x hx
    have := isScalar_of_cell hflat hx
    cases x <;> first | rfl | contradiction

/-- The reader takes plain documents for what TOML says of them. -/
theorem readsPlain_read : ReadsPlain Toml.read := by
  intro d config h
  obtain ⟨ss, hss, h⟩ := Option.bind_eq_some_iff.mp h
  obtain ⟨p, hp, h⟩ := Option.bind_eq_some_iff.mp h
  have hempty : Flat {} none := ⟨by simp [IsFlat], rfl, nofun⟩
  have hitems := statements_render d hss
  obtain ⟨hflat, hadds⟩ := foldlM_add hempty (items_name_ne d) hitems hp
  rw [hflat.readDates] at h
  cases h
  exact holds_of_adds hflat hadds (toml?_of_mapM hitems)

end KeyBridge.Plain
