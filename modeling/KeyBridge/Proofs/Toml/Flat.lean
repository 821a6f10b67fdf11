import KeyBridge.Toml.Reader

/-!
# Flat documents

A document is flat if its headers and keys have one part and no value is an array or a table. Such a
document is a table of scalars and of tables of scalars. No header stands in it twice, and no key
twice under one header.

## Key results

- `openTable_flat` / `define_root` / `define_table`: what one more statement does to a flat document
- `IsFlat.readDates`: a flat document without the reserved key holds no dates
-/

namespace KeyBridge.Toml

open Value (mem_of_lookup)

variable {k t : Key} {v x : Value} {es es' inner : Entries}

/-! ## Entries -/

/-- An entry of another key is passed over. -/
theorem lookup_cons_of_ne {j : Key} (h : j ≠ k) (v : Value) (es : Entries) :
    ((k, v) :: es).lookup j = es.lookup j := by
  rw [List.lookup_cons, beq_false_of_ne h]

/-- A new entry at the end is found, and the others as before. -/
theorem lookup_append_new (h : es.lookup k = none) (x : Value) (j : Key) :
    (es ++ [(k, x)]).lookup j = if j = k then some x else es.lookup j := by
  rw [List.lookup_append]
  by_cases hj : j = k
  · subst hj
    simp [h]
  · simp [hj, lookup_cons_of_ne hj]

/-- An entry that is replaced is found with its new value, and the others as before. -/
theorem lookup_replace (k : Key) (x : Value) (es : Entries) (j : Key) :
    (replace k x es).lookup j = if j = k then (es.lookup k).map fun _ => x else es.lookup j := by
  induction es with
  | nil => simp [replace]
  | cons e es ih =>
    obtain ⟨f, w⟩ := e
    have hcons : replace k x ((f, w) :: es) =
        (if f = k then (k, x) else (f, w)) :: replace k x es := rfl
    rw [hcons]
    -- An entry of the key is replaced, and any other one stays.
    by_cases hf : f = k
    · subst hf
      rw [if_pos rfl]
      by_cases hj : j = f
      · simp [hj]
      · rw [lookup_cons_of_ne hj, lookup_cons_of_ne hj, ih, if_neg hj, if_neg hj]
    · rw [if_neg hf]
      by_cases hj : j = f
      · subst hj
        simp [hf]
      · rw [lookup_cons_of_ne hj, lookup_cons_of_ne hj, lookup_cons_of_ne (Ne.symm hf), ih]

/-! ## Flat documents -/

/-- Whether a value is a string, an integer or a truth value. -/
def Value.isScalar : Value → Bool
  | string _ | integer _ | boolean _ => true
  | _ => false

/-- Entries whose values are scalars, without the reserved key. -/
def AllScalar (es : Entries) : Prop := ∀ e ∈ es, e.1 ≠ dateKey ∧ e.2.isScalar = true

/-- A scalar, or a table of scalars with a header of its own. -/
inductive Value.Flat : Value → Prop where
  | scalar {v : Value} (h : v.isScalar = true) : Flat v
  | table {es : Entries} (h : AllScalar es) : Flat (.table .header es)

/-- The entries of a flat document, without the reserved key. -/
def IsFlat (es : Entries) : Prop := ∀ e ∈ es, e.1 ≠ dateKey ∧ e.2.Flat

/-! ## Dates -/

/-- A scalar is no date in disguise. -/
theorem readDates_of_isScalar (h : v.isScalar = true) : v.readDates = some v := by
  cases v <;> first | rfl | exact nomatch h

/-- A table without a date key whose entries stay as they are stays as it is. -/
theorem readDates_table (form : TableForm)
    (h : ∀ e ∈ es, e.1 ≠ dateKey ∧ e.2.readDates = some e.2) :
    (Value.table form es).readDates = some (.table form es) := by
  -- Each entry stays as it is, and so do all of them together.
  have hentries : ∀ l : Entries, (∀ e ∈ l, e.2.readDates = some e.2) →
      readDatesOfEntries l = some l := by
    intro l hl
    induction l with
    | nil => rfl
    | cons e l ih =>
      have he : readDatesOfEntry e = some e := by
        rw [readDatesOfEntry, hl e List.mem_cons_self]
        rfl
      rw [readDatesOfEntries, he, ih fun f hf => hl f (List.mem_cons_of_mem e hf)]
      rfl
  cases es with
  | nil => rfl
  | cons e es =>
    rw [Value.readDates]
    simp only [List.head?_cons, if_neg (h e List.mem_cons_self).1,
      hentries (e :: es) fun f hf => (h f hf).2]
    rfl

/-- A flat value stays as it is. -/
theorem Value.Flat.readDates (h : v.Flat) : v.readDates = some v := by
  cases h with
  | scalar hs => exact readDates_of_isScalar hs
  | table hs =>
    apply readDates_table
    intro e he
    exact ⟨(hs e he).1, readDates_of_isScalar (hs e he).2⟩

/-- Without the reserved key there are no dates. -/
theorem IsFlat.readDates (h : IsFlat es) (form : TableForm) :
    (Value.table form es).readDates = some (.table form es) := by
  apply readDates_table
  intro e he
  exact ⟨(h e he).1, (h e he).2.readDates⟩

/-! ## Statements -/

/-- A header opens a new table. -/
theorem openTable_flat (hes : IsFlat es) (h : openTable [] k es = some es') :
    es.lookup k = none ∧ es' = es ++ [(k, .table .header [])] := by
  obtain ⟨r, hr, rfl⟩ := Option.map_eq_some_iff.mp h
  simp only [update] at hr
  split at hr
  · next hlookup =>
    cases hr
    exact ⟨hlookup, rfl⟩
  -- A flat document has no tables that are only implied by headers of others.
  · next hlookup =>
    have himplied := (hes _ (mem_of_lookup hlookup)).2
    cases himplied with
    | scalar hs => exact nomatch hs
  · exact nomatch hr

/-- A setting before all headers adds a value to the document. -/
theorem define_root (h : define [] [] k v es = some es') :
    es.lookup k = none ∧ es' = es ++ [(k, v)] := by
  obtain ⟨r, hr, rfl⟩ := Option.map_eq_some_iff.mp h
  simp only [update, setDotted] at hr
  split at hr
  · next hnew =>
    cases hr
    exact ⟨hnew.2, rfl⟩
  · exact nomatch hr

/-- A setting under a header adds a value to the table. -/
theorem define_table (ht : es.lookup t = some (.table .header inner))
    (h : define [t] [] k v es = some es') :
    inner.lookup k = none ∧ es' = replace t (.table .header (inner ++ [(k, v)])) es := by
  obtain ⟨r, hr, rfl⟩ := Option.map_eq_some_iff.mp h
  simp only [update, ht, setDotted] at hr
  by_cases hnew : inner.lookup k = none
  · simp [hnew] at hr
    subst hr
    exact ⟨hnew, rfl⟩
  · simp [hnew] at hr

end KeyBridge.Toml
