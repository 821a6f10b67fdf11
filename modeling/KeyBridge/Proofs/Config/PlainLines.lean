import KeyBridge.Proofs.Config.Plain

/-!
# Reading plain lines

The reader of configurations sees in a plainly written line what the line says: blanks, the carriage
return and the comment are taken off.

## Key results

- `read_nothing` / `read_header` / `read_setting`: what a line is read as
- `readLines_render`: a document is read item by item
-/

namespace KeyBridge.Plain

open Config (ReadError Section)
open Text

variable {c : Char} {s t l : List Char}

/-! ## Characters of pieces -/

/-- Blanks are blank to the reader. -/
theorem Blanks.areBlank (b : Blanks) : ∀ c ∈ b.chars, isBlank c = true :=
  fun c hc => isBlank_of_isSpace (b.areSpace c hc)

/-- Nothing but spaces is among blanks. -/
theorem Blanks.not_mem (b : Blanks) (hc : Toml.isSpace c = false) : c ∉ b.chars := by
  intro h
  rw [b.areSpace c h] at hc
  exact nomatch hc

/-- Nothing but characters of a key is in a name. -/
theorem Name.not_mem (n : Name) (hc : Toml.isKeyChar c = false) : c ∉ n.chars := by
  intro h
  rw [n.areKeyChars c h] at hc
  exact nomatch hc

/-- The first and the last character of a text are not blank. -/
structure Trimmed (s : List Char) : Prop where
  first : ∀ c, s.head? = some c → isBlank c = false
  last : ∀ c, s.getLast? = some c → isBlank c = false

/-- A text without any blank is trimmed. -/
theorem trimmed_of_all (h : ∀ c ∈ s, isBlank c = false) : Trimmed s :=
  ⟨fun c hc => h c (List.mem_of_head? hc), fun c hc => h c (List.mem_of_getLast? hc)⟩

theorem Name.trimmed (n : Name) : Trimmed n.chars :=
  trimmed_of_all fun c hc => isBlank_of_isKeyChar (n.areKeyChars c hc)

/-- A value neither begins nor ends with a blank. -/
theorem Value.trimmed (v : Value) : Trimmed v.render := by
  cases v with
  | text chars stand =>
    -- A text begins and ends with a quote.
    have hlast : (Value.text chars stand).render.getLast? = some '"' := List.getLast?_concat
    constructor <;> intro c hc
    · cases hc
      decide
    · cases hlast.symm.trans hc
      decide
  | number sign digits ne_nil areDigits =>
    apply trimmed_of_all
    intro c hc
    simp only [Value.render, List.mem_append] at hc
    obtain hc | hc := hc
    · have hsign : ∀ c ∈ sign.render, isBlank c = false := by
        cases sign <;> exact forall_mem_of_all (by decide)
      exact hsign c hc
    · exact isBlank_of_isDigit (areDigits c hc)
  | truth b => cases b <;> exact trimmed_of_all (forall_mem_of_all (by decide))

/-- A value is never empty. -/
theorem Value.render_ne_nil (v : Value) : v.render ≠ [] := by
  cases v with
  | text chars stand => simp [Value.render]
  | number sign digits ne_nil areDigits => simp [Value.render, ne_nil]
  | truth b => cases b <;> decide

/-- The quotes of a value come in pairs. -/
theorem Value.count_quote (v : Value) : v.render.count '"' % 2 = 0 := by
  cases v with
  | text chars stand =>
    have hchars : chars.count '"' = 0 := by
      rw [List.count_eq_zero]
      exact fun h => absurd (stand _ h) (by decide)
    simp [Value.render, hchars]
  | number sign digits ne_nil areDigits =>
    have hdigits : digits.count '"' = 0 := by
      rw [List.count_eq_zero]
      exact fun h => absurd (areDigits _ h) (by decide)
    cases sign <;> simp [Value.render, Sign.render, hdigits]
  | truth b => cases b <;> decide

/-! ## Tails of lines -/

/-- A text of blanks and a comment. -/
def Commented (t : List Char) : Prop := ∃ bs cs, (∀ c ∈ bs, isBlank c = true) ∧ t = bs ++ '#' :: cs

/-- What stands after the content of a line: blanks, and perhaps a comment. -/
theorem tail_cases (l : Line) (e : Ending) :
    (∀ c ∈ l.tail ++ e.render, isBlank c = true) ∨ Commented (l.tail ++ e.render) := by
  have hending : ∀ c ∈ e.render, isBlank c = true := by
    cases e <;> exact forall_mem_of_all (by decide)
  cases hcomment : l.comment with
  | none =>
    left
    intro c hc
    simp only [Line.tail, hcomment, renderComment, List.append_nil, List.mem_append] at hc
    exact hc.elim (l.trail.areBlank c) (hending c)
  | some comment =>
    right
    exact ⟨l.trail.chars, comment.chars ++ e.render, l.trail.areBlank, by
      simp [Line.tail, hcomment, renderComment]⟩

/-- Trimming takes blanks off, but no comment. -/
theorem trim_with_tail (hl : ∀ c ∈ l, isBlank c = true) (hs : Trimmed s) (hne : s ≠ [])
    (ht : (∀ c ∈ t, isBlank c = true) ∨ Commented t) :
    ∃ t', (t' = [] ∨ Commented t') ∧ trim (l ++ (s ++ t)) = s ++ t' := by
  obtain ht | ⟨bs, cs, hbs, rfl⟩ := ht
  · exact ⟨[], .inl rfl, by rw [trim_pad hl ht hs.first hs.last, List.append_nil]⟩
  · refine ⟨bs ++ '#' :: trimEnd cs, .inr ⟨bs, trimEnd cs, hbs, rfl⟩, ?_⟩
    have hfirst : ∀ c, (s ++ (bs ++ '#' :: cs)).head? = some c → isBlank c = false := by
      intro c hc
      rw [List.head?_append, Option.or_of_isSome (by simpa using hne)] at hc
      exact hs.first c hc
    rw [trim_append_left hl, trim_of_head hfirst, ← List.append_assoc,
      trimEnd_append_cons (by decide), List.append_assoc]

/-- A comment is taken off, unless a `#` or a single quote stands before it. -/
theorem withoutComment_append (hs : Trimmed s) (hhash : '#' ∉ s) (hquotes : s.count '"' % 2 = 0)
    (ht : t = [] ∨ Commented t) : Config.withoutComment (s ++ t) = s := by
  obtain rfl | ⟨bs, cs, hbs, rfl⟩ := ht
  · rw [List.append_nil, Config.withoutComment, cut?_of_not_mem hhash]
  · have hblank : ∀ x, isBlank x = false → x ∉ bs := by
      intro x hx hmem
      rw [hbs x hmem] at hx
      exact nomatch hx
    have hcut : cut? '#' (s ++ (bs ++ '#' :: cs)) = some (s ++ bs, cs) := by
      rw [← List.append_assoc]
      exact cut?_append (by simp [hhash, hblank '#' (by decide)])
    have hcount : (s ++ bs).count '"' % 2 = 0 := by
      rw [List.count_append, List.count_eq_zero.mpr (hblank '"' (by decide))]
      exact hquotes
    -- The blanks before the comment go with it.
    have htrim : trim (s ++ bs) = s := by
      simpa using trim_pad (l := []) (by simp) hbs hs.first hs.last
    simp only [Config.withoutComment, hcut, hcount, if_true, htrim]

/-! ## Lines -/

/-- A character that is none of a text, a number or a truth value stands in no value. -/
theorem Value.not_mem (v : Value) (htext : isTextChar c = false) (hquote : c ≠ '"')
    (hsign : c ≠ '+' ∧ c ≠ '-') (hdigit : c.isDigit = false)
    (htruth : c ∉ "true".toList ++ "false".toList) : c ∉ v.render := by
  cases v with
  | text chars stand =>
    have : c ∉ chars := by
      intro h
      rw [stand c h] at htext
      exact nomatch htext
    simp [Value.render, hquote, this]
  | number sign digits ne_nil areDigits =>
    have : c ∉ digits := by
      intro h
      rw [areDigits c h] at hdigit
      exact nomatch hdigit
    -- A number may have a sign in front of its digits.
    cases sign <;> simp [Value.render, Sign.render, hsign.1, hsign.2, this]
  | truth b =>
    rw [List.mem_append, not_or] at htruth
    cases b
    · exact htruth.2
    · exact htruth.1

/-- The content of a line has no line end in it. -/
theorem Content.newline_not_mem (k : Content) : '\n' ∉ k.render := by
  have hb : ∀ b : Blanks, '\n' ∉ b.chars := fun b => b.not_mem (by decide)
  have hn : ∀ n : Name, '\n' ∉ n.chars := fun n => n.not_mem (by decide)
  cases k with
  | nothing => simp [Content.render]
  | header left name right => simp [Content.render, hb, hn]
  | setting key left right value =>
    have hv : '\n' ∉ value.render :=
      value.not_mem (by decide) (by decide) (by decide) (by decide) (by decide)
    simp [Content.render, hb, hn, hv]

/-- A line is one line. -/
theorem Line.newline_not_mem (k : Line) : '\n' ∉ k.render := by
  have hb : ∀ b : Blanks, '\n' ∉ b.chars := fun b => b.not_mem (by decide)
  cases hcomment : k.comment with
  | none => simp [Line.render, Line.tail, hcomment, renderComment, hb, Content.newline_not_mem]
  | some comment =>
    simp [Line.render, Line.tail, hcomment, renderComment, hb, Content.newline_not_mem,
      comment.inLine]

variable {k : Line} {left right : Blanks} {name key : Name} {value : Value}

/-- A line without content is blank to the reader, with or without a comment. -/
theorem read_nothing (hk : k.content = .nothing) (e : Ending) :
    Config.Line.read (k.render ++ e.render) = .ok .blank := by
  have hrender : k.render ++ e.render = k.indent.chars ++ (k.tail ++ e.render) := by
    simp [Line.render, hk, Content.render]
  rw [hrender, Config.Line.read, trim_append_left k.indent.areBlank]
  -- After the blanks at the start there is nothing, or a comment.
  obtain hblank | ⟨bs, cs, hbs, htail⟩ := tail_cases k e
  · rw [trim_of_blank hblank]
  · have htrim : trim ('#' :: cs) = '#' :: trimEnd cs := by
      rw [trim_of_head (by rintro _ ⟨⟩; decide)]
      exact trimEnd_append_cons (a := []) (by decide)
    rw [htail, trim_append_left hbs, htrim]
    rfl

/-- A line with its content in front, as far as its reader sees it. -/
theorem trim_render (hs : Trimmed k.content.render) (hne : k.content.render ≠ []) (e : Ending) :
    ∃ t, (t = [] ∨ Commented t) ∧ trim (k.render ++ e.render) = k.content.render ++ t := by
  have hrender : k.render ++ e.render =
      k.indent.chars ++ (k.content.render ++ (k.tail ++ e.render)) := by
    simp [Line.render]
  rw [hrender]
  exact trim_with_tail k.indent.areBlank hs hne (tail_cases k e)

/-- Between brackets stands the name of a section, with blanks around it. -/
theorem readHeader_of_bare {inner : List Char}
    (hs : Config.withoutComment s = '[' :: inner ++ [']']) :
    Config.readHeader s =
      Config.orError .invalidSection ((Section.ofName? (trim inner)).map .header) := by
  have hreverse : (Config.withoutComment s).reverse = ']' :: ('[' :: inner).reverse := by
    rw [hs, List.reverse_append, List.reverse_singleton, List.singleton_append]
  simp only [Config.readHeader, hreverse, List.reverse_reverse, List.drop_succ_cons,
    List.drop_zero]
  cases Section.ofName? (trim inner) <;> rfl

/-- A header is read as that of the section of its name, if there is one. -/
theorem read_header (hk : k.content = .header left name right) (e : Ending) :
    Config.Line.read (k.render ++ e.render) =
      Config.orError .invalidSection ((Section.ofName? name.chars).map .header) := by
  have hcontent : k.content.render =
      '[' :: (left.chars ++ (name.chars ++ right.chars)) ++ [']'] := by
    simp [hk, Content.render]
  have hs : Trimmed k.content.render := by
    constructor <;> rw [hcontent]
    · rintro _ ⟨⟩
      decide
    · rw [List.getLast?_concat]
      rintro _ ⟨⟩
      decide
  -- Neither a `#` nor a quote is in the content, so that a comment begins at the first `#`.
  have hhash : '#' ∉ k.content.render := by
    simp [hcontent, left.not_mem (c := '#') (by decide), right.not_mem (c := '#') (by decide),
      name.not_mem (c := '#') (by decide)]
  have hquote : '"' ∉ k.content.render := by
    simp [hcontent, left.not_mem (c := '"') (by decide), right.not_mem (c := '"') (by decide),
      name.not_mem (c := '"') (by decide)]
  obtain ⟨t, ht, htrim⟩ := trim_render hs (by simp [hcontent]) e
  have hbare := withoutComment_append hs hhash (by rw [List.count_eq_zero.mpr hquote]) ht
  have hname : trim (left.chars ++ (name.chars ++ right.chars)) = name.chars :=
    trim_pad left.areBlank right.areBlank name.trimmed.first name.trimmed.last
  rw [hcontent] at hbare htrim
  rw [Config.Line.read, htrim, ← congrArg Section.ofName? hname]
  exact readHeader_of_bare hbare

/-- A setting is read as its key and its value, whatever blanks and comment are around them. -/
theorem read_setting (hk : k.content = .setting key left right value)
    (hhash : '#' ∉ value.render) (e : Ending) :
    Config.Line.read (k.render ++ e.render) = .ok (.setting key.chars value.render) := by
  have hcontent : k.content.render =
      key.chars ++ (left.chars ++ ('=' :: (right.chars ++ value.render))) := by
    rw [hk]
    rfl
  -- The first character of the key tells the line from a header and from a comment.
  obtain ⟨c, cs, hkey⟩ := List.exists_cons_of_ne_nil key.ne_nil
  have hc : Toml.isKeyChar c = true := key.areKeyChars c (by simp [hkey])
  have hs : Trimmed k.content.render := by
    constructor <;> rw [hcontent]
    · rw [hkey]
      rintro _ ⟨⟩
      exact isBlank_of_isKeyChar hc
    · have hassoc : key.chars ++ (left.chars ++ ('=' :: (right.chars ++ value.render))) =
          key.chars ++ left.chars ++ '=' :: right.chars ++ value.render := by simp
      intro x hx
      rw [hassoc, List.getLast?_append,
        Option.or_of_isSome (by simpa using value.render_ne_nil)] at hx
      exact value.trimmed.last x hx
  obtain ⟨t, ht, htrim⟩ := trim_render hs (by simp [hcontent, hkey]) e
  -- A name begins with neither of the characters that begin other lines.
  have hread : Config.Line.read (k.render ++ e.render) =
      Config.readSetting (k.content.render ++ t) := by
    have hhead : k.content.render ++ t =
        c :: (cs ++ (left.chars ++ ('=' :: (right.chars ++ value.render))) ++ t) := by
      rw [hcontent, hkey]
      rfl
    rw [Config.Line.read, htrim, hhead]
    split
    · next h => exact nomatch h
    · next h =>
      cases h
      exact absurd hc (by decide)
    · next h =>
      cases h
      exact absurd hc (by decide)
    · rfl
  -- The first `=` is the one after the key, since neither the key nor blanks have one.
  have hcut : cut? '=' (k.content.render ++ t) =
      some (key.chars ++ left.chars, right.chars ++ (value.render ++ t)) := by
    have hassoc : k.content.render ++ t =
        key.chars ++ left.chars ++ '=' :: (right.chars ++ (value.render ++ t)) := by
      simp [hcontent]
    rw [hassoc]
    exact cut?_append (by simp [key.not_mem (c := '=') (by decide),
      left.not_mem (c := '=') (by decide)])
  -- The value is trimmed twice: with the comment on, and once it is off.
  have hkeytrim : trim (key.chars ++ left.chars) = key.chars := by
    simpa using trim_pad (l := []) (by simp) left.areBlank key.trimmed.first key.trimmed.last
  obtain ⟨t', ht', hvaluetrim⟩ := trim_with_tail right.areBlank value.trimmed value.render_ne_nil
    (ht.elim (fun h => .inl (by simp [h])) .inr)
  have hvalue := withoutComment_append value.trimmed hhash value.count_quote ht'
  rw [hread]
  simp only [Config.readSetting, hcut, hkeytrim, hvaluetrim, hvalue]
  simp [key.ne_nil, value.render_ne_nil]

/-! ## Documents -/

/-- Takes in what an item says. -/
def take (p : Config.Progress) : Item → Except ReadError Config.Progress
  | .header name =>
    Config.orError .invalidSection ((Section.ofName? name).map .header) >>= p.next
  | .setting key value => p.next (.setting key value.render)

/-- Reading a line takes in its item. -/
theorem read_line (k : Line) (e : Ending) (p : Config.Progress)
    (hhash : ∀ key value, k.content.item? = some (.setting key value) → '#' ∉ value.render) :
    (Config.Line.read (k.render ++ e.render) >>= p.next) =
      k.content.item?.toList.foldlM take p := by
  cases hk : k.content with
  | nothing =>
    rw [read_nothing hk]
    rfl
  | header left name right =>
    rw [read_header hk]
    simp [Content.item?, take]
  | setting key left right value =>
    rw [hk] at hhash
    rw [read_setting hk (hhash _ _ rfl)]
    simp [Content.item?, take]
    rfl

/-- The lines of a document, each with what stands before its line feed. -/
theorem lines_renderLines (ls : List (Line × Ending)) (rest : List Char) :
    lines (renderLines ls rest) =
      ls.map (fun l => l.1.render ++ l.2.render) ++ lines rest := by
  induction ls with
  | nil => rfl
  | cons l ls ih =>
    have hl : '\n' ∉ l.1.render ++ l.2.render := by
      have hending : '\n' ∉ l.2.render := by cases l.2 <;> decide
      simp [l.1.newline_not_mem, hending]
    rw [List.map_cons, List.cons_append, ← ih, ← lines_append hl, List.append_assoc]
    rfl

/-- Lines are taken in one after the other, each with its end. -/
theorem readLines_lines (ls : List (Line × Ending)) (p : Config.Progress)
    (hhash : ∀ l ∈ ls, ∀ key value, l.1.content.item? = some (.setting key value) →
      '#' ∉ value.render) :
    p.readLines (ls.map fun l => l.1.render ++ l.2.render) =
      (ls.filterMap (·.1.content.item?)).foldlM take p := by
  induction ls generalizing p with
  | nil => rfl
  | cons l ls ih =>
    have hrest := fun p => ih p fun l' hl' => hhash l' (List.mem_cons_of_mem l hl')
    have hitems : (l :: ls).filterMap (·.1.content.item?) =
        l.1.content.item?.toList ++ ls.filterMap (·.1.content.item?) := by
      cases h : l.1.content.item? <;> simp [h]
    rw [hitems, List.foldlM_append, ← read_line l.1 l.2 p (hhash l List.mem_cons_self)]
    exact congrArg (_ >>= ·) (funext hrest)

/-- A document is read item by item. -/
theorem readLines_render (d : Document) (p : Config.Progress)
    (hhash : ∀ key value, Item.setting key value ∈ d.items → '#' ∉ value.render) :
    p.readLines (lines d.render) = d.items.foldlM take p := by
  have hlines : ∀ l ∈ d.lines, ∀ key value, l.1.content.item? = some (.setting key value) →
      '#' ∉ value.render := fun l hl key value hitem =>
    hhash key value (List.mem_append_left _ (List.mem_filterMap.mpr ⟨l, hl, hitem⟩))
  -- The last line has no end, which makes no difference: it is read like any other.
  have hlast : ∀ p : Config.Progress,
      p.readLines [d.last.render] = d.last.content.item?.toList.foldlM take p := by
    intro p
    rw [← read_line d.last .lf p fun key value hitem =>
      hhash key value (List.mem_append_right _ (by simp [hitem]))]
    simp [Config.Progress.readLines, Ending.render]
  rw [Document.render, lines_renderLines, lines_of_not_mem d.last.newline_not_mem,
    Document.items, List.foldlM_append, ← readLines_lines d.lines p hlines]
  simp only [Config.Progress.readLines, List.foldlM_append]
  exact congrArg (_ >>= ·) (funext hlast)

end KeyBridge.Plain
