import KeyBridge.Proofs.Config.PlainLines
import KeyBridge.Proofs.Toml.Digits
import KeyBridge.Proofs.Toml.Plain
import KeyBridge.Toml.Reader

/-!
# Reading plain documents as TOML

A plainly written document that is TOML is read into the statements that its lines make. It need
not be TOML: a number may be out of range or begin with a zero, and a comment may hold control
characters.

## Key results

- `value_render`: the value of a setting
- `statements_line`: the statement of a line
- `statements_render`: the statements of a document
-/

namespace KeyBridge.Plain

open Toml
open Text (dropWhile_stretch takeWhile_stretch)

variable {c : Char} {s t rest : List Char}

/-- The statement of an item. -/
def Item.statement? : Item → Option Statement
  | .header name => some (.table [] name)
  | .setting key value => value.toml?.map (.value [] key)

/-! ## Ends of lines -/

/-- The end of a line and what follows it, or the end of the text. -/
inductive Closes : List Char → List Char → Prop where
  | ending (e : Ending) (rest : List Char) : Closes (e.render ++ '\n' :: rest) rest
  | text : Closes [] []

/-- What follows the content of a line begins with neither quote, digit nor letter. -/
theorem Closes.head (h : Closes t rest) : ∀ c, t.head? = some c → c = '\r' ∨ c = '\n' := by
  intro c hc
  cases h with
  | ending e rest => cases e <;> cases hc <;> simp
  | text => exact nomatch hc

/-- Blanks are skipped. -/
theorem skipSpaces_blanks (b : Blanks) (s : List Char) :
    skipSpaces (b.chars ++ s) = skipSpaces s :=
  List.dropWhile_append_of_pos b.areSpace

/-- Where no space stands, nothing is skipped. -/
theorem skipSpaces_of_head (h : ∀ c, s.head? = some c → isSpace c = false) :
    skipSpaces s = s :=
  dropWhile_stretch (a := []) (by simp) h

/-- Before the end of a line there is nothing to skip. -/
theorem Closes.skipSpaces_eq (h : Closes t rest) : skipSpaces t = t := by
  apply skipSpaces_of_head
  intro c hc
  obtain rfl | rfl := h.head c hc <;> decide

/-- The end of a line is read as one. -/
theorem Closes.lineEnd?_eq (h : Closes t rest) : lineEnd? t = some rest := by
  cases h with
  | ending e rest => cases e <;> rfl
  | text => rfl

/-- A carriage return and a line feed can only be those of the line. -/
theorem Closes.of_cons (h : Closes t rest) {cs r : List Char} (hcs : '\n' ∉ cs)
    (ht : cs ++ t = '\n' :: r) : r = rest := by
  cases cs with
  | nil =>
    cases h with
    | ending e rest =>
      cases e with
      | lf => exact (List.cons.inj ht).2.symm
      | crlf => exact absurd (List.cons.inj ht).1 (by decide)
    | text => exact nomatch ht
  | cons c cs =>
    obtain rfl : c = '\n' := (List.cons.inj ht).1
    exact absurd List.mem_cons_self hcs

/-- A comment that ends well ends with its line. -/
theorem Closes.comment (h : Closes t rest) {cs r : List Char} (hcs : '\n' ∉ cs)
    (hr : lineEnd? ((cs ++ t).dropWhile isPrintable) = some r) : r = rest := by
  induction cs with
  | nil =>
    -- What closes a line is not printable, so the comment ends there at the latest.
    have hstop : t.dropWhile isPrintable = t := by
      apply dropWhile_stretch (a := []) (by simp)
      intro c hc
      obtain rfl | rfl := h.head c hc <;> decide
    rw [List.nil_append, hstop, h.lineEnd?_eq] at hr
    exact (Option.some.inj hr).symm
  | cons c cs ih =>
    simp only [List.mem_cons, not_or] at hcs
    rw [List.cons_append, List.dropWhile_cons] at hr
    split at hr
    · exact ih hcs.2 hr
    · simp only [lineEnd?] at hr
      split at hr
      · next heq => exact nomatch heq
      · next heq => exact absurd (List.cons.inj heq).1.symm hcs.1
      · next heq =>
        cases hr
        exact h.of_cons hcs.2 (List.cons.inj heq).2
      · exact nomatch hr

/-- What is left of a line after its content, if it ends well. -/
theorem Closes.restOfLine (h : Closes t rest) (k : Line) {r : List Char}
    (hr : restOfLine? (k.tail ++ t) = some r) : r = rest := by
  rw [Line.tail, List.append_assoc, restOfLine?, skipSpaces_blanks] at hr
  cases hcomment : k.comment with
  | none =>
    rw [hcomment, renderComment, List.nil_append, h.skipSpaces_eq] at hr
    split at hr
    · obtain hc | hc := h.head '#' rfl <;> exact absurd hc (by decide)
    · rw [h.lineEnd?_eq] at hr
      exact (Option.some.inj hr).symm
  | some comment =>
    rw [hcomment, renderComment, List.cons_append,
      skipSpaces_of_head (by rintro _ ⟨⟩; decide)] at hr
    exact h.comment comment.inLine hr

/-- What follows the content of a line. -/
theorem Closes.tail_head (h : Closes t rest) (k : Line) :
    ∃ t', k.tail ++ t = k.trail.chars ++ t' ∧
      ∀ c, t'.head? = some c → c = '#' ∨ c = '\r' ∨ c = '\n' := by
  refine ⟨renderComment k.comment ++ t, by simp [Line.tail], ?_⟩
  cases k.comment with
  | none => exact fun c hc => .inr (h.head c hc)
  | some comment =>
    rintro _ ⟨⟩
    exact .inl rfl

/-! ## Keys -/

/-- A name with blanks around it is a key with one part. -/
theorem key_name (left right : Blanks) (name : Name) (hc : c = ']' ∨ c = '=') (s : List Char) :
    Toml.key (left.chars ++ (name.chars ++ (right.chars ++ c :: s))) =
      some ([], name.chars, c :: s) := by
  -- The name ends where a blank, a bracket or an equals sign stands.
  have hstop : ∀ x, (right.chars ++ c :: s).head? = some x → isKeyChar x = false := by
    intro x hx
    cases hright : right.chars with
    | nil =>
      rw [hright] at hx
      cases hx
      obtain rfl | rfl := hc <;> decide
    | cons y ys =>
      rw [hright] at hx
      cases hx
      have hspace := right.areSpace x (by simp [hright])
      simp only [isSpace, Bool.or_eq_true, beq_iff_eq] at hspace
      obtain rfl | rfl := hspace <;> decide
  obtain ⟨x, xs, hname⟩ := List.exists_cons_of_ne_nil name.ne_nil
  have hx : isKeyChar x = true := name.areKeyChars x (by simp [hname])
  -- The blanks before the name, the name, and the blanks after it.
  have hskip : skipSpaces (left.chars ++ (name.chars ++ (right.chars ++ c :: s))) =
      name.chars ++ (right.chars ++ c :: s) := by
    rw [skipSpaces_blanks, skipSpaces_of_head]
    rw [hname]
    rintro _ ⟨⟩
    exact isSpace_of_isBlank (isBlank_of_isKeyChar hx)
  have hsimple : simpleKey (name.chars ++ (right.chars ++ c :: s)) =
      some (name.chars, right.chars ++ c :: s) := by
    have hne : name.chars.isEmpty = false := by simpa using name.ne_nil
    unfold simpleKey
    split
    · next heq =>
      rw [hname] at heq
      cases heq
      exact absurd hx (by decide)
    · next heq =>
      rw [hname] at heq
      cases heq
      exact absurd hx (by decide)
    · simp only [takeWhile_stretch name.areKeyChars hstop, dropWhile_stretch name.areKeyChars hstop,
        hne, Bool.false_eq_true, if_false]
  have hrest : skipSpaces (right.chars ++ c :: s) = c :: s := by
    rw [skipSpaces_blanks, skipSpaces_of_head]
    rintro _ ⟨⟩
    obtain rfl | rfl := hc <;> decide
  -- No dot follows, so that the key has this one part.
  have hparts : keyParts (maxKeyParts - 1)
      (left.chars ++ (name.chars ++ (right.chars ++ c :: s))) = some ([name.chars], c :: s) := by
    change keyParts (78 + 1) _ = _
    rw [keyParts, hskip, hsimple]
    obtain rfl | rfl := hc <;> simp [hrest]
  rw [Toml.key, hparts]
  rfl

/-! ## Values -/

/-- A line goes on after its content with a blank, a comment or its end. -/
theorem Closes.tail_first (h : Closes t rest) (k : Line) :
    ∀ c, (k.tail ++ t).head? = some c →
      c = ' ' ∨ c = '\t' ∨ c = '#' ∨ c = '\r' ∨ c = '\n' := by
  obtain ⟨t', htail, ht'⟩ := h.tail_head k
  intro c hc
  rw [htail] at hc
  cases htrail : k.trail.chars with
  | nil =>
    rw [htrail] at hc
    exact .inr (.inr (ht' c hc))
  | cons x xs =>
    rw [htrail] at hc
    cases hc
    have hspace := k.trail.areSpace c (by simp [htrail])
    simp only [isSpace, Bool.or_eq_true, beq_iff_eq] at hspace
    exact hspace.elim .inl fun h => .inr (.inl h)

/-- Characters that stand for themselves are read up to the quote. -/
theorem quoted_text {cs : List Char} (hcs : ∀ c ∈ cs, isTextChar c = true) (s : List Char) :
    quoted (cs ++ '"' :: s) = some (cs, s) := by
  induction cs with
  | nil => simp [quoted]
  | cons c cs ih =>
    have hc := hcs c List.mem_cons_self
    simp only [isTextChar, Bool.and_eq_true, bne_iff_ne] at hc
    obtain ⟨⟨hprint, hquote⟩, hslash⟩ := hc
    rw [List.cons_append, quoted, if_pos hprint, ih fun x hx => hcs x (List.mem_cons_of_mem c hx)]
    · rfl
    all_goals simp_all

/-- A string in one pair of quotes is no string in three pairs. -/
theorem string?_text {cs : List Char} (hcs : ∀ c ∈ cs, isTextChar c = true)
    (hs : s.head? ≠ some '"') : string? ('"' :: (cs ++ '"' :: s)) = some (cs, s) := by
  unfold string?
  split
  -- Three quotes in a row: the string would have to be empty, and a quote to follow it.
  · next heq =>
    cases cs with
    | nil =>
      simp only [List.nil_append, List.cons.injEq, true_and] at heq
      exact absurd (by rw [heq]; rfl) hs
    | cons c cs =>
      simp only [List.cons_append, List.cons.injEq, true_and] at heq
      exact absurd (hcs c List.mem_cons_self) (by rw [heq.1]; decide)
  · next heq =>
    cases heq
    exact quoted_text hcs s
  · next heq => exact absurd (List.cons.inj heq).1 (by decide)
  · next heq => exact absurd (List.cons.inj heq).1 (by decide)
  · next _ hquote _ _ => exact (hquote _ rfl).elim

/-- Whether a character begins a value that is no token. -/
def opensValue (c : Char) : Bool := c == '"' || c == '\'' || c == '[' || c == '\x7b'

/-- A token opens neither a string nor a table or an array. -/
theorem opensValue_of_isTokenChar (h : isTokenChar c = true) : opensValue c = false := by
  simp only [opensValue, Bool.or_eq_false_iff, beq_eq_false_iff_ne]
  refine ⟨⟨⟨?_, ?_⟩, ?_⟩, ?_⟩ <;> rintro rfl <;> exact absurd h (by decide)

/-- A value that begins in no special way is a token. -/
theorem value_of_token {n : Nat} (hc : opensValue c = false) :
    Toml.value (n + 1) (c :: s) = token (c :: s) := by
  simp only [opensValue, Bool.or_eq_false_iff, beq_eq_false_iff_ne] at hc
  obtain ⟨⟨⟨hquote, happ⟩, hbracket⟩, hbrace⟩ := hc
  rw [Toml.value]
  all_goals simp_all

/-- After a blank, a line goes on with no digit. -/
theorem Closes.not_digit (h : Closes t rest) (k : Line) {x : Char}
    (ht : k.tail ++ t = x :: c :: s) (hx : isSpace x = true) : c.isDigit = false := by
  obtain ⟨t', htail, ht'⟩ := h.tail_head k
  rw [htail] at ht
  have hend : ∀ y, t'.head? = some y → isSpace y = false ∧ y.isDigit = false := by
    intro y hy
    obtain rfl | rfl | rfl := ht' y hy <;> decide
  rcases htrail : k.trail.chars with _ | ⟨y, _ | ⟨z, zs⟩⟩ <;> rw [htrail] at ht
  -- No blank, one blank, or more of them before the comment or the end.
  · exact nomatch (hend x (by simp_all)).1.symm.trans hx
  · exact (hend c (by simp_all)).2
  · have hspace := k.trail.areSpace c (by simp_all)
    simp only [isSpace, Bool.or_eq_true, beq_iff_eq] at hspace
    obtain rfl | rfl := hspace <;> decide

/-- A token ends where no character of it can stand, unless a time of day follows a date. -/
theorem token_of_tail (h : Closes t rest) (k : Line) (hs : ∀ c ∈ s, isTokenChar c = true) :
    token (s ++ (k.tail ++ t)) = (tokenValue? s).map (·, k.tail ++ t) := by
  have hstop : ∀ c, (k.tail ++ t).head? = some c → isTokenChar c = false := by
    intro c hc
    obtain rfl | rfl | rfl | rfl | rfl := h.tail_first k c hc <;> decide
  simp only [token, takeWhile_stretch hs hstop, dropWhile_stretch hs hstop]
  split
  · next c more heq =>
    simp [h.not_digit k heq (by decide)]
  · rfl

/-! ## Numbers -/

/-- No sign is taken off digits. -/
theorem unsign_of_isDigit (hs : ∀ c ∈ s, c.isDigit = true) : unsign s = (false, s) := by
  unfold unsign
  split
  · exact absurd rfl (not_sign_of_isDigit (hs '-' List.mem_cons_self)).1
  · exact absurd rfl (not_sign_of_isDigit (hs '+' List.mem_cons_self)).2
  · rfl

/-- The sign of a number is taken off, and its digits are left. -/
theorem unsign_digits (sign : Sign) (hs : ∀ c ∈ s, c.isDigit = true) :
    unsign (sign.render ++ s) = (sign == .minus, s) := by
  cases sign with
  | none => exact unsign_of_isDigit hs
  | plus => rfl
  | minus => rfl

/-- Digits are a number as soon as they are neither a date nor a float. -/
theorem tokenValue?_number (sign : Sign) (hs : ∀ c ∈ s, c.isDigit = true) :
    tokenValue? (sign.render ++ s) = (integer? (sign.render ++ s)).map .integer := by
  have hdigits : ∀ c ∈ (unsign (sign.render ++ s)).2, c.isDigit = true := by
    rwa [unsign_digits sign hs]
  -- Both truth values are written with an `e`.
  have hname : ∀ c ∈ sign.render ++ s, c ≠ 'e' := by
    rintro _ hc rfl
    exact absurd (hdigits _ (mem_unsign_of_mem hc (by decide))) (by decide)
  have htrue : sign.render ++ s ≠ "true".toList := fun h => hname 'e' (by simp [h]) rfl
  have hfalse : sign.render ++ s ≠ "false".toList := fun h => hname 'e' (by simp [h]) rfl
  rw [tokenValue?, if_neg htrue, if_neg hfalse, isDatetime_of_digits hdigits,
    isFloat_of_digits hdigits]
  rfl

/-- A number in decimal is the integer that TOML makes of it, or refused. -/
theorem integer?_number (sign : Sign) {digits : List Char} (hne : digits ≠ [])
    (hs : ∀ c ∈ digits, c.isDigit = true) :
    (integer? (sign.render ++ digits)).map .integer = (Value.number sign digits hne hs).toml? := by
  have hsign : ∀ n : Nat, (if sign == .minus then - (n : Int) else n) = sign.apply n := by
    intro n
    cases sign <;> rfl
  rw [integer?_of_digits (by rwa [unsign_digits sign hs]), unsign_digits sign hs,
    plainDigits?_of_isDigit hs hne, Value.toml?]
  by_cases hzero : digits.head? = some '0' → digits.length = 1
  · rw [if_pos hzero, Option.bind_some, ofDigits_digits, hsign, inRange?_eq]
    simp only [and_iff_right hzero]
    split <;> rfl
  · rw [if_neg hzero, if_neg fun h => hzero h.1]
    rfl

/-- A number is a token. -/
theorem Value.number_isTokenChar (sign : Sign) (hs : ∀ c ∈ s, c.isDigit = true) :
    ∀ c ∈ sign.render ++ s, isTokenChar c = true := by
  have hsign : ∀ c ∈ sign.render, isTokenChar c = true := by
    cases sign <;> exact forall_mem_of_all (by decide)
  intro c hc
  rw [List.mem_append] at hc
  obtain hc | hc := hc
  · exact hsign c hc
  · simp [isTokenChar, Char.isAlphanum, hs c hc]

/-- A value that is a token is read. -/
theorem Closes.value_token (h : Closes t rest) (k : Line) {n : Nat} (hne : s ≠ [])
    (hs : ∀ c ∈ s, isTokenChar c = true) :
    Toml.value (n + 1) (s ++ (k.tail ++ t)) = (tokenValue? s).map (·, k.tail ++ t) := by
  obtain ⟨c, cs, rfl⟩ := List.exists_cons_of_ne_nil hne
  rw [List.cons_append, value_of_token (opensValue_of_isTokenChar (hs c List.mem_cons_self))]
  exact token_of_tail h k hs

/-- The value of a setting is read, and what follows it is left. -/
theorem Closes.value_render (h : Closes t rest) (k : Line) (v : Value) (n : Nat) :
    Toml.value (n + 1) (v.render ++ (k.tail ++ t)) = v.toml?.map (·, k.tail ++ t) := by
  cases v with
  | text chars stand =>
    -- What follows a text does not begin with a quote, so that it is no text of several lines.
    have hquote : (k.tail ++ t).head? ≠ some '"' := by
      intro hc
      obtain hc | hc | hc | hc | hc := h.tail_first k _ hc <;> exact absurd hc (by decide)
    have hassoc : (Value.text chars stand).render ++ (k.tail ++ t) =
        '"' :: (chars ++ '"' :: (k.tail ++ t)) := by
      simp [Value.render]
    rw [hassoc, Toml.value, string?_text stand hquote]
    rfl
  | number sign digits ne_nil areDigits =>
    have hne : sign.render ++ digits ≠ [] := by simp [ne_nil]
    have hvalue := h.value_token k (n := n) hne (Value.number_isTokenChar sign areDigits)
    rwa [tokenValue?_number sign areDigits, integer?_number sign ne_nil areDigits] at hvalue
  | truth b =>
    have hvalue := h.value_token k (n := n) (s := (Value.truth b).render)
      (Value.truth b).render_ne_nil (by
        cases b <;> exact forall_mem_of_all (by decide))
    rw [hvalue]
    cases b <;> rfl

/-! ## Lines -/

/-- A header is read as the name between its brackets. -/
theorem header_name (left right : Blanks) (name : Name) (s : List Char) :
    Toml.header (left.chars ++ (name.chars ++ (right.chars ++ ']' :: s))) =
      some (.table [] name.chars, s) := by
  -- A second bracket would open an array of tables.
  have hhead : (left.chars ++ (name.chars ++ (right.chars ++ ']' :: s))).head? ≠ some '[' := by
    intro h
    rw [List.head?_append, List.head?_append] at h
    cases hleft : left.chars.head? with
    | some c =>
      rw [hleft] at h
      cases h
      exact left.not_mem (by decide) (List.mem_of_head? hleft)
    | none =>
      obtain ⟨c, cs, hname⟩ := List.exists_cons_of_ne_nil name.ne_nil
      rw [hleft, hname] at h
      cases h
      exact name.not_mem (by decide) (hname ▸ List.mem_cons_self)
  have hkey := key_name left right name (.inl rfl) s
  unfold Toml.header
  split
  · next heq => exact absurd (by rw [heq]; rfl) hhead
  · rw [hkey]
    rfl

/-- A setting is read as its name and its value, whatever blanks stand between. -/
theorem Closes.keyValue_setting (h : Closes t rest) (k : Line) (name : Name) (left right : Blanks)
    (v : Value) (n : Nat) :
    keyValue (Toml.value (n + 1))
        (name.chars ++ (left.chars ++ '=' :: (right.chars ++ (v.render ++ (k.tail ++ t))))) =
      v.toml?.map fun x => ([], name.chars, x, k.tail ++ t) := by
  have hkey := key_name ⟨[], by simp⟩ left name (.inr rfl)
    (right.chars ++ (v.render ++ (k.tail ++ t)))
  rw [List.nil_append] at hkey
  have hskip : skipSpaces (right.chars ++ (v.render ++ (k.tail ++ t))) =
      v.render ++ (k.tail ++ t) := by
    rw [skipSpaces_blanks, skipSpaces_of_head]
    intro c hc
    rw [List.head?_append, Option.or_of_isSome (by simpa using v.render_ne_nil)] at hc
    exact isSpace_of_isBlank (v.trimmed.first c hc)
  simp only [keyValue, hkey, Option.bind_eq_bind, Option.bind_some, hskip, h.value_render]
  cases v.toml? <;> rfl

/-- A line without content makes no statement. -/
theorem Closes.statements_nothing (h : Closes t rest) (k : Line) {n : Nat} {ss : List Statement}
    (hk : k.content = .nothing) (hss : statements (n + 1) (k.render ++ t) = some ss) :
    statements n rest = some ss ∨ t = [] ∧ ss = [] := by
  have hskip : skipSpaces (k.render ++ t) = skipSpaces (k.tail ++ t) := by
    simp [Line.render, hk, Content.render, skipSpaces_blanks]
  rw [statements, hskip, Line.tail, List.append_assoc, skipSpaces_blanks] at hss
  cases hcomment : k.comment with
  | none =>
    -- Without a comment the line is empty, and perhaps the last one.
    rw [hcomment, renderComment, List.nil_append, h.skipSpaces_eq] at hss
    cases h with
    | ending e rest =>
      left
      cases e <;> exact hss
    | text => exact .inr ⟨rfl, (Option.some.inj hss).symm⟩
  | some comment =>
    rw [hcomment, renderComment, List.cons_append,
      skipSpaces_of_head (by rintro _ ⟨⟩; decide)] at hss
    obtain ⟨r, hr, hmore⟩ := Option.bind_eq_some_iff.mp hss
    have hrest : restOfLine? (k.tail ++ t) = some r := by
      rw [Line.tail, List.append_assoc, restOfLine?, skipSpaces_blanks, hcomment, renderComment,
        List.cons_append, skipSpaces_of_head (by rintro _ ⟨⟩; decide)]
      exact hr
    rw [h.restOfLine k hrest] at hmore
    exact .inl hmore

/-- A line with a header is a statement of its own. -/
theorem Closes.statements_header (h : Closes t rest) (k : Line) {n : Nat} {ss : List Statement}
    {left right : Blanks} {name : Name} (hk : k.content = .header left name right)
    (hss : statements (n + 1) (k.render ++ t) = some ss) :
    ∃ more, statements n rest = some more ∧ ss = .table [] name.chars :: more := by
  have hskip : skipSpaces (k.render ++ t) =
      '[' :: (left.chars ++ (name.chars ++ (right.chars ++ ']' :: (k.tail ++ t)))) := by
    have hassoc : k.render ++ t = k.indent.chars ++
        '[' :: (left.chars ++ (name.chars ++ (right.chars ++ ']' :: (k.tail ++ t)))) := by
      simp [Line.render, hk, Content.render]
    rw [hassoc, skipSpaces_blanks, skipSpaces_of_head]
    rintro _ ⟨⟩
    decide
  rw [statements, hskip] at hss
  simp only [header_name, Option.bind_eq_bind, Option.bind_some] at hss
  -- After the header only the end of the line may follow.
  obtain ⟨r, hr, hss⟩ := Option.bind_eq_some_iff.mp hss
  obtain ⟨more, hmore, hss⟩ := Option.bind_eq_some_iff.mp hss
  rw [h.restOfLine k hr] at hmore
  exact ⟨more, hmore, (Option.some.inj hss).symm⟩

/-- A line with a setting is a statement of its own, with the value that is written. -/
theorem Closes.statements_setting (h : Closes t rest) (k : Line) {n : Nat} {ss : List Statement}
    {left right : Blanks} {name : Name} {v : Value} (hk : k.content = .setting name left right v)
    (hss : statements (n + 1) (k.render ++ t) = some ss) :
    ∃ x more, v.toml? = some x ∧ statements n rest = some more ∧
      ss = .value [] name.chars x :: more := by
  obtain ⟨c, cs, hname⟩ := List.exists_cons_of_ne_nil name.ne_nil
  have hc : isKeyChar c = true := name.areKeyChars c (hname ▸ List.mem_cons_self)
  have hskip : skipSpaces (k.render ++ t) =
      name.chars ++ (left.chars ++ '=' :: (right.chars ++ (v.render ++ (k.tail ++ t)))) := by
    have hassoc : k.render ++ t = k.indent.chars ++
        (name.chars ++ (left.chars ++ '=' :: (right.chars ++ (v.render ++ (k.tail ++ t))))) := by
      simp [Line.render, hk, Content.render]
    rw [hassoc, skipSpaces_blanks, skipSpaces_of_head]
    rw [hname]
    rintro _ ⟨⟩
    exact isSpace_of_isBlank (isBlank_of_isKeyChar hc)
  have hhead : ∀ d r, name.chars ++
      (left.chars ++ '=' :: (right.chars ++ (v.render ++ (k.tail ++ t)))) = d :: r →
      isKeyChar d = true := by
    rw [hname]
    rintro _ _ ⟨⟩
    exact hc
  -- The name begins with none of the characters that other lines begin with.
  rw [statements, hskip] at hss
  split at hss
  · next heq => simp [hname] at heq
  · next heq => exact absurd (hhead _ _ heq) (by decide)
  · next heq => exact absurd (hhead _ _ heq) (by decide)
  · next heq => exact absurd (hhead _ _ heq) (by decide)
  · next heq => exact absurd (hhead _ _ heq) (by decide)
  rw [maxDepth, h.keyValue_setting k name left right v] at hss
  cases hv : v.toml? with
  | none =>
    rw [hv] at hss
    contradiction
  | some x =>
    rw [hv, Option.map_some, Option.bind_eq_bind, Option.bind_some] at hss
    obtain ⟨r, hr, hss⟩ := Option.bind_eq_some_iff.mp hss
    obtain ⟨more, hmore, hss⟩ := Option.bind_eq_some_iff.mp hss
    rw [h.restOfLine k hr] at hmore
    exact ⟨x, more, rfl, hmore, (Option.some.inj hss).symm⟩

/-- A line makes the statement of its item, and the text goes on after the line. -/
theorem Closes.statements_line (h : Closes t rest) (k : Line) {n : Nat} {ss : List Statement}
    (hss : statements (n + 1) (k.render ++ t) = some ss) :
    ∃ more, (statements n rest = some more ∨ t = [] ∧ more = []) ∧
      (k.content.item?.toList.mapM Item.statement?).map (· ++ more) = some ss := by
  cases hk : k.content with
  | nothing => exact ⟨ss, h.statements_nothing k hk hss, rfl⟩
  | header left name right =>
    obtain ⟨more, hmore, rfl⟩ := h.statements_header k hk hss
    exact ⟨more, .inl hmore, rfl⟩
  | setting name left right v =>
    obtain ⟨x, more, hv, hmore, rfl⟩ := h.statements_setting k hk hss
    refine ⟨more, .inl hmore, ?_⟩
    simp [Content.item?, Item.statement?, hv]

/-! ## Documents -/

/-- The lines of a document are read one by one. -/
theorem statements_renderLines (ls : List (Line × Ending)) {n : Nat} {ss : List Statement}
    (hss : statements n (renderLines ls rest) = some ss) :
    ∃ m more, statements m rest = some more ∧
      ((ls.filterMap (·.1.content.item?)).mapM Item.statement?).map (· ++ more) = some ss := by
  -- On the lines: each of them is read up to its end, where the next one begins.
  induction ls generalizing n ss with
  | nil => exact ⟨n, ss, hss, rfl⟩
  | cons l ls ih =>
    cases n with
    | zero => exact nomatch hss
    | succ n =>
      have hline := (Closes.ending l.2 (renderLines ls rest)).statements_line l.1 hss
      obtain ⟨more, hmore | ⟨h, -⟩, hss⟩ := hline
      · obtain ⟨m, last, hlast, hitems⟩ := ih hmore
        refine ⟨m, last, hlast, ?_⟩
        have hsplit : (l :: ls).filterMap (·.1.content.item?) =
            l.1.content.item?.toList ++ ls.filterMap (·.1.content.item?) := by
          cases h : l.1.content.item? <;> simp [h]
        obtain ⟨first, hfirst, rfl⟩ := Option.map_eq_some_iff.mp hss
        obtain ⟨middle, hmiddle, rfl⟩ := Option.map_eq_some_iff.mp hitems
        rw [hsplit, List.mapM_append, hfirst, hmiddle]
        simp
      · simp at h

/-- A text begins with a character only if one of its parts does. -/
theorem head?_append_ne {a b : List Char} (ha : a.head? ≠ some c) (hb : b.head? ≠ some c) :
    (a ++ b).head? ≠ some c := by
  cases a with
  | nil => exact hb
  | cons x a => exact ha

/-- A plain document begins with no mark. -/
theorem dropMark_render (d : Document) : dropMark d.render = d.render := by
  -- No part of a document begins with the mark, and so neither does the whole.
  have hblanks : ∀ b : Blanks, b.chars.head? ≠ some '\uFEFF' := fun b h =>
    b.not_mem (by decide) (List.mem_of_head? h)
  have hname : ∀ k : Name, k.chars.head? ≠ some '\uFEFF' := fun k h =>
    k.not_mem (by decide) (List.mem_of_head? h)
  have hcontent : ∀ k : Content, k.render.head? ≠ some '\uFEFF'
    | .nothing => nofun
    | .header .. => by simp [Content.render]
    | .setting key left right v => by
      apply head?_append_ne (hname key)
      apply head?_append_ne (hblanks left)
      simp
  have hline : ∀ k : Line, k.render.head? ≠ some '\uFEFF' := by
    intro k
    apply head?_append_ne (hblanks k.indent)
    apply head?_append_ne (hcontent k.content)
    apply head?_append_ne (hblanks k.trail)
    cases k.comment <;> simp [renderComment]
  have hrender : d.render.head? ≠ some '\uFEFF' := by
    rw [Document.render]
    cases d.lines with
    | nil => exact hline d.last
    | cons l ls =>
      apply head?_append_ne (hline l.1)
      cases l.2 <;> simp [Ending.render]
  unfold dropMark
  split
  · next heq => exact absurd (by rw [heq]; rfl) hrender
  · rfl

/-- A document that is TOML is read into the statements of its items. -/
theorem statements_render (d : Document) {n : Nat} {ss : List Statement}
    (hss : statements n (dropMark d.render) = some ss) :
    d.items.mapM Item.statement? = some ss := by
  rw [dropMark_render] at hss
  obtain ⟨m, more, hmore, hlines⟩ := statements_renderLines d.lines hss
  cases m with
  | zero => exact nomatch hmore
  | succ m =>
    rw [← List.append_nil d.last.render] at hmore
    obtain ⟨last, hend, hlast⟩ := Closes.text.statements_line d.last hmore
    -- After the last line there are no more statements.
    have hnil : last = [] := by
      obtain hend | ⟨-, rfl⟩ := hend
      · cases m with
        | zero => exact nomatch hend
        | succ m => exact (Option.some.inj hend).symm
      · rfl
    obtain ⟨first, hfirst, rfl⟩ := Option.map_eq_some_iff.mp hlines
    obtain ⟨middle, hmiddle, rfl⟩ := Option.map_eq_some_iff.mp hlast
    rw [Document.items, List.mapM_append, hfirst, hmiddle]
    simp [hnil]

end KeyBridge.Plain
