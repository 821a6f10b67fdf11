import KeyBridge.Build.Script
import KeyBridge.Proofs.List
import Mathlib.Data.List.Forall2
import Mathlib.Data.List.Infix

/-!
# Which reports can be given

A report is a box with a row for each line. A line of more than 62 bytes is cut after 59 of them,
and there is no report if one of these cuts falls within a character. The lines of most problems are
written in ASCII throughout and can be cut anywhere. Three kinds of problems quote a text of the
configuration, and it depends on that text whether their lines can be cut.

## Main definitions

- `Fits`: a line that is short enough, or in which a character ends at byte 59
- `Shows`: what a row shows of a line
- `boxed`: the box around some rows
- `Problem.quoted?`: the text of the configuration that the line of a problem quotes

## Key results

- `takeBytes?_eq_some_iff`: when a text can be cut, and where
- `box?_eq_some_iff`: what is in a report
- `isAscii_message`: the line of a problem is in ASCII, unless it quotes something else
- `reported_iff`: the reports that can be given, for all lines and for all configurations
-/

namespace KeyBridge.Build

open Toml (Value)

variable {s t p line : List Char} {lines rows : List (List Char)} {config : Value} {q : Problem}
  {n : Nat}

/-! ## Cutting a text -/

@[simp] theorem byteLength_nil : byteLength [] = 0 := rfl

@[simp] theorem byteLength_cons (c : Char) (s : List Char) :
    byteLength (c :: s) = c.utf8Size + byteLength s := rfl

/-- A text has a beginning of `n` bytes exactly if a character ends there. -/
theorem takeBytes?_eq_some_iff : takeBytes? n s = some p ↔ p <+: s ∧ byteLength p = n := by
  fun_induction takeBytes? n s generalizing p with
  | case1 s =>
    -- Every character takes a byte, so that only the empty text has none.
    cases p with
    | nil => simp
    | cons c p =>
      have := c.utf8Size_pos
      simp only [Option.some.injEq, reduceCtorEq, byteLength_cons, false_iff, not_and]
      omega
  | case2 n =>
    simp only [reduceCtorEq, List.prefix_nil, false_iff, not_and]
    rintro rfl
    simp
  -- The character fits: the start goes on with the same character, in the bytes that are left.
  | case3 n c s hfits ih =>
    cases p with
    | nil => simp
    | cons d p =>
      rw [Option.map_eq_some_iff, List.cons_prefix_cons, byteLength_cons]
      constructor
      · rintro ⟨q, hq, ⟨⟩⟩
        obtain ⟨hstart, hlength⟩ := ih.mp hq
        exact ⟨⟨rfl, hstart⟩, by omega⟩
      · rintro ⟨⟨rfl, hstart⟩, hlength⟩
        exact ⟨p, ih.mpr ⟨hstart, by omega⟩, rfl⟩
  -- The character does not fit, so that no start ends where the bytes do.
  | case4 n c s hlong =>
    cases p with
    | nil => simp
    | cons d p =>
      rw [List.cons_prefix_cons, byteLength_cons]
      simp only [reduceCtorEq, false_iff, not_and, and_imp]
      rintro rfl -
      omega

/-! ## Rows -/

/-- A line that a row can show: it has 62 bytes at most, or a character ends at byte 59. -/
def Fits (line : List Char) : Prop :=
  byteLength line ≤ 62 ∨ ∃ p, p <+: line ∧ byteLength p = 59

/-- What a row shows of a line: all of it if it has 62 bytes at most, and otherwise the beginning
that has 59, with three points after it. -/
inductive Shows (line : List Char) : List Char → Prop where
  | whole (short : byteLength line ≤ 62) : Shows line line
  | cut {p : List Char} (long : 62 < byteLength line) (beginning : p <+: line)
      (length_eq : byteLength p = 59) : Shows line (p ++ "...".toList)

/-- What a row shows of a line, as a relation: the whole line, or its start and three dots. -/
theorem shown?_eq_some_iff : shown? line = some s ↔ Shows line s := by
  unfold shown? rowWidth
  split
  · next hlong =>
    simp only [Option.map_eq_some_iff, takeBytes?_eq_some_iff]
    constructor
    · rintro ⟨p, ⟨hstart, hlength⟩, rfl⟩
      exact .cut hlong hstart hlength
    -- A line that is too long is never shown whole.
    · rintro (hshort | ⟨-, hstart, hlength⟩)
      · omega
      · exact ⟨_, ⟨hstart, hlength⟩, rfl⟩
  · next hshort =>
    constructor
    · rintro ⟨⟩
      exact .whole (Nat.not_lt.mp hshort)
    · rintro (- | ⟨hlong, -, -⟩)
      · rfl
      · exact absurd hlong hshort

/-- A row can show a line exactly if it is short or can be cut at byte 59. -/
theorem exists_shows_iff : (∃ s, Shows line s) ↔ Fits line := by
  constructor
  · rintro ⟨s, hshort | ⟨-, hstart, hlength⟩⟩
    · exact .inl hshort
    · exact .inr ⟨_, hstart, hlength⟩
  · rintro (hshort | ⟨p, hstart, hlength⟩)
    · exact ⟨line, .whole hshort⟩
    · by_cases hshort : byteLength line ≤ 62
      · exact ⟨line, .whole hshort⟩
      · exact ⟨_, .cut (Nat.lt_of_not_le hshort) hstart hlength⟩

/-! ## The box -/

/-- The row that shows a text. -/
def rowOf (s : List Char) : List Char := "║  • ".toList ++ padRight rowWidth s ++ " ║".toList

/-- The report with a title and a row for each of some texts. -/
def boxed (title : List Char) (shown : List (List Char)) : List Char :=
  ['\n'] ++ rule '╔' '╗' ++ "\n║  ERROR: ".toList ++ padRight titleWidth title ++ " ║\n".toList ++
    rule '╠' '╣' ++ ['\n'] ++ ['\n'].intercalate (shown.map rowOf) ++ ['\n'] ++ rule '╚' '╝' ++
    ['\n']

/-- The rows are there if each of the lines can be shown. -/
theorem mapM_row?_eq_some_iff :
    lines.mapM row? = some rows ↔
      ∃ shown, List.Forall₂ Shows lines shown ∧ rows = shown.map rowOf := by
  -- On the lines: all of them can be shown, or the first one that cannot stops the report.
  induction lines generalizing rows with
  | nil =>
    simp only [List.mapM_nil, Option.pure_def, Option.some.injEq, List.forall₂_nil_left_iff,
      exists_eq_left, List.map_nil]
    exact eq_comm
  | cons line lines ih =>
    simp only [List.mapM_cons, Option.bind_eq_bind, Option.bind_eq_some_iff, Option.pure_def,
      Option.some.injEq, row?, Option.map_eq_some_iff, shown?_eq_some_iff]
    constructor
    · rintro ⟨_, ⟨s, hs, rfl⟩, rows, hrows, rfl⟩
      obtain ⟨shown, hshown, rfl⟩ := ih.mp hrows
      exact ⟨s :: shown, .cons hs hshown, rfl⟩
    · rintro ⟨_, hshown, rfl⟩
      obtain ⟨s, shown, hs, hrest, rfl⟩ := List.forall₂_cons_left_iff.mp hshown
      exact ⟨rowOf s, ⟨s, hs, rfl⟩, shown.map rowOf, ih.mpr ⟨shown, hrest, rfl⟩, rfl⟩

/-- A report has one row for each line, in order. -/
theorem box?_eq_some_iff {title text : List Char} :
    box? title lines = some text ↔
      ∃ shown, List.Forall₂ Shows lines shown ∧ text = boxed title shown := by
  rw [box?, Option.map_eq_some_iff]
  constructor
  · rintro ⟨rows, hrows, rfl⟩
    obtain ⟨shown, hshown, rfl⟩ := mapM_row?_eq_some_iff.mp hrows
    exact ⟨shown, hshown, rfl⟩
  · rintro ⟨shown, hshown, rfl⟩
    exact ⟨_, mapM_row?_eq_some_iff.mpr ⟨shown, hshown, rfl⟩, rfl⟩

/-- Rows can show all lines exactly if they can show each. -/
theorem exists_forall₂_shows_iff :
    (∃ shown, List.Forall₂ Shows lines shown) ↔ ∀ line ∈ lines, Fits line := by
  induction lines with
  | nil => simp
  | cons line lines ih =>
    rw [List.forall_mem_cons, ← ih, ← exists_shows_iff]
    constructor
    · rintro ⟨_, hall⟩
      obtain ⟨s, shown, hs, hshown, rfl⟩ := List.forall₂_cons_left_iff.mp hall
      exact ⟨⟨s, hs⟩, ⟨shown, hshown⟩⟩
    · rintro ⟨⟨s, hs⟩, ⟨shown, hshown⟩⟩
      exact ⟨s :: shown, .cons hs hshown⟩

/-- There is a report exactly if each line can be shown. -/
theorem isSome_box?_iff (title : List Char) (lines : List (List Char)) :
    (box? title lines).isSome ↔ ∀ line ∈ lines, Fits line := by
  rw [← exists_forall₂_shows_iff, Option.isSome_iff_exists]
  constructor
  · rintro ⟨text, htext⟩
    obtain ⟨shown, hshown, -⟩ := box?_eq_some_iff.mp htext
    exact ⟨shown, hshown⟩
  · rintro ⟨shown, hshown⟩
    exact ⟨_, box?_eq_some_iff.mpr ⟨shown, hshown, rfl⟩⟩

/-! ## Texts in ASCII -/

/-- Whether each character of a text takes one byte. -/
def IsAscii (s : List Char) : Prop := ∀ c ∈ s, c.utf8Size = 1

/-- It can be decided character by character. -/
instance : DecidablePred IsAscii := fun s =>
  decidable_of_iff (s.all fun c => c.utf8Size == 1) (by simp [IsAscii])

/-- Two texts of ASCII one after the other are ASCII. -/
theorem IsAscii.append (hs : IsAscii s) (ht : IsAscii t) : IsAscii (s ++ t) :=
  List.forall_mem_append.mpr ⟨hs, ht⟩

/-- A text of ASCII has as many bytes as characters. -/
theorem IsAscii.byteLength_eq (h : IsAscii s) : byteLength s = s.length := by
  induction s with
  | nil => rfl
  | cons c s ih =>
    obtain ⟨hc, hs⟩ := List.forall_mem_cons.mp h
    rw [byteLength_cons, List.length_cons, hc, ih hs]
    omega

/-- A text in ASCII can be cut anywhere. -/
theorem IsAscii.fits (h : IsAscii line) : Fits line := by
  by_cases hshort : byteLength line ≤ 62
  · exact .inl hshort
  · refine .inr ⟨line.take 59, List.take_prefix 59 line, ?_⟩
    have htake : IsAscii (line.take 59) := fun c hc => h c (List.mem_of_mem_take hc)
    rw [h.byteLength_eq] at hshort
    rw [htake.byteLength_eq, List.length_take]
    omega

/-- A digit takes one byte. -/
theorem utf8Size_of_isDigit {c : Char} (h : c.isDigit = true) : c.utf8Size = 1 := by
  have hmax : c.val ≤ 57 := by
    simp only [Char.isDigit, Bool.and_eq_true, decide_eq_true_eq] at h
    exact h.2
  have hascii : c.val ≤ 0x7F := UInt32.le_trans hmax (by decide)
  unfold Char.utf8Size
  exact if_pos hascii

/-- A number in decimal is ASCII. -/
theorem isAscii_decimal (n : Nat) : IsAscii (decimal n) := by
  intro c hc
  have hdigits : c ∈ Nat.toDigits 10 n := by simpa [decimal, Nat.repr] using hc
  exact utf8Size_of_isDigit (Nat.isDigit_of_mem_toDigits (by decide) (by decide) hdigits)

/-! ## Problems -/

/-- The text of the configuration that the line of a problem quotes. -/
def Problem.quoted? : Problem → Option (List Char)
  | unknownSection name | invalidPin name | unknownTimingKey name => some name
  | sectionNotTable _ | unknownProtocol | invalidCodeSet | pinNotString _ | clockNotAboveData _ _ |
    ledOnInterface _ | timingOutOfRange _ _ => none

/-- Whether a problem names nothing but what the check looks for, quoted texts apart. -/
def Problem.NamesKnown : Problem → Prop
  | sectionNotTable name => name ∈ sectionNames.map String.toList
  | pinNotString key => key ∈ ["data_pin", "clock_pin", "led_pin"].map String.toList
  | timingOutOfRange key _ => key ∈ timingLimits.map fun l => l.1.toList
  | unknownSection _ | unknownProtocol | invalidCodeSet | invalidPin _ | clockNotAboveData _ _ |
    ledOnInterface _ | unknownTimingKey _ => True

/-- The line of a problem is in ASCII if the text that it quotes is. -/
theorem isAscii_message (hknown : q.NamesKnown)
    (hquoted : ∀ name ∈ q.quoted?, IsAscii name) : IsAscii q.message := by
  cases q with
  | unknownSection name =>
    have hbefore : IsAscii "unknown section [".toList := by decide +kernel
    have hafter : IsAscii "]".toList := by decide +kernel
    exact (hbefore.append (hquoted name rfl)).append hafter
  -- The names in messages are those that are looked for, of which there are only a few.
  | sectionNotTable name =>
    have hname : ∀ name ∈ sectionNames.map String.toList, IsAscii name := by decide +kernel
    have hbefore : IsAscii "[".toList := by decide +kernel
    have hafter : IsAscii "] must be a table".toList := by decide +kernel
    exact (hbefore.append (hname name hknown)).append hafter
  | unknownProtocol =>
    have hwording : IsAscii Problem.unknownProtocol.message := by decide +kernel
    exact hwording
  | invalidCodeSet =>
    have hwording : IsAscii Problem.invalidCodeSet.message := by decide +kernel
    exact hwording
  | invalidPin name =>
    have hbefore : IsAscii "'".toList := by decide +kernel
    have hafter : IsAscii "' is not a valid pin (gpio0-gpio29)".toList := by decide +kernel
    exact (hbefore.append (hquoted name rfl)).append hafter
  | pinNotString key =>
    have hkey : ∀ key ∈ ["data_pin", "clock_pin", "led_pin"].map String.toList, IsAscii key := by
      decide +kernel
    have hafter : IsAscii " must be a string like \"gpio2\"".toList := by decide +kernel
    exact (hkey key hknown).append hafter
  | clockNotAboveData clock data =>
    have hclock : IsAscii "clock_pin (gpio".toList := by decide +kernel
    have hdata : IsAscii ") must be the GPIO above data_pin (gpio".toList := by decide +kernel
    have hafter : IsAscii ")".toList := by decide +kernel
    exact (((hclock.append (isAscii_decimal _)).append hdata).append (isAscii_decimal _)).append
      hafter
  | ledOnInterface led =>
    have hbefore : IsAscii "led_pin gpio".toList := by decide +kernel
    have hafter : IsAscii " is used by the interface".toList := by decide +kernel
    exact (hbefore.append (isAscii_decimal _)).append hafter
  | unknownTimingKey key =>
    have hbefore : IsAscii "[timing] unknown key '".toList := by decide +kernel
    have hafter : IsAscii "'".toList := by decide +kernel
    exact (hbefore.append (hquoted key rfl)).append hafter
  | timingOutOfRange key max =>
    have hkey : ∀ key ∈ timingLimits.map fun l => l.1.toList, IsAscii key := by decide +kernel
    have hbefore : IsAscii "[timing] ".toList := by decide +kernel
    have hrange : IsAscii " must be 1-".toList := by decide +kernel
    exact ((hbefore.append (hkey key hknown)).append hrange).append (isAscii_decimal _)

/-! ## The problems of a configuration -/

/-- A section that is no table has a known name. -/
theorem namesKnown_of_mem_sectionProblems (hq : q ∈ sectionProblems config) : q.NamesKnown := by
  obtain ⟨⟨name, v⟩, -, hproblem⟩ := List.mem_filterMap.mp hq
  unfold sectionProblem? at hproblem
  split at hproblem
  · cases hproblem
    trivial
  · next hname =>
    split at hproblem
    · cases hproblem
      show name ∈ sectionNames.map String.toList
      simpa using hname
    · cases hproblem

/-- A pin that is no string has a known key. -/
theorem namesKnown_of_mem_pinField {key : String}
    (hkey : key ∈ ["data_pin", "clock_pin", "led_pin"])
    (hq : q ∈ (pinField config key).2) : q.NamesKnown := by
  unfold pinField at hq
  split at hq
  · split at hq
    · cases hq
    · cases List.mem_singleton.mp hq
      trivial
  · cases List.mem_singleton.mp hq
    exact List.mem_map_of_mem hkey
  · cases hq

/-- A time that is out of range has a known key. -/
theorem namesKnown_of_mem_timingProblems (hq : q ∈ timingProblems config) : q.NamesKnown := by
  unfold timingProblems at hq
  split at hq
  · obtain ⟨⟨key, v⟩, -, hproblem⟩ := List.mem_filterMap.mp hq
    unfold timingProblem? at hproblem
    split at hproblem
    · cases hproblem
      trivial
    -- The key has a limit, so that it stands in the table of limits.
    · next name max hlimit =>
      have hkey : key ∈ timingLimits.map fun l => l.1.toList := by
        refine List.mem_map.mpr ⟨(name, max), List.mem_of_find?_eq_some hlimit, ?_⟩
        simpa using List.find?_some hlimit
      have hproblem : Problem.timingOutOfRange key max = q := by
        split at hproblem
        · split at hproblem
          · cases hproblem
          · exact Option.some.inj hproblem
        · exact Option.some.inj hproblem
      subst hproblem
      exact hkey
  · cases hq

/-- There is one problem that a protocol can have. -/
theorem eq_of_mem_protocolProblems {interface : Value} (hq : q ∈ protocolProblems interface) :
    q = .unknownProtocol := by
  grind [protocolProblems]

/-- There is one problem that a code set can have. -/
theorem eq_of_mem_codeSetProblems {interface : Value} (hq : q ∈ codeSetProblems interface) :
    q = .invalidCodeSet := by
  grind [codeSetProblems]

/-- The problems of `[interface]` name known keys. -/
theorem namesKnown_of_mem_interfaceProblems (hq : q ∈ interfaceProblems config) :
    q.NamesKnown := by
  unfold interfaceProblems at hq
  split at hq
  · cases hq
  · next interface _ =>
    simp only [List.mem_append] at hq
    -- The problems come in the order in which the keys are looked at.
    obtain ((((hprotocol | hcodeSet) | hdata) | hclock) | horder) | hled := hq
    · obtain rfl := eq_of_mem_protocolProblems hprotocol
      trivial
    · obtain rfl := eq_of_mem_codeSetProblems hcodeSet
      trivial
    · exact namesKnown_of_mem_pinField (by decide) hdata
    · exact namesKnown_of_mem_pinField (by decide) hclock
    · split at horder
      · cases horder
      · cases List.mem_singleton.mp horder
        trivial
    · split at hled
      · split at hled
        · cases List.mem_singleton.mp hled
          trivial
        · cases hled
      · cases hled

/-- The problems of `[status]` name known keys. -/
theorem namesKnown_of_mem_statusProblems (hq : q ∈ statusProblems config) : q.NamesKnown := by
  unfold statusProblems at hq
  split at hq
  · exact namesKnown_of_mem_pinField (by decide) hq
  · cases hq

/-- What the problems of a configuration quote is all that they take from it. -/
theorem namesKnown_of_mem_problems (hq : q ∈ problems config) : q.NamesKnown := by
  unfold problems at hq
  simp only [List.mem_append] at hq
  obtain ((hsection | hinterface) | htiming) | hstatus := hq
  · exact namesKnown_of_mem_sectionProblems hsection
  · exact namesKnown_of_mem_interfaceProblems hinterface
  · exact namesKnown_of_mem_timingProblems htiming
  · exact namesKnown_of_mem_statusProblems hstatus

/-- The problems of a configuration can be reported if the lines that quote it can be shown. -/
theorem isSome_report?_iff (config : Value) :
    (Failure.refused (problems config)).report?.isSome ↔
      ∀ q ∈ problems config, ∀ name ∈ q.quoted?, Fits q.message := by
  show (box? _ ((problems config).map Problem.message)).isSome ↔ _
  rw [isSome_box?_iff, List.forall_mem_map]
  constructor
  · intro hfits q hq name hname
    exact hfits q hq
  · intro hfits q hq
    cases hquoted : q.quoted? with
    | some name => exact hfits q hq name hquoted
    | none =>
      -- With nothing quoted, the line is in ASCII throughout.
      have hascii : IsAscii q.message := by
        refine isAscii_message (namesKnown_of_mem_problems hq) fun name hname => ?_
        rw [hquoted] at hname
        exact nomatch hname
      exact hascii.fits

/-- There is a report exactly if no line would be cut within a character. It has a row for each
line, which shows the line or its beginning. The problems of a configuration can be reported if that
is so of the lines that quote it. -/
theorem reported_iff (title : List Char) (lines : List (List Char)) :
    ((box? title lines).isSome ↔ ∀ line ∈ lines, Fits line) ∧
      (∀ text, box? title lines = some text ↔
        ∃ shown, List.Forall₂ Shows lines shown ∧ text = boxed title shown) ∧
      ∀ config, (Failure.refused (problems config)).report?.isSome ↔
        ∀ q ∈ problems config, ∀ name ∈ q.quoted?, Fits q.message :=
  ⟨isSome_box?_iff title lines, fun _ => box?_eq_some_iff, isSome_report?_iff⟩

/-- An interface whose data pin has a name of 20 characters of three bytes each. -/
def euroPin : Value :=
  .table .header [("interface".toList,
    .table .header [("data_pin".toList, .string (List.replicate 20 '€'))])]

/-- Byte 59 of the line that quotes the name falls into one of its characters. -/
theorem not_reported :
    problems euroPin = [.invalidPin (List.replicate 20 '€')] ∧
      (Failure.refused (problems euroPin)).report? = none := by
  have hproblems : problems euroPin = [.invalidPin (List.replicate 20 '€')] := by decide +kernel
  constructor
  · exact hproblems
  · rw [hproblems]
    decide +kernel

end KeyBridge.Build
