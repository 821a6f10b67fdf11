import KeyBridge.Diagnostic.Log
import Mathlib.Data.List.Perm.Basic

/-!
# What becomes of diagnostics

Diagnostics are pushed into two logs, taken out of them one by one or a whole log at once, and moved
from one log into the other. Beside each log an account is kept of what has entered it, what has
left it and which dropped diagnostics its count stands for, and books are kept of the two accounts
and of all that came out. The logs do not depend on any of this.

## Main definitions

- `admitted`, `dropped`: of diagnostics offered to a log, those that enter it and those that
  find it full
- `Account`, `Books`: a log and two logs, with what has become of diagnostics
- `Account.Sound`, `Books.Balanced`: the accounts agree with the logs

## Key results

- `Account.Sound.offered`: a log that is offered diagnostics
- `Books.Balanced.push` and those after it: no operation loses a diagnostic
- `diagnostics_conserved`: every run of operations on two logs
-/

namespace KeyBridge

namespace Log

variable {l : Log} {d : Diagnostic} {ds : List Diagnostic}

/-! ## What a log gives out and takes in -/

/-- What is popped, with the rest after it, is what the log held. -/
theorem pop_append (l : Log) : l.entries = l.pop.1.toList ++ l.pop.2.entries := by
  unfold pop
  split
  · next h => rw [h]; rfl
  · next h => rw [h]; rfl

theorem lost_pop (l : Log) : l.pop.2.lost = l.lost := by
  unfold pop
  split <;> rfl

/-- The diagnostics that enter a log when it is offered several, one after the other. -/
def admitted (l : Log) : List Diagnostic → List Diagnostic
  | [] => []
  | d :: ds => (if l.entries.length = capacity then [] else [d]) ++ (l.push d).admitted ds

/-- The diagnostics that are offered to a log, one after the other, while it is full. -/
def dropped (l : Log) : List Diagnostic → List Diagnostic
  | [] => []
  | d :: ds => (if l.entries.length = capacity then [d] else []) ++ (l.push d).dropped ds

/-- Every diagnostic is in one of the two lists. -/
theorem count_admitted_add_dropped (l : Log) (ds : List Diagnostic) (x : Diagnostic) :
    (l.admitted ds).count x + (l.dropped ds).count x = ds.count x := by
  -- On the entries; a log that is full now stays full, and its count only goes up.
  induction ds generalizing l with
  | nil => rfl
  | cons d ds ih =>
    have hrest := ih (l.push d)
    have hcons : (d :: ds).count x = [d].count x + ds.count x := by
      rw [← List.singleton_append, List.count_append]
    simp only [admitted, dropped, List.count_append, hcons]
    split <;> rw [List.count_nil] <;> omega

/-- A full log counts a new entry as lost. -/
theorem push_of_full (h : l.entries.length = capacity) (d : Diagnostic) : l.push d = l.lose 1 :=
  if_neg (Nat.not_lt.mpr (Nat.le_of_eq h.symm))

/-- A log with room puts a new entry at its end. -/
theorem push_of_room (h : l.entries.length < capacity) (d : Diagnostic) :
    l.push d = { l with entries := l.entries ++ [d] } :=
  if_pos h

/-- A log does not outgrow its capacity with a push. -/
theorem length_push_le (h : l.entries.length ≤ capacity) (d : Diagnostic) :
    (l.push d).entries.length ≤ capacity := by
  rw [entries_push]
  split
  · rw [List.length_append, List.length_singleton]
    omega
  · exact h

/-- A log does not outgrow its capacity with several pushes. -/
theorem length_pushAll_le (h : l.entries.length ≤ capacity) (ds : List Diagnostic) :
    (l.pushAll ds).entries.length ≤ capacity := by
  induction ds generalizing l with
  | nil => exact h
  | cons d ds ih => exact ih (length_push_le h d)

/-- What a log admits comes after what it holds, in the order in which it was offered. -/
theorem entries_pushAll_eq_admitted (h : l.entries.length ≤ capacity) (ds : List Diagnostic) :
    (l.pushAll ds).entries = l.entries ++ l.admitted ds := by
  induction ds generalizing l with
  | nil => exact (List.append_nil _).symm
  | cons d ds ih =>
    rw [pushAll_cons, ih (length_push_le h d), admitted]
    split
    · next hfull => rw [push_of_full hfull]; rfl
    · next hroom =>
      rw [push_of_room (Nat.lt_of_le_of_ne h hroom), List.append_assoc]

/-- What a log drops is counted. -/
theorem lost_pushAll_eq_dropped (h : l.entries.length ≤ capacity) (hlost : l.lost ≤ maxLost)
    (ds : List Diagnostic) :
    (l.pushAll ds).lost = min maxLost (l.lost + (l.dropped ds).length) := by
  induction ds generalizing l with
  | nil => exact (Nat.min_eq_right hlost).symm
  | cons d ds ih =>
    rw [pushAll_cons]
    by_cases hfull : l.entries.length = capacity
    · have hpush : (l.push d).lost = min maxLost (l.lost + 1) := by rw [push_of_full hfull]; rfl
      rw [ih (length_push_le h d) (hpush ▸ Nat.min_le_left _ _), hpush, dropped, if_pos hfull,
        List.length_append, List.length_singleton]
      omega
    · have hpush : (l.push d).lost = l.lost := by
        rw [push_of_room (Nat.lt_of_le_of_ne h hfull)]
      rw [ih (length_push_le h d) (hpush ▸ hlost), hpush, dropped, if_neg hfull, List.nil_append]

/-! ## Accounts -/

/-- A log with what has become of its diagnostics. -/
structure Account where
  log : Log := .empty
  /-- The diagnostics that entered the log, in the order in which they did. -/
  entered : List Diagnostic := []
  /-- The diagnostics that left it again, in the order in which they did. -/
  departed : List Diagnostic := []
  /-- The dropped diagnostics that the count of the log stands for. -/
  missing : List Diagnostic := []
deriving DecidableEq, Repr

namespace Account

variable {a : Account}

/-- The account agrees with the log. -/
structure Sound (a : Account) : Prop where
  /-- No log holds more than it has room for. -/
  length_le : a.log.entries.length ≤ capacity
  /-- Diagnostics leave the log in the order in which they entered it. -/
  entered_eq : a.entered = a.departed ++ a.log.entries
  /-- The count is the true number as far as it goes, and then stays where it is. -/
  lost_eq : a.log.lost = min maxLost a.missing.length

/-- The account of a new log is sound. -/
theorem sound_new : ({} : Account).Sound where
  length_le := Nat.zero_le _
  entered_eq := rfl
  lost_eq := rfl

/-- The log is offered diagnostics. -/
theorem Sound.offered (h : a.Sound) (ds : List Diagnostic) :
    Sound { a with
      log := a.log.pushAll ds
      entered := a.entered ++ a.log.admitted ds
      missing := a.missing ++ a.log.dropped ds } where
  length_le := length_pushAll_le h.length_le ds
  entered_eq := by
    rw [entries_pushAll_eq_admitted h.length_le, h.entered_eq, List.append_assoc]
  lost_eq := by
    have hlost : a.log.lost ≤ maxLost := h.lost_eq ▸ Nat.min_le_left _ _
    rw [lost_pushAll_eq_dropped h.length_le hlost, h.lost_eq, List.length_append]
    omega

/-- The count of another log is added. -/
theorem Sound.lose (h : a.Sound) {n : Nat} {ds : List Diagnostic}
    (hn : n = min maxLost ds.length) :
    Sound { a with log := a.log.lose n, missing := a.missing ++ ds } where
  length_le := h.length_le
  entered_eq := h.entered_eq
  lost_eq := by
    have hlost := h.lost_eq
    simp only [Log.lose, List.length_append]
    omega

/-- The log gives up all that it has. -/
theorem Sound.emptied (h : a.Sound) :
    Sound { a with
      log := .empty
      departed := a.departed ++ a.log.entries
      missing := [] } where
  length_le := Nat.zero_le _
  entered_eq := h.entered_eq.trans (List.append_nil _).symm
  lost_eq := rfl

/-- The oldest diagnostic is taken out, if there is one. -/
theorem Sound.pop (h : a.Sound) :
    Sound { a with
      log := a.log.pop.2
      departed := a.departed ++ a.log.pop.1.toList } where
  length_le := by
    have hlength := h.length_le
    rw [a.log.pop_append] at hlength
    exact Nat.le_trans (Nat.le_add_left _ _) (List.length_append ▸ hlength)
  entered_eq := by rw [h.entered_eq, a.log.pop_append, List.append_assoc]
  lost_eq := (a.log.lost_pop).trans h.lost_eq

end Account

/-! ## Books -/

/-- Which of the two logs. -/
inductive Side where
  | first
  | second
deriving DecidableEq, Repr

/-- What can be done with one of two logs. -/
inductive Op where
  | push (d : Diagnostic)
  | pop
  | take
  /-- Everything is moved into the other log. -/
  | drain
deriving DecidableEq, Repr

/-- The diagnostic that an operation pushes. -/
def Op.pushed? : Op → Option Diagnostic
  | push d => some d
  | pop | take | drain => none

/-- Two logs with what has become of all diagnostics. -/
structure Books where
  first : Account := {}
  second : Account := {}
  /-- The diagnostics that were popped, from either log. -/
  popped : List Diagnostic := []
  /-- The logs that were taken, each with the dropped diagnostics that its count stands for. -/
  taken : List (Log × List Diagnostic) := []
  /-- The diagnostics that were dropped, by either log. -/
  dropped : List Diagnostic := []
deriving DecidableEq, Repr

namespace Books

variable {b : Books} {pushed : List Diagnostic}

/-- The account of one of the logs. -/
def account (b : Books) : Side → Account
  | .first => b.first
  | .second => b.second

/-- The two logs change places. -/
def swap (b : Books) : Books := { b with first := b.second, second := b.first }

/-- An operation on the first log. -/
def stepFirst (b : Books) : Op → Books
  | .push d =>
    { b with
      first := { b.first with
        log := b.first.log.push d
        entered := b.first.entered ++ b.first.log.admitted [d]
        missing := b.first.missing ++ b.first.log.dropped [d] }
      dropped := b.dropped ++ b.first.log.dropped [d] }
  | .pop =>
    let (d?, rest) := b.first.log.pop
    { b with
      first := { b.first with log := rest, departed := b.first.departed ++ d?.toList }
      popped := b.popped ++ d?.toList }
  | .take =>
    let (whole, rest) := b.first.log.take
    { b with
      first := { b.first with
        log := rest
        departed := b.first.departed ++ whole.entries
        missing := [] }
      taken := b.taken ++ [(whole, b.first.missing)] }
  | .drain =>
    let (source, destination) := b.first.log.drainInto b.second.log
    let moved := b.first.log.entries
    { b with
      first := { b.first with
        log := source
        departed := b.first.departed ++ moved
        missing := [] }
      second := { b.second with
        log := destination
        entered := b.second.entered ++ b.second.log.admitted moved
        missing := b.second.missing ++ b.second.log.dropped moved ++ b.first.missing }
      dropped := b.dropped ++ b.second.log.dropped moved }

/-- An operation on either log. -/
def step (b : Books) : Side × Op → Books
  | (.first, op) => b.stepFirst op
  | (.second, op) => (b.swap.stepFirst op).swap

/-- The books after a run of operations. -/
def run (b : Books) (ops : List (Side × Op)) : Books := ops.foldl step b

/-- The books say where every pushed diagnostic is. -/
structure Balanced (b : Books) (pushed : List Diagnostic) : Prop where
  first : b.first.Sound
  second : b.second.Sound
  /-- The count of a log that was taken is the true number, as far as it goes. -/
  taken : ∀ t ∈ b.taken, t.1.entries.length ≤ capacity ∧
    t.1.lost = min maxLost t.2.length
  /-- Each diagnostic is in one place. -/
  conserved : pushed.Perm
    (b.popped ++ b.taken.flatMap (·.1.entries) ++ b.first.log.entries ++ b.second.log.entries ++
      b.dropped)
  /-- Each dropped diagnostic is counted in one log. -/
  accounted : b.dropped.Perm (b.first.missing ++ b.second.missing ++ b.taken.flatMap Prod.snd)

/-- Both accounts of balanced books are sound. -/
theorem Balanced.account (h : b.Balanced pushed) (side : Side) : (b.account side).Sound := by
  cases side with
  | first => exact h.first
  | second => exact h.second

/-- New books are balanced, and nothing was pushed. -/
theorem balanced_new : ({} : Books).Balanced [] where
  first := Account.sound_new
  second := Account.sound_new
  taken := by rintro _ ⟨⟩
  conserved := .nil
  accounted := .nil

/-- Books stay balanced when the logs change places. -/
theorem Balanced.swap (h : b.Balanced pushed) : b.swap.Balanced pushed where
  first := h.second
  second := h.first
  taken := h.taken
  conserved := by
    refine h.conserved.trans (List.Perm.append_right _ ?_)
    simp only [List.append_assoc]
    exact (List.perm_append_comm.append_left _).append_left _
  accounted := h.accounted.trans (List.perm_append_comm.append_right _)

/-- Each diagnostic has been pushed as often as it is in any of the places. -/
theorem Balanced.count_pushed (h : b.Balanced pushed) (x : Diagnostic) :
    pushed.count x =
      b.popped.count x + (b.taken.flatMap (·.1.entries)).count x + b.first.log.entries.count x +
        b.second.log.entries.count x + b.dropped.count x := by
  simpa only [List.count_append] using List.perm_iff_count.mp h.conserved x

/-- How often an entry was dropped is found in what the logs miss and in the counts that were taken.
-/
theorem Balanced.count_dropped (h : b.Balanced pushed) (x : Diagnostic) :
    b.dropped.count x =
      b.first.missing.count x + b.second.missing.count x +
        (b.taken.flatMap Prod.snd).count x := by
  simpa only [List.count_append] using List.perm_iff_count.mp h.accounted x

/-- What is offered to the first log enters it or is dropped. -/
theorem Balanced.push (h : b.Balanced pushed) (d : Diagnostic) :
    (b.stepFirst (.push d)).Balanced (pushed ++ [d]) where
  first := h.first.offered [d]
  second := h.second
  taken := h.taken
  conserved := List.perm_iff_count.mpr fun x => by
    have hentries : (b.first.log.push d).entries =
        b.first.log.entries ++ b.first.log.admitted [d] :=
      entries_pushAll_eq_admitted h.first.length_le [d]
    -- An entry that is offered is admitted or dropped, so that the counts add up.
    have hoffered := b.first.log.count_admitted_add_dropped [d] x
    have hpushed := h.count_pushed x
    simp only [stepFirst, hentries, List.count_append]
    omega
  accounted := List.perm_iff_count.mpr fun x => by
    have hdropped := h.count_dropped x
    simp only [stepFirst, List.count_append]
    omega

/-- What leaves the first log is popped. -/
theorem Balanced.pop (h : b.Balanced pushed) : (b.stepFirst .pop).Balanced pushed where
  first := h.first.pop
  second := h.second
  taken := h.taken
  conserved := List.perm_iff_count.mpr fun x => by
    have hpushed := h.count_pushed x
    rw [b.first.log.pop_append, List.count_append] at hpushed
    simp only [stepFirst, List.count_append]
    omega
  accounted := h.accounted

/-- All that is in the first log is taken, with its count. -/
theorem Balanced.take (h : b.Balanced pushed) : (b.stepFirst .take).Balanced pushed where
  first := h.first.emptied
  second := h.second
  taken := by
    simp only [stepFirst, List.mem_append, List.mem_singleton]
    rintro t (ht | rfl)
    · exact h.taken t ht
    · exact ⟨h.first.length_le, h.first.lost_eq⟩
  conserved := List.perm_iff_count.mpr fun x => by
    have hpushed := h.count_pushed x
    simp only [stepFirst, Log.take, Log.empty, List.append_nil, List.flatMap_append,
      List.flatMap_singleton, List.count_append]
    omega
  accounted := List.perm_iff_count.mpr fun x => by
    have hdropped := h.count_dropped x
    simp only [stepFirst, List.nil_append, List.flatMap_append, List.flatMap_singleton,
      List.count_append]
    omega

/-- All that is in the first log is offered to the second, which takes over its count. -/
theorem Balanced.drain (h : b.Balanced pushed) : (b.stepFirst .drain).Balanced pushed where
  first := h.first.emptied
  second := (h.second.offered _).lose h.first.lost_eq
  taken := h.taken
  conserved := List.perm_iff_count.mpr fun x => by
    have hentries : (b.second.log.pushAll b.first.log.entries).entries =
        b.second.log.entries ++ b.second.log.admitted b.first.log.entries :=
      entries_pushAll_eq_admitted h.second.length_le _
    have hoffered := b.second.log.count_admitted_add_dropped b.first.log.entries x
    have hpushed := h.count_pushed x
    simp only [stepFirst, drainInto, empty, lose, hentries, List.append_nil, List.count_append]
    omega
  accounted := List.perm_iff_count.mpr fun x => by
    have hdropped := h.count_dropped x
    simp only [stepFirst, List.nil_append, List.count_append]
    omega

/-- No operation loses a diagnostic. -/
theorem Balanced.stepFirst (h : b.Balanced pushed) (op : Op) :
    (b.stepFirst op).Balanced (pushed ++ op.pushed?.toList) := by
  cases op with
  | push d => exact h.push d
  | pop => exact (List.append_nil pushed).symm ▸ h.pop
  | take => exact (List.append_nil pushed).symm ▸ h.take
  | drain => exact (List.append_nil pushed).symm ▸ h.drain

/-- An operation on either log keeps the books balanced. -/
theorem Balanced.step (h : b.Balanced pushed) (op : Side × Op) :
    (b.step op).Balanced (pushed ++ op.2.pushed?.toList) := by
  obtain ⟨side, op⟩ := op
  cases side with
  | first => exact h.stepFirst op
  | second => exact (h.swap.stepFirst op).swap

/-- A run of operations on both logs keeps the books balanced. -/
theorem Balanced.run (h : b.Balanced pushed) (ops : List (Side × Op)) :
    (b.run ops).Balanced (pushed ++ ops.filterMap (·.2.pushed?)) := by
  -- On the operations, with the books balanced before each of them.
  induction ops generalizing b pushed with
  | nil =>
    rw [List.filterMap_nil, List.append_nil]
    exact h
  | cons op ops ih =>
    have hcons : op.2.pushed?.toList ++ ops.filterMap (·.2.pushed?) =
        (op :: ops).filterMap (·.2.pushed?) := by
      rw [List.filterMap_cons]
      cases op.2.pushed? <;> rfl
    rw [← hcons, ← List.append_assoc]
    exact ih (h.step op)

end Books

/-- Two logs, new at first, after any run of operations. Every diagnostic that was pushed has been
popped or is in a log that was taken, or it is still in one of the logs, or else the log that it was
offered to, by a push or by moving the other log into it, held eight diagnostics at the time. The
counts of dropped diagnostics, those of the logs that were taken included, share out the dropped
ones among them and stop at 65535. What left a log and what is in it are what entered it, in this
order. A log that is moved leaves an empty one with the count zero, and what it held comes after
what the other one held, as far as there is room. -/
theorem diagnostics_conserved (ops : List (Side × Op)) :
    let b := ({} : Books).run ops
    (ops.filterMap (·.2.pushed?)).Perm
        (b.popped ++ b.taken.flatMap (·.1.entries) ++ b.first.log.entries ++ b.second.log.entries ++
          b.dropped) ∧
      b.dropped.Perm (b.first.missing ++ b.second.missing ++ b.taken.flatMap Prod.snd) ∧
      (∀ t ∈ b.taken, t.1.lost = min 65535 t.2.length) ∧
      ∀ side, let a := b.account side
        a.log.lost = min 65535 a.missing.length ∧
        a.log.entries.length ≤ 8 ∧
        a.entered = a.departed ++ a.log.entries ∧
        ∀ other, let (source, destination) := a.log.drainInto other
          source.entries = [] ∧ source.lost = 0 ∧
            destination.entries =
              other.entries ++ a.log.entries.take (8 - other.entries.length) := by
  intro b
  have h : b.Balanced (ops.filterMap (·.2.pushed?)) := Books.balanced_new.run ops
  refine ⟨h.conserved, h.accounted, fun t ht => (h.taken t ht).2, fun side => ?_⟩
  have hside := h.account side
  exact ⟨hside.lost_eq, hside.length_le, hside.entered_eq,
    fun other => ⟨rfl, rfl, entries_drainInto _ other⟩⟩

end Log

end KeyBridge
