import KeyBridge.Diagnostic

/-!
# Diagnostic logs

A log holds a few diagnostics, oldest first. When it is full a new one is dropped and counted; the
count stops at its highest value.

* `entries_push`, `lost_push` — what a push does to the two parts of a log;
* `entries_drainInto` — what moving one log into another does to the entries.
-/

namespace KeyBridge

/-- A bounded queue of diagnostics with the number of those it had no room for. -/
structure Log where
  /-- The pending diagnostics, oldest first. -/
  entries : List Diagnostic := []
  /-- How many diagnostics were dropped. -/
  lost : Nat := 0
deriving DecidableEq, Repr

namespace Log

/-- How many diagnostics a log holds. -/
def capacity : Nat := 8

/-- Where the count of dropped diagnostics stops. -/
def maxLost : Nat := 65535

/-- The empty log. -/
def empty : Log := {}

/-- Adds to the count of dropped diagnostics. -/
def lose (l : Log) (n : Nat) : Log := { l with lost := min maxLost (l.lost + n) }

/-- Records a diagnostic. -/
def push (l : Log) (d : Diagnostic) : Log :=
  if l.entries.length < capacity then { l with entries := l.entries ++ [d] } else l.lose 1

/-- Records several diagnostics one after the other. -/
def pushAll (l : Log) (ds : List Diagnostic) : Log := ds.foldl push l

/-- Takes the oldest diagnostic out. -/
def pop (l : Log) : Option Diagnostic × Log :=
  match l.entries with
  | [] => (none, l)
  | d :: ds => (some d, { l with entries := ds })

/-- Takes the whole log, count and all, and leaves an empty one. -/
def take (l : Log) : Log × Log := (l, empty)

/-- Moves everything into another log, the count included. The result is the source, now empty,
and the destination. -/
def drainInto (source destination : Log) : Log × Log :=
  (empty, (destination.pushAll source.entries).lose source.lost)

theorem entries_push (l : Log) (d : Diagnostic) :
    (l.push d).entries = if l.entries.length < capacity then l.entries ++ [d] else l.entries := by
  unfold push
  split <;> rfl

theorem lost_push (l : Log) (d : Diagnostic) :
    (l.push d).lost =
      if l.entries.length < capacity then l.lost else min maxLost (l.lost + 1) := by
  unfold push
  split <;> rfl

@[simp] theorem pushAll_nil (l : Log) : l.pushAll [] = l := rfl

@[simp] theorem pushAll_cons (l : Log) (d : Diagnostic) (ds : List Diagnostic) :
    l.pushAll (d :: ds) = (l.push d).pushAll ds := rfl

theorem pushAll_append (l : Log) (ds es : List Diagnostic) :
    l.pushAll (ds ++ es) = (l.pushAll ds).pushAll es := by
  simp [pushAll]

/-- Of several diagnostics a log keeps as many as it has room for, in their order. -/
theorem entries_pushAll (l : Log) (ds : List Diagnostic) :
    (l.pushAll ds).entries = l.entries ++ ds.take (capacity - l.entries.length) := by
  induction ds generalizing l with
  | nil => simp
  | cons d ds ih =>
    rw [pushAll_cons, ih, entries_push]
    split
    · next h =>
      obtain ⟨n, hn⟩ : ∃ n, capacity - l.entries.length = n + 1 :=
        ⟨capacity - l.entries.length - 1, by omega⟩
      have hl : capacity - (l.entries ++ [d]).length = n := by
        rw [List.length_append, List.length_singleton]; omega
      rw [hl, hn, List.take_succ_cons, List.append_assoc, List.singleton_append]
    · next h =>
      have hz : capacity - l.entries.length = 0 := by omega
      rw [hz, List.take_zero, List.take_zero]

/-- The destination keeps its own entries and takes as many more as it has room for. -/
theorem entries_drainInto (source destination : Log) :
    (source.drainInto destination).2.entries =
      destination.entries ++ source.entries.take (capacity - destination.entries.length) :=
  entries_pushAll destination source.entries

end Log

end KeyBridge
