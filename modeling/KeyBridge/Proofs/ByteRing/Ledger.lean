import KeyBridge.Proofs.ByteRing.Queue

/-!
# What becomes of the bytes that are put into a ring

Each byte that a ring is offered has one fate: it is read, it still waits, it is dropped when the
ring is emptied, or it finds no room. A ledger lists the bytes in the order in which they were
offered, each with its fate, so that no byte is lost and none counts twice.

## Main definitions

- `Fate`, `bytesOf`: what can become of a byte, and the bytes of a ledger with one fate
- `droppedBy`: the bytes that are waiting when a ring is emptied
- `Balances`: a ledger that agrees with what a ring answers

## Key results

- `exists_balance`: there is such a ledger for a queue
- `exists_ledger`: and so there is one for a ring that never discards `2^w` times without reading
-/

namespace KeyBridge.ByteRing

variable {w : Nat} {r : ByteRing w} {q : List UInt8} {n d : Nat}

/-! ## Fates -/

/-- What can become of a byte that a ring is offered. -/
inductive Fate where
  | read
  | waiting
  | dropped
  | refused
deriving DecidableEq, Repr

/-- The bytes of a ledger with one fate, in order. -/
def bytesOf (fate : Fate) (ledger : List (UInt8 × Fate)) : List UInt8 :=
  (ledger.filter (·.2 = fate)).map Prod.fst

@[simp] theorem bytesOf_nil (fate : Fate) : bytesOf fate [] = [] := rfl

/-- The first line of a ledger counts if it has the fate. -/
theorem bytesOf_cons (fate fate' : Fate) (b : UInt8) (ledger : List (UInt8 × Fate)) :
    bytesOf fate ((b, fate') :: ledger) =
      if fate' = fate then b :: bytesOf fate ledger else bytesOf fate ledger := by
  by_cases h : fate' = fate <;> simp [bytesOf, h]

/-- The bytes of two ledgers with a fate come one after the other. -/
theorem bytesOf_append (fate : Fate) (ledger ledger' : List (UInt8 × Fate)) :
    bytesOf fate (ledger ++ ledger') = bytesOf fate ledger ++ bytesOf fate ledger' := by
  simp [bytesOf]

/-- Bytes that all have the same fate. -/
theorem bytesOf_map (fate fate' : Fate) (bs : List UInt8) :
    bytesOf fate (bs.map (·, fate')) = if fate' = fate then bs else [] := by
  induction bs with
  | nil => simp
  | cons b bs ih =>
    rw [List.map_cons, bytesOf_cons, ih]
    split <;> rfl

/-! ## Operations -/

/-- The byte that an operation offers. -/
def Op.byte? : Op → Option UInt8
  | put b => some b
  | get | discard | reset => none

/-- Whether an operation empties the ring. -/
def Op.empties : Op → Bool
  | discard | reset => true
  | put _ | get => false

/-- The byte that was read. -/
def Reply.read? : Reply → Option UInt8
  | taken b => b
  | accepted | refused _ | done => none

/-- The byte for which there was no room. -/
def Reply.refused? : Reply → Option UInt8
  | refused b => some b
  | accepted | taken _ | done => none

/-- The bytes that are waiting when operations empty a ring. -/
def droppedBy {σ : Type} (step : σ → Op → σ × Reply) (contents : σ → List UInt8) (s : σ) :
    List Op → List UInt8
  | [] => []
  | op :: ops =>
    (if op.empties then contents s else []) ++ droppedBy step contents (step s op).1 ops

/-! ## Ledgers -/

/-- A ledger says what operations have come to: what they have read, dropped and refused, and what
is left. -/
structure Balances (ledger : List (UInt8 × Fate)) (replies : List Reply)
    (left dropped : List UInt8) : Prop where
  read_eq : bytesOf .read ledger = replies.filterMap Reply.read?
  waiting_eq : bytesOf .waiting ledger = left
  dropped_eq : bytesOf .dropped ledger = dropped
  refused_eq : bytesOf .refused ledger = replies.filterMap Reply.refused?

section

variable {ledger old new : List (UInt8 × Fate)} {replies : List Reply} {left dropped : List UInt8}

/-- A reply that is about no byte changes nothing. -/
theorem Balances.idle (h : Balances ledger replies left dropped) {reply : Reply}
    (hread : reply.read? = none) (hrefused : reply.refused? = none) :
    Balances ledger (reply :: replies) left dropped where
  read_eq := by rw [List.filterMap_cons_none hread, h.read_eq]
  waiting_eq := h.waiting_eq
  dropped_eq := h.dropped_eq
  refused_eq := by rw [List.filterMap_cons_none hrefused, h.refused_eq]

/-- A refused byte comes after those that have found room. -/
theorem Balances.refuse (h : Balances (old ++ new) replies left dropped)
    (hroom : bytesOf .refused old = []) (b : UInt8) :
    Balances (old ++ (b, .refused) :: new) (.refused b :: replies) left dropped := by
  obtain ⟨hread, hwaiting, hdropped, hrefused⟩ := h
  rw [bytesOf_append] at hread hwaiting hdropped hrefused
  rw [hroom, List.nil_append] at hrefused
  constructor <;> rw [bytesOf_append, bytesOf_cons]
  · exact hread
  · exact hwaiting
  · exact hdropped
  · rw [hroom, hrefused]
    rfl

/-- A byte that is read goes into the ledger and into the replies. -/
theorem Balances.read (h : Balances ledger replies left dropped) (b : UInt8) :
    Balances ((b, .read) :: ledger) (.taken (some b) :: replies) left dropped := by
  refine ⟨?_, h.waiting_eq, h.dropped_eq, h.refused_eq⟩
  rw [bytesOf_cons, h.read_eq]
  rfl

/-- All that was in the queue is dropped. -/
theorem Balances.empty (h : Balances ledger replies left dropped) (q : List UInt8) :
    Balances (q.map (·, .dropped) ++ ledger) (.done :: replies) left (q ++ dropped) := by
  constructor <;> rw [bytesOf_append, bytesOf_map]
  · exact h.read_eq
  · exact h.waiting_eq
  · rw [h.dropped_eq]
    rfl
  · exact h.refused_eq

end

/-- The bytes in a queue and those that it is offered have one fate each. Those in the queue come
first; they have found room already. -/
theorem exists_balance (q : List UInt8) (ops : List Op) :
    ∃ old new : List (UInt8 × Fate),
      old.map Prod.fst = q ∧ bytesOf .refused old = [] ∧ new.map Prod.fst = ops.filterMap Op.byte? ∧
      Balances (old ++ new) (performAll onQueue q ops).2 (performAll onQueue q ops).1
        (droppedBy onQueue id q ops) := by
  induction ops generalizing q with
  | nil =>
    -- Without operations, all that is in the queue waits.
    refine ⟨q.map (·, .waiting), [], by simp [Function.comp_def], by simp [bytesOf_map], rfl, ?_⟩
    constructor <;> simp [bytesOf_map, performAll, droppedBy]
  | cons op ops ih =>
    obtain ⟨old, new, hold, hroom, hnew, hbalance⟩ := ih (onQueue q op).1
    cases op with
    | put b =>
      by_cases hlt : q.length < capacity
      -- The byte is the last one in the queue now, and has its fate from there.
      · have hput : onQueue q (.put b) = (q ++ [b], .accepted) := if_pos hlt
        rw [hput] at hold hbalance
        obtain ⟨old', last, rfl, rfl, hlast⟩ := List.map_eq_append_iff.mp hold
        obtain ⟨⟨b, fate⟩, rfl, rfl⟩ := List.map_eq_singleton_iff.mp hlast
        rw [bytesOf_append, List.append_eq_nil_iff] at hroom
        rw [List.append_assoc, List.singleton_append] at hbalance
        refine ⟨old', (b, fate) :: new, rfl, hroom.1, congrArg (b :: ·) hnew, ?_⟩
        rw [performAll, droppedBy, hput]
        exact hbalance.idle rfl rfl
      -- It is refused, and the queue stays as it is.
      · have hput : onQueue q (.put b) = (q, .refused b) := if_neg hlt
        rw [hput] at hold hbalance
        refine ⟨old, (b, .refused) :: new, hold, hroom, congrArg (b :: ·) hnew, ?_⟩
        rw [performAll, droppedBy, hput]
        exact hbalance.refuse hroom b
    | get =>
      -- The first byte in the queue is read, if there is one.
      cases q with
      | nil => exact ⟨old, new, hold, hroom, hnew, hbalance.idle rfl rfl⟩
      | cons b q =>
        refine ⟨(b, .read) :: old, new, congrArg (b :: ·) hold, ?_, hnew, hbalance.read b⟩
        rw [bytesOf_cons]
        exact hroom
    | discard | reset =>
      -- The rest is about an empty queue.
      obtain rfl : old = [] := List.map_eq_nil_iff.mp hold
      refine ⟨q.map (·, .dropped), new, by simp [Function.comp_def], ?_, hnew, hbalance.empty q⟩
      rw [bytesOf_map]
      rfl

/-- A ring that does what a queue does drops the same bytes. -/
theorem Simulates.droppedBy_eq (h : Simulates r q n d) (ops : List Op) (hops : Attended w n ops) :
    droppedBy apply contents r ops = droppedBy onQueue id q ops := by
  induction ops generalizing r q n d with
  | nil => rfl
  | cons op ops ih => rw [droppedBy, droppedBy, ih (h.step op hops.tail.lt).1 hops.tail,
      h.contents_eq, id]

/-- Each byte that a fresh ring is offered has one fate, as long as there are never `2^w` discards
without a `get` or `reset` in between. -/
theorem exists_ledger (ops : List Op) (hops : Attended w 0 ops) :
    ∃ ledger : List (UInt8 × Fate), ledger.map Prod.fst = ops.filterMap Op.byte? ∧
      Balances ledger (performAll apply (empty : ByteRing w) ops).2
        (performAll apply (empty : ByteRing w) ops).1.contents
        (droppedBy apply contents (empty : ByteRing w) ops) := by
  obtain ⟨old, ledger, hold, -, hledger, hbalance⟩ := exists_balance [] ops
  obtain rfl : old = [] := List.map_eq_nil_iff.mp hold
  obtain ⟨hsim, hreplies⟩ := simulates_empty.performAll ops hops
  refine ⟨ledger, hledger, ?_⟩
  rw [hreplies, hsim.contents_eq, simulates_empty.droppedBy_eq ops hops]
  exact hbalance

end KeyBridge.ByteRing
