import KeyBridge.Proofs.ByteRing.Invariant

/-!
# Rings refine bounded queues

A ring answers every sequence of operations as a queue of at most `capacity` bytes does. `Op` names
the operations and `Reply` what they answer; `apply` performs one on a ring and `onQueue` on a
queue. Both are run by the same `performAll`, so that the two sides differ in one step only.

## Key results

- `sound_performAll`: sound positions and a known lag after every sequence of operations
- `Simulates.step`: one operation keeps a ring and a queue together and gives equal replies
- `performAll_agrees`: so does every sequence that never discards `2^w` times without reading
-/

namespace KeyBridge.ByteRing

variable {w : Nat} {r : ByteRing w} {q : List UInt8} {n d : Nat}

/-! ## Operations -/

/-- What can be done with a ring. -/
inductive Op where
  | put (byte : UInt8)
  | get
  | discard
  | reset
deriving DecidableEq, Repr

/-- What an operation answers. -/
inductive Reply where
  | accepted
  /-- There was no room for a byte. -/
  | refused (byte : UInt8)
  /-- The byte that was read, if there was one. -/
  | taken (byte? : Option UInt8)
  | done
deriving DecidableEq, Repr

/-- Performs an operation on a ring. -/
def apply (r : ByteRing w) : Op → ByteRing w × Reply
  | .put b => ((r.put b).1, if (r.put b).2 then .accepted else .refused b)
  | .get => (r.get.2, .taken r.get.1)
  | .discard => (r.discard, .done)
  | .reset => (r.reset, .done)

/-- Performs an operation on a queue, which holds at most `capacity` bytes. -/
def onQueue (q : List UInt8) : Op → List UInt8 × Reply
  | .put b => if q.length < capacity then (q ++ [b], .accepted) else (q, .refused b)
  | .get => (q.tail, .taken q.head?)
  | .discard | .reset => ([], .done)

/-- Performs operations one after the other and collects the replies. -/
def performAll {σ : Type} (step : σ → Op → σ × Reply) (s : σ) : List Op → σ × List Reply
  | [] => (s, [])
  | op :: ops =>
    let rest := performAll step (step s op).1 ops
    (rest.1, (step s op).2 :: rest.2)

/-- The slots that an operation reads or writes. -/
def slotsUsed (r : ByteRing w) : Op → List Nat
  | .put _ => if r.isFull then [] else [r.head]
  | .get => if r.settle.tail = r.head then [] else [r.settle.tail]
  | .discard | .reset => []

/-- How many discards there have been since the ring was last read, after one more operation. -/
def Op.unread (n : Nat) : Op → Nat
  | .put _ => n
  | .discard => n + 1
  | .get | .reset => 0

/-- At no point of a sequence have there been `2^w` discards since the ring was last read; `n` is
their number at its beginning. -/
def Attended (w n : Nat) (ops : List Op) : Prop :=
  ∀ pre, pre <+: ops → pre.foldl Op.unread n < 2 ^ w

/-- An operation adds at most one discard to those that the reader has to notice. -/
theorem Op.unread_le (n : Nat) (op : Op) : op.unread n ≤ n + 1 := by
  cases op <;> simp [Op.unread]

/-- There are no more discards to notice than there were operations. -/
theorem unread_foldl_le (n : Nat) (ops : List Op) :
    ops.foldl Op.unread n ≤ n + ops.length := by
  induction ops generalizing n with
  | nil => simp
  | cons op ops ih =>
    have h := op.unread_le n
    have := ih (op.unread n)
    simp only [List.foldl_cons, List.length_cons]
    omega

/-- Fewer than `2^w` operations cannot discard too often. -/
theorem attended_of_length_lt {ops : List Op} (h : ops.length < 2 ^ w) : Attended w 0 ops := by
  intro pre hpre
  have := unread_foldl_le 0 pre
  have := hpre.length_le
  omega

/-- An attended run begins with fewer than `2^w` discards. -/
theorem Attended.lt {ops : List Op} (h : Attended w n ops) : n < 2 ^ w := h [] (List.nil_prefix)

/-- The rest of an attended run is attended. -/
theorem Attended.tail {op : Op} {ops : List Op} (h : Attended w n (op :: ops)) :
    Attended w (op.unread n) ops :=
  fun pre hpre => h (op :: pre) (List.cons_prefix_cons.mpr ⟨rfl, hpre⟩)

/-- Both parts of an attended run are attended. -/
theorem Attended.append {ops ops' : List Op} (h : Attended w n (ops ++ ops')) :
    Attended w n ops ∧ Attended w (ops.foldl Op.unread n) ops' := by
  refine ⟨fun pre hpre => h pre (hpre.trans (List.prefix_append ops ops')), fun pre hpre => ?_⟩
  have := h (ops ++ pre) ((List.prefix_append_right_inj ops).mpr hpre)
  rwa [List.foldl_append] at this

/-! ## Runs -/

/-- Operations can be performed in two parts, and the replies come one after the other. -/
theorem performAll_append {σ : Type} (step : σ → Op → σ × Reply) (s : σ) (ops ops' : List Op) :
    performAll step s (ops ++ ops') =
      ((performAll step (performAll step s ops).1 ops').1,
        (performAll step s ops).2 ++ (performAll step (performAll step s ops).1 ops').2) := by
  induction ops generalizing s with
  | nil => rfl
  | cons op ops ih => simp only [List.cons_append, performAll, ih]

/-- A ring in use has sound positions, and its tail accounts for all discards but those since the
last read. -/
theorem sound_performAll (ops : List Op) (hv : r.Valid) (hl : r.Lag n) :
    (performAll apply r ops).1.Valid ∧ (performAll apply r ops).1.Lag (ops.foldl Op.unread n) := by
  induction ops generalizing r n with
  | nil => exact ⟨hv, hl⟩
  | cons op ops ih =>
    cases op with
    | put b => exact ih (hv.put b) (hl.put b)
    | get => exact ih hv.get (lag_get r)
    | discard => exact ih hv.discard hl.discard
    | reset => exact ih hv.reset (lag_reset r)

/-! ## Simulation -/

/-- A ring and a queue hold the same bytes, after `d` discards of which `n` are not accounted for by
the tail. -/
structure Simulates (r : ByteRing w) (q : List UInt8) (n d : Nat) : Prop where
  valid : r.Valid
  contents_eq : r.contents = q
  lag : Lag r n
  generation_eq : r.generation = BitVec.ofNat w d

/-- The empty ring simulates the empty queue. -/
theorem simulates_empty : Simulates (empty : ByteRing w) [] 0 0 where
  valid := valid_empty
  contents_eq := contents_empty
  lag := lag_empty
  generation_eq := by simp [empty]

/-- `put` does to the ring what it does to the queue, with the same reply. -/
theorem Simulates.put (h : Simulates r q n d) (b : UInt8) :
    Simulates (r.apply (.put b)).1 (onQueue q (.put b)).1 n d ∧
      (r.apply (.put b)).2 = (onQueue q (.put b)).2 := by
  have hle := r.length_le
  have hnone := h.valid.put?_eq_none_iff (b := b)
  rw [← length_contents, h.contents_eq] at hle
  rw [h.contents_eq] at hnone
  cases hput : r.put? b with
  | none =>
    -- The ring refuses just when the queue is full.
    simp only [apply, onQueue, put_of_put?_eq_none hput]
    rw [if_neg (by have := hnone.mp hput; omega)]
    exact ⟨h, rfl⟩
  | some r' =>
    have hlt : q.length < capacity :=
      Nat.lt_of_le_of_ne hle fun he => by simp [hnone.mpr he] at hput
    simp only [apply, onQueue, put_of_put?_eq_some hput, if_pos hlt]
    refine ⟨⟨h.valid.put? hput, ?_, h.lag.put? hput, ?_⟩, rfl⟩
    · rw [h.valid.contents_put? hput, h.contents_eq]
    · rw [generation_put? hput, h.generation_eq]

/-- `get` does to the ring what it does to the queue, with the same reply. -/
theorem Simulates.get (h : Simulates r q n d) :
    Simulates (r.apply .get).1 (onQueue q .get).1 0 d ∧
      (r.apply .get).2 = (onQueue q .get).2 := by
  obtain ⟨hbyte, hrest⟩ := h.valid.get_eq
  rw [h.contents_eq] at hbyte hrest
  refine ⟨⟨h.valid.get, hrest, lag_get r, ?_⟩, congrArg Reply.taken hbyte⟩
  rw [← h.generation_eq]
  exact generation_get r

/-- `discard` empties ring and queue, as long as the counters do not meet. -/
theorem Simulates.discard (h : Simulates r q n d) (hw : n + 1 < 2 ^ w) :
    Simulates r.discard [] (n + 1) (d + 1) where
  valid := h.valid.discard
  contents_eq := h.lag.contents_discard h.valid hw
  lag := h.lag.discard
  generation_eq := by
    rw [BitVec.ofNat_add, ← h.generation_eq]
    rfl

/-- `reset` empties ring and queue. -/
theorem Simulates.reset (h : Simulates r q n d) : Simulates r.reset [] 0 d where
  valid := h.valid.reset
  contents_eq := h.valid.contents_reset
  lag := lag_reset r
  generation_eq := h.generation_eq

/-- One operation keeps a ring and a queue together and gives equal replies. -/
theorem Simulates.step (h : Simulates r q n d) (op : Op) (hw : op.unread n < 2 ^ w) :
    Simulates (r.apply op).1 (onQueue q op).1 (op.unread n) (d + [op].count .discard) ∧
      (r.apply op).2 = (onQueue q op).2 := by
  cases op with
  | put b => exact h.put b
  | get => exact h.get
  | discard => exact ⟨h.discard hw, rfl⟩
  | reset => exact ⟨h.reset, rfl⟩

/-- A sequence of operations keeps a ring and a queue together and gives equal replies. -/
theorem Simulates.performAll (h : Simulates r q n d) (ops : List Op) (hops : Attended w n ops) :
    Simulates (performAll apply r ops).1 (performAll onQueue q ops).1
        (ops.foldl Op.unread n) (d + ops.count .discard) ∧
      (performAll apply r ops).2 = (performAll onQueue q ops).2 := by
  induction ops generalizing r q n d with
  | nil => exact ⟨h, rfl⟩
  | cons op ops ih =>
    -- The bound after one operation is that of the shortest prefix of the rest.
    obtain ⟨hsim, hreply⟩ := h.step op hops.tail.lt
    obtain ⟨hrest, hreplies⟩ := ih hsim hops.tail
    refine ⟨?_, ?_⟩
    -- The discards of the first operation and of the rest add up.
    · rw [Nat.add_assoc, ← List.count_append] at hrest
      exact hrest
    · simp only [ByteRing.performAll, hreply, hreplies]

/-! ## Refinement -/

/-- Everything that can be asked of a ring after `d` discards is as the queue says. -/
structure Agrees (r : ByteRing w) (q : List UInt8) (d : Nat) : Prop where
  length_le : q.length ≤ 31
  contents_eq : r.contents = q
  length_eq : r.length = q.length
  isEmpty_iff : r.isEmpty ↔ q = []
  isFull_iff : r.isFull ↔ q.length = 31
  /-- A refused byte changes nothing. -/
  put_of_full : q.length = 31 → ∀ b, r.put b = (r, false)
  generation_eq : r.generation.toNat = d % 2 ^ w
  slots_lt : ∀ op, ∀ i ∈ r.slotsUsed op, i < 32

/-- All that can be seen of a ring is that of the queue that it simulates. -/
theorem Simulates.agrees (h : Simulates r q n d) : Agrees r q d := by
  have hlen : r.length = q.length := by rw [← length_contents, h.contents_eq]
  refine ⟨hlen ▸ r.length_le, h.contents_eq, hlen, ?_, ?_, ?_, ?_, ?_⟩
  · rw [h.valid.isEmpty_iff, hlen, List.length_eq_zero_iff]
  · rw [h.valid.isFull_iff, hlen]
    rfl
  · intro hfull b
    exact put_of_put?_eq_none (h.valid.put?_eq_none_iff.mpr (h.contents_eq ▸ hfull))
  · rw [h.generation_eq, BitVec.toNat_ofNat]
  -- A slot is used at the head by a writer that has room, and at the tail by a reader that finds a
  -- byte.
  · intro op i hi
    cases op with
    | put b =>
      simp only [slotsUsed, List.mem_ite_nil_left, List.mem_singleton] at hi
      exact hi.2 ▸ h.valid.head_lt
    | get =>
      simp only [slotsUsed, List.mem_ite_nil_left, List.mem_singleton] at hi
      exact hi.2 ▸ h.valid.settle.tail_lt
    | discard => exact nomatch hi
    | reset => exact nomatch hi

/-- A fresh ring answers every sequence of operations as an empty queue of at most 31 bytes does,
and agrees with it at the end, as long as there are never `2^w` discards without a `get` or `reset`
in between. Every prefix of such a sequence is one as well, so that they agree at every point. -/
theorem performAll_agrees (ops : List Op) (hops : Attended w 0 ops) :
    (performAll apply (empty : ByteRing w) ops).2 = (performAll onQueue [] ops).2 ∧
      Agrees (performAll apply (empty : ByteRing w) ops).1 (performAll onQueue [] ops).1
        (ops.count .discard) := by
  obtain ⟨hsim, hreplies⟩ := simulates_empty.performAll ops hops
  rw [Nat.zero_add] at hsim
  exact ⟨hreplies, hsim.agrees⟩

/-- Two discards before anything is read, and a third one after a byte has been taken. -/
theorem performAll_agrees_discards :
    let ops : List Op := [.put 1, .discard, .put 2, .discard, .put 3, .put 4, .get, .discard, .get]
    Attended 32 0 ops ∧
      (performAll apply (empty : ByteRing 32) ops).2 = (performAll onQueue [] ops).2 ∧
      Agrees (performAll apply (empty : ByteRing 32) ops).1 (performAll onQueue [] ops).1 3 :=
  ⟨attended_of_length_lt (by decide), performAll_agrees _ (attended_of_length_lt (by decide))⟩

end KeyBridge.ByteRing
