/-!
# Lists

Facts about all items of a list that can be computed item by item, and about items at its end.
-/

namespace KeyBridge

/-- The instance for a bounded quantifier need not run over the list: over a finite type it may run
over the type instead. -/
theorem forall_mem_of_all {α : Type} {p : α → Prop} [DecidablePred p] {l : List α}
    (h : l.all (fun a => decide (p a)) = true) : ∀ a ∈ l, p a := by
  intro a ha
  exact of_decide_eq_true (List.all_eq_true.mp h a ha)

/-- All `n` occurrences of an item stand at the end of a list if nothing else follows the first. -/
theorem replicate_suffix_iff {α : Type} [DecidableEq α] {l : List α} {a : α} {n : Nat}
    (hcount : l.count a = n) :
    List.replicate n a <:+ l ↔ ∀ b ∈ l.dropWhile (· != a), b = a := by
  constructor
  · rintro ⟨before, rfl⟩
    -- The occurrences at the end are all there are.
    have hbefore : a ∉ before := by
      rw [List.count_append, List.count_replicate_self] at hcount
      exact List.count_eq_zero.mp (by omega)
    have hne : ∀ b ∈ before, (b != a) = true := by
      rintro b hb
      exact bne_iff_ne.mpr fun h => hbefore (h ▸ hb)
    rw [List.dropWhile_append_of_pos hne]
    exact fun b hb => List.eq_of_mem_replicate ((List.dropWhile_sublist _).subset hb)
  · intro hall
    have hsplit := List.takeWhile_append_dropWhile (p := (· != a)) (l := l)
    have htake : (l.takeWhile (· != a)).count a = 0 :=
      List.count_eq_zero.mpr fun h => by simpa using List.all_eq_true.mp List.all_takeWhile a h
    have hdrop := List.eq_replicate_of_mem hall
    have hlength : (l.dropWhile (· != a)).length = n := by
      rw [← hcount, ← hsplit, List.count_append, htake, hsplit, hdrop]
      simp
    rw [← hlength, ← hdrop]
    exact List.dropWhile_suffix _

end KeyBridge
