import Mathlib.Data.List.Sort

/-!
# The element of a given rank

The element at an index of the sorted list does not depend on the order of the list.
It is below a bound exactly if more elements than the index are, so that a bound on it
can be checked without sorting.
-/

namespace NodeComponents.Lib

variable {α : Type} [LinearOrder α] {l l' : List α}

theorem insertionSort_perm (h : l.Perm l') :
    l.insertionSort (· ≤ ·) = l'.insertionSort (· ≤ ·) := by
  have hperm : (l.insertionSort (· ≤ ·)).Perm (l'.insertionSort (· ≤ ·)) :=
    (List.perm_insertionSort _ l).trans (h.trans (List.perm_insertionSort _ l').symm)
  exact hperm.eq_of_pairwise' (List.pairwise_insertionSort _ l) (List.pairwise_insertionSort _ l')

theorem sorted_getElem_lt_iff {a : α} :
    ∀ {l : List α} (_ : l.Pairwise (· ≤ ·)) {i : Nat} (hi : i < l.length),
      l[i] < a ↔ i < l.countP (· < a)
  | b :: l, h, i, hi => by
      obtain ⟨hhead, htail⟩ := List.pairwise_cons.mp h
      by_cases hb : b < a
      · rw [List.countP_cons_of_pos (by simpa using hb)]
        cases i with
        | zero => simpa using hb
        | succ i =>
            rw [List.getElem_cons_succ, sorted_getElem_lt_iff htail]
            omega
      · -- nothing behind an element that is too large is smaller
        have hnone : ∀ c ∈ b :: l, ¬ c < a := by
          intro c hc
          rcases List.mem_cons.mp hc with rfl | hc
          · exact hb
          · exact fun hlt => hb (lt_of_le_of_lt (hhead c hc) hlt)
        have hcount : (b :: l).countP (· < a) = 0 :=
          List.countP_eq_zero.mpr fun c hc => by simpa using hnone c hc
        rw [hcount]
        exact ⟨fun hlt => absurd hlt (hnone _ (List.getElem_mem hi)), fun h => absurd h (by omega)⟩

/-- **The element of rank `i` is below `a`** exactly if more than `i` elements are. -/
theorem getElem_insertionSort_lt_iff {a : α} {i : Nat}
    (hi : i < (l.insertionSort (· ≤ ·)).length) :
    (l.insertionSort (· ≤ ·))[i] < a ↔ i < l.countP (· < a) := by
  rw [sorted_getElem_lt_iff (List.pairwise_insertionSort _ l) hi,
    (List.perm_insertionSort _ l).countP_eq]

end NodeComponents.Lib
