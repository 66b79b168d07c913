import Mathlib.Data.List.Infix
import Mathlib.Data.List.Perm.Subperm

/-!
# Bounded windows

A window keeps the last `cap` elements pushed onto it: push at the back, evict
from the front. What matters to a user is that the window is always a **suffix**
of everything pushed, that it never exceeds its bound, and that nothing more is
lost than the bound forces.
-/

namespace NodeComponents.Lib.Window

variable {α : Type}

/-- Push at the back, then evict the oldest element if over the bound. -/
def push (cap : Nat) (w : List α) (x : α) : List α :=
  if cap < (w ++ [x]).length then (w ++ [x]).tail else w ++ [x]

/-- Push a list of elements, oldest first. -/
def pushAll (cap : Nat) (w xs : List α) : List α := xs.foldl (push cap) w

@[simp] theorem pushAll_nil {cap : Nat} {w : List α} : pushAll cap w [] = w := rfl

@[simp] theorem pushAll_cons {cap : Nat} {w xs : List α} {x : α} :
    pushAll cap w (x :: xs) = pushAll cap (push cap w x) xs := rfl

theorem push_eq_drop {cap : Nat} {w : List α} {x : α} (h : w.length ≤ cap) :
    push cap w x = (w ++ [x]).drop ((w ++ [x]).length - cap) := by
  unfold push
  split
  · rename_i hlt
    have hlen : (w ++ [x]).length = cap + 1 := by
      simp only [List.length_append, List.length_singleton] at hlt ⊢
      omega
    rw [hlen, Nat.add_sub_cancel_left, List.drop_one]
  · rename_i hle
    rw [Nat.sub_eq_zero_of_le (Nat.le_of_not_lt hle), List.drop_zero]

theorem push_length_le {cap : Nat} {w : List α} {x : α} (h : w.length ≤ cap) :
    (push cap w x).length ≤ cap := by
  rw [push_eq_drop h, List.length_drop]
  omega

theorem pushAll_length_le {cap : Nat} {w : List α} (xs : List α) (h : w.length ≤ cap) :
    (pushAll cap w xs).length ≤ cap := by
  induction xs generalizing w with
  | nil => exact h
  | cons x xs ih => exact ih (push_length_le h)

/-- **Exactly the last `cap` elements are kept.** -/
theorem pushAll_eq_drop {cap : Nat} {w : List α} (xs : List α) (h : w.length ≤ cap) :
    pushAll cap w xs = (w ++ xs).drop ((w ++ xs).length - cap) := by
  induction xs generalizing w with
  | nil =>
      rw [pushAll_nil, List.append_nil, Nat.sub_eq_zero_of_le h, List.drop_zero]
  | cons x xs ih =>
      rw [pushAll_cons, ih (push_length_le h), push_eq_drop h]
      have hsplit : w ++ x :: xs = (w ++ [x]) ++ xs := by simp
      have hle : (w ++ [x]).length - cap ≤ (w ++ [x]).length := Nat.sub_le _ _
      rw [hsplit, ← List.drop_append_of_le_length hle, List.drop_drop]
      congr 1
      simp only [List.length_drop, List.length_append, List.length_singleton]
      omega

/-- The window is a suffix of everything pushed, whatever its bound. -/
theorem pushAll_suffix (cap : Nat) (w xs : List α) : pushAll cap w xs <:+ w ++ xs := by
  induction xs generalizing w with
  | nil => simp
  | cons x xs ih =>
      have hpush : push cap w x <:+ w ++ [x] := by
        unfold push
        split
        · exact List.tail_suffix _
        · exact List.suffix_refl _
      have hstep : push cap w x ++ xs <:+ (w ++ [x]) ++ xs := by
        obtain ⟨evicted, he⟩ := hpush
        exact ⟨evicted, by rw [← he, List.append_assoc]⟩
      rw [List.append_assoc, List.singleton_append] at hstep
      exact (ih (push cap w x)).trans hstep

/-- The newest element survives as soon as the bound admits one. -/
theorem pushAll_getLast? {cap : Nat} {w : List α} (xs : List α) (hc : 1 ≤ cap)
    (h : w.length ≤ cap) : (pushAll cap w xs).getLast? = (w ++ xs).getLast? := by
  rw [pushAll_eq_drop xs h, List.getLast?_drop]
  split
  · rename_i hle
    have hnil : w ++ xs = [] := List.length_eq_zero_iff.mp (by omega)
    rw [hnil, List.getLast?_nil]
  · rfl

/-- What is marked stays in the window, when marks go to the newest elements and there is
room for one more. -/
theorem push_filter {cap : Nat} {w : List α} {x : α} {p : α → Bool}
    (hmarks : w.Pairwise fun a b => p a = true → p b = true) (hroom : (w.filter p).length < cap)
    (hx : p x = true) : (push cap w x).filter p = w.filter p ++ [x] := by
  have happend : (w ++ [x]).filter p = w.filter p ++ [x] := by
    rw [List.filter_append, List.filter_cons_of_pos hx, List.filter_nil]
  unfold push
  split
  · rename_i hfull
    rw [← happend]
    cases w with
    | nil =>
        simp only [List.nil_append, List.length_singleton] at hfull
        simp only [List.filter_nil, List.length_nil] at hroom
        omega
    | cons a w =>
        -- the oldest element is unmarked, as otherwise all of them are marked
        have ha : ¬ p a = true := by
          intro hpa
          have hall : (a :: w).filter p = a :: w := by
            refine List.filter_eq_self.mpr ?_
            intro b hb
            rcases List.mem_cons.mp hb with rfl | hb
            · exact hpa
            · exact (List.pairwise_cons.mp hmarks).1 b hb hpa
          rw [hall] at hroom
          simp only [List.length_append, List.length_singleton] at hfull
          omega
        rw [List.cons_append, List.tail_cons, List.filter_cons_of_neg ha]
  · exact happend

/-- If marks go to the newest elements, the marked ones are a suffix. -/
theorem filter_suffix {l : List α} {p : α → Bool}
    (hmarks : l.Pairwise fun a b => p a = true → p b = true) : l.filter p <:+ l := by
  induction l with
  | nil => exact List.suffix_refl _
  | cons a l ih =>
      obtain ⟨ha, hrest⟩ := List.pairwise_cons.mp hmarks
      by_cases hpa : p a = true
      · have hall : (a :: l).filter p = a :: l := by
          refine List.filter_eq_self.mpr fun b hb => ?_
          rcases List.mem_cons.mp hb with rfl | hb
          · exact hpa
          · exact ha b hb hpa
        rw [hall]
      · rw [List.filter_cons_of_neg hpa]
        exact (ih hrest).trans (List.suffix_cons a l)

/-- **The last `cap` elements hold every marked one** exactly if there are at most `cap`. -/
theorem holds_marked_iff {l : List α} {p : α → Bool} {cap : Nat} (hnodup : l.Nodup)
    (hmarks : l.Pairwise fun a b => p a = true → p b = true) :
    (∀ x ∈ l.filter p, x ∈ l.drop (l.length - cap)) ↔ (l.filter p).length ≤ cap := by
  constructor
  · intro hheld
    have hle := (List.subperm_of_subset (hnodup.filter p) hheld).length_le
    rw [List.length_drop] at hle
    omega
  · intro hcap x hx
    rw [List.suffix_iff_eq_drop.mp (filter_suffix hmarks)] at hx
    exact List.drop_subset_drop_left l (by omega) hx

end NodeComponents.Lib.Window
