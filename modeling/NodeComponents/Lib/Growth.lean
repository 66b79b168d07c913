import Mathlib.Data.List.Infix

/-!
# Lists grown from themselves

A chain of blocks is built by a function of the chain so far: each input is run on
the list grown up to it and adds one element, or fails. `Grown` relates the list
before, the inputs, and the list after. As the function decides each element, so
do the inputs the whole list.
-/

namespace NodeComponents.Lib

variable {α β : Type} {f g : List β → α → Option β}

/-- `new` is `old` grown by one element for each input, computed from the list so far. -/
inductive Grown (f : List β → α → Option β) : List β → List α → List β → Prop
  | nil (old : List β) : Grown f old [] old
  | cons {old new : List β} {x : α} {xs : List α} {b : β} (hb : f old x = some b)
      (h : Grown f (old ++ [b]) xs new) : Grown f old (x :: xs) new

theorem Grown.length {old new : List β} {xs : List α} (h : Grown f old xs new) :
    new.length = old.length + xs.length := by
  induction h with
  | nil => rfl
  | cons _ _ ih =>
      rw [ih, List.length_append, List.length_singleton, List.length_cons]
      omega

/-- What was there stays. -/
theorem Grown.kept {old new : List β} {xs : List α} (h : Grown f old xs new) : old <+: new := by
  induction h with
  | nil => exact List.prefix_refl _
  | cons _ _ ih => exact (List.prefix_append _ _).trans ih

/-- **The inputs decide the list.** -/
theorem Grown.unique {old new new' : List β} {xs : List α} (h : Grown f old xs new)
    (h' : Grown f old xs new') : new = new' := by
  induction h with
  | nil =>
      cases h'
      rfl
  | cons hb _ ih =>
      cases h' with
      | cons hb' h' =>
          obtain rfl := Option.some.inj (hb.symm.trans hb')
          exact ih h'

theorem Grown.append {old mid new : List β} {xs ys : List α} (h : Grown f old xs mid)
    (h' : Grown f mid ys new) : Grown f old (xs ++ ys) new := by
  induction h with
  | nil => exact h'
  | cons hb _ ih => exact Grown.cons hb (ih h')

/-- Each element is computed from the list below it. -/
theorem Grown.getElem? {old new : List β} {xs : List α} (h : Grown f old xs new) {i : Nat} {x : α}
    (hx : xs[i]? = some x) :
    ∃ b, new[old.length + i]? = some b ∧ f (new.take (old.length + i)) x = some b := by
  induction h generalizing i with
  | nil => exact absurd hx (by simp)
  | @cons old new y ys b hb htail ih =>
      cases i with
      | zero =>
          obtain rfl : y = x := by simpa using hx
          obtain ⟨rest, rfl⟩ := htail.kept
          refine ⟨b, ?_, ?_⟩
          · rw [List.append_assoc, Nat.add_zero, List.getElem?_append_right (Nat.le_refl _)]
            simp
          · rw [Nat.add_zero, List.append_assoc, List.take_left]
            exact hb
      | succ i =>
          rw [List.getElem?_cons_succ] at hx
          obtain ⟨c, hc, hfc⟩ := ih hx
          rw [List.length_append, List.length_singleton,
            show old.length + 1 + i = old.length + (i + 1) by omega] at hc hfc
          exact ⟨c, hc, hfc⟩

/-- The list grown from a front part of the inputs is a front part of the list. -/
theorem Grown.take {old new : List β} {xs : List α} (h : Grown f old xs new) (i : Nat) :
    Grown f old (xs.take i) (new.take (old.length + i)) := by
  induction h generalizing i with
  | nil old =>
      rw [List.take_nil, List.take_of_length_le (by omega)]
      exact Grown.nil old
  | @cons old new x xs b hb htail ih =>
      cases i with
      | zero =>
          obtain ⟨rest, rfl⟩ := htail.kept
          rw [List.take_zero, Nat.add_zero, List.append_assoc, List.take_left]
          exact Grown.nil old
      | succ i =>
          have htake := ih i
          rw [List.length_append, List.length_singleton,
            show old.length + 1 + i = old.length + (i + 1) by omega] at htake
          exact Grown.cons hb htake

/-- Two functions that agree wherever a list is grown grow the same list. -/
theorem Grown.congr {old new : List β} {xs : List α} (h : Grown f old xs new)
    (hfg : ∀ i x l b, xs[i]? = some x → l.length = old.length + i → f l x = some b →
      g l x = some b) : Grown g old xs new := by
  induction h with
  | nil => exact Grown.nil _
  | cons hb _ ih =>
      refine Grown.cons (hfg 0 _ _ _ rfl rfl hb) (ih ?_)
      intro i x l b hx hl
      refine hfg (i + 1) x l b hx ?_
      rw [hl, List.length_append, List.length_singleton]
      omega

end NodeComponents.Lib
