import Mathlib.Data.List.Chain
import Mathlib.Data.List.DropRight

/-!
# Lists numbered without a gap

A list is `Consecutive` under a numbering when each element is numbered one
above the element before it. Such a list can be indexed by number instead of by
position, and cutting it at a number is the same as cutting it at a position.
-/

namespace NodeComponents.Lib

variable {α β : Type} {f : α → Nat}

/-- Numbers ascend by one along the list. -/
def Consecutive (f : α → Nat) (l : List α) : Prop := l.IsChain (fun a b => f b = f a + 1)

theorem consecutive_nil : Consecutive f [] := List.isChain_nil

theorem consecutive_singleton (a : α) : Consecutive f [a] := List.isChain_singleton a

theorem consecutive_cons_cons {a b : α} {l : List α} :
    Consecutive f (a :: b :: l) ↔ f b = f a + 1 ∧ Consecutive f (b :: l) := List.isChain_cons_cons

theorem consecutive_append {l m : List α} :
    Consecutive f (l ++ m) ↔ Consecutive f l ∧ Consecutive f m ∧
      ∀ a ∈ l.getLast?, ∀ b ∈ m.head?, f b = f a + 1 := List.isChain_append

theorem consecutive_map {g : β → α} {l : List β} :
    Consecutive f (l.map g) ↔ Consecutive (fun b => f (g b)) l := List.isChain_map g

theorem Consecutive.suffix {l m : List α} (h : Consecutive f m) (hs : l <:+ m) :
    Consecutive f l := List.IsChain.suffix h hs

theorem Consecutive.initial {l m : List α} (h : Consecutive f m) (hp : l <+: m) :
    Consecutive f l := by
  obtain ⟨rest, rfl⟩ := hp
  exact (consecutive_append.mp h).1

/-- Elements are numbered by their offset from the front. -/
theorem Consecutive.getElem? {l : List α} (h : Consecutive f l) {a b : α} {i : Nat}
    (ha : l.head? = some a) (hb : l[i]? = some b) : f b = f a + i := by
  induction l generalizing a i with
  | nil => simp at hb
  | cons x l ih =>
      obtain rfl : x = a := by simpa using ha
      cases i with
      | zero =>
          have hxb : x = b := by simpa using hb
          rw [← hxb, Nat.add_zero]
      | succ i =>
          rw [List.getElem?_cons_succ] at hb
          cases l with
          | nil => simp at hb
          | cons y l =>
              obtain ⟨hxy, htail⟩ := consecutive_cons_cons.mp h
              have hy := ih htail rfl hb
              omega

/-- A list whose elements are numbered by their position has no gap. -/
theorem consecutive_of_getElem? {l : List α} {n : Nat}
    (h : ∀ i b, l[i]? = some b → f b = n + i) : Consecutive f l := by
  induction l generalizing n with
  | nil => exact consecutive_nil
  | cons x l ih =>
      have htail : Consecutive f l := by
        refine ih (n := n + 1) fun i b hb => ?_
        have := h (i + 1) b (by rw [List.getElem?_cons_succ]; exact hb)
        omega
      cases l with
      | nil => exact consecutive_singleton x
      | cons y l =>
          have hx := h 0 x rfl
          have hy := h 1 y rfl
          exact consecutive_cons_cons.mpr ⟨by omega, htail⟩

/-- The number of the last element. -/
theorem Consecutive.getLast? {l : List α} (h : Consecutive f l) {a b : α}
    (ha : l.head? = some a) (hb : l.getLast? = some b) : f b = f a + (l.length - 1) := by
  rw [List.getLast?_eq_getElem?] at hb
  exact h.getElem? ha hb

theorem Consecutive.head_le {a b : α} {l : List α} (h : Consecutive f (a :: l)) (hb : b ∈ l) :
    f a ≤ f b := by
  obtain ⟨i, hi⟩ := List.mem_iff_getElem?.mp (List.mem_cons_of_mem a hb)
  have hnum := h.getElem? rfl hi
  omega

/-- Everything lies between the first and the last number. -/
theorem Consecutive.le_last {l : List α} (h : Consecutive f l) {b c : α}
    (hb : b ∈ l) (hc : l.getLast? = some c) : f b ≤ f c := by
  obtain ⟨i, hi⟩ := List.mem_iff_getElem?.mp hb
  obtain ⟨a, ha⟩ : ∃ a, l.head? = some a := by
    cases l with
    | nil => simp at hb
    | cons a l => exact ⟨a, rfl⟩
  have hib := h.getElem? ha hi
  have hlc := h.getLast? ha hc
  have hlt := (List.getElem?_eq_some_iff.mp hi).1
  omega

/-- A number determines the element. -/
theorem Consecutive.inj {l : List α} (h : Consecutive f l) {b c : α}
    (hb : b ∈ l) (hc : c ∈ l) (hbc : f b = f c) : b = c := by
  obtain ⟨i, hi⟩ := List.mem_iff_getElem?.mp hb
  obtain ⟨j, hj⟩ := List.mem_iff_getElem?.mp hc
  obtain ⟨a, ha⟩ : ∃ a, l.head? = some a := by
    cases l with
    | nil => simp at hb
    | cons a l => exact ⟨a, rfl⟩
  have hij : i = j := by
    have := h.getElem? ha hi
    have := h.getElem? ha hj
    omega
  rw [hij, hj] at hi
  exact (Option.some.inj hi).symm

/-- Every number between those of two elements is the number of one. -/
theorem Consecutive.exists_between {l : List α} (h : Consecutive f l) {a b : α} (ha : a ∈ l)
    (hb : b ∈ l) {n : Nat} (han : f a ≤ n) (hnb : n ≤ f b) : ∃ c ∈ l, f c = n := by
  obtain ⟨i, hi⟩ := List.mem_iff_getElem?.mp ha
  obtain ⟨j, hj⟩ := List.mem_iff_getElem?.mp hb
  obtain ⟨x, hx⟩ : ∃ x, l.head? = some x := by
    cases l with
    | nil => cases ha
    | cons x l => exact ⟨x, rfl⟩
  have hnumi := h.getElem? hx hi
  have hnumj := h.getElem? hx hj
  have hlt := (List.getElem?_eq_some_iff.mp hj).1
  have hget := List.getElem?_eq_getElem (l := l) (i := n - f x) (by omega)
  refine ⟨_, List.mem_of_getElem? hget, ?_⟩
  have hnum := h.getElem? hx hget
  omega

/-- The elements numbered above `r` are what is left after a front part. -/
theorem Consecutive.filter_eq_drop {l : List α} (h : Consecutive f l) {a : α}
    (ha : l.head? = some a) (r : Nat) :
    l.filter (fun x => r < f x) = l.drop (r + 1 - f a) := by
  induction l generalizing a with
  | nil => simp at ha
  | cons x l ih =>
      obtain rfl : x = a := by simpa using ha
      by_cases hr : r < f x
      · have hall : ∀ y ∈ x :: l, decide (r < f y) = true := by
          intro y hy
          obtain ⟨i, hi⟩ := List.mem_iff_getElem?.mp hy
          have hnum := h.getElem? rfl hi
          exact decide_eq_true (by omega)
        rw [List.filter_eq_self.mpr hall, Nat.sub_eq_zero_of_le hr, List.drop_zero]
      · rw [List.filter_cons_of_neg (by simpa using hr),
          show r + 1 - f x = (r - f x) + 1 by omega, List.drop_succ_cons]
        cases l with
        | nil => simp
        | cons y l =>
            obtain ⟨hxy, htail⟩ := consecutive_cons_cons.mp h
            rw [ih htail rfl, hxy, show r + 1 - (f x + 1) = r - f x by omega]

/--
**Cutting at a number.** Dropping everything numbered above a member from the
back leaves that member last.
-/
theorem Consecutive.cut_getLast? {l : List α} (h : Consecutive f l) {b : α} (hb : b ∈ l) {k : Nat}
    (hk : k = f b + 1) : (l.rdropWhile (fun x => k ≤ f x)).getLast? = some b := by
  subst hk
  induction l using List.reverseRecOn with
  | nil => simp at hb
  | append_singleton l x ih =>
      obtain ⟨hl, _, hlast⟩ := consecutive_append.mp h
      by_cases hx : f b + 1 ≤ f x
      · rw [List.rdropWhile_concat_pos _ _ _ (by simpa using hx)]
        have hbl : b ∈ l := by
          rcases List.mem_append.mp hb with hm | hm
          · exact hm
          · obtain rfl := List.mem_singleton.mp hm
            omega
        exact ih hl hbl
      · rw [List.rdropWhile_concat_neg _ _ _ (by simpa using hx), List.getLast?_concat]
        rcases List.mem_append.mp hb with hm | hm
        · -- `x` is last, so it is numbered above every earlier element
          obtain ⟨c, hc⟩ : ∃ c, l.getLast? = some c := by
            cases hq : l.getLast? with
            | none => rw [List.getLast?_eq_none_iff.mp hq] at hm; simp at hm
            | some c => exact ⟨c, rfl⟩
          have h1 := hl.le_last hm hc
          have h2 := hlast c hc x (by simp)
          omega
        · rw [List.mem_singleton.mp hm]

/-- Cutting a list from the back cuts its suffix, as long as some of it is left. -/
theorem rdropWhile_append_of_ne_nil {p : α → Bool} {l m : List α} (h : m.rdropWhile p ≠ []) :
    (l ++ m).rdropWhile p = l ++ m.rdropWhile p := by
  unfold List.rdropWhile at h ⊢
  have hne : (m.reverse.dropWhile p).isEmpty = false := by
    cases hq : m.reverse.dropWhile p with
    | nil => rw [hq] at h; simp at h
    | cons a l => rfl
  rw [List.reverse_append, List.dropWhile_append, hne]
  simp

/-- Only the elements of the list decide where it is cut. -/
theorem rdropWhile_congr {p q : α → Bool} {l : List α} (h : ∀ a ∈ l, p a = q a) :
    l.rdropWhile p = l.rdropWhile q := by
  induction l using List.reverseRecOn with
  | nil => rfl
  | append_singleton l x ih =>
      have hx := h x (by simp)
      have hl := ih fun a ha => h a (List.mem_append_left _ ha)
      cases hq : q x with
      | true =>
          rw [List.rdropWhile_concat_pos _ _ _ (hx.trans hq),
            List.rdropWhile_concat_pos _ _ _ hq, hl]
      | false =>
          rw [List.rdropWhile_concat_neg _ _ _ (by simp [hx, hq]),
            List.rdropWhile_concat_neg _ _ _ (by simp [hq])]

theorem rdropWhile_map {g : β → α} {p : α → Bool} {l : List β} :
    (l.map g).rdropWhile p = (l.rdropWhile (fun b => p (g b))).map g := by
  unfold List.rdropWhile
  rw [← List.map_reverse, List.dropWhile_map, List.map_reverse]
  rfl

end NodeComponents.Lib
