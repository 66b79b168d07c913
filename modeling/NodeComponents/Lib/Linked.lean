import Mathlib.Data.List.Chain
import NodeComponents.Lib.Heights

/-!
# Hash-linked lists

Elements carry an identity and name the identity of their parent. A list is
`Linked` when each element names the element before it, which is what makes a
chain of blocks a chain and not only a sequence of heights.
-/

namespace NodeComponents.Lib

variable {α κ : Type} {ident parent : α → κ}

/-- Each element names the element before it as its parent. -/
def Linked (ident parent : α → κ) (l : List α) : Prop :=
  l.IsChain (fun a b => parent b = ident a)

theorem linked_nil : Linked ident parent [] := List.isChain_nil

theorem linked_cons {a : α} {l : List α} :
    Linked ident parent (a :: l) ↔ (∀ b ∈ l.head?, parent b = ident a) ∧ Linked ident parent l :=
  List.isChain_cons

theorem linked_append {l m : List α} :
    Linked ident parent (l ++ m) ↔ Linked ident parent l ∧ Linked ident parent m ∧
      ∀ a ∈ l.getLast?, ∀ b ∈ m.head?, parent b = ident a := List.isChain_append

theorem linked_map {β : Type} {g : β → α} {l : List β} :
    Linked ident parent (l.map g) ↔ Linked (fun b => ident (g b)) (fun b => parent (g b)) l :=
  List.isChain_map g

theorem Linked.initial {l m : List α} (h : Linked ident parent m) (hp : l <+: m) :
    Linked ident parent l := by
  obtain ⟨rest, rfl⟩ := hp
  exact (linked_append.mp h).1

theorem Linked.suffix {l m : List α} (h : Linked ident parent m) (hs : l <:+ m) :
    Linked ident parent l := List.IsChain.suffix h hs

/-- An element whose number is one above another's names it, wherever the list is numbered
without a gap. -/
theorem Linked.parent_of_succ {num : α → Nat} {l : List α} (h : Linked ident parent l)
    (hc : Consecutive num l) {a b : α} (ha : a ∈ l) (hb : b ∈ l) (hab : num b = num a + 1) :
    parent b = ident a := by
  obtain ⟨i, hi⟩ := List.mem_iff_getElem?.mp ha
  obtain ⟨j, hj⟩ := List.mem_iff_getElem?.mp hb
  obtain ⟨first, hfirst⟩ : ∃ first, l.head? = some first := by
    cases l with
    | nil => simp at ha
    | cons first l => exact ⟨first, rfl⟩
  have hj' : j = i + 1 := by
    have hna := hc.getElem? hfirst hi
    have hnb := hc.getElem? hfirst hj
    omega
  subst hj'
  obtain ⟨hlt, hjb⟩ := List.getElem?_eq_some_iff.mp hj
  obtain ⟨_, hia⟩ := List.getElem?_eq_some_iff.mp hi
  rw [← hia, ← hjb]
  exact List.isChain_iff_getElem.mp h i hlt

/-- **Down a chain.** What passes from each element to the one it names holds of every element
below one it holds of. -/
theorem Linked.downward {num : α → Nat} {l : List α} (h : Linked ident parent l)
    (hc : Consecutive num l) {Q : α → Prop}
    (hstep : ∀ a ∈ l, ∀ b ∈ l, num b = num a + 1 → parent b = ident a → Q b → Q a)
    {a b : α} (ha : a ∈ l) (hb : b ∈ l) (hab : num a ≤ num b) (hQ : Q b) : Q a := by
  obtain ⟨d, hd⟩ := Nat.exists_eq_add_of_le hab
  induction d generalizing a with
  | zero => rwa [hc.inj ha hb hd.symm]
  | succ d ih =>
      obtain ⟨c, hcm, hnum⟩ := hc.exists_between (n := num a + 1) ha hb (by omega) (by omega)
      exact hstep a ha c hcm hnum (h.parent_of_succ hc ha hcm hnum) (ih hcm (by omega) (by omega))

/--
**Linked lists with one top agree below it.** When an identity determines the
element, two linked lists that end in the same element run together down to the
start of the shorter one.
-/
theorem Linked.suffix_of_getLast? {l m : List α} (hl : Linked ident parent l)
    (hm : Linked ident parent m) (hinj : ∀ a ∈ l, ∀ b ∈ m, ident a = ident b → a = b)
    (hlen : l.length ≤ m.length) (hlast : ∀ a ∈ l.getLast?, m.getLast? = some a) : l <:+ m := by
  induction l using List.reverseRecOn generalizing m with
  | nil => exact List.nil_suffix
  | append_singleton l x ih =>
      have hmlast := hlast x (by simp)
      obtain ⟨m', rfl⟩ := List.getLast?_eq_some_iff.mp hmlast
      obtain ⟨hl', _, hlx⟩ := linked_append.mp hl
      obtain ⟨hm', _, hmx⟩ := linked_append.mp hm
      have hsuffix : l <:+ m' := by
        refine ih hl' hm' ?_ ?_ ?_
        · intro a ha b hb
          exact hinj a (List.mem_append_left _ ha) b (List.mem_append_left _ hb)
        · simp only [List.length_append, List.length_singleton] at hlen
          omega
        · -- the element below the top is the one the top names
          intro y hy
          obtain ⟨z, hz⟩ : ∃ z, m'.getLast? = some z := by
            cases hq : m'.getLast? with
            | none =>
                have hmem := List.length_pos_of_mem (List.mem_of_getLast? hy)
                rw [List.getLast?_eq_none_iff.mp hq] at hlen
                simp only [List.nil_append, List.length_append, List.length_singleton] at hlen
                omega
            | some z => exact ⟨z, rfl⟩
          have hyz : ident y = ident z := (hlx y hy x rfl).symm.trans (hmx z hz x rfl)
          have heq := hinj y (List.mem_append_left _ (List.mem_of_getLast? hy)) z
            (List.mem_append_left _ (List.mem_of_getLast? hz)) hyz
          rw [hz, heq]
      obtain ⟨below, hb⟩ := hsuffix
      exact ⟨below, by rw [← List.append_assoc, hb]⟩

/-- Numbered without a gap, they hold the same element at a number both have. -/
theorem Linked.agree {num : α → Nat} {l m : List α} (hl : Linked ident parent l)
    (hm : Linked ident parent m) (hinj : ∀ a ∈ l, ∀ b ∈ m, ident a = ident b → a = b)
    (hcl : Consecutive num l) (hcm : Consecutive num m) (hlast : l.getLast? = m.getLast?)
    {a b : α} (ha : a ∈ l) (hb : b ∈ m) (hab : num a = num b) : a = b := by
  rcases Nat.le_total l.length m.length with hlen | hlen
  · have hsuffix := hl.suffix_of_getLast? hm hinj hlen fun x hx => hlast ▸ hx
    exact hcm.inj (hsuffix.subset ha) hb hab
  · have hsuffix := hm.suffix_of_getLast? hl (fun x hx y hy h => (hinj y hy x hx h.symm).symm) hlen
      fun x hx => hlast ▸ hx
    exact hcl.inj ha (hsuffix.subset hb) hab

end NodeComponents.Lib
