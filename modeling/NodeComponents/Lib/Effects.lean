/-!
# Operations as sequences of effects

An observer who may look at any time sees not only the states before and after an
operation but every state between two of its effects. An operation is then the
list of its effects, and a law about what can be seen has to hold before the
first effect, between any two, and behind the last.

Such a law splits along the operations of a sequence: it holds all the way iff it
holds all the way through each operation, from the state the ones before it left.
-/

namespace NodeComponents.Lib

variable {σ ε κ : Type} {apply : σ → ε → σ} {P Q : σ → Prop}

/-- `P` holds before the first effect, between any two, and behind the last. -/
def Always (apply : σ → ε → σ) (P : σ → Prop) : List ε → σ → Prop
  | [], s => P s
  | e :: es, s => P s ∧ Always apply P es (apply s e)

theorem Always.first : ∀ {es : List ε} {s : σ}, Always apply P es s → P s
  | [], _, h => h
  | _ :: _, _, h => h.1

theorem Always.last {es : List ε} {s : σ} (h : Always apply P es s) : P (es.foldl apply s) := by
  induction es generalizing s with
  | nil => exact h
  | cons e es ih => exact ih h.2

/-- **Effects in sequence**: the law holds through the first ones, and through the others
from the state those leave. -/
theorem always_append {es fs : List ε} {s : σ} :
    Always apply P (es ++ fs) s ↔
      Always apply P es s ∧ Always apply P fs (es.foldl apply s) := by
  induction es generalizing s with
  | nil => exact ⟨fun h => ⟨h.first, h⟩, fun h => h.2⟩
  | cons e es ih =>
      show P s ∧ Always apply P (es ++ fs) (apply s e) ↔ _
      rw [ih]
      exact ⟨fun h => ⟨⟨h.1, h.2.1⟩, h.2.2⟩, fun h => ⟨h.1.1, h.1.2, h.2⟩⟩

/-- Effects that each keep the law keep it all the way. -/
theorem always_of_kept {es : List ε} (hkeep : ∀ e ∈ es, ∀ s, P s → P (apply s e)) :
    ∀ {s : σ}, P s → Always apply P es s := by
  induction es with
  | nil => exact fun h => h
  | cons e es ih =>
      intro s h
      exact ⟨h, ih (fun e' he' => hkeep e' (by simp [he'])) (hkeep e (by simp) s h)⟩

/-- `R` holds of every effect in the state it is made in. -/
def Each (apply : σ → ε → σ) (R : σ → ε → Prop) : List ε → σ → Prop
  | [], _ => True
  | e :: es, s => R s e ∧ Each apply R es (apply s e)

theorem each_append {R : σ → ε → Prop} {es fs : List ε} {s : σ} :
    Each apply R (es ++ fs) s ↔ Each apply R es s ∧ Each apply R fs (es.foldl apply s) := by
  induction es generalizing s with
  | nil => exact ⟨fun h => ⟨trivial, h⟩, fun h => h.2⟩
  | cons e es ih =>
      show R s e ∧ Each apply R (es ++ fs) (apply s e) ↔ _
      rw [ih]
      exact ⟨fun h => ⟨⟨h.1, h.2.1⟩, h.2.2⟩, fun h => ⟨h.1.1, h.1.2, h.2⟩⟩

theorem Each.mono {R R' : σ → ε → Prop} (hR : ∀ s e, R s e → R' s e) :
    ∀ {es : List ε} {s : σ}, Each apply R es s → Each apply R' es s
  | [], _, _ => trivial
  | _ :: _, s, h => ⟨hR s _ h.1, h.2.mono hR⟩

/-- Effects that each keep a law under which they meet `R`. -/
theorem each_of_kept {R : σ → ε → Prop} {es : List ε}
    (hkeep : ∀ e ∈ es, ∀ s, P s → R s e ∧ P (apply s e)) :
    ∀ {s : σ}, P s → Each apply R es s ∧ P (es.foldl apply s) := by
  induction es with
  | nil => exact fun h => ⟨trivial, h⟩
  | cons e es ih =>
      intro s h
      obtain ⟨hhere, hnext⟩ := hkeep e (by simp) s h
      obtain ⟨hrest, hlast⟩ := ih (fun e' he' => hkeep e' (by simp [he'])) hnext
      exact ⟨⟨hhere, hrest⟩, hlast⟩

/-- **Operations in sequence.** If an operation started under the law keeps it all the way
iff `C` holds of the state it starts in, then a sequence does iff `C` holds at each of them. -/
theorem always_operations {effects : κ → List ε} {C : κ → σ → Prop} {ops : List κ}
    (hop : ∀ c ∈ ops, ∀ s, P s → (Always apply P (effects c) s ↔ C c s)) {s : σ} (h : P s) :
    Always apply P (ops.flatMap effects) s ↔
      ∀ pre c post, ops = pre ++ c :: post → C c ((pre.flatMap effects).foldl apply s) := by
  induction ops generalizing s with
  | nil => exact ⟨fun _ pre c post heq => absurd heq (by simp), fun _ => h⟩
  | cons c ops ih =>
      have hrest := fun c' hc' => hop c' (List.mem_cons_of_mem c hc')
      rw [List.flatMap_cons, always_append]
      constructor
      · rintro ⟨hhere, hlater⟩ pre c' post heq
        cases pre with
        | nil =>
            obtain ⟨rfl, _⟩ := List.cons.inj heq
            exact (hop c (by simp) s h).mp hhere
        | cons d pre =>
            obtain ⟨rfl, htail⟩ := List.cons.inj heq
            rw [List.flatMap_cons, List.foldl_append]
            exact (ih hrest hhere.last).mp hlater pre c' post htail
      · intro hall
        have hhere := (hop c (by simp) s h).mpr (hall [] c ops rfl)
        refine ⟨hhere, (ih hrest hhere.last).mpr ?_⟩
        intro pre c' post heq
        have hc := hall (c :: pre) c' post (by rw [heq]; rfl)
        rwa [List.flatMap_cons, List.foldl_append] at hc

end NodeComponents.Lib
