import Mathlib.Data.List.Induction

/-!
# Runs of a machine with outputs

A machine takes an input and a state to at most one output and the next state.
A run is any finite sequence of inputs; `C` restricts which input may be taken in
which state, so that "every run whose steps all meet a condition" is a run with
that `C`, and every run at all is one with `C` always true.

Two rules cover what is proved about runs here: an invariant of the outputs so
far and the state, and a law that relates each output to the outputs before it.
-/

namespace NodeComponents.Lib

variable {ι ο σ : Type} {step : ι → σ → Option ο × σ} {C : ι → σ → Prop} {s₀ : σ}

/-- A run from `s₀`: the outputs in order, and the state reached. -/
inductive Run (step : ι → σ → Option ο × σ) (C : ι → σ → Prop) (s₀ : σ) : List ο → σ → Prop
  | start : Run step C s₀ [] s₀
  | next {os : List ο} {s : σ} (i : ι) (h : Run step C s₀ os s) (hc : C i s) :
      Run step C s₀ (os ++ (step i s).1.toList) (step i s).2

/-- A run goes on from where another ended. -/
theorem Run.trans {os os' : List ο} {s s' : σ} (h : Run step C s₀ os s)
    (h' : Run step C s os' s') : Run step C s₀ (os ++ os') s' := by
  induction h' with
  | start => rwa [List.append_nil]
  | next i _ hc ih =>
      rw [← List.append_assoc]
      exact Run.next i ih hc

/-- The outputs and the final state of a given sequence of inputs. -/
def runInputs (step : ι → σ → Option ο × σ) : List ι → σ → List ο × σ
  | [], s => ([], s)
  | i :: is, s =>
    ((step i s).1.toList ++ (runInputs step is (step i s).2).1, (runInputs step is (step i s).2).2)

/-- `C` admits each input in the state it is taken in. -/
def Admits (step : ι → σ → Option ο × σ) (C : ι → σ → Prop) : List ι → σ → Prop
  | [], _ => True
  | i :: is, s => C i s ∧ Admits step C is (step i s).2

instance decidableAdmits [∀ i s, Decidable (C i s)] :
    ∀ (is : List ι) (s : σ), Decidable (Admits step C is s)
  | [], _ => isTrue trivial
  | i :: is, s =>
    have := decidableAdmits is (step i s).2
    inferInstanceAs (Decidable (C i s ∧ Admits step C is (step i s).2))

theorem admits_true : ∀ (is : List ι) (s : σ), Admits step (fun _ _ => True) is s
  | [], _ => trivial
  | _ :: is, _ => ⟨trivial, admits_true is _⟩

/-- A condition that does not look at the state. -/
theorem admits_of_forall : ∀ {is : List ι} {s : σ}, (∀ i ∈ is, ∀ s, C i s) → Admits step C is s
  | [], _, _ => trivial
  | i :: _, s, h => ⟨h i (by simp) s, admits_of_forall fun j hj => h j (List.mem_cons_of_mem i hj)⟩

theorem admits_and {D : ι → σ → Prop} : ∀ {is : List ι} {s : σ}, Admits step C is s →
    Admits step D is s → Admits step (fun i s => C i s ∧ D i s) is s
  | [], _, _, _ => trivial
  | _ :: _, _, ⟨hc, hcs⟩, ⟨hd, hds⟩ => ⟨⟨hc, hd⟩, admits_and hcs hds⟩

/-- Inputs that are admitted make a run. -/
theorem runInputs_run : ∀ (is : List ι) (s : σ), Admits step C is s →
    Run step C s (runInputs step is s).1 (runInputs step is s).2
  | [], _, _ => Run.start
  | i :: is, s, ⟨hc, hrest⟩ => by
      have hfirst : Run step C s (step i s).1.toList (step i s).2 := Run.next i Run.start hc
      exact hfirst.trans (runInputs_run is _ hrest)

/-- **The invariant rule.** -/
theorem Run.invariant {I : List ο → σ → Prop} (h0 : I [] s₀)
    (hstep : ∀ i os s, I os s → C i s → I (os ++ (step i s).1.toList) (step i s).2)
    {os : List ο} {s : σ} (h : Run step C s₀ os s) : I os s := by
  induction h with
  | start => exact h0
  | next i _ hc ih => exact hstep i _ _ ih hc

/-- An element of a list with one added at its end is that one, or one of the list. -/
theorem split_concat {α : Type} {l before after : List α} {x y : α}
    (h : l ++ [x] = before ++ y :: after) :
    (before = l ∧ y = x) ∨ ∃ after', l = before ++ y :: after' := by
  rcases List.eq_nil_or_concat after with hnil | ⟨after', z, hcat⟩
  · subst hnil
    obtain ⟨hl, hx⟩ := List.append_inj' h rfl
    exact Or.inl ⟨hl.symm, (List.head_eq_of_cons_eq hx).symm⟩
  · subst hcat
    rw [List.concat_eq_append, ← List.cons_append, ← List.append_assoc] at h
    obtain ⟨hl, _⟩ := List.append_inj' h rfl
    exact Or.inr ⟨after', hl⟩

/-- Each output stands in `L` to the outputs before it. -/
def Along (L : List ο → ο → Prop) (os : List ο) : Prop :=
  ∀ pre o post, os = pre ++ o :: post → L pre o

theorem along_nil {L : List ο → ο → Prop} : Along L [] := by
  intro pre o post h
  simp at h

theorem along_concat {L : List ο → ο → Prop} {os : List ο} {o : ο} (h : Along L os) (ho : L os o) :
    Along L (os ++ [o]) := by
  intro pre x post heq
  rcases split_concat heq with ⟨hpre, hx⟩ | ⟨post', hos⟩
  · rw [hpre, hx]
    exact ho
  · exact h pre x post' hos

/-- **The law rule.** An invariant that forces each new output to obey the law
carries the law along the run. -/
theorem Run.law {I : List ο → σ → Prop} {L : List ο → ο → Prop} (h0 : I [] s₀)
    (hstep : ∀ i os s, I os s → C i s →
      I (os ++ (step i s).1.toList) (step i s).2 ∧ ∀ o, (step i s).1 = some o → L os o)
    {os : List ο} {s : σ} (h : Run step C s₀ os s) : I os s ∧ Along L os := by
  refine h.invariant (I := fun os s => I os s ∧ Along L os) ⟨h0, along_nil⟩ ?_
  rintro i os s ⟨hI, hL⟩ hc
  obtain ⟨hI', hout⟩ := hstep i os s hI hc
  refine ⟨hI', ?_⟩
  cases ho : (step i s).1 with
  | none => rwa [Option.toList_none, List.append_nil]
  | some o => exact along_concat hL (hout o ho)

/-! ## Conditions on what came before

A condition on an input may also look at the inputs before it: what an environment
answers is often constrained by what it answered earlier. -/

theorem runInputs_concat (is : List ι) (i : ι) (s : σ) :
    runInputs step (is ++ [i]) s
      = ((runInputs step is s).1 ++ (step i (runInputs step is s).2).1.toList,
        (step i (runInputs step is s).2).2) := by
  induction is generalizing s with
  | nil => simp [runInputs]
  | cons j is ih => simp only [List.cons_append, runInputs, ih, List.append_assoc]

/-- `E` holds of each input, of those before it and of the state it is taken in. -/
def AlongInputs (step : ι → σ → Option ο × σ) (E : List ι → ι → σ → Prop) (s : σ)
    (is : List ι) : Prop :=
  ∀ before i after, is = before ++ i :: after → E before i (runInputs step before s).2

variable {E : List ι → ι → σ → Prop}

theorem alongInputs_nil {s : σ} : AlongInputs step E s [] := by
  intro before i after h
  simp at h

theorem alongInputs_concat {s : σ} {is : List ι} {i : ι} :
    AlongInputs step E s (is ++ [i])
      ↔ AlongInputs step E s is ∧ E is i (runInputs step is s).2 := by
  constructor
  · intro h
    refine ⟨?_, h is i [] rfl⟩
    rintro before j after rfl
    exact h before j (after ++ [i]) (by simp)
  · rintro ⟨his, hi⟩ before j after heq
    rcases split_concat heq with ⟨hbefore, hj⟩ | ⟨after', hfront⟩
    · rw [hbefore, hj]
      exact hi
    · exact his before j after' hfront

theorem AlongInputs.initial {s : σ} {before after : List ι}
    (h : AlongInputs step E s (before ++ after)) : AlongInputs step E s before := by
  rintro front i rest rfl
  exact h front i (rest ++ after) (by simp)

/-- **The invariant rule for given inputs.** -/
theorem AlongInputs.invariant {I : List ι → List ο → σ → Prop} {s : σ} (h0 : I [] [] s)
    (hstep : ∀ is i os t, I is os t → E is i t → t = (runInputs step is s).2 →
      I (is ++ [i]) (os ++ (step i t).1.toList) (step i t).2)
    {is : List ι} (h : AlongInputs step E s is) :
    I is (runInputs step is s).1 (runInputs step is s).2 := by
  induction is using List.reverseRecOn with
  | nil => exact h0
  | append_singleton is i ih =>
      obtain ⟨his, hi⟩ := alongInputs_concat.mp h
      rw [runInputs_concat]
      exact hstep is i _ _ (ih his) hi rfl

end NodeComponents.Lib
