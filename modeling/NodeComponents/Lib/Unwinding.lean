import NodeComponents.Lib.Run

/-!
# Inputs that make no difference

An observer of a machine sees some of its inputs and some of its outputs. If what is
unseen keeps the states of two machines alike, and what is seen does the same to both,
then the unseen inputs can be deleted from any sequence: the observer sees the same
outputs.
-/

namespace NodeComponents.Lib

variable {ι ο σ : Type} {step : ι → σ → Option ο × σ} {seen : ι → Bool} {shown : ο → Bool}

/-- A relation on states that the seen inputs preserve and the unseen ones cannot break. -/
structure Unwinding (step : ι → σ → Option ο × σ) (seen : ι → Bool) (shown : ο → Bool)
    (Alike : σ → σ → Prop) : Prop where
  /-- A seen input shows the same in both. -/
  consistent : ∀ i s t, Alike s t → seen i = true →
    (step i s).1.toList.filter shown = (step i t).1.toList.filter shown
      ∧ Alike (step i s).2 (step i t).2
  /-- An unseen input shows nothing. -/
  silent : ∀ i s t, Alike s t → seen i = false →
    (∀ o ∈ (step i s).1, shown o = false) ∧ Alike (step i s).2 t

/-- **Unwinding.** Deleting the unseen inputs changes nothing that is shown. -/
theorem Unwinding.purge {Alike : σ → σ → Prop} (h : Unwinding step seen shown Alike) :
    ∀ (is : List ι) {s t : σ}, Alike s t →
      (runInputs step is s).1.filter shown = (runInputs step (is.filter seen) t).1.filter shown
        ∧ Alike (runInputs step is s).2 (runInputs step (is.filter seen) t).2
  | [], _, _, hst => ⟨rfl, hst⟩
  | i :: is, s, t, hst => by
      simp only [runInputs, List.filter_append]
      cases hi : seen i with
      | true =>
          obtain ⟨hout, hnext⟩ := h.consistent i s t hst hi
          obtain ⟨hrest, hend⟩ := h.purge is hnext
          rw [List.filter_cons_of_pos hi, hout, hrest]
          refine ⟨?_, hend⟩
          simp only [runInputs, List.filter_append]
      | false =>
          obtain ⟨hquiet, hnext⟩ := h.silent i s t hst hi
          obtain ⟨hrest, hend⟩ := h.purge is hnext
          have hnone : (step i s).1.toList.filter shown = [] := by
            rw [List.filter_eq_nil_iff]
            intro o ho
            rw [hquiet o (Option.mem_toList.mp ho)]
            exact Bool.false_ne_true
          rw [List.filter_cons_of_neg (by rw [hi]; exact Bool.false_ne_true), hnone,
            List.nil_append]
          exact ⟨hrest, hend⟩

end NodeComponents.Lib
