/-!
# Fallible computations

Inversion of a sequence of computations that may fail, and of a translated error.
-/

namespace NodeComponents.Lib

variable {ε ε' α β : Type}

theorem bind_ok {x : Except ε α} {f : α → Except ε β} {b : β} (h : (x >>= f) = .ok b) :
    ∃ a, x = .ok a ∧ f a = .ok b := by
  cases x with
  | error e => cases h
  | ok a => exact ⟨a, rfl, h⟩

theorem mapError_ok {x : Except ε α} {f : ε → ε'} {a : α} (h : x.mapError f = .ok a) :
    x = .ok a := by
  cases x with
  | error e => cases h
  | ok b => rw [Except.ok.inj h]

theorem bind_error {x : Except ε α} {f : α → Except ε β} {e : ε} (h : (x >>= f) = .error e) :
    x = .error e ∨ ∃ a, x = .ok a ∧ f a = .error e := by
  cases x with
  | error e' =>
      cases h
      exact Or.inl rfl
  | ok a => exact Or.inr ⟨a, rfl, h⟩

theorem mapError_error {x : Except ε α} {f : ε → ε'} {e : ε'} (h : x.mapError f = .error e) :
    ∃ e', x = .error e' ∧ f e' = e := by
  cases x with
  | error e' => exact ⟨e', rfl, Except.error.inj h⟩
  | ok a => cases h

theorem mapError_bind {x : Except ε α} {a : α} (h : x = .ok a) (f : ε → ε')
    (g : α → Except ε' β) : (x.mapError f >>= g) = g a := by
  rw [h]
  rfl

end NodeComponents.Lib
