/-!
# One step after the other

What a step with a state gives is what the next one is given; a step that fails ends the sequence.
-/

namespace ClassDiagram

variable {ε σ α β : Type} {step : EStateM ε σ α} {s s' : σ}

theorem bind_of_ok {next : α → EStateM ε σ β} {a : α} (h : step s = .ok a s') :
    (step >>= next) s = next a s' := by
  change EStateM.bind step next s = _
  simp only [EStateM.bind, h]

theorem bind_of_error {next : α → EStateM ε σ β} {e : ε} (h : step s = .error e s') :
    (step >>= next) s = .error e s' := by
  change EStateM.bind step next s = _
  simp only [EStateM.bind, h]

theorem map_of_ok {f : α → β} {a : α} (h : step s = .ok a s') : (f <$> step) s = .ok (f a) s' := by
  change EStateM.map f step s = _
  simp only [EStateM.map, h]

theorem exists_of_bind_ok {next : α → EStateM ε σ β} {b : β} (h : (step >>= next) s = .ok b s') :
    ∃ a middle, step s = .ok a middle ∧ next a middle = .ok b s' := by
  cases hstep : step s with
  | ok a middle => exact ⟨a, middle, rfl, (bind_of_ok hstep).symm.trans h⟩
  | error e middle =>
      rw [bind_of_error hstep] at h
      cases h

end ClassDiagram
