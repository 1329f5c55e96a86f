import ClassDiagram.Text.Digits
import ClassDiagram.Text.Place

/-!
# Raised errors

An error is raised with a message that tells its place.  Where the place has a number that is too
long to be written, the message cannot be made, and it is this failure that is raised instead.

Readers find their errors without regard to this.  Their failures are turned into what is raised
where they are called.
-/

namespace ClassDiagram

/-- What is raised where there is an error: the error itself, or in its stead the failure to write
what its message says. -/
inductive Raised (ε : Type) where
  | error (e : ε)
  | unwritable
  deriving DecidableEq, Repr

namespace Place

/-- Both numbers of the place can be written. -/
def Writable (p : Place) : Prop := Text.Writable p.line ∧ Text.Writable p.column

instance : DecidablePred Writable :=
  fun p => inferInstanceAs (Decidable (Text.Writable p.line ∧ Text.Writable p.column))

variable {ε : Type} {p : Place}

/-- Raises an error whose message tells the place. -/
def raise (p : Place) (e : ε) : Raised ε := if p.Writable then .error e else .unwritable

theorem raise_of_writable (h : p.Writable) (e : ε) : p.raise e = .error e := if_pos h

theorem raise_of_not_writable (h : ¬ p.Writable) (e : ε) : p.raise e = .unwritable := if_neg h

/-- No error tells a line whose number is too long. -/
theorem raise_firstTooLong (column : Int) (e : ε) :
    raise ⟨Text.firstTooLong, column⟩ e = .unwritable :=
  raise_of_not_writable (fun h => Text.not_writable_firstTooLong h.1) e

end Place

section Adapting

variable {ε ε' σ α : Type} {f : ε → ε'} {a : α} {r : ε'}

theorem mapError_eq_ok_iff {x : Except ε α} : x.mapError f = .ok a ↔ x = .ok a := by
  cases x with
  | ok b =>
      constructor
      · rintro ⟨⟩
        rfl
      · rintro ⟨⟩
        rfl
  | error e => exact ⟨nofun, nofun⟩

theorem mapError_eq_error_iff {x : Except ε α} :
    x.mapError f = .error r ↔ ∃ e, x = .error e ∧ f e = r := by
  cases x with
  | ok b => exact ⟨nofun, nofun⟩
  | error e =>
      constructor
      · rintro ⟨⟩
        exact ⟨e, rfl, rfl⟩
      · rintro ⟨_, ⟨⟩, rfl⟩
        rfl

variable {x : EStateM ε σ α} {s s' : σ}

theorem adaptExcept_eq_ok_iff : x.adaptExcept f s = .ok a s' ↔ x s = .ok a s' := by
  unfold EStateM.adaptExcept
  cases x s <;> simp

theorem adaptExcept_eq_error_iff :
    x.adaptExcept f s = .error r s' ↔ ∃ e, x s = .error e s' ∧ f e = r := by
  unfold EStateM.adaptExcept
  cases x s with
  | ok a s₁ => simp
  | error e s₁ =>
      constructor
      · rintro ⟨⟩
        exact ⟨e, rfl, rfl⟩
      · rintro ⟨_, ⟨⟩, rfl⟩
        rfl

end Adapting

end ClassDiagram
