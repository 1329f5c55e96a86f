import ClassDiagram.Proofs.Fuzz.Edits

/-!
# There is always a next input

Documents can always be drawn, and every text has a mutation; so as long as there is a corpus to
choose from, a session can go on.
-/

namespace ClassDiagram.Fuzz

namespace Gen

variable {α : Type}

theorem Yields.total {g : Gen α} {P : α → Prop} (h : Yields g P) : Yields g fun _ => True :=
  h.mono fun _ _ => trivial

theorem yields_mutateTimes (n : Nat) (text : List Char) :
    Yields (mutateTimes n text) fun _ => True := by
  induction n generalizing text with
  | zero => exact .pure trivial
  | succ n ih => exact (yields_mutate text).bind fun new _ => ih new

/-- Whatever is drawn, a corpus that is not empty gives a next input. -/
theorem yields_nextInput {corpus : List String} (h : corpus ≠ []) :
    Yields (nextInput corpus) fun _ => True := by
  refine yields_permille.bind fun _ _ => .ite (fun _ => ?_) fun _ => .ite (fun _ => ?_) fun _ => ?_
  · exact yields_document
  · refine (yields_choose h).bind fun source _ => (yields_among (by decide)).bind fun edits _ => ?_
    exact (yields_mutateTimes edits _).map fun _ _ => trivial
  · exact (yields_choose h).total

end Gen

end ClassDiagram.Fuzz
