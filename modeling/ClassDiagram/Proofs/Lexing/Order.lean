import ClassDiagram.Grammar.Lexeme

/-!
# The order of lexemes

Places are ordered as in the text: by line, and on a line by column.  Every character moves on in
this order, so every lexeme of a text stands strictly before the point where lexing is stuck.
-/

namespace ClassDiagram

/-- The place comes before the other in a text. -/
def Place.Before (p q : Place) : Prop :=
  p.line < q.line ∨ p.line = q.line ∧ p.column < q.column

instance (p q : Place) : Decidable (p.Before q) :=
  inferInstanceAs (Decidable (_ ∨ _))

namespace Place

theorem Before.trans {p q r : Place} (h : p.Before q) (h' : q.Before r) : p.Before r := by
  unfold Before at *
  omega

theorem before_after (p : Place) (c : Char) : p.Before (p.after c) := by
  by_cases hc : c = '\n'
  · rw [hc, after_lineFeed]
    exact .inl (Int.lt_succ p.line)
  · rw [after_of_ne p hc]
    exact .inr ⟨rfl, Int.lt_succ p.column⟩

theorem before_afterAll (p : Place) {cs : List Char} (h : cs ≠ []) : p.Before (p.afterAll cs) := by
  induction cs generalizing p with
  | nil => exact absurd rfl h
  | cons c cs ih =>
      rw [afterAll_cons]
      by_cases hcs : cs = []
      · subst hcs
        exact p.before_after c
      · exact (p.before_after c).trans (ih _ hcs)

end Place

theorem Point.before_forward {p : Point} {n : Nat} (hn : 0 < n) (hrest : p.rest ≠ []) :
    p.place.Before (p.forward n).place := by
  rw [place_forward]
  apply Place.before_afterAll
  simp only [ne_eq, List.take_eq_nil_iff, not_or]
  exact ⟨by omega, hrest⟩

namespace Grammar.Lexing

/-- Where lexing is stuck, all lexemes have gone before. -/
theorem before_stuck {p q : Point} (h : (ofPoint p).stuck = some q) :
    (p = q ∨ p.place.Before q.place) ∧ ∀ x ∈ (ofPoint p).lexemes, x.place.Before q.place := by
  fun_induction ofPoint p with
  | case1 => cases h
  | case2 p hne hgap ih =>
      obtain ⟨hp, hall⟩ := ih h
      have hstart := Point.before_forward hgap hne
      refine ⟨.inr ?_, hall⟩
      rcases hp with rfl | hp
      · exact hstart
      · exact hstart.trans hp
  | case3 p hne hgap hnone =>
      cases h
      simp
  | case4 p hne hgap symbol hsome hpos more ih =>
      obtain ⟨hp, hall⟩ := ih h
      have hstart := Point.before_forward hpos hne
      have hplace : p.place.Before q.place := by
        rcases hp with rfl | hp
        · exact hstart
        · exact hstart.trans hp
      refine ⟨.inr hplace, ?_⟩
      intro x hx
      rcases List.mem_cons.mp hx with rfl | hx
      · exact hplace
      · exact hall x hx

/-- No lexeme stands for the end of the text, which is not written. -/
theorem terminal_ne_endOfText {p : Point} {x : Lexeme} (hx : x ∈ (ofPoint p).lexemes) :
    x.terminal ≠ .endOfText := by
  fun_induction ofPoint p with
  | case1 => cases hx
  | case2 p hne hgap ih => exact ih hx
  | case3 => cases hx
  | case4 p hne hgap symbol hsome hpos more ih =>
      rcases List.mem_cons.mp hx with rfl | hx
      · intro hend
        apply Symbol.text_ne_nil_of_at? hsome
        obtain ⟨t, content⟩ := symbol
        cases hend
        rfl
      · exact ih hx

end Grammar.Lexing

end ClassDiagram
