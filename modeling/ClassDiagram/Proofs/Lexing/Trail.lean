import ClassDiagram.Proofs.Lexing.Scan
import ClassDiagram.Proofs.Sequencing

/-!
# The way of a scanner

Whatever a scanner is asked for and whether it fails or not, it has only gone forward in its text.
Asked for all, it gets to the end unless it fails.
-/

namespace ClassDiagram.Scanner

variable {α : Type}

/-- The scanner that an outcome leaves behind. -/
def after : EStateM.Result LexError Scanner α → Scanner
  | .ok _ s => s
  | .error _ s => s

theorem exists_forward_scanLabel (start : Place) (s : Scanner) :
    ∃ n, (after (scanLabel start s)).point = s.point.forward n := by
  unfold scanLabel
  dsimp only
  split <;> exact ⟨_, rfl⟩

theorem exists_forward_scanWord (first : List Char) (start : Place) (s : Scanner) :
    ∃ n, (after (scanWord first start s)).point = s.point.forward n := ⟨_, rfl⟩

theorem exists_forward_scanHere (c : Char) (s : Scanner) :
    ∃ n, (after (scanHere c s)).point = s.point.forward n := by
  unfold scanHere
  dsimp only
  split
  · exact ⟨_, rfl⟩
  split
  · obtain ⟨n, hn⟩ := exists_forward_scanLabel s.point.place (s.forward 1)
    exact ⟨1 + n, by rw [hn, point_forward, Point.forward_forward]⟩
  split
  · obtain ⟨n, hn⟩ := exists_forward_scanWord [c] s.point.place (s.forward 1)
    exact ⟨1 + n, by rw [hn, point_forward, Point.forward_forward]⟩
  split <;> exact ⟨1, rfl⟩

theorem exists_forward_scanToken (s : Scanner) :
    ∃ n, (after (scanToken s)).point = s.point.forward n := by
  unfold scanToken
  split
  · exact ⟨_, rfl⟩
  · next c _ _ =>
    obtain ⟨n, hn⟩ := exists_forward_scanHere c s.skipLayout
    refine ⟨Layout.length false s.point.rest + n, ?_⟩
    rw [hn, skipLayout, point_forward, Point.forward_forward]

theorem exists_forward_scanRest (s : Scanner) :
    ∃ n, (after (scanRest s)).point = s.point.forward n := by
  fun_induction scanRest s with
  | case1 s hs => exact ⟨0, rfl⟩
  | case2 s hs s' h _ ih =>
      obtain ⟨m, hm⟩ := exists_forward_scanToken s
      obtain ⟨n, hn⟩ := ih
      rw [h] at hm
      exact ⟨m + n, by rw [hn, ← Point.forward_forward, ← hm]; rfl⟩
  | case3 s hs e s' h =>
      obtain ⟨m, hm⟩ := exists_forward_scanToken s
      rw [h] at hm
      exact ⟨m, hm⟩

theorem rest_of_scanRest_eq_ok {s s' : Scanner} (h : scanRest s = .ok () s') :
    s'.point.rest = [] := by
  fun_induction scanRest s with
  | case1 s hs =>
      cases h
      exact hs
  | case2 s hs s₁ h₁ _ ih => exact ih h
  | case3 s hs e s₁ h₁ => cases h

/-- Where all has been read, the place is the one after the text. -/
theorem place_of_scanRest_eq_ok {s s' : Scanner} (h : scanRest s = .ok () s') :
    s'.point.place = s.point.place.afterAll s.point.rest := by
  obtain ⟨n, hn⟩ := exists_forward_scanRest s
  have hrest := rest_of_scanRest_eq_ok h
  rw [h] at hn
  change s'.point = s.point.forward n at hn
  rw [hn, Point.rest_forward, List.drop_eq_nil_iff] at hrest
  rw [hn, Point.place_forward, List.take_of_length_le hrest]

end ClassDiagram.Scanner

/-- The last token of a text has the place after the text. -/
theorem ClassDiagram.Token.exists_eq_concat_of_ofString? {text : String} {tokens : List Token}
    (h : Token.ofString? text = .ok tokens) :
    ∃ before, tokens = before ++ [⟨.endOfText, "", Place.start.afterAll text.toList⟩] := by
  cases hrest : Scanner.scanRest (Scanner.ofString text) with
  | ok _ s =>
      have hplace : s.point.place = Place.start.afterAll text.toList :=
        Scanner.place_of_scanRest_eq_ok hrest
      have hall : Scanner.scanAll (Scanner.ofString text) =
          .ok () (s.push .endOfText [] s.point.place) := bind_of_ok hrest
      rw [ofString?, hall] at h
      cases h
      exact ⟨s.tokens.toList, by simp [Scanner.push, hplace]⟩
  | error e s =>
      have hall : Scanner.scanAll (Scanner.ofString text) = .error e s := bind_of_error hrest
      rw [ofString?, hall] at h
      cases h
