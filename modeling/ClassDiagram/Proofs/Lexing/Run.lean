import ClassDiagram.Proofs.Lexing.Scan
import ClassDiagram.Proofs.Sequencing

/-!
# Lexemes and tokens of a text

A scanner takes all the layout between two tokens at a time, where lexing drops one run of blanks
or one comment after the other.  Both get to the same point, so a whole text has the lexemes that
its tokens are, and lexing is stuck where the scanner fails.
-/

namespace ClassDiagram

namespace Layout

/-- A comment goes on to the end of its line. -/
theorem length_true (text : List Char) :
    length true text =
      (text.takeWhile (· != '\n')).length +
        length false (text.drop (text.takeWhile (· != '\n')).length) := by
  induction text with
  | nil => rfl
  | cons c rest ih =>
      by_cases hc : c = '\n'
      · subst hc
        simp [length, isSpace]
      · have hne : (c != '\n') = true := by simpa using hc
        simp only [length, if_true, hne, ih, List.takeWhile_cons, List.length_cons,
          List.drop_succ_cons]
        omega

theorem length_false_of_space (text : List Char) :
    length false text =
      (text.takeWhile isSpace).length +
        length false (text.drop (text.takeWhile isSpace).length) := by
  induction text with
  | nil => rfl
  | cons c rest ih =>
      by_cases hc : isSpace c
      · simp [length, hc, ih]
        omega
      · simp [hc]

open Grammar

/-- Layout may be taken one gap at a time. -/
theorem length_eq_gapLength_add (text : List Char) :
    length false text = gapLength text + length false (text.drop (gapLength text)) := by
  unfold gapLength
  split
  · next rest =>
    have hcomment : length false ('/' :: '/' :: rest) = length true ('/' :: '/' :: rest) := by
      simp [length, isSpace]
    rw [hcomment, length_true]
  · exact length_false_of_space text

/-- Where there is no gap, there is no layout. -/
theorem length_of_gapLength_eq_zero {text : List Char} (h : gapLength text = 0) :
    length false text = 0 := by
  unfold gapLength at h
  split at h
  · simp at h
  · next hcomment =>
    cases text with
    | nil => rfl
    | cons c rest =>
        have hc : isSpace c = false := by
          cases hspace : isSpace c with
          | false => rfl
          | true => simp [hspace] at h
        have hslash : (c == '/' && rest.head? == some '/') = false := by
          cases rest with
          | nil => simp
          | cons d rest => simpa using fun hc' hd => hcomment rest (by rw [hc', hd])
        simp [length, hc, hslash]

end Layout

namespace Scanner

open Grammar

theorem skipLayout_forward_gap (s : Scanner) :
    (s.forward (gapLength s.point.rest)).skipLayout = s.skipLayout := by
  rw [skipLayout, forward_forward, point_forward, Point.rest_forward,
    ← Layout.length_eq_gapLength_add, skipLayout]

theorem scanRest_of_nil {s : Scanner} (h : s.point.rest = []) : scanRest s = .ok () s := by
  rw [scanRest, dif_pos h]

theorem scanRest_of_ok {s s' : Scanner} (hs : s.point.rest ≠ []) (h : scanToken s = .ok () s') :
    scanRest s = scanRest s' := by
  rw [scanRest, dif_neg hs]
  split
  · next s'' h' =>
    rw [h] at h'
    cases h'
    rfl
  · next e s'' h' =>
    rw [h] at h'
    cases h'

theorem scanRest_of_error {s s' : Scanner} {e : LexError} (hs : s.point.rest ≠ [])
    (h : scanToken s = .error e s') : scanRest s = .error e s' := by
  rw [scanRest, dif_neg hs]
  split
  · next s'' h' =>
    rw [h] at h'
    cases h'
  · next e' s'' h' =>
    rw [h] at h'
    cases h'
    rfl

theorem skipLayout_of_no_gap {s : Scanner} (h : gapLength s.point.rest = 0) : s.skipLayout = s := by
  rw [skipLayout, Layout.length_of_gapLength_eq_zero h]
  rfl

theorem scanToken_of_no_gap {s : Scanner} {c : Char} {rest : List Char}
    (hrest : s.point.rest = c :: rest) (h : gapLength s.point.rest = 0) :
    scanToken s = scanHere c s := by
  unfold scanToken
  rw [skipLayout_of_no_gap h, hrest]

/-- A gap makes no difference to what a scanner reads. -/
theorem scanRest_forward_gap (s : Scanner) :
    scanRest (s.forward (gapLength s.point.rest)) = scanRest s := by
  by_cases hs : s.point.rest = []
  · rw [hs]
    rfl
  generalize hs₁ : s.forward (gapLength s.point.rest) = s₁
  have htoken : scanToken s = scanToken s₁ := by
    unfold scanToken
    rw [← hs₁, skipLayout_forward_gap]
  by_cases hend : s₁.point.rest = []
  · have hstay : scanToken s₁ = .ok () s₁ := by
      unfold scanToken
      rw [skipLayout_of_no_gap (by rw [hend]; rfl), hend]
    exact (scanRest_of_ok hs (htoken.trans hstay)).symm
  · cases hout : scanToken s₁ with
    | ok _ s' => rw [scanRest_of_ok hs (htoken.trans hout), scanRest_of_ok hend hout]
    | error e s' => rw [scanRest_of_error hs (htoken.trans hout), scanRest_of_error hend hout]

/-- A scanner lexes its text: it reads the lexemes as tokens, and then comes to the end or fails
where no terminal fits. -/
def Lexes (s : Scanner) (lexing : Lexing) : Prop :=
  match lexing.stuck with
  | none => ∃ p, scanRest s = .ok () ⟨p, s.tokens ++ (lexing.lexemes.map Lexeme.token).toArray⟩
  | some q => ∃ problem p, scanRest s =
      .error ⟨problem, q.place⟩ ⟨p, s.tokens ++ (lexing.lexemes.map Lexeme.token).toArray⟩ ∧
    problem.Explains q.rest

theorem lexes_ofPoint (p : Point) (tokens : Array Token) :
    Lexes ⟨p, tokens⟩ (Lexing.ofPoint p) := by
  -- Lexemes and gaps are taken one by one here, but the scanner takes a gap with what follows it.
  fun_induction Lexing.ofPoint p generalizing tokens with
  | case1 p hnil => exact ⟨p, by simp [scanRest_of_nil (s := ⟨p, tokens⟩) hnil]⟩
  | case2 p hne hgap ih =>
      have hscan : scanRest ⟨p, tokens⟩ = scanRest ⟨p.forward (gapLength p.rest), tokens⟩ :=
        (scanRest_forward_gap ⟨p, tokens⟩).symm
      simpa only [Lexes, hscan] using ih tokens
  | case3 p hne hgap hnone =>
      obtain ⟨c, rest, hrest⟩ := List.exists_cons_of_ne_nil hne
      have htoken := scanToken_of_no_gap (s := ⟨p, tokens⟩) hrest (Nat.eq_zero_of_not_pos hgap)
      obtain ⟨problem, ⟨p', tokens'⟩, hout, htokens, hproblem⟩ :=
        scanHere_of_no_symbol (s := ⟨p, tokens⟩) hrest hnone
      obtain rfl : tokens' = tokens := htokens
      refine ⟨problem, p', ?_, hproblem⟩
      rw [scanRest_of_error hne (htoken.trans hout)]
      simp
  | case4 p hne hgap symbol hsome _ more ih =>
      obtain ⟨c, rest, hrest⟩ := List.exists_cons_of_ne_nil hne
      have htoken := scanToken_of_no_gap (s := ⟨p, tokens⟩) hrest (Nat.eq_zero_of_not_pos hgap)
      let t : Token := Lexeme.token ⟨symbol, p.offset, p.place⟩
      have hscan : scanRest ⟨p, tokens⟩ = scanRest ⟨p.forward symbol.text.length, tokens.push t⟩ :=
        scanRest_of_ok hne (htoken.trans (scanHere_of_symbol hrest hsome))
      have hpush (more : List Token) :
          tokens.push t ++ more.toArray = tokens ++ (t :: more).toArray := by
        simp
      have hmore := ih (tokens.push t)
      simp only [Lexes, hpush, ← hscan] at hmore
      exact hmore

end Scanner

/-- The lexemes of a text. -/
def Grammar.Lexing.ofString (text : String) : Lexing := ofPoint (.ofString text)

open Grammar

theorem Token.ofString?_of_lexemes {text : String} (h : (Lexing.ofString text).stuck = none) :
    ∃ place, ofString? text =
      .ok ((Lexing.ofString text).lexemes.map Lexeme.token ++ [⟨.endOfText, "", place⟩]) := by
  have hlexes : Scanner.Lexes ⟨.ofString text, #[]⟩ (Lexing.ofString text) :=
    Scanner.lexes_ofPoint _ _
  simp only [Scanner.Lexes, h, Array.empty_append] at hlexes
  obtain ⟨p, hrest⟩ := hlexes
  refine ⟨p.place, ?_⟩
  have hall : Scanner.scanAll (Scanner.ofString text) = .ok ()
      ((⟨p, ((Lexing.ofString text).lexemes.map Lexeme.token).toArray⟩ : Scanner).push
        .endOfText [] p.place) := bind_of_ok hrest
  simp [ofString?, hall, Scanner.push]

/-- A text whose lexing is stuck fails there, after the tokens that its lexemes are. -/
theorem Scanner.scanAll_of_stuck {text : String} {q : Point}
    (h : (Lexing.ofString text).stuck = some q) :
    ∃ problem s, scanAll (ofString text) = .error ⟨problem, q.place⟩ s ∧
      s.tokens.toList = (Lexing.ofString text).lexemes.map Lexeme.token ∧
      problem.Explains q.rest := by
  have hlexes : Lexes ⟨.ofString text, #[]⟩ (Lexing.ofString text) := lexes_ofPoint _ _
  simp only [Lexes, h, Array.empty_append] at hlexes
  obtain ⟨problem, p, hrest, hproblem⟩ := hlexes
  exact ⟨problem, ⟨p, ((Lexing.ofString text).lexemes.map Lexeme.token).toArray⟩,
    bind_of_error hrest, rfl, hproblem⟩

end ClassDiagram
