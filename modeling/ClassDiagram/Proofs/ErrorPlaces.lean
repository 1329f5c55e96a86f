import ClassDiagram.Proofs.Readers
import Mathlib.Data.List.Basic

/-!
# Where the readers find errors

Both readers report the first error, each in its own way.  By descent, a text is scanned to its end
before the first rule is tried, so an unknown character hides a broken rule that stands before it;
by the grammar, whatever comes first in the text is reported.  A text that stops too early is blamed
on its end by descent, and on the place of its last lexeme by the grammar.
-/

namespace ClassDiagram.Reader

open Grammar

variable {text : String}

theorem read_grammar_of_error {r : Rejection} (h : diagramOf text = .error r) :
    read .grammar text = .error (.grammar r) := by
  rw [read, h]
  rfl

theorem exists_steps?_lexemes_iff :
    (∃ s, State.start.steps? (Lexing.ofString text).lexemes = some s) ↔
      Token.Viable (Token.ofLexemes text) := by
  apply State.exists_steps?_iff_viable
  intro x hx
  exact Lexing.terminal_ne_endOfText hx

/-- A token that stands for a lexeme of the text and that no document goes on with is what the
grammar finds unexpected. -/
theorem read_grammar_of_not_viable {run rest : List Token} {t : Token}
    (htokens : Token.ofLexemes text = run ++ t :: rest) (hrun : Token.Viable run)
    (ht : ¬ Token.Viable (run ++ [t])) :
    ∃ x expected, read .grammar text = .error (.grammar (.unexpectedLexeme x expected)) ∧
      x.token = t := by
  obtain ⟨before, more, hlexemes, rfl, hmore⟩ := List.map_eq_append_iff.mp htokens
  obtain ⟨x, after, rfl, rfl, rfl⟩ := List.map_eq_cons_iff.mp hmore
  have hinner := Lexing.terminal_ne_endOfText_of_append hlexemes
  obtain ⟨s, hbefore⟩ := (State.exists_steps?_iff_viable fun y hy =>
    hinner y (List.mem_append_left _ hy)).mpr hrun
  have hx := (State.step?_eq_none_iff hbefore hinner).mpr ht
  exact ⟨x, _, read_grammar_of_error (diagramOf_of_refused hlexemes hbefore hx), rfl⟩

/-- A text with a broken rule is made of tokens.  Either the one to blame stands for a lexeme, or it
stands for the end and the lexemes begin a document without being one. -/
theorem blame_of_read_descent {e : ParseError} (h : read .descent text = .error (.parse e)) :
    (Lexing.ofString text).stuck = none ∧ ∃ place,
      Token.ofString? text = .ok (Token.ofLexemes text ++ [⟨.endOfText, "", place⟩]) ∧
      ((∃ run rest, Token.ofLexemes text = run ++ e.token :: rest ∧ Token.Viable run ∧
          ¬ Token.Viable (run ++ [e.token])) ∨
        e.token = ⟨.endOfText, "", place⟩ ∧ Token.Viable (Token.ofLexemes text) ∧
          ∀ d, ¬ DocumentPhrase (Token.ofLexemes text) d) := by
  cases hstuck : (Lexing.ofString text).stuck with
  | some q =>
      obtain ⟨problem, hlex⟩ := Token.exists_ofString?_of_stuck hstuck
      rw [read_descent_of_lexError hlex] at h
      cases h
  | none =>
      obtain ⟨place, htokens⟩ := Token.ofString?_of_lexemes hstuck
      rw [← Token.ofLexemes] at htokens
      have hbroken := (read_descent_eq_parse_iff htokens).mp h
      obtain ⟨run, rest, hrun, hviable, hfirst⟩ := Diagram.exists_first_error hbroken
      refine ⟨rfl, place, htokens, ?_⟩
      -- The tokens are the lexemes and the end, so the blame is on the end if nothing follows it.
      rcases List.eq_nil_or_concat' rest with rfl | ⟨more, last, rfl⟩
      · obtain ⟨rfl, hlast⟩ := List.append_inj' hrun rfl
        have he : e.token = ⟨.endOfText, "", place⟩ := (List.cons.inj hlast).1.symm
        refine .inr ⟨he, hviable, fun d hdocument => ?_⟩
        have closed : Token.Closed (Token.ofLexemes text ++ [⟨.endOfText, "", place⟩]) :=
          Token.closed_append rfl
        rw [Diagram.ofTokens_of_document hdocument rfl closed] at hbroken
        cases hbroken
      · have hassoc : run ++ e.token :: (more ++ [last]) = (run ++ e.token :: more) ++ [last] := by
          simp
        obtain ⟨hlexemes, -⟩ := List.append_inj' (hrun.trans hassoc) rfl
        exact .inl ⟨run, more, hlexemes, hviable, hfirst⟩

/-- A broken rule is found by the grammar on the same token. -/
theorem read_grammar_of_parse {e : ParseError} (h : read .descent text = .error (.parse e))
    (he : e.token.kind ≠ .endOfText) :
    ∃ x expected, read .grammar text = .error (.grammar (.unexpectedLexeme x expected)) ∧
      x.token = e.token := by
  obtain ⟨-, place, -, ⟨run, rest, htokens, hviable, hfirst⟩ | ⟨hend, -⟩⟩ := blame_of_read_descent h
  · exact read_grammar_of_not_viable htokens hviable hfirst
  · rw [hend] at he
    exact absurd rfl he

/-- A text that stops too early is blamed on its end by descent, and on the place of its last lexeme
by the grammar. -/
theorem read_grammar_of_parse_end {e : ParseError} (h : read .descent text = .error (.parse e))
    (he : e.token.kind = .endOfText) :
    ∃ tokens last, Token.ofString? text = .ok (tokens ++ [last, e.token]) ∧
      ∃ x expected, read .grammar text = .error (.grammar (.unexpectedLexeme x expected)) ∧
        x.terminal = .endOfText ∧ x.place = last.place := by
  obtain ⟨hstuck, place, hstring, hblame⟩ := blame_of_read_descent h
  rcases hblame with ⟨run, rest, htokens, -⟩ | ⟨hend, hviable, hnone⟩
  · have hmem : e.token ∈ Token.ofLexemes text := by simp [htokens]
    exact absurd he (Token.kind_of_mem_ofLexemes hmem)
  obtain ⟨s, hsteps⟩ := exists_steps?_lexemes_iff.mpr hviable
  have hcomplete : s.complete? = none := by
    cases hd : s.complete? with
    | none => rfl
    | some d => exact absurd (State.document_of_steps? hsteps hd) (hnone d)
  have hread := read_grammar_of_error (diagramOf_of_incomplete hsteps hstuck hcomplete)
  rcases List.eq_nil_or_concat' (Lexing.ofString text).lexemes with hnil | ⟨before, x, hlast⟩
  · rw [hnil] at hsteps
    cases hsteps
    cases hcomplete
  · refine ⟨before.map Lexeme.token, x.token, ?_, _, _, hread, rfl, ?_⟩
    · rw [hstring, hend, Token.ofLexemes, hlast]
      simp
    · simp [hlast, endLexeme]

/-- If the lexemes of a text do not begin a document, there is a first one that no document goes on
with. -/
theorem exists_first_refused (h : ¬ Token.Viable (Token.ofLexemes text)) :
    ∃ run t rest, Token.ofLexemes text = run ++ t :: rest ∧ Token.Viable run ∧
      ¬ Token.Viable (run ++ [t]) := by
  cases hsteps : State.start.steps? (Lexing.ofString text).lexemes with
  | some s => exact absurd (State.viable_of_steps? hsteps) h
  | none =>
      obtain ⟨before, x, after, s, hlexemes, hbefore, hx⟩ := State.exists_refused hsteps
      have hinner := Lexing.terminal_ne_endOfText_of_append hlexemes
      refine ⟨before.map Lexeme.token, x.token, after.map Lexeme.token, ?_,
        State.viable_of_steps? hbefore, (State.step?_eq_none_iff hbefore hinner).mp hx⟩
      rw [Token.ofLexemes, hlexemes]
      simp

/-- Where the text is not made of tokens, the grammar finds the same place if what stands before it
begins a document, and a lexeme before that place otherwise. -/
theorem read_grammar_of_lex {e : LexError} (h : read .descent text = .error (.lex e)) :
    ∃ s, Scanner.scanAll (.ofString text) = .error e s ∧
      (Token.Viable s.tokens.toList → ∃ c offset excerpt previous, read .grammar text =
        .error (.grammar (.unexpectedCharacter c offset e.place excerpt previous))) ∧
      (¬ Token.Viable s.tokens.toList → ∃ run t rest, s.tokens.toList = run ++ t :: rest ∧
        Token.Viable run ∧ ¬ Token.Viable (run ++ [t]) ∧ t.place.Before e.place ∧
        ∃ x expected, read .grammar text = .error (.grammar (.unexpectedLexeme x expected)) ∧
          x.place = t.place) := by
  have hlex : Token.ofString? text = .error e := by
    rcases error_of_read_descent h with ⟨l, hl, hlex⟩ | ⟨p, tokens, hp, -⟩
    · cases hl
      exact hlex
    · cases hp
  cases hstuck : (Lexing.ofString text).stuck with
  | none =>
      obtain ⟨place, htokens⟩ := Token.ofString?_of_lexemes hstuck
      rw [hlex] at htokens
      cases htokens
  | some q =>
      obtain ⟨problem, s, hscan, htokens, -⟩ := Scanner.scanAll_of_stuck hstuck
      rw [← Token.ofLexemes] at htokens
      obtain rfl : e = ⟨problem, q.place⟩ := by
        simpa [Token.ofString?, hscan] using hlex.symm
      refine ⟨s, hscan, ?_, ?_⟩
      · intro hviable
        rw [htokens] at hviable
        obtain ⟨s', hsteps⟩ := exists_steps?_lexemes_iff.mpr hviable
        exact ⟨_, _, _, _, read_grammar_of_error (diagramOf_of_stuck hsteps hstuck)⟩
      · intro hviable
        rw [htokens] at hviable ⊢
        obtain ⟨run, t, rest, hsplit, hrun, ht⟩ := exists_first_refused hviable
        obtain ⟨y, expected, hread, hy⟩ := read_grammar_of_not_viable hsplit hrun ht
        have hmem : t ∈ Token.ofLexemes text := by simp [hsplit]
        obtain ⟨x, hx, rfl⟩ := List.mem_map.mp hmem
        have hbefore := (Lexing.before_stuck hstuck).2 x hx
        exact ⟨_, _, _, hsplit, hrun, ht, hbefore, y, expected, hread, congrArg Token.place hy⟩

/-- Where the two readers find the error of a text.  A broken rule at a lexeme is found by both at
that lexeme.  A text that stops too early is blamed on its end by descent, and by the grammar on the
place of its last lexeme.  A text that is not made of tokens is found out by descent where the first
unknown token stands; by the grammar there as well if the tokens before it begin a document, and
otherwise at the first token that no document goes on with, which stands before that place. -/
theorem error_places_agree (text : String) :
    (∀ e, read .descent text = .error (.parse e) → e.token.kind ≠ .endOfText →
      ∃ x expected, read .grammar text = .error (.grammar (.unexpectedLexeme x expected)) ∧
        x.token = e.token ∧ x.place = e.token.place) ∧
    (∀ e, read .descent text = .error (.parse e) → e.token.kind = .endOfText →
      ∃ tokens last, Token.ofString? text = .ok (tokens ++ [last, e.token]) ∧
        ∃ x expected, read .grammar text = .error (.grammar (.unexpectedLexeme x expected)) ∧
          x.terminal = .endOfText ∧ x.place = last.place) ∧
    ∀ e, read .descent text = .error (.lex e) →
      ∃ s, Scanner.scanAll (.ofString text) = .error e s ∧
        (Token.Viable s.tokens.toList → ∃ c offset excerpt previous, read .grammar text =
          .error (.grammar (.unexpectedCharacter c offset e.place excerpt previous))) ∧
        (¬ Token.Viable s.tokens.toList → ∃ run t rest, s.tokens.toList = run ++ t :: rest ∧
          Token.Viable run ∧ ¬ Token.Viable (run ++ [t]) ∧ t.place.Before e.place ∧
          ∃ x expected, read .grammar text = .error (.grammar (.unexpectedLexeme x expected)) ∧
            x.place = t.place) := by
  refine ⟨fun e h he => ?_, fun e h he => read_grammar_of_parse_end h he,
    fun e h => read_grammar_of_lex h⟩
  obtain ⟨x, expected, hread, hx⟩ := read_grammar_of_parse h he
  exact ⟨x, expected, hread, hx, congrArg Token.place hx⟩

/-- A class without a name, before a parenthesis, at the end, and before an unknown character. -/
theorem error_places_agree_class :
    (∃ x expected, read .grammar "class (" = .error (.grammar (.unexpectedLexeme x expected)) ∧
      x.place = ⟨1, 7⟩) ∧
    (∃ x expected, read .grammar "class" = .error (.grammar (.unexpectedLexeme x expected)) ∧
      x.terminal = .endOfText ∧ x.place = ⟨1, 1⟩) ∧
    (∃ c offset excerpt previous, read .grammar "class @" =
      .error (.grammar (.unexpectedCharacter c offset ⟨1, 7⟩ excerpt previous))) ∧
    ∃ x expected, read .grammar "class ( @" = .error (.grammar (.unexpectedLexeme x expected)) ∧
      x.place.Before ⟨1, 9⟩ := by
  let word : Token := ⟨.classWord, "class", ⟨1, 1⟩⟩
  let opening : Token := ⟨.leftParenthesis, "(", ⟨1, 7⟩⟩
  have hopening : Diagram.ofTokens [word, opening, ⟨.endOfText, "", ⟨1, 8⟩⟩] = .error (.broken
      ⟨opening, .expected "class name" "class declaration"⟩) := by
    decide +kernel
  refine ⟨?_, ?_, ?_, ?_⟩
  · have htokens : Token.ofString? "class (" = .ok [word, opening, ⟨.endOfText, "", ⟨1, 8⟩⟩] := by
      decide +kernel
    obtain ⟨x, expected, hread, -, hplace⟩ := (error_places_agree _).1 _
      ((read_descent_eq_parse_iff htokens).mpr hopening) (by decide)
    exact ⟨x, expected, hread, hplace⟩
  · have htokens : Token.ofString? "class" = .ok [word, ⟨.endOfText, "", ⟨1, 6⟩⟩] := by
      decide +kernel
    have hend : Diagram.ofTokens [word, ⟨.endOfText, "", ⟨1, 6⟩⟩] = .error (.broken
        ⟨⟨.endOfText, "", ⟨1, 6⟩⟩, .expected "class name" "class declaration"⟩) := by
      decide +kernel
    obtain ⟨tokens, last, hlast, x, expected, hread, hx, hplace⟩ := (error_places_agree _).2.1 _
      ((read_descent_eq_parse_iff htokens).mpr hend) rfl
    rw [htokens] at hlast
    cases tokens with
    | nil =>
        cases hlast
        exact ⟨x, expected, hread, hx, hplace⟩
    | cons t more =>
        have hlength := congrArg List.length (Except.ok.inj hlast)
        simp at hlength
  · have hlex : Token.ofString? "class @" = .error ⟨.unexpectedCharacter '@', ⟨1, 7⟩⟩ := by
      decide +kernel
    obtain ⟨s, hscan, hviable, -⟩ := (error_places_agree _).2.2 _ (read_descent_of_lexError hlex)
    have htokens : (match Scanner.scanAll (.ofString "class @") with
        | .ok _ s => s.tokens.toList
        | .error _ s => s.tokens.toList) = [word] := by
      decide +kernel
    rw [hscan] at htokens
    change s.tokens.toList = [word] at htokens
    apply hviable
    have hclass : ClassPhrase [word, ⟨.identifier, "A", ⟨1, 7⟩⟩] _ := .bare rfl rfl
    have hdocument := DocumentPhrase.intro (.cons (.classDeclaration hclass) .nil)
    exact htokens ▸ Token.viable_of_document hdocument
  · have hlex : Token.ofString? "class ( @" = .error ⟨.unexpectedCharacter '@', ⟨1, 9⟩⟩ := by
      decide +kernel
    obtain ⟨s, hscan, -, hrefused⟩ := (error_places_agree _).2.2 _ (read_descent_of_lexError hlex)
    have htokens : (match Scanner.scanAll (.ofString "class ( @") with
        | .ok _ s => s.tokens.toList
        | .error _ s => s.tokens.toList) = [word, opening] := by
      decide +kernel
    rw [hscan] at htokens
    change s.tokens.toList = [word, opening] at htokens
    have hviable : ¬ Token.Viable [word, opening] := by
      obtain ⟨run, rest, hrun, -, hfirst⟩ := Diagram.exists_first_error hopening
      match run with
      | [] => simp [word, opening] at hrun
      | [_] =>
          cases hrun
          exact hfirst
      | [_, _] => simp [opening] at hrun
      | _ :: _ :: _ :: _ => simp at hrun
    rw [htokens] at hrefused
    obtain ⟨run, t, rest, -, -, -, hbefore, x, expected, hread, hplace⟩ := hrefused hviable
    exact ⟨x, expected, hread, hplace ▸ hbefore⟩

end ClassDiagram.Reader
