import ClassDiagram.Proofs.Readers

/-!
# The two readers agree

Reading by descent and reading by the grammar are two programs for one language.  A text is read by
either of them if its lexemes are a document, and then both read that document.
-/

namespace ClassDiagram.Reader

open Grammar

/-- The two readers read the same texts, and the same diagram from each.  The texts they read are
those whose lexemes the productions of the grammar derive, and the diagram is the one that the
lexemes say.  By descent, what else can happen is that the text is not made of tokens or that a rule
is broken, and by the grammar, that a lexeme or a character is unexpected. -/
theorem readers_agree (text : String) :
    (∀ d, read .descent text = .ok d ↔ read .grammar text = .ok d) ∧
    ((∃ d, read .grammar text = .ok d) ↔ (Lexing.ofString text).stuck = none ∧
      (Expression.nonterminal .document).Derives
        ((Lexing.ofString text).lexemes.map (·.terminal))) ∧
    (∀ d, read .grammar text = .ok d ↔
      (Lexing.ofString text).stuck = none ∧ DocumentPhrase (Token.ofLexemes text) d) ∧
    (∀ e, read .descent text = .error e →
      (∃ l, e = .lex l ∧ Token.ofString? text = .error l) ∨
      ∃ p tokens, e = .parse p ∧ Token.ofString? text = .ok tokens ∧
        Diagram.ofTokens tokens = .error (.broken p)) ∧
    ∀ e, read .grammar text = .error e →
      (∃ x expected, e = .grammar (.unexpectedLexeme x expected)) ∨
      ∃ c offset place excerpt previous,
        e = .grammar (.unexpectedCharacter c offset place excerpt previous) := by
  refine ⟨fun d => ?_, exists_read_grammar_iff_derives, fun d => read_grammar_eq_ok_iff,
    fun e h => ?_, fun e h => ?_⟩
  · rw [read_descent_eq_ok_iff, read_grammar_eq_ok_iff]
  · exact error_of_read_descent h
  · obtain ⟨r, rfl⟩ := error_of_read_grammar h
    cases r with
    | unexpectedLexeme x expected => exact .inl ⟨x, expected, rfl⟩
    | unexpectedCharacter c offset place excerpt previous =>
        exact .inr ⟨c, offset, place, excerpt, previous, rfl⟩

/-- A label with an escape, and a class that breaks off. -/
theorem readers_agree_label :
    read .grammar "a -- \"x\\ny\" b" = .ok { entities := [.relationship {
      name := "a -- b", source := "a", target := "b", kind := .association, operator := "--",
      rightLabel := some "x\ny", place := ⟨1, 1⟩ }] } ∧
    ∃ e, read .descent "class (" = .error e ∧
      ((∃ l, e = .lex l ∧ Token.ofString? "class (" = .error l) ∨
      ∃ p tokens, e = .parse p ∧ Token.ofString? "class (" = .ok tokens ∧
        Diagram.ofTokens tokens = .error (.broken p)) ∧
      ∃ e', read .grammar "class (" = .error e' ∧
        ((∃ x expected, e' = .grammar (.unexpectedLexeme x expected)) ∨
        ∃ c offset place excerpt previous,
          e' = .grammar (.unexpectedCharacter c offset place excerpt previous)) := by
  constructor
  · refine ((readers_agree _).1 _).mp ?_
    have htokens : Token.ofString? "a -- \"x\\ny\" b" = .ok
        [⟨.identifier, "a", ⟨1, 1⟩⟩, ⟨.operator .association, "--", ⟨1, 3⟩⟩,
          ⟨.quotation, "x\ny", ⟨1, 6⟩⟩, ⟨.identifier, "b", ⟨1, 13⟩⟩,
          ⟨.endOfText, "", ⟨1, 14⟩⟩] := by
      decide +kernel
    rw [read_descent_eq_ok_iff_ofTokens htokens]
    decide +kernel
  · have htokens : Token.ofString? "class (" = .ok
        [⟨.classWord, "class", ⟨1, 1⟩⟩, ⟨.leftParenthesis, "(", ⟨1, 7⟩⟩,
          ⟨.endOfText, "", ⟨1, 8⟩⟩] := by
      decide +kernel
    have herror : read .descent "class (" = .error (.parse
        ⟨⟨.leftParenthesis, "(", ⟨1, 7⟩⟩, .expected "class name" "class declaration"⟩) := by
      rw [read_descent_eq_parse_iff htokens]
      decide +kernel
    refine ⟨_, herror, (readers_agree _).2.2.2.1 _ herror, ?_⟩
    cases hgrammar : read .grammar "class (" with
    | ok d =>
        have hok := ((readers_agree _).1 d).mpr hgrammar
        rw [herror] at hok
        cases hok
    | error e' => exact ⟨e', rfl, (readers_agree _).2.2.2.2 _ hgrammar⟩

end ClassDiagram.Reader
