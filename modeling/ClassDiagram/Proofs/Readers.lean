import ClassDiagram.Proofs.Automaton.Productions
import ClassDiagram.Proofs.Lexing.Order
import ClassDiagram.Proofs.Lexing.Run
import ClassDiagram.Reader

/-!
# What the readers do with a text

Both readers are told by the lexemes of a text.  By descent, a text fails where its lexing is stuck,
and is otherwise read as the tokens that its lexemes are.  By the grammar, the first lexeme that the
automaton refuses comes first, then the point where lexing is stuck, then the end of the text.
-/

namespace ClassDiagram

open Grammar

namespace Diagram

variable {text : String}

theorem ofString_of_lexError {e : LexError} (h : Token.ofString? text = .error e) :
    ofString text = .error (.lex e) := by
  unfold ofString
  split
  · next e' h' =>
    rw [h] at h'
    cases h'
    rfl
  · next tokens h' =>
    rw [h] at h'
    cases h'

/-- The tokens of a text are closed, so only the rules can fail on them. -/
theorem ofString_of_tokens {tokens : List Token} (h : Token.ofString? text = .ok tokens) :
    ∃ outcome : Except ParseError Diagram,
      ofString text = outcome.mapError .parse ∧ ofTokens tokens = outcome.mapError .broken := by
  have closed : Token.Closed tokens := Token.closed_of_ofString? h
  refine ⟨ofClosedTokens tokens closed, ?_, dif_pos closed⟩
  unfold ofString
  split
  · next e h' =>
    rw [h] at h'
    cases h'
  · next tokens' h' =>
    rw [h] at h'
    cases h'
    rfl

end Diagram

namespace Grammar

variable {text : String} {s : State}

theorem diagramOf_of_steps? (h : State.start.steps? (Lexing.ofString text).lexemes = some s) :
    diagramOf text = State.run text.toList (Lexing.ofString text).stuck []
      (Lexing.ofString text).lexemes.getLast? s := by
  have hrun : State.run text.toList (Lexing.ofString text).stuck
      ((Lexing.ofString text).lexemes ++ []) none .start = _ := State.run_of_steps? h
  rw [List.append_nil, Option.or_none] at hrun
  exact hrun

theorem diagramOf_of_stuck {q : Point}
    (h : State.start.steps? (Lexing.ofString text).lexemes = some s)
    (hstuck : (Lexing.ofString text).stuck = some q) :
    diagramOf text =
      .error (.atPoint text.toList (Lexing.ofString text).lexemes.getLast? q) := by
  rw [diagramOf_of_steps? h, hstuck]
  rfl

theorem diagramOf_of_complete {d : Diagram}
    (h : State.start.steps? (Lexing.ofString text).lexemes = some s)
    (hstuck : (Lexing.ofString text).stuck = none) (hd : s.complete? = some d) :
    diagramOf text = .ok d := by
  rw [diagramOf_of_steps? h, hstuck]
  simp only [State.run, hd]

theorem diagramOf_of_incomplete
    (h : State.start.steps? (Lexing.ofString text).lexemes = some s)
    (hstuck : (Lexing.ofString text).stuck = none) (hd : s.complete? = none) :
    diagramOf text = .error (.unexpectedLexeme
      (endLexeme (Lexing.ofString text).lexemes.getLast?) (s.expected .endOfText)) := by
  rw [diagramOf_of_steps? h, hstuck]
  simp only [State.run, hd]

theorem diagramOf_of_refused {before after : List Lexeme} {x : Lexeme}
    (hlexemes : (Lexing.ofString text).lexemes = before ++ x :: after)
    (hbefore : State.start.steps? before = some s) (hx : s.step? x = none) :
    diagramOf text = .error (.unexpectedLexeme x (s.expected x.terminal)) := by
  have hrun : State.run text.toList (Lexing.ofString text).stuck (before ++ x :: after) none
      .start = _ := State.run_of_steps? hbefore
  rw [State.run_of_refused hx, ← hlexemes] at hrun
  exact hrun

/-- The grammar reads a text if lexing comes to its end and the automaton may end there. -/
theorem diagramOf_eq_ok_iff {d : Diagram} :
    diagramOf text = .ok d ↔ (Lexing.ofString text).stuck = none ∧
      ∃ s, State.start.steps? (Lexing.ofString text).lexemes = some s ∧ s.complete? = some d := by
  constructor
  · intro hd
    cases h : State.start.steps? (Lexing.ofString text).lexemes with
    | none =>
        obtain ⟨before, x, after, s, hlexemes, hbefore, hx⟩ := State.exists_refused h
        rw [diagramOf_of_refused hlexemes hbefore hx] at hd
        cases hd
    | some s =>
        cases hstuck : (Lexing.ofString text).stuck with
        | some q =>
            rw [diagramOf_of_stuck h hstuck] at hd
            cases hd
        | none =>
            cases hcomplete : s.complete? with
            | none =>
                rw [diagramOf_of_incomplete h hstuck hcomplete] at hd
                cases hd
            | some d' =>
                rw [diagramOf_of_complete h hstuck hcomplete] at hd
                cases hd
                exact ⟨rfl, s, rfl, hcomplete⟩
  · rintro ⟨hstuck, s, h, hd⟩
    exact diagramOf_of_complete h hstuck hd

end Grammar

theorem Grammar.Lexing.terminal_ne_endOfText_of_append {text : String} {before after : List Lexeme}
    {x : Lexeme} (h : (ofString text).lexemes = before ++ x :: after) :
    ∀ y ∈ before ++ [x], y.terminal ≠ .endOfText := by
  intro y hy
  have hmem : y ∈ (ofString text).lexemes := by
    rw [h, List.append_cons]
    exact List.mem_append_left after hy
  exact terminal_ne_endOfText hmem

/-- The tokens that the lexemes of a text are. -/
def Token.ofLexemes (text : String) : List Token :=
  (Lexing.ofString text).lexemes.map Lexeme.token

namespace Token

theorem exists_ofString?_of_stuck {text : String} {q : Point}
    (h : (Lexing.ofString text).stuck = some q) :
    ∃ problem, ofString? text = .error ⟨problem, q.place⟩ := by
  obtain ⟨problem, s, hscan, -⟩ := Scanner.scanAll_of_stuck h
  exact ⟨problem, by simp [ofString?, hscan]⟩

theorem kind_of_mem_ofLexemes {text : String} {t : Token} (h : t ∈ ofLexemes text) :
    t.kind ≠ .endOfText := by
  obtain ⟨x, hx, rfl⟩ := List.mem_map.mp h
  exact Symbol.kind_ne_endOfText (Lexing.terminal_ne_endOfText hx)

theorem beforeEnd_ofLexemes {text : String} {last : Token} (hlast : last.kind = .endOfText) :
    beforeEnd (ofLexemes text ++ [last]) = ofLexemes text :=
  beforeEnd_append (fun _ => kind_of_mem_ofLexemes) hlast

end Token

namespace Reader

variable {text : String} {d : Diagram}

theorem read_descent_of_lexError {e : LexError} (h : Token.ofString? text = .error e) :
    read .descent text = .error (.lex e) := Diagram.ofString_of_lexError h

theorem read_descent_eq_ok_iff_ofTokens {tokens : List Token}
    (h : Token.ofString? text = .ok tokens) :
    read .descent text = .ok d ↔ Diagram.ofTokens tokens = .ok d := by
  obtain ⟨outcome, hstring, htokens⟩ := Diagram.ofString_of_tokens h
  rw [htokens, read, hstring]
  cases outcome with
  | ok d' => simp [Except.mapError]
  | error e => simp [Except.mapError]

theorem read_descent_eq_parse_iff {tokens : List Token} (h : Token.ofString? text = .ok tokens)
    {e : ParseError} :
    read .descent text = .error (.parse e) ↔ Diagram.ofTokens tokens = .error (.broken e) := by
  obtain ⟨outcome, hstring, htokens⟩ := Diagram.ofString_of_tokens h
  rw [htokens, read, hstring]
  cases outcome with
  | ok d => simp [Except.mapError]
  | error e' => simp [Except.mapError]

/-- By descent, a text that is not read is not made of tokens or breaks a rule. -/
theorem error_of_read_descent {e : ReadError} (h : read .descent text = .error e) :
    (∃ l, e = .lex l ∧ Token.ofString? text = .error l) ∨
      ∃ p tokens, e = .parse p ∧ Token.ofString? text = .ok tokens ∧
        Diagram.ofTokens tokens = .error (.broken p) := by
  cases htokens : Token.ofString? text with
  | error l =>
      rw [read_descent_of_lexError htokens] at h
      cases h
      exact .inl ⟨l, rfl, rfl⟩
  | ok tokens =>
      obtain ⟨outcome, hstring, hrules⟩ := Diagram.ofString_of_tokens htokens
      rw [read, hstring] at h
      cases outcome with
      | ok d => cases h
      | error p =>
          cases h
          exact .inr ⟨p, tokens, rfl, rfl, hrules⟩

theorem read_descent_eq_ok_iff :
    read .descent text = .ok d ↔
      (Lexing.ofString text).stuck = none ∧ DocumentPhrase (Token.ofLexemes text) d := by
  cases hstuck : (Lexing.ofString text).stuck with
  | some q =>
      obtain ⟨problem, hlex⟩ := Token.exists_ofString?_of_stuck hstuck
      simp [read_descent_of_lexError hlex]
  | none =>
      obtain ⟨place, htokens⟩ := Token.ofString?_of_lexemes hstuck
      have closed : Token.Closed (Token.ofLexemes text ++ [⟨.endOfText, "", place⟩]) :=
        Token.closed_append rfl
      rw [read_descent_eq_ok_iff_ofTokens htokens, ← Token.ofLexemes,
        Diagram.ofTokens_eq_ok_iff_document closed, Token.beforeEnd_ofLexemes rfl]
      simp

theorem read_grammar_eq_ok_iff :
    read .grammar text = .ok d ↔
      (Lexing.ofString text).stuck = none ∧ DocumentPhrase (Token.ofLexemes text) d := by
  have hread : read .grammar text = .ok d ↔ diagramOf text = .ok d := by
    change (diagramOf text).mapError _ = _ ↔ _
    cases diagramOf text with
    | ok d' => simp [Except.mapError]
    | error r => simp [Except.mapError]
  rw [hread, diagramOf_eq_ok_iff, State.exists_steps?_iff_document, Token.ofLexemes]

/-- The grammar reads the texts whose lexemes its productions derive. -/
theorem exists_read_grammar_iff_derives :
    (∃ d, read .grammar text = .ok d) ↔ (Lexing.ofString text).stuck = none ∧
      (Expression.nonterminal .document).Derives
        ((Lexing.ofString text).lexemes.map (·.terminal)) := by
  rw [← State.exists_complete_iff_derives]
  constructor
  · rintro ⟨d, hd⟩
    obtain ⟨hstuck, hdocument⟩ := read_grammar_eq_ok_iff.mp hd
    obtain ⟨s, hs, hcomplete⟩ := State.exists_steps?_iff_document.mpr hdocument
    exact ⟨hstuck, s, d, hs, hcomplete⟩
  · rintro ⟨hstuck, s, d, hs, hcomplete⟩
    exact ⟨d, read_grammar_eq_ok_iff.mpr ⟨hstuck, State.document_of_steps? hs hcomplete⟩⟩

theorem error_of_read_grammar {e : ReadError} (h : read .grammar text = .error e) :
    ∃ r, e = .grammar r := by
  change (diagramOf text).mapError _ = _ at h
  cases hr : diagramOf text with
  | ok d =>
      rw [hr] at h
      cases h
  | error r =>
      rw [hr] at h
      cases h
      exact ⟨r, rfl⟩

end Reader

end ClassDiagram
