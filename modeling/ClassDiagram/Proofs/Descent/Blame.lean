import ClassDiagram.Proofs.Descent.Acceptance

/-!
# The first error

A closed sequence of tokens that is no document is blamed on one of its tokens.  What stands before
that token could have gone on to a document, so the blame does not come late; and every sequence
that is the same up to and with that token meets the same blame, so it does not come early either.
-/

namespace ClassDiagram

/-- The tokens begin some sequence that is read. -/
def Token.Viable (tokens : List Token) : Prop :=
  ∃ more d, Diagram.ofTokens (tokens ++ more) = .ok d

namespace Token

theorem viable_of_document {run more : List Token} {d : Diagram}
    (h : DocumentPhrase (run ++ more) d) : Viable run := by
  have closed : Closed ((run ++ more) ++ [⟨.endOfText, "", .nowhere⟩]) := closed_append rfl
  refine ⟨more ++ [⟨.endOfText, "", .nowhere⟩], d, ?_⟩
  rw [← List.append_assoc]
  exact Diagram.ofTokens_of_document h rfl closed

/-- A run that holds no end begins a sequence that is read only if it begins a document. -/
theorem Viable.exists_document {run : List Token} (h : Viable run)
    (hrun : ∀ t ∈ run, t.kind ≠ .endOfText) : ∃ more d, DocumentPhrase (run ++ more) d := by
  obtain ⟨more, d, hok⟩ := h
  have closed : Closed (run ++ more) := Diagram.closed_of_ofTokens_eq_ok hok
  have hdocument := (Diagram.ofTokens_eq_ok_iff_document closed).mp hok
  rw [beforeEnd, List.takeWhile_append_of_pos (by simpa using hrun)] at hdocument
  exact ⟨_, d, hdocument⟩

end Token

namespace Rule

variable {tokens : List Token} {closed : Token.Closed tokens} {e : ParseError} {c : Cursor}

/-- Where reading fails, it has passed tokens that begin a document, and stands on the token to
blame. -/
theorem exists_run_of_diagram_eq_error
    (h : diagram (Cursor.ofTokens tokens closed) = .error e c) :
    ∃ run, (Cursor.ofTokens tokens closed).Passes run c ∧ tokens = run ++ e.token :: c.rest ∧
      c.index = run.length ∧ Token.Viable run := by
  obtain ⟨he, run, hrun, more, d, hdocument⟩ := sound_diagram.of_error h
  exact ⟨run, hrun, he ▸ hrun.tokens_eq_append, hrun.index_eq_length,
    Token.viable_of_document hdocument⟩

/-- Another sequence that is the same up to and with the token to blame fails in the same way. -/
theorem diagram_eq_error_of_take_eq (h : diagram (Cursor.ofTokens tokens closed) = .error e c)
    {others : List Token} (closed' : Token.Closed others)
    (htake : others.take (c.index + 1) = tokens.take (c.index + 1)) :
    ∃ d, diagram (Cursor.ofTokens others closed') = .error e d ∧ d.index = c.index := by
  obtain ⟨run, hrun, hsame⟩ := nearsighted_diagram (Cursor.ofTokens tokens closed)
  rw [h] at hrun hsame
  change (Cursor.ofTokens tokens closed).Passes run c at hrun
  have hindex : c.index = run.length := hrun.index_eq_length
  have htokens : tokens = (run ++ [c.current]) ++ c.rest := by
    simpa using hrun.tokens_eq_append
  have hlength : c.index + 1 = (run ++ [c.current]).length := by simp [hindex]
  have hothers : others = (run ++ [c.current]) ++ others.drop (c.index + 1) := by
    have hfirst : tokens.take (c.index + 1) = run ++ [c.current] := by
      rw [htokens, hlength, List.take_left]
    rw [← hfirst, ← htake]
    exact (List.take_append_drop _ _).symm
  obtain ⟨d, hd, hrest⟩ := Cursor.exists_passes (c := Cursor.ofTokens others closed')
    (by simpa using hothers) (List.cons_ne_nil _ _) hrun.inner
  refine ⟨d, hsame _ d hd (Cursor.current_eq_of_tokens hrest), ?_⟩
  simp [hd.index_eq, hindex]

end Rule

namespace Diagram

/-- The token to blame is the first one that what stands before it cannot go on with. -/
theorem exists_first_error {tokens : List Token} {e : ParseError}
    (h : ofTokens tokens = .error (.broken e)) :
    ∃ run rest, tokens = run ++ e.token :: rest ∧ Token.Viable run ∧
      ¬ Token.Viable (run ++ [e.token]) := by
  have closed : Token.Closed tokens := closed_of_ofTokens_eq_broken h
  obtain ⟨c, hc⟩ := (ofTokens_eq_broken_iff closed).mp h
  obtain ⟨run, -, htokens, hindex, hviable⟩ := Rule.exists_run_of_diagram_eq_error hc
  refine ⟨run, c.rest, htokens, hviable, ?_⟩
  rintro ⟨more, d, hok⟩
  have closed' := closed_of_ofTokens_eq_ok hok
  obtain ⟨c₁, hc₁⟩ := (ofTokens_eq_ok_iff closed').mp hok
  have htake : (run ++ [e.token] ++ more).take (c.index + 1) = tokens.take (c.index + 1) := by
    have hlength : c.index + 1 = (run ++ [e.token]).length := by simp [hindex]
    have htokens' : tokens = run ++ [e.token] ++ c.rest := by simpa using htokens
    rw [htokens', hlength, List.take_left, List.take_left]
  obtain ⟨c₂, hc₂, -⟩ := Rule.diagram_eq_error_of_take_eq hc closed' htake
  rw [hc₁] at hc₂
  cases hc₂

/-- A closed sequence of tokens that is not read is blamed on its token at some index.  None of the
tokens before that index stands for the end of the text, and they could have gone on to a document.
Every closed sequence with the same tokens up to and with the one at the index is blamed on it too,
in the same words. -/
theorem ofTokens_blames_first_error (tokens : List Token) (closed : Token.Closed tokens)
    (e : ParseError) (h : ofTokens tokens = .error (.broken e)) :
    ∃ c, Rule.diagram (Cursor.ofTokens tokens closed) = .error e c ∧
      tokens[c.index]? = some e.token ∧
      (∀ t ∈ tokens.take c.index, t.kind ≠ .endOfText) ∧
      (∃ more d, ofTokens (tokens.take c.index ++ more) = .ok d) ∧
      ∀ others, Token.Closed others → others.take (c.index + 1) = tokens.take (c.index + 1) →
        ∃ e', ofTokens others = .error (.broken e') ∧ e'.token = e.token ∧
          e'.message = e.message := by
  obtain ⟨c, hc⟩ := (ofTokens_eq_broken_iff closed).mp h
  obtain ⟨run, hrun, htokens, hindex, hviable⟩ := Rule.exists_run_of_diagram_eq_error hc
  have htake : tokens.take c.index = run := by
    rw [htokens, hindex, List.take_left]
  refine ⟨c, hc, ?_, htake ▸ hrun.inner, htake ▸ hviable, ?_⟩
  · rw [htokens, hindex]
    simp
  · intro others closed' hothers
    refine ⟨e, ?_, rfl, rfl⟩
    obtain ⟨d, hd, -⟩ := Rule.diagram_eq_error_of_take_eq hc closed' hothers
    exact (ofTokens_eq_broken_iff closed').mpr ⟨d, hd⟩

/-- A parameter that breaks off in its type: `class A { f(x : ]`. -/
def unfinishedType : List Token :=
  [⟨.classWord, "class", ⟨1, 1⟩⟩, ⟨.identifier, "A", ⟨1, 7⟩⟩, ⟨.leftBrace, "\x7b", ⟨1, 9⟩⟩,
    ⟨.identifier, "f", ⟨1, 11⟩⟩, ⟨.leftParenthesis, "(", ⟨1, 12⟩⟩, ⟨.identifier, "x", ⟨1, 13⟩⟩,
    ⟨.colon, ":", ⟨1, 15⟩⟩, ⟨.rightBracket, "]", ⟨1, 17⟩⟩, ⟨.endOfText, "", ⟨1, 18⟩⟩]

theorem ofTokens_blames_first_error_unfinishedType :
    Token.Closed unfinishedType ∧
      ofTokens unfinishedType = .error (.broken
        ⟨⟨.rightBracket, "]", ⟨1, 17⟩⟩, .expected "type name after ':'" "field x"⟩) ∧
      ∃ k, unfinishedType[k]? = some ⟨.rightBracket, "]", ⟨1, 17⟩⟩ ∧
        ∃ more d, ofTokens (unfinishedType.take k ++ more) = .ok d := by
  have closed : Token.Closed unfinishedType := by decide
  have herror : ofTokens unfinishedType = .error (.broken
      ⟨⟨.rightBracket, "]", ⟨1, 17⟩⟩, .expected "type name after ':'" "field x"⟩) := by
    decide +kernel
  obtain ⟨c, -, htoken, -, hviable, -⟩ := ofTokens_blames_first_error _ closed _ herror
  exact ⟨closed, herror, c.index, htoken, hviable⟩

end Diagram

end ClassDiagram
