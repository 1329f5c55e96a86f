import ClassDiagram.Proofs.Descent.Completeness
import ClassDiagram.Proofs.Descent.Sight
import ClassDiagram.Proofs.Descent.Soundness
import Mathlib.Data.List.TakeWhile

/-!
# Reading documents by descent

The rules together accept exactly the documents of the grammar.  Only what stands before the first
token for the end of the text counts.  A sequence that is no document is blamed on the first token
that no document could have had there, and nothing after that token has a say in it.
-/

namespace ClassDiagram

/-- The tokens before the first one that stands for the end of the text. -/
def Token.beforeEnd (tokens : List Token) : List Token :=
  tokens.takeWhile fun t => t.kind != .endOfText

namespace Token

theorem kind_of_mem_beforeEnd {tokens : List Token} {t : Token} (h : t ∈ beforeEnd tokens) :
    t.kind ≠ .endOfText := by
  simpa using List.mem_takeWhile_imp h

theorem beforeEnd_append {run rest : List Token} {last : Token}
    (hrun : ∀ t ∈ run, t.kind ≠ .endOfText) (hlast : last.kind = .endOfText) :
    beforeEnd (run ++ last :: rest) = run := by
  rw [beforeEnd, List.takeWhile_append_of_pos (by simpa using hrun)]
  simp [hlast]

theorem closed_iff {tokens : List Token} :
    Closed tokens ↔ ∃ t, tokens.getLast? = some t ∧ t.kind = .endOfText := by
  simp [Closed]

theorem not_closed_iff {tokens : List Token} :
    ¬ Closed tokens ↔ tokens = [] ∨ ∃ t, tokens.getLast? = some t ∧ t.kind ≠ .endOfText := by
  cases h : tokens.getLast? with
  | none =>
      have hnil : tokens = [] := List.getLast?_eq_none_iff.mp h
      simp [hnil]
  | some t =>
      have hne : tokens ≠ [] := by
        rintro rfl
        cases h
      simp [Closed, h, hne]

/-- A closed sequence goes on, after what stands before the end, with a token for the end. -/
theorem exists_end {tokens : List Token} (h : Closed tokens) :
    ∃ last rest, tokens = beforeEnd tokens ++ last :: rest ∧ last.kind = .endOfText := by
  cases hdrop : tokens.dropWhile fun t => t.kind != .endOfText with
  | nil =>
      obtain ⟨t, ht, hkind⟩ := closed_iff.mp h
      have hmem : t ∈ tokens := List.mem_of_getLast? ht
      exact absurd hkind (by simpa using List.dropWhile_eq_nil_iff.mp hdrop t hmem)
  | cons last rest =>
      refine ⟨last, rest, ?_, ?_⟩
      · rw [← hdrop]
        exact List.takeWhile_append_dropWhile.symm
      · have hhead := List.head?_dropWhile_not (fun t : Token => t.kind != .endOfText) tokens
        simpa [hdrop] using hhead

end Token

namespace Rule

theorem stop_of_many_eq_ok {α : Type} {stop : Token.Kind → Bool} {rule : Rule α}
    {advancing : Advancing rule} {c c' : Cursor} {as : List α}
    (h : many stop rule advancing c = .ok as c') : stop c'.current.kind = true := by
  fun_induction many stop rule advancing c generalizing as with
  | case1 c hstop =>
      cases h
      exact hstop
  | case2 => cases h
  | case3 => cases h
  | case4 c _ a c₁ _ _ as c₂ hmany ih =>
      cases h
      exact ih hmany

/-- A document ends where the text does. -/
theorem kind_of_diagram_eq_ok {c c' : Cursor} {d : Diagram} (h : diagram c = .ok d c') :
    c'.current.kind = .endOfText := by
  cases hlist : many (· == .endOfText) entity advancing_entity c with
  | ok entities c₁ =>
      rw [diagram, bind_of_ok hlist] at h
      cases h
      simpa using stop_of_many_eq_ok hlist
  | error e c₁ =>
      rw [diagram, bind_of_error hlist] at h
      cases h

end Rule

namespace Diagram

theorem ofTokens_of_not_closed {tokens : List Token} (h : ¬ Token.Closed tokens) :
    ofTokens tokens = .error .unclosed := dif_neg h

theorem closed_of_ofTokens_eq_ok {tokens : List Token} {d : Diagram}
    (h : ofTokens tokens = .ok d) : Token.Closed tokens := by
  by_cases closed : Token.Closed tokens
  · exact closed
  · rw [ofTokens_of_not_closed closed] at h
    cases h

theorem closed_of_ofTokens_eq_broken {tokens : List Token} {e : ParseError}
    (h : ofTokens tokens = .error (.broken e)) : Token.Closed tokens := by
  by_cases closed : Token.Closed tokens
  · exact closed
  · rw [ofTokens_of_not_closed closed] at h
    cases h

theorem ofTokens_eq_ok_iff {tokens : List Token} (closed : Token.Closed tokens) {d : Diagram} :
    ofTokens tokens = .ok d ↔ ∃ c, Rule.diagram (Cursor.ofTokens tokens closed) = .ok d c := by
  rw [ofTokens, dif_pos closed, ofClosedTokens]
  cases Rule.diagram (Cursor.ofTokens tokens closed) with
  | ok d' c => simp [Except.mapError]
  | error e c => simp [Except.mapError]

theorem ofTokens_eq_broken_iff {tokens : List Token} (closed : Token.Closed tokens)
    {e : ParseError} :
    ofTokens tokens = .error (.broken e) ↔
      ∃ c, Rule.diagram (Cursor.ofTokens tokens closed) = .error e c := by
  rw [ofTokens, dif_pos closed, ofClosedTokens]
  cases Rule.diagram (Cursor.ofTokens tokens closed) with
  | ok d' c => simp [Except.mapError]
  | error e c => simp [Except.mapError]

/-- A closed sequence is read if a document stands before its end, and then as that document. -/
theorem ofTokens_eq_ok_iff_document {tokens : List Token} (closed : Token.Closed tokens)
    {d : Diagram} :
    ofTokens tokens = .ok d ↔ DocumentPhrase (Token.beforeEnd tokens) d := by
  rw [ofTokens_eq_ok_iff closed]
  constructor
  · rintro ⟨c, hc⟩
    obtain ⟨run, hrun, hdocument⟩ := Rule.sound_diagram.of_ok hc
    rw [hrun.tokens_eq_append, Token.beforeEnd_append hrun.inner (Rule.kind_of_diagram_eq_ok hc)]
    exact hdocument
  · intro hdocument
    obtain ⟨last, rest, htokens, hlast⟩ := Token.exists_end closed
    obtain ⟨c, hc, hrest⟩ := Cursor.exists_passes (c := Cursor.ofTokens tokens closed)
      (by simpa using htokens) (by simp) fun t => Token.kind_of_mem_beforeEnd
    have hend : c.current.kind = .endOfText := by
      rwa [Cursor.current_eq_of_tokens hrest]
    exact ⟨c, Rule.diagram_of_document hdocument hc hend⟩

theorem ofTokens_of_document {run rest : List Token} {last : Token} {d : Diagram}
    (h : DocumentPhrase run d) (hlast : last.kind = .endOfText)
    (closed : Token.Closed (run ++ last :: rest)) : ofTokens (run ++ last :: rest) = .ok d := by
  rw [ofTokens_eq_ok_iff_document closed,
    Token.beforeEnd_append (Phrase.inner_document _ _ h) hlast]
  exact h

end Diagram

/-- No run of tokens is a document in two ways. -/
theorem DocumentPhrase.unique {run : List Token} {d d' : Diagram} (h : DocumentPhrase run d)
    (h' : DocumentPhrase run d') : d = d' := by
  have closed : Token.Closed (run ++ [⟨.endOfText, "", .nowhere⟩]) := Token.closed_append rfl
  have heq := Diagram.ofTokens_of_document h rfl closed
  rw [Diagram.ofTokens_of_document h' rfl closed] at heq
  exact (Except.ok.inj heq).symm

namespace Diagram

/-- A sequence of tokens has to be closed.  A closed one is read exactly if what stands before its
first token for the end of the text is a document, and then as what that document says, which is
settled. -/
theorem ofTokens_reads_documents (tokens : List Token) :
    ((tokens = [] ∨ ∃ t, tokens.getLast? = some t ∧ t.kind ≠ .endOfText) →
      ofTokens tokens = .error .unclosed) ∧
    ((∃ t, tokens.getLast? = some t ∧ t.kind = .endOfText) →
      (∀ d, ofTokens tokens = .ok d ↔ DocumentPhrase (Token.beforeEnd tokens) d) ∧
      ∀ d d', DocumentPhrase (Token.beforeEnd tokens) d →
        DocumentPhrase (Token.beforeEnd tokens) d' → d = d') := by
  constructor
  · intro h
    exact ofTokens_of_not_closed (Token.not_closed_iff.mpr h)
  · intro h
    exact ⟨fun d => ofTokens_eq_ok_iff_document (Token.closed_iff.mpr h),
      fun d d' => DocumentPhrase.unique⟩

/-- No tokens at all are not closed; what follows the first end of a text is not read. -/
theorem ofTokens_reads_documents_interface :
    ofTokens [] = .error .unclosed ∧
      ofTokens [⟨.interfaceWord, "interface", ⟨1, 1⟩⟩, ⟨.identifier, "I", ⟨1, 11⟩⟩,
        ⟨.endOfText, "", ⟨1, 12⟩⟩, ⟨.comma, ",", ⟨7, 7⟩⟩, ⟨.endOfText, "", ⟨7, 8⟩⟩] =
      .ok { entities := [.interfaceDeclaration { name := "I", place := ⟨1, 1⟩ }] } := by
  refine ⟨(ofTokens_reads_documents []).1 (.inl rfl), ?_⟩
  refine (((ofTokens_reads_documents _).2 ⟨_, rfl, rfl⟩).1 _).mpr ?_
  have hentity : EntityPhrase [⟨.interfaceWord, "interface", ⟨1, 1⟩⟩, ⟨.identifier, "I", ⟨1, 11⟩⟩]
      (.interfaceDeclaration { name := "I", place := ⟨1, 1⟩ }) :=
    .interfaceDeclaration (.intro rfl rfl)
  exact .intro (.cons hentity .nil)

end Diagram

end ClassDiagram
