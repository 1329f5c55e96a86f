import ClassDiagram.Proofs.Automaton.Completeness
import ClassDiagram.Proofs.Automaton.Soundness
import ClassDiagram.Proofs.Descent.Blame

/-!
# Documents and beginnings of documents

The automaton reads exactly the documents, and what it takes without having come to an end are
exactly the beginnings of documents.  So it refuses a lexeme as soon as no document goes on with it.
-/

namespace ClassDiagram.Grammar

theorem Symbol.terminalOf_kind (s : Symbol) : terminalOf s.kind = s.terminal := by
  obtain ⟨t, content⟩ := s
  cases t <;> rfl

theorem Symbol.kind_ne_endOfText {s : Symbol} (h : s.terminal ≠ .endOfText) :
    s.kind ≠ .endOfText := by
  intro hkind
  have hterminal := s.terminalOf_kind
  rw [hkind] at hterminal
  exact h hterminal.symm

theorem terminals_map_token (xs : List Lexeme) :
    terminals (xs.map Lexeme.token) = xs.map (·.terminal) := by
  induction xs with
  | nil => rfl
  | cons x xs ih =>
      rw [List.map_cons, List.map_cons, terminals_cons, ih, Lexeme.kind_token,
        Symbol.terminalOf_kind]

/-- Something that a lexeme of the terminal may carry. -/
def Terminal.sample : (t : Terminal) → t.Content
  | .name => ([] : List Char)
  | .string => ([] : List Char)
  | .operator => (⟨[], .association⟩ : Operator)
  | .visibility => Visibility.toAll
  | .classWord | .interfaceWord | .leftBrace | .rightBrace | .leftParenthesis | .rightParenthesis
  | .leftBracket | .rightBracket | .colon | .equal | .comma | .endOfText => ()

/-- Every list of terminals is that of some lexemes. -/
theorem exists_lexemes (ts : List Terminal) :
    ∃ xs : List Lexeme, xs.map (·.terminal) = ts := by
  refine ⟨ts.map fun t => ⟨⟨t, t.sample⟩, 0, .nowhere⟩, ?_⟩
  rw [List.map_map]
  exact List.map_id ts

namespace State

variable {xs : List Lexeme} {d : Diagram}

theorem document_of_steps? {s : State} (hxs : start.steps? xs = some s)
    (hd : s.complete? = some d) : DocumentPhrase (xs.map Lexeme.token) d := by
  have hreads := reads_start.steps hxs
  exact hreads.document hd

/-- The automaton reads exactly the documents, each as what it says. -/
theorem exists_steps?_iff_document :
    (∃ s, start.steps? xs = some s ∧ s.complete? = some d) ↔
      DocumentPhrase (xs.map Lexeme.token) d := by
  constructor
  · rintro ⟨s, hxs, hd⟩
    exact document_of_steps? hxs hd
  · intro hdocument
    have htakes := takes_document hdocument
    rw [terminals_map_token] at htakes
    obtain ⟨s, hxs, hcomplete⟩ := htakes.exists_steps?
    obtain ⟨d', hd'⟩ := Option.isSome_iff_exists.mp hcomplete
    obtain rfl := hdocument.unique (document_of_steps? hxs hd')
    exact ⟨s, hxs, hd'⟩

/-- What the automaton takes can go on to a document. -/
theorem viable_of_steps? {s : State} (hxs : start.steps? xs = some s) :
    Token.Viable (xs.map Lexeme.token) := by
  obtain ⟨ts, hts⟩ := exists_takes s
  obtain ⟨ys, rfl⟩ := exists_lexemes ts
  obtain ⟨s', hys, hcomplete⟩ := hts.exists_steps?
  obtain ⟨d, hd⟩ := Option.isSome_iff_exists.mp hcomplete
  have hall : start.steps? (xs ++ ys) = some s' := by
    rw [steps?_append, hxs]
    exact hys
  have hdocument := document_of_steps? hall hd
  rw [List.map_append] at hdocument
  exact Token.viable_of_document hdocument

/-- The automaton takes exactly what can go on to a document. -/
theorem exists_steps?_iff_viable (hinner : ∀ x ∈ xs, x.terminal ≠ .endOfText) :
    (∃ s, start.steps? xs = some s) ↔ Token.Viable (xs.map Lexeme.token) := by
  constructor
  · rintro ⟨s, hxs⟩
    exact viable_of_steps? hxs
  · intro hviable
    have hkind : ∀ t ∈ xs.map Lexeme.token, t.kind ≠ .endOfText := by
      intro t ht
      obtain ⟨x, hx, rfl⟩ := List.mem_map.mp ht
      exact Symbol.kind_ne_endOfText (hinner x hx)
    obtain ⟨more, d, hdocument⟩ := hviable.exists_document hkind
    have htakes := takes_document hdocument
    rw [terminals_append, terminals_map_token] at htakes
    obtain ⟨s, hxs, -⟩ := htakes.of_append.exists_steps?
    exact ⟨s, hxs⟩

/-- A lexeme is refused exactly if no document goes on with it. -/
theorem step?_eq_none_iff {s : State} {x : Lexeme} (hxs : start.steps? xs = some s)
    (hinner : ∀ y ∈ xs ++ [x], y.terminal ≠ .endOfText) :
    s.step? x = none ↔ ¬ Token.Viable (xs.map Lexeme.token ++ [x.token]) := by
  have hmap : xs.map Lexeme.token ++ [x.token] = (xs ++ [x]).map Lexeme.token := by simp
  have hsteps : start.steps? (xs ++ [x]) = s.step? x := by
    rw [steps?_append, hxs]
    simp
  rw [hmap, ← exists_steps?_iff_viable hinner, hsteps]
  cases s.step? x with
  | none => simp
  | some s' => simp

end State

end ClassDiagram.Grammar
