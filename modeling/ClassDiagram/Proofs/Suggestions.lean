import ClassDiagram.Proofs.Composition

/-!
# What the grammar suggests

Where a lexeme is unexpected, the grammar suggests the terminals that could stand there instead.
There is always one, and what was found is none of them.  Whatever is suggested, the text up to
there goes on with it: a line can be put below it so that the suggested terminal comes next and all
of it is a document; and if the end is suggested, the text up to there is a document.
-/

namespace ClassDiagram

namespace Grammar

namespace State

variable {s : State} {t found : Terminal} {xs : List Lexeme}

/-! ## The list of suggestions -/

theorem mem_expected_iff :
    t ∈ s.expected found ↔ s.accepts t = true ∧
      (t = .leftBracket → s.afterTypeName = true → followsType found = false) := by
  simp [expected, Terminal.mem_all, or_assoc, imp_iff_not_or]

/-- Brackets apart, every class body under way takes something. -/
theorem exists_accepted_body (done : List Entity) (part : OpenClass) :
    ∃ t, t ≠ .leftBracket ∧ accepts ⟨done, .body part⟩ t = true := by
  obtain ⟨c, part⟩ := part
  cases part with
  | field part | parameter _ part =>
      obtain ⟨f, stage⟩ := part
      cases stage with
      | bracket => exact ⟨.rightBracket, by decide, rfl⟩
      | _ => exact ⟨.name, by decide, rfl⟩
  | returnBracket => exact ⟨.rightBracket, by decide, rfl⟩
  | _ => exact ⟨.name, by decide, rfl⟩

/-- Brackets apart, every document under way takes something. -/
theorem exists_accepted (s : State) : ∃ t, t ≠ .leftBracket ∧ s.accepts t = true := by
  obtain ⟨done, part⟩ := s
  cases part with
  | body part => exact exists_accepted_body done part
  | source name left place =>
      exact ⟨.operator, by decide, by cases left <;> rfl⟩
  | operator name left place o right =>
      exact ⟨.name, by decide, by cases right <;> rfl⟩
  | middle => exact ⟨.string, by decide, rfl⟩
  | _ => exact ⟨.name, by decide, rfl⟩

theorem expected_ne_nil (s : State) (found : Terminal) : s.expected found ≠ [] := by
  obtain ⟨t, ht, haccepts⟩ := s.exists_accepted
  exact List.ne_nil_of_mem (mem_expected_iff.mpr ⟨haccepts, fun h => absurd h ht⟩)

theorem accepts_eq_isSome (h : t ≠ .endOfText) : s.accepts t = (s.shift? t).isSome := by
  cases t <;> first | rfl | exact absurd rfl h

/-! ## Going on with a suggestion -/

theorem derives_of_accepts_end (hxs : start.steps? xs = some s)
    (h : s.accepts .endOfText = true) :
    (Expression.nonterminal .document).Derives (xs.map (·.terminal)) := by
  obtain ⟨d, hd⟩ := Option.isSome_iff_exists.mp h
  exact exists_complete_iff_derives.mp ⟨s, d, hxs, hd⟩

/-- What is accepted can be gone on with to a document. -/
theorem exists_derives_of_accepts (hxs : start.steps? xs = some s) (ht : t ≠ .endOfText)
    (h : s.accepts t = true) :
    ∃ ts, (Expression.nonterminal .document).Derives (xs.map (·.terminal) ++ t :: ts) := by
  rw [accepts_eq_isSome ht] at h
  obtain ⟨next, hnext⟩ := Option.isSome_iff_exists.mp h
  let y : Lexeme := ⟨⟨t, t.sample⟩, 0, .nowhere⟩
  have hy : s.step? y = some (next y.content y.place) := by simp [step?, y, hnext]
  obtain ⟨ts, hts⟩ := exists_takes (next y.content y.place)
  obtain ⟨ys, rfl⟩ := exists_lexemes ts
  obtain ⟨s', hys, hcomplete⟩ := hts.exists_steps?
  obtain ⟨d, hd⟩ := Option.isSome_iff_exists.mp hcomplete
  have hall : start.steps? (xs ++ y :: ys) = some s' := by
    simp [steps?_append, hxs, hy, hys]
  refine ⟨ys.map (·.terminal), ?_⟩
  simpa [y] using exists_complete_iff_derives.mp ⟨s', d, hall, hd⟩

end State

theorem endOfText_not_mem_of_derives {ts : List Terminal}
    (h : (Expression.nonterminal .document).Derives ts) : .endOfText ∉ ts := by
  obtain ⟨run, d, hdocument, rfl⟩ := (Expression.spells_document ts).mp h
  intro hmem
  obtain ⟨t, ht, hkind⟩ := List.mem_map.mp hmem
  have hne := Phrase.inner_document _ _ hdocument t ht
  cases hk : t.kind <;> simp_all [terminalOf]

end Grammar

/-! ## Texts for terminals -/

namespace Token

open Grammar

theorem terminals_map_moved (f : Place → Place) (tokens : List Token) :
    terminals (tokens.map (moved f)) = terminals tokens := by
  simp [terminals, moved]

/-- Some token of the terminal. -/
def ofTerminal : Terminal → Token
  | .name => named "x"
  | .string => labelled ""
  | .operator => { kind := .operator .association, value := "--" }
  | t => fixed (t.kind t.sample)

theorem terminalOf_ofTerminal (t : Terminal) : terminalOf (ofTerminal t).kind = t := by
  cases t <;> rfl

theorem lexical_ofTerminal {t : Terminal} (h : t ≠ .endOfText) : (ofTerminal t).Lexical := by
  cases t with
  | name => exact lexical_named (by decide)
  | string => exact lexical_labelled ""
  | operator => exact ⟨_, .operator (o := ⟨['-', '-'], .association⟩) (by decide)⟩
  | endOfText => exact absurd rfl h
  | _ => exact lexical_fixed (by decide)

/-- Every list of terminals is that of some text. -/
theorem exists_cuts_terminals {ts : List Terminal} (h : .endOfText ∉ ts) :
    ∃ text tokens, Cuts [] text tokens [] ∧ terminals tokens = ts := by
  have hlexical : ∀ t ∈ ts.map ofTerminal, t.Lexical := by
    intro t ht
    obtain ⟨u, hu, rfl⟩ := List.mem_map.mp ht
    exact lexical_ofTerminal (ne_of_mem_of_not_mem hu h)
  obtain ⟨tokens, hcuts, hsame⟩ := spells_writtenAll hlexical [] [] edge_nil
  refine ⟨_, tokens, hcuts, ?_⟩
  have hterminals := congrArg terminals hsame
  simpa [terminals, Function.comp_def, terminalOf_ofTerminal] using hterminals

/-- Lexemes of any terminals can be written in a line below a text. -/
theorem exists_below {upper : String} {tokens : List Token} {ts : List Terminal}
    (h : Cuts [] upper.toList tokens []) (hts : .endOfText ∉ ts) :
    ∃ (lower : String) (more : List Token),
      Cuts [] (upper ++ "\n" ++ lower).toList (tokens ++ more) [] ∧ terminals more = ts := by
  obtain ⟨lower, more, hlower, hmore⟩ := exists_cuts_terminals hts
  refine ⟨String.ofList lower, more.map (moved (.down (upper.toList.count '\n' + 1))), ?_, ?_⟩
  · rw [toList_line, String.toList_ofList]
    exact h.join hlower
  · rw [terminals_map_moved, hmore]

end Token

/-! ## Rejected texts -/

namespace Reader

open Grammar

variable {text : String} {x : Lexeme} {expected : List Terminal}

/-- A lexeme is unexpected where it is refused, or at the end where the document is not complete. -/
theorem exists_steps?_of_unexpected
    (h : read .grammar text = .error (.grammar (.unexpectedLexeme x expected))) :
    ∃ before s, State.start.steps? before = some s ∧ s.accepts x.terminal = false ∧
      expected = s.expected x.terminal ∧
      ((∃ after, (Lexing.ofString text).lexemes = before ++ x :: after) ∨
        (Lexing.ofString text).lexemes = before ∧ x = endLexeme before.getLast?) := by
  have hgrammar : diagramOf text = .error (.unexpectedLexeme x expected) := by
    change (diagramOf text).mapError _ = _ at h
    cases hr : diagramOf text with
    | ok d => simp [hr, Except.mapError] at h
    | error r => simpa [hr, Except.mapError] using h
  cases hsteps : State.start.steps? (Lexing.ofString text).lexemes with
  | none =>
      obtain ⟨before, y, after, s, hlexemes, hbefore, hy⟩ := State.exists_refused hsteps
      rw [diagramOf_of_refused hlexemes hbefore hy] at hgrammar
      cases hgrammar
      have hinner := Lexing.terminal_ne_endOfText_of_append hlexemes x (by simp)
      refine ⟨before, s, hbefore, ?_, rfl, .inl ⟨after, hlexemes⟩⟩
      rw [State.accepts_eq_isSome hinner, Option.map_eq_none_iff.mp hy]
      rfl
  | some s =>
      cases hstuck : (Lexing.ofString text).stuck with
      | some q =>
          rw [diagramOf_of_stuck hsteps hstuck] at hgrammar
          cases hgrammar
      | none =>
          cases hd : s.complete? with
          | some d =>
              rw [diagramOf_of_complete hsteps hstuck hd] at hgrammar
              cases hgrammar
          | none =>
              rw [diagramOf_of_incomplete hsteps hstuck hd] at hgrammar
              cases hgrammar
              refine ⟨_, s, hsteps, ?_, rfl, .inr ⟨rfl, rfl⟩⟩
              change s.complete?.isSome = false
              rw [hd]
              rfl

theorem exists_read_of_cuts {tokens : List Token} (h : Token.Cuts [] text.toList tokens [])
    (hderives : (Expression.nonterminal .document).Derives (terminals tokens)) :
    ∃ d, read .grammar text = .ok d ∧
      (Lexing.ofString text).lexemes.map (·.terminal) = terminals tokens := by
  obtain ⟨hstuck, rfl⟩ := Token.cuts_iff_ofLexemes.mp h
  rw [Token.ofLexemes, terminals_map_token] at hderives ⊢
  obtain ⟨d, hd⟩ := exists_read_grammar_iff_derives.mpr ⟨hstuck, hderives⟩
  exact ⟨d, hd, rfl⟩

/-- Some first part of a text is cut into the first of its lexemes. -/
theorem exists_upper {before after : List Lexeme}
    (h : (Lexing.ofString text).lexemes = before ++ after) :
    ∃ upper : String, upper.toList <+: text.toList ∧
      Token.Cuts [] upper.toList (before.map Lexeme.token) [] := by
  obtain ⟨run, rest, htext, hcuts, -⟩ := Token.exists_cuts (.ofString text) [] rfl
  change Token.Cuts [] run ((Lexing.ofString text).lexemes.map Lexeme.token) rest at hcuts
  rw [h, List.map_append] at hcuts
  obtain ⟨front, back, rfl, hfront⟩ := hcuts.exists_front
  refine ⟨String.ofList front, ?_, ?_⟩
  · rw [String.toList_ofList]
    exact ⟨back ++ rest, by rw [← List.append_assoc]; exact htext.symm⟩
  · rw [String.toList_ofList]
    exact hfront.alone

/-- Where the grammar finds a lexeme unexpected, it suggests something else.  Take the text up to
there, with just the lexemes that stand before the unexpected one.  For every terminal that is
suggested there is a line to put below, so that a lexeme of the terminal comes next and all of it is
read as a document; and if the end is suggested, the text up to there is read as a document. -/
theorem suggestions_go_on
    (h : read .grammar text = .error (.grammar (.unexpectedLexeme x expected))) :
    expected ≠ [] ∧ x.terminal ∉ expected ∧
    ∃ (before : List Lexeme) (upper : String),
      ((∃ after, (Lexing.ofString text).lexemes = before ++ x :: after) ∨
        (Lexing.ofString text).lexemes = before ∧ x = endLexeme before.getLast?) ∧
      upper.toList <+: text.toList ∧
      (∀ t ∈ expected, t ≠ .endOfText → ∃ lower d after,
        read .grammar (upper ++ "\n" ++ lower) = .ok d ∧
        (Lexing.ofString (upper ++ "\n" ++ lower)).lexemes.map (·.terminal) =
          before.map (·.terminal) ++ t :: after) ∧
      (.endOfText ∈ expected → ∃ d, read .grammar upper = .ok d ∧
        (Lexing.ofString upper).lexemes.map (·.terminal) = before.map (·.terminal)) := by
  obtain ⟨before, s, hbefore, hrefused, rfl, hfound⟩ := exists_steps?_of_unexpected h
  obtain ⟨upper, hprefix, hupper⟩ : ∃ upper : String, upper.toList <+: text.toList ∧
      Token.Cuts [] upper.toList (before.map Lexeme.token) [] := by
    rcases hfound with ⟨after, hlexemes⟩ | ⟨hlexemes, -⟩
    · exact exists_upper hlexemes
    · exact exists_upper (hlexemes.trans (List.append_nil _).symm)
  refine ⟨s.expected_ne_nil _, fun hmem => ?_, before, upper, hfound, hprefix, ?_, ?_⟩
  · rw [(State.mem_expected_iff.mp hmem).1] at hrefused
    cases hrefused
  · intro t ht hend
    obtain ⟨ts, hderives⟩ :=
      State.exists_derives_of_accepts hbefore hend (State.mem_expected_iff.mp ht).1
    have hinner : .endOfText ∉ t :: ts := fun hmem =>
      endOfText_not_mem_of_derives hderives (List.mem_append_right _ hmem)
    obtain ⟨lower, more, hcuts, hmore⟩ := Token.exists_below hupper hinner
    have hterminals : terminals (before.map Lexeme.token ++ more) =
        before.map (·.terminal) ++ t :: ts := by
      rw [terminals_append, terminals_map_token, hmore]
    obtain ⟨d, hd, hlexemes⟩ := exists_read_of_cuts hcuts (hterminals ▸ hderives)
    exact ⟨lower, d, ts, hd, hlexemes.trans hterminals⟩
  · intro hend
    have hderives := State.derives_of_accepts_end hbefore (State.mem_expected_iff.mp hend).1
    rw [← terminals_map_token] at hderives
    rw [← terminals_map_token before]
    exact exists_read_of_cuts hupper hderives

/-- Before a parenthesis, brackets are not suggested behind a type, though they could come next; all
that is suggested leads on.  And a class may end where its body could begin. -/
theorem suggestions_go_on_type :
    (∃ upper, upper.toList <+: "class A \x7b x: T )".toList ∧
      ∀ t ∈ [Terminal.equal, .name, .rightBrace, .visibility],
        ∃ lower d, read .grammar (upper ++ "\n" ++ lower) = .ok d) ∧
      ∃ upper d, upper.toList <+: "class A )".toList ∧ read .grammar upper = .ok d := by
  have htype : read .grammar "class A \x7b x: T )" = .error (.grammar (.unexpectedLexeme
      ⟨⟨.rightParenthesis, ()⟩, 15, ⟨1, 16⟩⟩ [.equal, .name, .rightBrace, .visibility])) := by
    with_unfolding_all rfl
  have hclass : read .grammar "class A )" = .error (.grammar (.unexpectedLexeme
      ⟨⟨.rightParenthesis, ()⟩, 8, ⟨1, 9⟩⟩
      [.endOfText, .classWord, .interfaceWord, .leftBrace, .name])) := by
    with_unfolding_all rfl
  constructor
  · obtain ⟨-, -, before, upper, -, hprefix, hlower, -⟩ := suggestions_go_on htype
    refine ⟨upper, hprefix, fun t ht => ?_⟩
    obtain ⟨lower, d, after, hd, -⟩ := hlower t ht (ne_of_mem_of_not_mem ht (by decide))
    exact ⟨lower, d, hd⟩
  · obtain ⟨-, -, before, upper, -, hprefix, -, hend⟩ := suggestions_go_on hclass
    obtain ⟨d, hd, -⟩ := hend (by decide)
    exact ⟨upper, d, hprefix, hd⟩

end Reader

end ClassDiagram
