import ClassDiagram.Proofs.Denotation

/-!
# What a diagram forgets of its text

A diagram keeps what its tokens say and where they stand, but not the commas, not the empty bodies,
and nothing of the layout.  Two texts are read as the same diagram but for places exactly if the
same tokens are left of both once these are gone.
-/

namespace ClassDiagram.Reader

open Token

/-- What is left of the tokens of a text that is read is the plain run of its diagram. -/
theorem exists_tokens_of_read {text : String} {d : Diagram} (h : read .descent text = .ok d) :
    ∃ tokens, ofString? text = .ok tokens ∧ d.WellFormed ∧
      (withoutEmptyBodies (withoutCommas tokens)).map unplaced =
        d.tokens ++ [{ kind := .endOfText, value := "" }] := by
  obtain ⟨lexemes, hcuts, hd⟩ := read_eq_ok_iff_cuts.mp h
  have htokens := ofString?_eq_ok_iff.mpr ⟨lexemes, hcuts, rfl⟩
  refine ⟨_, htokens, ?_⟩
  obtain ⟨hwell, hplain⟩ := hd.linear hcuts.lexical
  have hcommas := thinning_withoutCommas
  have hbodies := thinning_withoutEmptyBodies
  obtain ⟨hd', hend⟩ := hcommas.phrase_and_append hcommas.thinned_document hd
  obtain ⟨-, hend'⟩ := hbodies.phrase_and_append hbodies.thinned_document hd'
  have hsolid : Kind.Solid .endOfText := by decide
  refine ⟨hwell, ?_⟩
  rw [hend, hcommas.keep rfl hsolid, hcommas.nil, hend', List.map_append, hplain]
  rfl

/-- A well-formed diagram can be told from its plain run of tokens, but for its places. -/
theorem unplaced_eq_iff_tokens {d d' : Diagram} (h : d.WellFormed) (h' : d'.WellFormed) :
    d.unplaced = d'.unplaced ↔ d.tokens = d'.tokens := by
  constructor
  · intro heq
    rw [← d.tokens_unplaced, heq, d'.tokens_unplaced]
  · intro heq
    have hphrase := h.phrase
    rw [heq] at hphrase
    exact hphrase.unique h'.phrase

/-- A diagram forgets commas, empty bodies and layout, and no more.  The diagrams of two texts are
the same but for places exactly if their tokens are, places, commas and then empty bodies left out.
And a sequence of tokens that is read, wherever it comes from, is read as the very same diagram
without its commas, and without its empty bodies. -/
theorem read_forgets :
    (∀ text text' d d', read .descent text = .ok d → read .descent text' = .ok d' →
      ∃ tokens tokens', ofString? text = .ok tokens ∧ ofString? text' = .ok tokens' ∧
        (d.unplaced = d'.unplaced ↔
          (withoutEmptyBodies (withoutCommas tokens)).map unplaced =
            (withoutEmptyBodies (withoutCommas tokens')).map unplaced)) ∧
    ∀ tokens d, Diagram.ofTokens tokens = .ok d →
      Diagram.ofTokens (withoutCommas tokens) = .ok d ∧
        Diagram.ofTokens (withoutEmptyBodies tokens) = .ok d := by
  constructor
  · intro text text' d d' h h'
    obtain ⟨tokens, htokens, hwell, hplain⟩ := exists_tokens_of_read h
    obtain ⟨tokens', htokens', hwell', hplain'⟩ := exists_tokens_of_read h'
    refine ⟨tokens, tokens', htokens, htokens', ?_⟩
    rw [unplaced_eq_iff_tokens hwell hwell', hplain, hplain', List.append_left_inj]
  · intro tokens d h
    exact ⟨thinning_withoutCommas.ofTokens_eq_ok h, thinning_withoutEmptyBodies.ofTokens_eq_ok h⟩

/-- A parameter has lost its comma and moved to the next line; an empty body has gone. -/
theorem read_forgets_comma :
    (∃ d d', read .descent "class A \x7b f(x,) \x7d" = .ok d ∧
      read .descent "class A\n\x7b f(x) \x7d" = .ok d' ∧ d ≠ d' ∧ d.unplaced = d'.unplaced) ∧
    Diagram.ofTokens [⟨.classWord, "", ⟨1, 1⟩⟩, ⟨.identifier, "A", ⟨1, 7⟩⟩,
      ⟨.endOfText, "", ⟨2, 2⟩⟩] =
        .ok { entities := [.classDeclaration { name := "A", place := ⟨1, 1⟩ }] } := by
  constructor
  · have htokens : ofString? "class A \x7b f(x,) \x7d" = .ok
        [⟨.classWord, "class", ⟨1, 1⟩⟩, ⟨.identifier, "A", ⟨1, 7⟩⟩, ⟨.leftBrace, "\x7b", ⟨1, 9⟩⟩,
          ⟨.identifier, "f", ⟨1, 11⟩⟩, ⟨.leftParenthesis, "(", ⟨1, 12⟩⟩,
          ⟨.identifier, "x", ⟨1, 13⟩⟩, ⟨.comma, ",", ⟨1, 14⟩⟩, ⟨.rightParenthesis, ")", ⟨1, 15⟩⟩,
          ⟨.rightBrace, "\x7d", ⟨1, 17⟩⟩, ⟨.endOfText, "", ⟨1, 18⟩⟩] := by
      decide +kernel
    have htokens' : ofString? "class A\n\x7b f(x) \x7d" = .ok
        [⟨.classWord, "class", ⟨1, 1⟩⟩, ⟨.identifier, "A", ⟨1, 7⟩⟩, ⟨.leftBrace, "\x7b", ⟨2, 1⟩⟩,
          ⟨.identifier, "f", ⟨2, 3⟩⟩, ⟨.leftParenthesis, "(", ⟨2, 4⟩⟩,
          ⟨.identifier, "x", ⟨2, 5⟩⟩, ⟨.rightParenthesis, ")", ⟨2, 6⟩⟩,
          ⟨.rightBrace, "\x7d", ⟨2, 8⟩⟩, ⟨.endOfText, "", ⟨2, 9⟩⟩] := by
      decide +kernel
    have hread : read .descent "class A \x7b f(x,) \x7d" = .ok { entities := [.classDeclaration {
        name := "A", place := ⟨1, 1⟩, members := [.method {
          name := "f", place := ⟨1, 11⟩,
          parameters := [{ name := "x", place := ⟨1, 13⟩ }] }] }] } := by
      rw [read_descent_eq_ok_iff_ofTokens htokens]
      decide +kernel
    have hread' : read .descent "class A\n\x7b f(x) \x7d" = .ok { entities := [.classDeclaration {
        name := "A", place := ⟨1, 1⟩, members := [.method {
          name := "f", place := ⟨2, 3⟩,
          parameters := [{ name := "x", place := ⟨2, 5⟩ }] }] }] } := by
      rw [read_descent_eq_ok_iff_ofTokens htokens']
      decide +kernel
    obtain ⟨tokens, tokens', h, h', hiff⟩ := read_forgets.1 _ _ _ _ hread hread'
    rw [htokens] at h
    rw [htokens'] at h'
    cases h
    cases h'
    exact ⟨_, _, hread, hread', by decide, hiff.mpr (by decide +kernel)⟩
  · have hread : Diagram.ofTokens [⟨.classWord, "", ⟨1, 1⟩⟩, ⟨.identifier, "A", ⟨1, 7⟩⟩,
        ⟨.leftBrace, "", ⟨1, 9⟩⟩, ⟨.rightBrace, "", ⟨2, 1⟩⟩, ⟨.endOfText, "", ⟨2, 2⟩⟩] =
        .ok { entities := [.classDeclaration { name := "A", place := ⟨1, 1⟩ }] } := by
      decide +kernel
    exact (read_forgets.2 _ _ hread).2

end ClassDiagram.Reader
