import ClassDiagram.Proofs.Lexing.Spaced
import ClassDiagram.Proofs.MaximalMunch
import ClassDiagram.Proofs.Readers
import ClassDiagram.Proofs.Trees.Recovery

/-!
# The diagrams that texts denote

Whatever is read from a text is well-formed, and every well-formed diagram is read from some text:
from its plain run of tokens, written with a blank behind each token.  Only the places come from the
text and not from the diagram.
-/

namespace ClassDiagram

open Grammar

namespace Token

variable {text : String}

/-- What is cut off a text as far as it goes, and where that ends, is what lexing gives. -/
theorem lexing_of_cuts {run rest : List Char} {lexemes : List Token}
    (htext : text.toList = run ++ rest) (hcuts : Cuts [] run lexemes rest) (hrest : Blocked rest) :
    ofLexemes text = lexemes ∧ (Lexing.ofString text).stuck.map Point.place =
      if rest = [] then none else some (.behind run) := by
  obtain ⟨run', rest', htext', hcuts', hrest', hend, hstuck⟩ := exists_cuts (.ofString text) [] rfl
  have heq : run' ++ rest' = run ++ rest := htext'.symm.trans htext
  obtain ⟨rfl, rfl⟩ := hcuts'.unique hrest' hcuts hrest heq
  obtain rfl := List.append_cancel_right heq
  refine ⟨rfl, ?_⟩
  change (Lexing.ofPoint (.ofString text)).stuck.map Point.place = _
  cases h : (Lexing.ofPoint (.ofString text)).stuck with
  | none => simp [hend h]
  | some q =>
      obtain ⟨hne, -, hplace⟩ := hstuck q h
      simp [hne, hplace]

theorem cuts_iff_ofLexemes {lexemes : List Token} :
    Cuts [] text.toList lexemes [] ↔
      (Lexing.ofString text).stuck = none ∧ lexemes = ofLexemes text := by
  constructor
  · intro hcuts
    obtain ⟨hlexemes, hstuck⟩ := lexing_of_cuts (List.append_nil _).symm hcuts blocked_nil
    exact ⟨by simpa using hstuck, hlexemes.symm⟩
  · rintro ⟨hstuck, rfl⟩
    obtain ⟨place, htokens⟩ := ofString?_of_lexemes hstuck
    obtain ⟨lexemes, hcuts, heq⟩ := ofString?_eq_ok_iff.mp htokens
    obtain ⟨rfl, -⟩ := List.append_inj' heq rfl
    exact hcuts

end Token

namespace Reader

variable {text : String} {d : Diagram}

/-- Either reader reads a text as the document that its tokens are. -/
theorem read_eq_ok_iff_cuts {reader : Reader} :
    read reader text = .ok d ↔
      ∃ lexemes, Token.Cuts [] text.toList lexemes [] ∧ DocumentPhrase lexemes d := by
  have hread : read reader text = .ok d ↔
      (Lexing.ofString text).stuck = none ∧ DocumentPhrase (Token.ofLexemes text) d := by
    cases reader with
    | descent => exact read_descent_eq_ok_iff
    | grammar => exact read_grammar_eq_ok_iff
  rw [hread]
  constructor
  · rintro ⟨hstuck, hd⟩
    exact ⟨_, Token.cuts_iff_ofLexemes.mpr ⟨hstuck, rfl⟩, hd⟩
  · rintro ⟨lexemes, hcuts, hd⟩
    obtain ⟨hstuck, rfl⟩ := Token.cuts_iff_ofLexemes.mp hcuts
    exact ⟨hstuck, hd⟩

/-- Either reader reads the tokens of a text by the rules. -/
theorem read_eq_ok_iff_ofTokens {reader : Reader} {tokens : List Token}
    (h : Token.ofString? text = .ok tokens) :
    read reader text = .ok d ↔ Diagram.ofTokens tokens = .ok d := by
  have hdescent : read .descent text = .ok d ↔ _ := read_eq_ok_iff_cuts
  rw [read_eq_ok_iff_cuts, ← hdescent, read_descent_eq_ok_iff_ofTokens h]

/-- Tokens that differ from a document in their places only are a document too, and say the same
but for the places. -/
theorem exists_document_of_unplaced {lexemes run : List Token}
    (hcuts : Token.Cuts [] text.toList lexemes []) (hd : DocumentPhrase run d)
    (hsame : lexemes.map Token.unplaced = run.map Token.unplaced) :
    ∃ d', DocumentPhrase lexemes d' ∧ d'.unplaced = d.unplaced := by
  -- Whether tokens are a document is told by their terminals, which have no places.
  have hderives : (Expression.nonterminal .document).Derives (terminals lexemes) := by
    have hterminals : terminals lexemes = terminals run := by
      have hkinds := congrArg terminals hsame
      simpa [terminals, Function.comp_def] using hkinds
    rw [hterminals]
    exact (Expression.spells_document _).mpr ⟨run, d, hd, rfl⟩
  obtain ⟨hstuck, rfl⟩ := Token.cuts_iff_ofLexemes.mp hcuts
  rw [Token.ofLexemes, terminals_map_token] at hderives
  obtain ⟨d', hread⟩ := exists_read_grammar_iff_derives.mpr ⟨hstuck, hderives⟩
  obtain ⟨-, hd'⟩ := read_grammar_eq_ok_iff.mp hread
  refine ⟨d', hd', ?_⟩
  have hplaceless := hd'.unplaced
  rw [hsame] at hplaceless
  exact hplaceless.unique hd.unplaced

end Reader

/-- A diagram as a text: its plain run of tokens, a blank behind each. -/
def Diagram.written (d : Diagram) : List Char := Token.writtenAll d.tokens

namespace Reader

theorem exists_read_written {d : Diagram} (h : d.WellFormed) :
    ∃ d', (∀ reader, read reader (String.ofList d.written) = .ok d') ∧
      d'.unplaced = d.unplaced := by
  obtain ⟨lexemes, hcuts, hsame⟩ := Token.spells_writtenAll h.lexical [] [] Token.edge_nil
  have hcuts' : Token.Cuts [] (String.ofList d.written).toList lexemes [] := by
    rwa [String.toList_ofList]
  obtain ⟨d', hd', hplaceless⟩ := exists_document_of_unplaced hcuts' h.phrase hsame
  rw [d.unplaced_unplaced] at hplaceless
  exact ⟨d', fun reader => read_eq_ok_iff_cuts.mpr ⟨lexemes, hcuts', hd'⟩, hplaceless⟩

/-- The diagrams that texts denote are the well-formed ones.  What either reader reads is
well-formed, and for every well-formed diagram there is a text that both readers read as the same
diagram, which is the given one but for its places. -/
theorem reads_wellFormed :
    (∀ reader text d, read reader text = .ok d → d.WellFormed) ∧
    ∀ d : Diagram, d.WellFormed →
      ∃ text d', (∀ reader, read reader text = .ok d') ∧ d'.unplaced = d.unplaced := by
  constructor
  · intro reader text d h
    obtain ⟨lexemes, hcuts, hd⟩ := read_eq_ok_iff_cuts.mp h
    exact (hd.linear hcuts.lexical).1
  · intro d h
    exact ⟨_, exists_read_written h⟩

/-- A name that an operator begins with, one that is a number, and a label with all escapes. -/
theorem reads_wellFormed_aggregation :
    Diagram.WellFormed { entities := [.classDeclaration { name := "o", place := ⟨1, 1⟩, members :=
        [.field { name := "x", valueType := some "o[]", place := ⟨1, 11⟩ }] }] } ∧
      ∃ text d', (∀ reader, read reader text = .ok d') ∧
        d'.unplaced = { entities := [.relationship {
          name := "o o-- 42", source := "o", target := "42", kind := .aggregation,
          operator := "o--", leftLabel := some "\"\\\n" }] } := by
  constructor
  · have htokens : Token.ofString? "class o \x7b x: o[] \x7d" = .ok
        [⟨.classWord, "class", ⟨1, 1⟩⟩, ⟨.identifier, "o", ⟨1, 7⟩⟩, ⟨.leftBrace, "\x7b", ⟨1, 9⟩⟩,
          ⟨.identifier, "x", ⟨1, 11⟩⟩, ⟨.colon, ":", ⟨1, 12⟩⟩, ⟨.identifier, "o", ⟨1, 14⟩⟩,
          ⟨.leftBracket, "[", ⟨1, 15⟩⟩, ⟨.rightBracket, "]", ⟨1, 16⟩⟩,
          ⟨.rightBrace, "\x7d", ⟨1, 18⟩⟩, ⟨.endOfText, "", ⟨1, 19⟩⟩] := by
      decide +kernel
    apply reads_wellFormed.1 .descent "class o \x7b x: o[] \x7d"
    rw [read_descent_eq_ok_iff_ofTokens htokens]
    decide +kernel
  · have ho : IsName "o" := by decide
    have hnumber : IsName "42" := by decide
    have hdiagram : Diagram.WellFormed { entities := [.relationship {
        name := "o o-- 42", source := "o", target := "42", kind := .aggregation,
        operator := "o--", leftLabel := some "\"\\\n" }] } := by
      refine ⟨rfl, fun e he => ?_⟩
      obtain rfl := List.mem_singleton.mp he
      exact Relationship.WellFormed.mk ho hnumber
        ⟨⟨['o', '-', '-'], .aggregation⟩, by decide, rfl, rfl⟩ rfl
    exact reads_wellFormed.2 _ hdiagram

end Reader

end ClassDiagram
