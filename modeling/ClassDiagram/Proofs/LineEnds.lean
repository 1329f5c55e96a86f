import ClassDiagram.Proofs.ErrorPlaces
import ClassDiagram.Proofs.Lexing.Returns

/-!
# Both kinds of line ends

A text whose lines end with a carriage return and a line feed says the same as one whose lines end
with a line feed, and it says it in the same places.  Lexing such a text gives the same tokens and
is stuck in the same place, and this is all that either reader goes by.
-/

namespace ClassDiagram

open Grammar

/-- The classes of errors that readers report. -/
inductive ReadError.Kind where
  | lex
  | parse
  | lexeme
  | character
  deriving DecidableEq, Repr

def ReadError.kind : ReadError → Kind
  | lex _ => .lex
  | parse _ => .parse
  | grammar (.unexpectedLexeme _ _) => .lexeme
  | grammar (.unexpectedCharacter _ _ _ _ _) => .character

/-- Lexing gives the same tokens for the texts, and is stuck in the same place or in none. -/
structure SameLexing (text text' : String) : Prop where
  lexemes : Token.ofLexemes text' = Token.ofLexemes text
  stuck : (Lexing.ofString text').stuck.map Point.place =
    (Lexing.ofString text).stuck.map Point.place
  last : Place.behind text'.toList = Place.behind text.toList

namespace Token

variable {text : String}

theorem ofString?_of_not_stuck (h : (Lexing.ofString text).stuck = none) :
    ofString? text = .ok (ofLexemes text ++ [⟨.endOfText, "", .behind text.toList⟩]) :=
  ofString?_eq_ok_iff.mpr ⟨_, cuts_iff_ofLexemes.mpr ⟨h, rfl⟩, rfl⟩

end Token

/-- Returns before line feeds do not change what is lexed, and where. -/
theorem sameLexing_withReturns (text : String) :
    SameLexing text (String.ofList (Text.withReturns text.toList)) := by
  obtain ⟨run, rest, lexemes, htext, hcuts, hrest, -⟩ := Token.exists_cuts_ofString text
  have hhead : rest.head? ≠ some '\n' := by
    intro hfeed
    obtain ⟨more, rfl⟩ := List.head?_eq_some_iff.mp hfeed
    exact hrest.layout ['\n'] more (.blank (by decide)) rfl
  have htext' : (String.ofList (Text.withReturns text.toList)).toList =
      Text.withReturns run ++ Text.withReturns rest := by
    rw [String.toList_ofList, htext, Text.withReturns_append]
  obtain ⟨hlexemes, hstuck⟩ := Token.lexing_of_cuts htext hcuts hrest
  obtain ⟨hlexemes', hstuck'⟩ := Token.lexing_of_cuts htext' (hcuts.returns hhead) hrest.returns
  refine ⟨by rw [hlexemes, hlexemes'], ?_, ?_⟩
  · rw [hstuck, hstuck', Place.behind_withReturns]
    simp only [Text.withReturns_eq_nil_iff]
  · rw [String.toList_ofList, Place.behind_withReturns]

namespace SameLexing

variable {text text' : String}

/-- The scanner gives the same tokens, or fails in the same place. -/
theorem ofString? (h : SameLexing text text') :
    (∃ tokens, Token.ofString? text = .ok tokens ∧ Token.ofString? text' = .ok tokens) ∨
    ∃ q q', (Lexing.ofString text).stuck = some q ∧ (Lexing.ofString text').stuck = some q' ∧
      q'.place = q.place := by
  have hstuck := h.stuck
  cases hq : (Lexing.ofString text).stuck with
  | none =>
      rw [hq] at hstuck
      have htokens' := Token.ofString?_of_not_stuck (Option.map_eq_none_iff.mp hstuck)
      rw [h.lexemes, h.last] at htokens'
      exact .inl ⟨_, Token.ofString?_of_not_stuck hq, htokens'⟩
  | some q =>
      rw [hq] at hstuck
      obtain ⟨q', hq', hplace⟩ := Option.map_eq_some_iff.mp hstuck
      exact .inr ⟨q, q', rfl, hq', hplace⟩

end SameLexing

namespace Reader

variable {text text' : String}

/-- The reader reads the same from both texts, or fails on both, with errors of the same class and
in the same place. -/
def AgreesOn (reader : Reader) (text text' : String) : Prop :=
  (∃ d, read reader text = .ok d ∧ read reader text' = .ok d) ∨
    ∃ e e', read reader text = .error e ∧ read reader text' = .error e' ∧
      e'.kind = e.kind ∧ e'.place = e.place

/-- Where both texts are the same tokens, the rules read the same from both or break on the same
token. -/
theorem read_descent_of_same_tokens {tokens : List Token}
    (htokens : Token.ofString? text = .ok tokens) (htokens' : Token.ofString? text' = .ok tokens) :
    (∃ d, read .descent text = .ok d ∧ read .descent text' = .ok d) ∨
      ∃ e, read .descent text = .error (.parse e) ∧ read .descent text' = .error (.parse e) := by
  cases hread : read .descent text with
  | ok d =>
      have hrules := (read_descent_eq_ok_iff_ofTokens htokens).mp hread
      exact .inl ⟨d, rfl, (read_descent_eq_ok_iff_ofTokens htokens').mpr hrules⟩
  | error e =>
      rcases error_of_read_descent hread with ⟨l, -, hlex⟩ | ⟨p, tokens', rfl, hsame, hrules⟩
      · rw [htokens] at hlex
        cases hlex
      · rw [htokens] at hsame
        cases hsame
        exact .inr ⟨p, rfl, (read_descent_eq_parse_iff htokens').mpr hrules⟩

theorem agreesOn_descent (h : SameLexing text text') : AgreesOn .descent text text' := by
  rcases h.ofString? with ⟨tokens, htokens, htokens'⟩ | ⟨q, q', hq, hq', hplace⟩
  · rcases read_descent_of_same_tokens htokens htokens' with ⟨d, hd, hd'⟩ | ⟨e, he, he'⟩
    · exact .inl ⟨d, hd, hd'⟩
    · exact .inr ⟨_, _, he, he', rfl, rfl⟩
  · obtain ⟨problem, hlex⟩ := Token.exists_ofString?_of_stuck hq
    obtain ⟨problem', hlex'⟩ := Token.exists_ofString?_of_stuck hq'
    exact .inr ⟨_, _, read_descent_of_lexError hlex, read_descent_of_lexError hlex', rfl, hplace⟩

/-- A broken rule is found by the grammar on the same token in both texts, or on their ends, which
it puts where their last tokens stand. -/
theorem agreesOn_grammar_of_parse {tokens : List Token} {e : ParseError}
    (htokens : Token.ofString? text = .ok tokens) (htokens' : Token.ofString? text' = .ok tokens)
    (he : read .descent text = .error (.parse e)) (he' : read .descent text' = .error (.parse e)) :
    AgreesOn .grammar text text' := by
  by_cases hend : e.token.kind = .endOfText
  · obtain ⟨run, last, hrun, x, expected, hread, -, hplace⟩ := read_grammar_of_parse_end he hend
    obtain ⟨run', last', hrun', x', expected', hread', -, hplace'⟩ :=
      read_grammar_of_parse_end he' hend
    rw [htokens] at hrun
    rw [htokens', Except.ok.inj hrun] at hrun'
    have hlast := (List.append_inj' (Except.ok.inj hrun') rfl).2
    refine .inr ⟨_, _, hread, hread', rfl, ?_⟩
    change x'.place = x.place
    rw [hplace, hplace', (List.cons.inj hlast).1]
  · obtain ⟨x, expected, hread, hx⟩ := read_grammar_of_parse he hend
    obtain ⟨x', expected', hread', hx'⟩ := read_grammar_of_parse he' hend
    exact .inr ⟨_, _, hread, hread', rfl, congrArg Token.place (hx'.trans hx.symm)⟩

/-- Where lexing is stuck, the grammar finds the place of that or an unexpected lexeme before. -/
theorem agreesOn_grammar_of_stuck {q q' : Point} (h : SameLexing text text')
    (hq : (Lexing.ofString text).stuck = some q) (hq' : (Lexing.ofString text').stuck = some q')
    (hplace : q'.place = q.place) : AgreesOn .grammar text text' := by
  by_cases hviable : Token.Viable (Token.ofLexemes text)
  · obtain ⟨s, hsteps⟩ := exists_steps?_lexemes_iff.mpr hviable
    obtain ⟨s', hsteps'⟩ := exists_steps?_lexemes_iff.mpr (h.lexemes ▸ hviable)
    exact .inr ⟨_, _, read_grammar_of_error (diagramOf_of_stuck hsteps hq),
      read_grammar_of_error (diagramOf_of_stuck hsteps' hq'), rfl, hplace⟩
  · obtain ⟨run, t, rest, hsplit, hrun, ht⟩ := exists_first_refused hviable
    obtain ⟨y, expected, hread, hy⟩ := read_grammar_of_not_viable hsplit hrun ht
    obtain ⟨y', expected', hread', hy'⟩ :=
      read_grammar_of_not_viable (h.lexemes.trans hsplit) hrun ht
    exact .inr ⟨_, _, hread, hread', rfl, congrArg Token.place (hy'.trans hy.symm)⟩

theorem agreesOn_grammar (h : SameLexing text text') : AgreesOn .grammar text text' := by
  rcases h.ofString? with ⟨tokens, htokens, htokens'⟩ | ⟨q, q', hq, hq', hplace⟩
  · rcases read_descent_of_same_tokens htokens htokens' with ⟨d, hd, hd'⟩ | ⟨e, he, he'⟩
    · rw [read_descent_eq_ok_iff, ← read_grammar_eq_ok_iff] at hd hd'
      exact .inl ⟨d, hd, hd'⟩
    · exact agreesOn_grammar_of_parse htokens htokens' he he'
  · exact agreesOn_grammar_of_stuck h hq hq' hplace

/-- A carriage return before every line feed makes no difference.  The tokens of the text are the
same, places and all, or it fails to be made of tokens in the same place; and each reader reads the
same diagram from it, places and all, or reports an error of the same class in the same place. -/
theorem reads_through_returns (text : String) :
    let text' := String.ofList (Text.withReturns text.toList)
    ((∃ tokens, Token.ofString? text = .ok tokens ∧ Token.ofString? text' = .ok tokens) ∨
      ∃ e e', Token.ofString? text = .error e ∧ Token.ofString? text' = .error e' ∧
        e'.place = e.place) ∧
    ∀ reader, AgreesOn reader text text' := by
  intro text'
  have hsame : SameLexing text text' := sameLexing_withReturns text
  refine ⟨?_, fun reader => ?_⟩
  · rcases hsame.ofString? with htokens | ⟨q, q', hq, hq', hplace⟩
    · exact .inl htokens
    · obtain ⟨problem, hlex⟩ := Token.exists_ofString?_of_stuck hq
      obtain ⟨problem', hlex'⟩ := Token.exists_ofString?_of_stuck hq'
      exact .inr ⟨_, _, hlex, hlex', hplace⟩
  · cases reader with
    | descent => exact agreesOn_descent hsame
    | grammar => exact agreesOn_grammar hsame

/-- Only what is wrong may be told in other words: behind a backslash, the return is escaped. -/
example : Token.ofString? "\"\\\n" = .error ⟨.unterminatedEscape, ⟨1, 1⟩⟩ ∧
    Token.ofString? "\"\\\r\n" = .error ⟨.unterminatedString, ⟨1, 1⟩⟩ := by
  decide +kernel

end Reader

end ClassDiagram
