import ClassDiagram.Grammar.Terminal
import ClassDiagram.Text.Alphanumeric
import ClassDiagram.Text.Quoted
import ClassDiagram.Token.Layout

/-!
# Lexemes

A lexeme is a piece of text that matches a terminal.  Operators come first, then words, strings,
and single characters; runs of blanks and comments lie between lexemes and are dropped one at a
time.  The lexemes of a text are listed up to the first point where no terminal fits, if there is
one: what stands before that point is not affected by it.
-/

namespace ClassDiagram.Grammar

/-- A terminal with what a lexeme of it carries. -/
structure Symbol where
  terminal : Terminal
  content : terminal.Content

namespace Symbol

def text (s : Symbol) : List Char := s.terminal.spell s.content

def operator? (text : List Char) : Option Symbol :=
  (Operator.at? text).map fun o => ⟨.operator, o⟩

/-- The symbol a word is: one of the two keywords, or a name. -/
def ofWord (word : List Char) : Symbol :=
  if word = Terminal.classWord.spell () then ⟨.classWord, ()⟩
  else if word = Terminal.interfaceWord.spell () then ⟨.interfaceWord, ()⟩
  else ⟨.name, word⟩

def word? (text : List Char) : Option Symbol :=
  match text.takeWhile Text.isWordChar with
  | [] => none
  | word => some (ofWord word)

/-- How many characters after an opening quote the string goes on, the closing quote included: a
backslash goes with the character after it, and no line feed stands in a string. -/
def closing? : List Char → Option Nat
  | [] => none
  | c :: rest =>
    if c = '"' then some 1
    else if c = '\n' then none
    else if c = '\\' then
      match rest with
      | [] => none
      | d :: rest => if d = '\n' then none else (closing? rest).map (· + 2)
    else (closing? rest).map (· + 1)

def string? (text : List Char) : Option Symbol :=
  match text with
  | '"' :: rest => (closing? rest).map fun n => ⟨.string, text.take (n + 1)⟩
  | _ => none

/-- The symbol that a single character is. -/
def mark? : List Char → Option Symbol
  | '\x7b' :: _ => some ⟨.leftBrace, ()⟩
  | '\x7d' :: _ => some ⟨.rightBrace, ()⟩
  | '(' :: _ => some ⟨.leftParenthesis, ()⟩
  | ')' :: _ => some ⟨.rightParenthesis, ()⟩
  | '[' :: _ => some ⟨.leftBracket, ()⟩
  | ']' :: _ => some ⟨.rightBracket, ()⟩
  | ':' :: _ => some ⟨.colon, ()⟩
  | '=' :: _ => some ⟨.equal, ()⟩
  | ',' :: _ => some ⟨.comma, ()⟩
  | '+' :: _ => some ⟨.visibility, Visibility.toAll⟩
  | '-' :: _ => some ⟨.visibility, Visibility.toSelf⟩
  | '#' :: _ => some ⟨.visibility, Visibility.toHeirs⟩
  | '~' :: _ => some ⟨.visibility, Visibility.toPackage⟩
  | _ => none

def at? (text : List Char) : Option Symbol :=
  (operator? text).or ((word? text).or ((string? text).or (mark? text)))

theorem text_ofWord (word : List Char) : (ofWord word).text = word := by
  unfold ofWord
  split
  · next h => simp [text, h]
  split
  · next h => simp [text, h]
  · simp [text, Terminal.spell]

theorem text_ne_nil_of_mark? {text : List Char} {s : Symbol} (h : mark? text = some s) :
    s.text ≠ [] := by
  unfold mark? at h
  split at h <;> cases h <;> simp [Symbol.text, Terminal.spell]

theorem text_ne_nil_of_string? {text : List Char} {s : Symbol} (h : string? text = some s) :
    s.text ≠ [] := by
  unfold string? at h
  split at h
  · obtain ⟨n, _, rfl⟩ := Option.map_eq_some_iff.mp h
    simp [Symbol.text, Terminal.spell]
  · cases h

theorem text_ne_nil_of_word? {text : List Char} {s : Symbol} (h : word? text = some s) :
    s.text ≠ [] := by
  unfold word? at h
  split at h
  · cases h
  · rename_i word hword
    cases h
    rw [text_ofWord]
    exact fun hnil => hword hnil

theorem text_ne_nil_of_operator? {text : List Char} {s : Symbol} (h : operator? text = some s) :
    s.text ≠ [] := by
  obtain ⟨o, ho, rfl⟩ := Option.map_eq_some_iff.mp h
  exact Operator.spelling_ne_nil (Operator.mem_table_of_at? ho)

theorem text_ne_nil_of_at? {text : List Char} {s : Symbol} (h : at? text = some s) :
    s.text ≠ [] := by
  simp only [at?, Option.or_eq_some_iff] at h
  rcases h with h | ⟨_, h | ⟨_, h | ⟨_, h⟩⟩⟩
  · exact text_ne_nil_of_operator? h
  · exact text_ne_nil_of_word? h
  · exact text_ne_nil_of_string? h
  · exact text_ne_nil_of_mark? h

end Symbol

/-- A symbol and where it stands in the text. -/
structure Lexeme extends Symbol where
  offset : Nat
  place : Place

/-- A lexeme as messages show it. -/
def Lexeme.display (x : Lexeme) : String :=
  "Token('" ++ x.terminal.label ++ "', " ++ Text.quoted (String.ofList x.text) ++ ")"

/-- The length of the run of blanks or the comment that comes next, zero if none does. -/
def gapLength (text : List Char) : Nat :=
  match text with
  | '/' :: '/' :: _ => (text.takeWhile (· != '\n')).length
  | _ => (text.takeWhile Layout.isSpace).length

/-- The lexemes of a text, and the point where no terminal fits if the text has one. -/
structure Lexing where
  lexemes : List Lexeme
  stuck : Option Point

namespace Lexing

def ofPoint (p : Point) : Lexing :=
  if p.rest = [] then ⟨[], none⟩
  else if 0 < gapLength p.rest then ofPoint (p.forward (gapLength p.rest))
  else
    match h : Symbol.at? p.rest with
    | none => ⟨[], some p⟩
    | some symbol =>
      have := List.length_pos_iff.mpr (Symbol.text_ne_nil_of_at? h)
      let more := ofPoint (p.forward symbol.text.length)
      ⟨⟨symbol, p.offset, p.place⟩ :: more.lexemes, more.stuck⟩
termination_by p.rest.length
decreasing_by
  all_goals
    have := List.length_pos_iff.mpr ‹¬ p.rest = []›
    simp
    omega

end Lexing

end ClassDiagram.Grammar
