import ClassDiagram.Grammar.State
import ClassDiagram.Token.Scanner

/-!
# Symbols as tokens

The symbol that comes next in a text and the token that a scanner finds there are the same thing
seen twice: wherever there is a symbol, the scanner reads a token of its kind and says what it says,
and where there is none, the scanner fails.  The symbol for a string keeps its quotes and escapes,
which the scanner has resolved.
-/

namespace ClassDiagram

namespace Grammar

/-- The kind of the tokens that lexemes of a terminal are. -/
def Terminal.kind : (t : Terminal) → t.Content → Token.Kind
  | .classWord, _ => .classWord
  | .interfaceWord, _ => .interfaceWord
  | .name, _ => .identifier
  | .string, _ => .quotation
  | .operator, (o : Operator) => .operator o.kind
  | .visibility, (v : Visibility) => .marker v
  | .leftBrace, _ => .leftBrace
  | .rightBrace, _ => .rightBrace
  | .leftParenthesis, _ => .leftParenthesis
  | .rightParenthesis, _ => .rightParenthesis
  | .leftBracket, _ => .leftBracket
  | .rightBracket, _ => .rightBracket
  | .colon, _ => .colon
  | .equal, _ => .equals
  | .comma, _ => .comma
  | .endOfText, _ => .endOfText

/-- What a lexeme of a terminal says as a token. -/
def Terminal.value : (t : Terminal) → t.Content → List Char
  | .string, (raw : List Char) => unquote raw
  | t, content => t.spell content

/-- The kind of the token that a symbol is. -/
def Symbol.kind (s : Symbol) : Token.Kind := s.terminal.kind s.content

/-- What a symbol says as a token. -/
def Symbol.value (s : Symbol) : List Char := s.terminal.value s.content

/-- The token that a lexeme is. -/
def Lexeme.token (x : Lexeme) : Token := ⟨x.kind, String.ofList x.value, x.place⟩

@[simp] theorem Lexeme.kind_token (x : Lexeme) : x.token.kind = x.kind := rfl

@[simp] theorem Lexeme.place_token (x : Lexeme) : x.token.place = x.place := rfl

end Grammar

namespace Grammar.Symbol

theorem resolve_cons {c : Char} (h : c ≠ '\\') (rest : List Char) :
    unquote.resolve (c :: rest) = c :: unquote.resolve rest := by
  cases rest with
  | nil => rfl
  | cons d rest => simp [unquote.resolve, h]

theorem kind_ofWord (word : List Char) : (ofWord word).kind = Token.Kind.ofWord word := by
  by_cases hclass : word = ['c', 'l', 'a', 's', 's']
  · subst hclass
    rfl
  by_cases hinterface : word = ['i', 'n', 't', 'e', 'r', 'f', 'a', 'c', 'e']
  · subst hinterface
    rfl
  · have hword : ofWord word = ⟨.name, word⟩ := by
      simp [ofWord, Terminal.spell, hclass, hinterface]
    rw [hword, Token.Kind.ofWord, if_neg hclass, if_neg hinterface]
    rfl

theorem value_ofWord (word : List Char) : (ofWord word).value = word := by
  unfold ofWord
  split
  · next h => exact h.symm
  split
  · next h => exact h.symm
  · rfl

theorem ofMark?_of_mark? {c : Char} {rest : List Char} {s : Symbol}
    (h : mark? (c :: rest) = some s) :
    Token.Kind.ofMark? c = some s.kind ∧ s.text = [c] ∧ s.value = [c] := by
  unfold mark? at h
  split at h <;> cases h <;> simp_all only [List.cons.injEq] <;> decide

theorem ofMark?_of_mark?_eq_none {c : Char} {rest : List Char} (h : mark? (c :: rest) = none) :
    Token.Kind.ofMark? c = none := by
  unfold Token.Kind.ofMark?
  split <;> simp_all [mark?]

end Grammar.Symbol

namespace Label

open Grammar.Symbol Grammar

theorem body_backslash {c : Char} (h : c ≠ '\n') (rest : List Char) :
    body ('\\' :: c :: rest) =
      ((body rest).1 + 2, (body rest).2.map (unescape c :: ·)) := by
  rw [body]
  exact h

theorem body_cons {c : Char} (hquote : c ≠ '"') (hfeed : c ≠ '\n') (hslash : c ≠ '\\')
    (rest : List Char) : body (c :: rest) = ((body rest).1 + 1, (body rest).2.map (c :: ·)) := by
  rw [body] <;> simp_all

/-- A string that is closed is a label, and the label says the string without its quotes. -/
theorem body_of_closing? {text : List Char} {n : Nat} (h : closing? text = some n) :
    0 < n ∧ n ≤ text.length ∧
      body text = (n, .ok (unquote.resolve (text.take n).dropLast)) := by
  fun_induction closing? text generalizing n with
  | case1 => cases h
  | case2 rest =>
      cases h
      exact ⟨by simp, by simp, by simp [body, unquote.resolve]⟩
  | case3 => cases h
  | case4 => cases h
  | case5 => cases h
  | case6 d rest hd _ _ ih =>
      obtain ⟨m, hm, rfl⟩ := Option.map_eq_some_iff.mp h
      obtain ⟨hpos, hle, hbody⟩ := ih hm
      have hne : rest.take m ≠ [] := List.ne_nil_of_length_pos (by simp; omega)
      refine ⟨by omega, by simpa using hle, ?_⟩
      rw [body_backslash hd, hbody]
      simp [List.dropLast_cons_of_ne_nil hne, unquote.resolve, Except.map]
  | case7 c rest hquote hfeed hslash ih =>
      obtain ⟨m, hm, rfl⟩ := Option.map_eq_some_iff.mp h
      obtain ⟨hpos, hle, hbody⟩ := ih hm
      have hne : rest.take m ≠ [] := List.ne_nil_of_length_pos (by simp; omega)
      refine ⟨by omega, by simpa using hle, ?_⟩
      rw [body_cons hquote hfeed hslash, hbody, List.take_succ_cons,
        List.dropLast_cons_of_ne_nil hne, resolve_cons hslash]
      rfl

theorem body_of_closing?_eq_none {text : List Char} (h : closing? text = none) :
    ∃ problem, (body text).2 = .error problem := by
  fun_induction closing? text with
  | case1 => exact ⟨_, rfl⟩
  | case2 => cases h
  | case3 => exact ⟨_, rfl⟩
  | case4 => exact ⟨_, rfl⟩
  | case5 => exact ⟨_, rfl⟩
  | case6 d rest hd _ _ ih =>
      obtain ⟨problem, hproblem⟩ := ih (Option.map_eq_none_iff.mp h)
      exact ⟨problem, by rw [body_backslash hd, hproblem]; rfl⟩
  | case7 c rest hquote hfeed hslash ih =>
      obtain ⟨problem, hproblem⟩ := ih (Option.map_eq_none_iff.mp h)
      exact ⟨problem, by rw [body_cons hquote hfeed hslash, hproblem]; rfl⟩

end Label

end ClassDiagram
