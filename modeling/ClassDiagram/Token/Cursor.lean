import ClassDiagram.Token.Basic

/-!
# Cursors

A cursor stands on a token of a sequence that ends with the token for the end of the text.  It
moves forward only, and stays on the last token once it is there; so there always is a current
token.  What lies behind the cursor is not kept, only how many tokens it was.
-/

namespace ClassDiagram

/-- A sequence of tokens is closed when its last token stands for the end of the text. -/
def Token.Closed (tokens : List Token) : Prop :=
  tokens.getLast?.map Token.kind = some .endOfText

instance (tokens : List Token) : Decidable (Token.Closed tokens) :=
  inferInstanceAs (Decidable (_ = _))

namespace Token

@[simp] theorem not_closed_nil : ¬ Closed [] := by simp [Closed]

@[simp] theorem closed_singleton {t : Token} : Closed [t] ↔ t.kind = .endOfText := by
  simp [Closed]

@[simp] theorem closed_cons_cons {t u : Token} {tokens : List Token} :
    Closed (t :: u :: tokens) ↔ Closed (u :: tokens) := by
  simp [Closed, List.getLast?_cons_cons]

theorem closed_append {tokens : List Token} {t : Token} (h : t.kind = .endOfText) :
    Closed (tokens ++ [t]) := by
  simp [Closed, h]

end Token

structure Cursor where
  index : Nat
  current : Token
  rest : List Token
  closed : Token.Closed (current :: rest)

namespace Cursor

def ofTokens : (tokens : List Token) → Token.Closed tokens → Cursor
  | [], h => absurd h Token.not_closed_nil
  | t :: rest, h => ⟨0, t, rest, h⟩

def left (c : Cursor) : Nat := c.rest.length

/-- The cursor one token on, or the same cursor on the last token. -/
def advance : Cursor → Cursor
  | ⟨index, current, [], h⟩ => ⟨index, current, [], h⟩
  | ⟨index, _, next :: rest, h⟩ => ⟨index + 1, next, rest, Token.closed_cons_cons.mp h⟩

def atEnd (c : Cursor) : Bool := c.current.kind == .endOfText

theorem left_advance_le (c : Cursor) : c.advance.left ≤ c.left := by
  cases c with
  | mk index current rest h => cases rest <;> simp [advance, left]

/-- Only the last token can keep a cursor where it is, and that one stands for the end. -/
theorem left_advance_lt {c : Cursor} (h : c.current.kind ≠ .endOfText) :
    c.advance.left < c.left := by
  cases c with
  | mk index current rest closed =>
    cases rest with
    | nil => exact absurd (Token.closed_singleton.mp closed) h
    | cons next rest => simp [advance, left]

end Cursor

end ClassDiagram
