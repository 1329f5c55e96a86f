/-!
# Patterns

Regular patterns over characters.  Whether a text matches is decided by derivatives: after each
character the pattern is replaced by one for what may still follow.  The sums and sequences that
arise on the way drop the parts that can no longer match, so patterns stay small.
-/

namespace ClassDiagram.Text

inductive Pattern where
  | never
  | nothing
  | one (test : Char → Bool)
  | seq (first second : Pattern)
  | alt (left right : Pattern)
  | many (body : Pattern)

namespace Pattern

def nullable : Pattern → Bool
  | never => false
  | nothing => true
  | one _ => false
  | seq p q => p.nullable && q.nullable
  | alt p q => p.nullable || q.nullable
  | many _ => true

/-- Two patterns in sequence, put simply. -/
def andThen : Pattern → Pattern → Pattern
  | never, _ => never
  | nothing, q => q
  | p, q => seq p q

/-- Either of two patterns, put simply. -/
def orElse : Pattern → Pattern → Pattern
  | never, q => q
  | p, never => p
  | p, q => alt p q

/-- What may follow the character `c`. -/
def after (c : Char) : Pattern → Pattern
  | never => never
  | nothing => never
  | one test => if test c then nothing else never
  | seq p q =>
    if p.nullable then orElse (andThen (p.after c) q) (q.after c) else andThen (p.after c) q
  | alt p q => orElse (p.after c) (q.after c)
  | many p => andThen (p.after c) (many p)

def accepts (p : Pattern) : List Char → Bool
  | [] => p.nullable
  | c :: rest => (p.after c).accepts rest

def anyOf (chars : List Char) : Pattern := one fun c => chars.contains c

/-- A character with a code point between those of `first` and `last`. -/
def range (first last : Char) : Pattern := one fun c => first ≤ c && c ≤ last

def word : List Char → Pattern
  | [] => nothing
  | c :: rest => seq (one (· == c)) (word rest)

def choice : List Pattern → Pattern
  | [] => never
  | p :: rest => alt p (choice rest)

def sequence : List Pattern → Pattern
  | [] => nothing
  | p :: rest => seq p (sequence rest)

def optional (p : Pattern) : Pattern := alt p nothing

def some (p : Pattern) : Pattern := seq p (many p)

end Pattern

end ClassDiagram.Text
