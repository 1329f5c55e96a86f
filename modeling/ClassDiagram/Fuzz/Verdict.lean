import ClassDiagram.Reader

/-!
# Attempts and verdicts

An input is tried on the reader by descent first, and on the reader by grammar only if the first one
accepts it.  An attempt may also fail in ways in which no reader should: by taking too long, or by
any error that is not a rejection.  The verdict follows from the two attempts.
-/

namespace ClassDiagram.Fuzz

inductive Attempt where
  | parsed (diagram : Diagram)
  /-- A lexer or parser error, as inputs may well deserve. -/
  | refused
  | rejected (kind message : String)
  | timedOut (message : String)
  | crashed (kind message : String)
  | interrupted
  deriving DecidableEq, Repr

namespace Attempt

def byDescent (text : String) : Attempt :=
  match Diagram.ofString text with
  | .ok d => parsed d
  | .error _ => refused

def kindOf : Grammar.Rejection → String
  | .unexpectedLexeme _ _ => "UnexpectedToken"
  | .unexpectedCharacter _ _ _ _ _ => "UnexpectedCharacters"

def byGrammar (text : String) : Attempt :=
  match Grammar.diagramOf text with
  | .ok d => parsed d
  | .error e => rejected (kindOf e) e.message

end Attempt

/-- What is worth keeping about an input: the category, and the error with its kind. -/
structure Concern where
  category : String
  kind : String
  message : String
  deriving DecidableEq, Repr

inductive Verdict where
  /-- Both readers read the same diagram. -/
  | agreement
  /-- The input deserves no diagram. -/
  | refusal
  | timeout (message : String)
  | mismatch (message : String)
  | crash (kind message : String)
  | interruption
  deriving DecidableEq, Repr

namespace Verdict

/-- The verdict when the attempt fails before there is a diagram. -/
def ofFailure : Attempt → Verdict
  | .parsed _ => agreement
  | .refused => refusal
  | .rejected kind message => crash kind message
  | .timedOut message => timeout message
  | .crashed kind message => crash kind message
  | .interrupted => interruption

/-- The verdict when the reader by descent has read a diagram and the other reader is tried. -/
def ofSecond (d : Diagram) : Attempt → Verdict
  | .parsed other => if other = d then agreement else mismatch "parsers produced different ASTs"
  | .rejected _ message => mismatch ("grammar parser rejected valid input: " ++ message)
  | attempt => ofFailure attempt

def concern? : Verdict → Option Concern
  | timeout message => some ⟨"timeout", "ParseTimeout", message⟩
  | mismatch message => some ⟨"mismatch", "ParserMismatch", message⟩
  | crash kind message => some ⟨"crash", kind, message⟩
  | _ => none

end Verdict

end ClassDiagram.Fuzz
