import ClassDiagram.Text.Alphanumeric
import ClassDiagram.Text.Raised
import ClassDiagram.Token.Basic
import ClassDiagram.Token.Label
import ClassDiagram.Token.Layout
import ClassDiagram.Token.Operator

/-!
# Scanning

A scanner stands at a point of a text and holds the tokens read so far.  It can be asked for one
token or for all; a failure leaves it at the point where the failure was found, tokens kept, and it
can go on from there.

Operators are tried before anything else, so that `--` is never two markers and the `o` of `o--`
never a name.  Scanning everything comes to an end because each token takes at least one character.
-/

namespace ClassDiagram

/-- A text that is not made of tokens: what is wrong, and the place where the token starts. -/
structure LexError where
  problem : LexProblem
  place : Place
  deriving DecidableEq, Repr

def LexProblem.message : LexProblem → String
  | unexpectedCharacter c => "Unexpected character: " ++ Text.quoted (String.singleton c)
  | unterminatedString => "Unterminated string"
  | unterminatedEscape => "Unterminated string escape"

def LexError.message (e : LexError) : String :=
  e.place.describe ++ ": " ++ e.problem.message

/-- What is raised for a text that is not made of tokens. -/
def LexError.raised (e : LexError) : Raised LexError := e.place.raise e

def Token.Kind.ofWord (word : List Char) : Token.Kind :=
  if word = ['c', 'l', 'a', 's', 's'] then .classWord
  else if word = ['i', 'n', 't', 'e', 'r', 'f', 'a', 'c', 'e'] then .interfaceWord
  else .identifier

def Token.Kind.ofMark? : Char → Option Token.Kind
  | '\x7b' => some .leftBrace
  | '\x7d' => some .rightBrace
  | '(' => some .leftParenthesis
  | ')' => some .rightParenthesis
  | '[' => some .leftBracket
  | ']' => some .rightBracket
  | ':' => some .colon
  | '=' => some .equals
  | ',' => some .comma
  | '#' => some (.marker .toHeirs)
  | '+' => some (.marker .toAll)
  | '-' => some (.marker .toSelf)
  | '~' => some (.marker .toPackage)
  | _ => none

structure Scanner where
  point : Point
  tokens : Array Token := #[]

abbrev Scan := EStateM LexError Scanner

namespace Scanner

/-- A scan as it is called: what is wrong with the text is raised. -/
def raising {α : Type} (scan : Scan α) : EStateM (Raised LexError) Scanner α :=
  scan.adaptExcept LexError.raised

def ofString (text : String) : Scanner := ⟨.ofString text, #[]⟩

def atEnd (s : Scanner) : Bool := s.point.rest.isEmpty

/-- The next character, or a null character at the end of the text. -/
def peek (s : Scanner) : Char := s.point.rest.headD '\x00'

def startsWith (s : Scanner) (text : String) : Bool := text.toList.isPrefixOf s.point.rest

def forward (s : Scanner) (n : Nat) : Scanner := { s with point := s.point.forward n }

def advance? (s : Scanner) : Option (Char × Scanner) :=
  s.point.rest.head?.map fun c => (c, s.forward 1)

def push (s : Scanner) (kind : Token.Kind) (value : List Char) (place : Place) : Scanner :=
  { s with tokens := s.tokens.push ⟨kind, String.ofList value, place⟩ }

def skipLayout (s : Scanner) : Scanner := s.forward (Layout.length false s.point.rest)

/-- Reads the rest of a label whose opening quote stands at `start`. -/
def scanLabel (start : Place) : Scan Unit := fun s =>
  let label := Label.body s.point.rest
  match label.2 with
  | .ok value => .ok () ((s.forward label.1).push .quotation value start)
  | .error problem => .error ⟨problem, start⟩ (s.forward label.1)

/-- Reads the rest of a word that began with `first` at `start`. -/
def scanWord (first : List Char) (start : Place) : Scan Unit := fun s =>
  let more := s.point.rest.takeWhile Text.isWordChar
  .ok () ((s.forward more.length).push (.ofWord (first ++ more)) (first ++ more) start)

/-- Reads the token that starts right here with the character `c`. -/
def scanHere (c : Char) : Scan Unit := fun s =>
  let start := s.point.place
  match Operator.at? s.point.rest with
  | some o => .ok () ((s.forward o.spelling.length).push (.operator o.kind) o.spelling start)
  | none =>
    if c = '"' then scanLabel start (s.forward 1)
    else if Text.isWordChar c then scanWord [c] start (s.forward 1)
    else
      match Token.Kind.ofMark? c with
      | some kind => .ok () ((s.forward 1).push kind [c] start)
      | none => .error ⟨.unexpectedCharacter c, start⟩ (s.forward 1)

/-- Reads layout and the token after it, if there is one. -/
def scanToken : Scan Unit := fun s =>
  match s.skipLayout.point.rest with
  | [] => .ok () s.skipLayout
  | c :: _ => scanHere c s.skipLayout

@[simp] theorem point_push (s : Scanner) (kind : Token.Kind) (value : List Char) (place : Place) :
    (s.push kind value place).point = s.point := rfl

@[simp] theorem point_forward (s : Scanner) (n : Nat) :
    (s.forward n).point = s.point.forward n := rfl

@[simp] theorem tokens_forward (s : Scanner) (n : Nat) : (s.forward n).tokens = s.tokens := rfl

theorem scanLabel_length_le {start : Place} {s s' : Scanner} (h : scanLabel start s = .ok () s') :
    s'.point.rest.length ≤ s.point.rest.length := by
  simp only [scanLabel] at h
  split at h
  · cases h
    simp
  · cases h

theorem scanWord_length_le {first : List Char} {start : Place} {s s' : Scanner}
    (h : scanWord first start s = .ok () s') :
    s'.point.rest.length ≤ s.point.rest.length := by
  cases h
  simp

/-- Reading a token takes at least one character. -/
theorem scanHere_length_lt {c : Char} {s s' : Scanner} (hs : s.point.rest ≠ [])
    (h : scanHere c s = .ok () s') : s'.point.rest.length < s.point.rest.length := by
  have hpos : 0 < s.point.rest.length := List.length_pos_iff.mpr hs
  simp only [scanHere] at h
  split at h
  · rename_i o ho
    cases h
    have := List.length_pos_iff.mpr (Operator.spelling_ne_nil (Operator.mem_table_of_at? ho))
    simp
    omega
  split at h
  · have := scanLabel_length_le h
    simp at this
    omega
  split at h
  · have := scanWord_length_le h
    simp at this
    omega
  split at h
  · cases h
    simp
    omega
  · cases h

/-- A step that starts before the end of the text and succeeds moves on. -/
theorem scanToken_length_lt {s s' : Scanner} (hs : s.point.rest ≠ [])
    (h : scanToken s = .ok () s') : s'.point.rest.length < s.point.rest.length := by
  have hle : s.skipLayout.point.rest.length ≤ s.point.rest.length := by simp [skipLayout]
  have hpos : 0 < s.point.rest.length := List.length_pos_iff.mpr hs
  simp only [scanToken] at h
  split at h
  · rename_i hnil
    cases h
    simp [hnil, hpos]
  · rename_i c rest hrest
    have := scanHere_length_lt (by simp [hrest]) h
    omega

/-- Reads tokens up to the end of the text. -/
def scanRest (s : Scanner) : EStateM.Result LexError Scanner Unit :=
  if hs : s.point.rest = [] then .ok () s
  else
    match h : scanToken s with
    | .ok () s' =>
      have := scanToken_length_lt hs h
      scanRest s'
    | .error e s' => .error e s'
termination_by s.point.rest.length

/-- Reads all that is left, and closes the sequence of tokens with one for the end of the text. -/
def scanAll : Scan Unit := do
  scanRest
  modify fun s => s.push .endOfText [] s.point.place

end Scanner

/-- The tokens of a text; the last one stands for its end. -/
def Token.ofString? (text : String) : Except LexError (List Token) :=
  match Scanner.scanAll (Scanner.ofString text) with
  | .ok () s => .ok s.tokens.toList
  | .error e _ => .error e

end ClassDiagram
