import ClassDiagram.Text.Hex
import ClassDiagram.Yaml.Implicit

/-!
# Scalars in YAML

Text is written plain where that is read back as the same text, between single quotes where line
feeds and blanks allow, and between double quotes with escapes otherwise.  A line that has grown
past eighty columns is continued on the next one at a single space, or in double quotes after an
escape; the continuation is indented, and what the reader drops there is put so that it loses
nothing.

Only line feed and the printable characters of ASCII are ever written as they are.
-/

namespace ClassDiagram.Yaml

/-- The column after which a line is continued on the next. -/
def width : Nat := 80

/-- What counts as a blank next to an indicator. -/
def isSpacing (c : Char) : Bool :=
  c == '\x00' || c == ' ' || c == '\t' || c == '\r' || c == '\n' || c == '\x85' ||
    c == '\u2028' || c == '\u2029'

def isOrdinary (c : Char) : Bool :=
  c == '\n' || (0x20 ≤ c.toNat && c.toNat ≤ 0x7E)

/-- Whether a text begins like something else than a plain scalar. -/
def startsWithIndicator : List Char → Bool
  | [] => false
  | c :: rest =>
    ['-', '-', '-'].isPrefixOf (c :: rest) || ['.', '.', '.'].isPrefixOf (c :: rest) ||
      "#,[]\x7b\x7d&*!|>'\"%@\x60".toList.contains c ||
      (['?', ':', '-'].contains c && rest.head?.all isSpacing)

/-- Whether a later colon or number sign would end a plain scalar; `previous` is the character
before. -/
def hasIndicator (previous : Char) : List Char → Bool
  | [] => false
  | c :: rest =>
    (c == ':' && rest.head?.all isSpacing) || (c == '#' && isSpacing previous) ||
      hasIndicator c rest

def hasPair (first second : Char) : List Char → Bool
  | c :: d :: rest => (c == first && d == second) || hasPair first second (d :: rest)
  | _ => false

def hasEdge (text : List Char) : Bool :=
  let isEdge (c : Char) : Bool := c == ' ' || c == '\n'
  text.head?.any isEdge || text.getLast?.any isEdge

inductive Style where
  | plain
  | single
  | double
  deriving DecidableEq, Repr

def fitsSingle (text : List Char) : Bool :=
  text.all isOrdinary && !hasPair '\n' ' ' text && !hasPair ' ' '\n' text

def fitsPlain (text : List Char) : Bool :=
  fitsSingle text && !text.contains '\n' && !hasEdge text && !startsWithIndicator text &&
    !hasIndicator (text.headD ' ') text.tail && !isTyped text

def styleOf (text : List Char) : Style :=
  if fitsPlain text then .plain else if fitsSingle text then .single else .double

def newline (indent : Nat) : List Char := '\n' :: List.replicate indent ' '

/-- A plain text from the given column on.  A single space becomes a new line where the line is
full; `spaced` tells whether a space came before. -/
def plain (indent : Nat) : (column : Nat) → (spaced : Bool) → List Char → List Char
  | _, _, [] => []
  | column, spaced, c :: rest =>
    if c = ' ' ∧ spaced = false ∧ rest.head? ≠ some ' ' ∧ width < column then
      newline indent ++ plain indent indent true rest
    else c :: plain indent (column + 1) (c == ' ') rest

/-- A text between single quotes from the given column on; `previous` is the character before, if
there is one.  A line feed is written twice where a run of them begins. -/
def single (indent : Nat) : (column : Nat) → (previous : Option Char) → List Char → List Char
  | _, _, [] => []
  | column, previous, c :: rest =>
    if c = '\n' then
      (if previous = some '\n' then ['\n'] else ['\n', '\n']) ++
        (if rest.head? = some '\n' then [] else List.replicate indent ' ') ++
        single indent indent (some c) rest
    else if c = '\x27' then c :: c :: single indent (column + 2) (some c) rest
    else if c = ' ' ∧ previous.isSome ∧ previous ≠ some ' ' ∧ rest.head?.isSome ∧
        rest.head? ≠ some ' ' ∧ width < column then
      newline indent ++ single indent indent (some c) rest
    else c :: single indent (column + 1) (some c) rest

def escapeLetter? (c : Char) : Option Char :=
  [('\x00', '0'), ('\x07', 'a'), ('\x08', 'b'), ('\t', 't'), ('\n', 'n'), ('\x0b', 'v'),
    ('\x0c', 'f'), ('\r', 'r'), ('\x1b', 'e'), ('"', '"'), ('\\', '\\'), ('\x85', 'N'),
    ('\xa0', '_'), ('\u2028', 'L'), ('\u2029', 'P')].lookup c

/-- A character between double quotes that is not written as it is. -/
def escape? (c : Char) : Option (List Char) :=
  match escapeLetter? c with
  | some letter => some ['\\', letter]
  | none =>
    if 0x20 ≤ c.toNat ∧ c.toNat ≤ 0x7E then none
    else if c.toNat ≤ 0xFF then some ('\\' :: 'x' :: Text.hexUpper 2 c.toNat)
    else if c.toNat ≤ 0xFFFF then some ('\\' :: 'u' :: Text.hexUpper 4 c.toNat)
    else some ('\\' :: 'U' :: Text.hexUpper 8 c.toNat)

/-- Where a text between double quotes has come to. -/
inductive Spot where
  | first
  | inside
  | escaped
  deriving DecidableEq, Repr

/-- The break between two lines before `next`: a backslash keeps the new line from being read, and
a second one keeps a space that starts the next line. -/
def fold (indent : Nat) (next : Option Char) : List Char :=
  '\\' :: (newline indent ++ if next = some ' ' then ['\\'] else [])

def foldColumn (indent : Nat) (next : Option Char) : Nat :=
  if next = some ' ' then indent + 1 else indent

/-- A text between double quotes from the given column on.  A full line is broken before a space,
and before or after an escape's successor or the escape itself, but never at the first character
nor at the last. -/
def double (indent : Nat) : (column : Nat) → Spot → List Char → List Char
  | _, _, [] => []
  | column, spot, c :: rest =>
    let mayBreak := spot ≠ .first ∧ rest ≠ []
    match escape? c with
    | some text =>
      if mayBreak ∧ width + 1 < column + text.length then
        text ++ fold indent rest.head? ++ double indent (foldColumn indent rest.head?) .escaped rest
      else text ++ double indent (column + text.length) .escaped rest
    | none =>
      if mayBreak ∧ (c = ' ' ∨ spot = .escaped) ∧ width < column then
        fold indent (some c) ++ c :: double indent (foldColumn indent (some c) + 1) .inside rest
      else c :: double indent (column + 1) .inside rest

def write (indent column : Nat) (text : List Char) : Style → List Char
  | .plain => plain indent column false text
  | .single => '\x27' :: (single indent (column + 1) none text ++ ['\x27'])
  | .double => '"' :: (double indent (column + 1) .first text ++ ['"'])

end ClassDiagram.Yaml
