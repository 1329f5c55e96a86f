import ClassDiagram.Proofs.Formats.Hexadecimal
import ClassDiagram.Proofs.Formats.Textual
import ClassDiagram.Yaml.Block

/-!
# Reading YAML

A reader for documents of YAML 1.1 in block style, made of line feeds and the printable characters
of ASCII.  It knows plain scalars and both kinds of quotes, comments, lists, records, and lists and
records that are empty; everything else is refused: directives and the markers of documents, tags,
anchors, literal and folded blocks, and whatever else stands between brackets.

A plain scalar that looks like something else than text has a tag, and what it is then read as is
left to whoever reads.
-/

namespace ClassDiagram.Yaml

/-! ## Implicit types -/

/-- The types other than text that a plain scalar can have: the last is that of the merge key and
the default value. -/
inductive Tag where
  | boolean
  | float
  | integer
  | null
  | timestamp
  | key
  deriving DecidableEq, Repr

def Tag.ofPlain? (text : List Char) : Option Tag :=
  if booleans.accepts text then some .boolean
  else if floats.accepts text then some .float
  else if integers.accepts text then some .integer
  else if nulls.accepts text then some .null
  else if timestamps.accepts text then some .timestamp
  else if keys.accepts text then some .key
  else none

example : Tag.ofPlain? ['1', ':', '2', '0'] = some .integer := by decide

theorem Tag.ofPlain?_eq_none {text : List Char} (h : isTyped text = false) :
    ofPlain? text = none := by
  simp only [isTyped, Bool.or_eq_false_iff] at h
  simp [ofPlain?, h]

/-! ## Scalars -/

/-- Whether a line begins with the marker of a document's start or end. -/
def startsMarker (line : List Char) : Bool :=
  (['-', '-', '-'].isPrefixOf line || ['.', '.', '.'].isPrefixOf line) &&
    (line.drop 3).head?.all isSpacing

/-- What has been read since the last character of a scalar that is no blank: so many spaces; a line
break with so many others after it; or an escaped line break with so many others after it. -/
inductive Gap where
  | blanks (n : Nat)
  | lines (n : Nat)
  | joined (n : Nat)
  deriving DecidableEq, Repr

namespace Gap

def space : Gap → Gap
  | blanks n => blanks (n + 1)
  | gap => gap

def feed : Gap → Gap
  | blanks _ => lines 0
  | lines n => lines (n + 1)
  | joined n => joined (n + 1)

/-- What a gap between two characters of a scalar stands for. -/
def text : Gap → List Char
  | blanks n => List.replicate n ' '
  | lines 0 => [' ']
  | lines (n + 1) => List.replicate (n + 1) '\n'
  | joined n => List.replicate n '\n'

end Gap

/-- A piece of a scalar with more text before it. -/
def prepend (text : List Char) (r : List Char × List Char) : List Char × List Char :=
  (text ++ r.1, r.2)

/-- The text up to the closing quote, and what follows it. -/
def single? : Gap → List Char → Option (List Char × List Char)
  | _, [] => none
  | gap, c :: rest =>
    if c = ' ' then single? gap.space rest
    else if c = '\n' then if startsMarker rest then none else single? gap.feed rest
    else if c = '\x27' then
      match rest with
      | '\x27' :: rest => (single? (.blanks 0) rest).map (prepend (gap.text ++ ['\x27']))
      | rest => some (gap.text, rest)
    else (single? (.blanks 0) rest).map (prepend (gap.text ++ [c]))

section Single

variable {gap : Gap} {c : Char} {rest : List Char}

theorem single?_cons (gap : Gap) (c : Char) (rest : List Char) : single? gap (c :: rest) =
    if c = ' ' then single? gap.space rest
    else if c = '\n' then if startsMarker rest then none else single? gap.feed rest
    else if c = '\x27' then
      match rest with
      | '\x27' :: rest => (single? (.blanks 0) rest).map (prepend (gap.text ++ ['\x27']))
      | rest => some (gap.text, rest)
    else (single? (.blanks 0) rest).map (prepend (gap.text ++ [c])) := by
  rw [single?.eq_def]

theorem single?_space : single? gap (' ' :: rest) = single? gap.space rest := by
  rw [single?_cons, if_pos rfl]

theorem single?_feed (h : startsMarker rest = false) :
    single? gap ('\n' :: rest) = single? gap.feed rest := by
  rw [single?_cons, if_neg (by decide), if_pos rfl, if_neg (by simp [h])]

theorem single?_quote : single? gap ('\x27' :: '\x27' :: rest) =
    (single? (.blanks 0) rest).map (prepend (gap.text ++ ['\x27'])) := by
  rw [single?_cons]
  rfl

theorem single?_close (h : rest.head? ≠ some '\x27') :
    single? gap ('\x27' :: rest) = some (gap.text, rest) := by
  rw [single?_cons, if_neg (by decide), if_neg (by decide), if_pos rfl]
  split
  · exact absurd rfl h
  · rfl

theorem single?_kept (hspace : c ≠ ' ') (hline : c ≠ '\n') (hquote : c ≠ '\x27') :
    single? gap (c :: rest) = (single? (.blanks 0) rest).map (prepend (gap.text ++ [c])) := by
  rw [single?_cons, if_neg hspace, if_neg hline, if_neg hquote]

end Single

/-- The character that a letter stands for after a backslash. -/
def unescape? (letter : Char) : Option Char :=
  [('0', '\x00'), ('a', '\x07'), ('b', '\x08'), ('t', '\t'), ('n', '\n'), ('v', '\x0b'),
    ('f', '\x0c'), ('r', '\r'), ('e', '\x1b'), (' ', ' '), ('"', '"'), ('\\', '\\'), ('/', '/'),
    ('N', '\x85'), ('_', '\xa0'), ('L', '\u2028'), ('P', '\u2029')].lookup letter

/-- The character whose code hexadecimal digits write. -/
def coded? (digits : List Char) : Option Char :=
  (Text.hexNumber? 0 digits).bind fun code =>
    if code.isValidChar then some (Char.ofNat code) else none

/-- The text up to the closing double quote, and what follows it. -/
def double? : Gap → List Char → Option (List Char × List Char)
  | _, [] => none
  | gap, c :: rest =>
    if c = ' ' then double? gap.space rest
    else if c = '\n' then if startsMarker rest then none else double? gap.feed rest
    else if c = '"' then some (gap.text, rest)
    else if c = '\\' then
      match rest with
      | [] => none
      | '\n' :: rest =>
        if startsMarker rest then none else (double? (.joined 0) rest).map (prepend gap.text)
      | 'x' :: a :: b :: rest =>
        match coded? [a, b] with
        | some c => (double? (.blanks 0) rest).map (prepend (gap.text ++ [c]))
        | none => none
      | 'u' :: a :: b :: c :: d :: rest =>
        match coded? [a, b, c, d] with
        | some c => (double? (.blanks 0) rest).map (prepend (gap.text ++ [c]))
        | none => none
      | 'U' :: a :: b :: c :: d :: e :: f :: g :: h :: rest =>
        match coded? [a, b, c, d, e, f, g, h] with
        | some c => (double? (.blanks 0) rest).map (prepend (gap.text ++ [c]))
        | none => none
      | letter :: rest =>
        match unescape? letter with
        | some c => (double? (.blanks 0) rest).map (prepend (gap.text ++ [c]))
        | none => none
    else (double? (.blanks 0) rest).map (prepend (gap.text ++ [c]))

section Double

variable {gap : Gap} {c : Char} {rest : List Char}

theorem double?_cons (hbackslash : c ≠ '\\') : double? gap (c :: rest) =
    if c = ' ' then double? gap.space rest
    else if c = '\n' then if startsMarker rest then none else double? gap.feed rest
    else if c = '"' then some (gap.text, rest)
    else (double? (.blanks 0) rest).map (prepend (gap.text ++ [c])) := by
  rw [double?.eq_def]
  simp only [if_neg hbackslash]

theorem double?_backslash (gap : Gap) (rest : List Char) : double? gap ('\\' :: rest) =
    match rest with
    | [] => none
    | '\n' :: rest =>
      if startsMarker rest then none else (double? (.joined 0) rest).map (prepend gap.text)
    | 'x' :: a :: b :: rest =>
      match coded? [a, b] with
      | some c => (double? (.blanks 0) rest).map (prepend (gap.text ++ [c]))
      | none => none
    | 'u' :: a :: b :: c :: d :: rest =>
      match coded? [a, b, c, d] with
      | some c => (double? (.blanks 0) rest).map (prepend (gap.text ++ [c]))
      | none => none
    | 'U' :: a :: b :: c :: d :: e :: f :: g :: h :: rest =>
      match coded? [a, b, c, d, e, f, g, h] with
      | some c => (double? (.blanks 0) rest).map (prepend (gap.text ++ [c]))
      | none => none
    | letter :: rest =>
      match unescape? letter with
      | some c => (double? (.blanks 0) rest).map (prepend (gap.text ++ [c]))
      | none => none := by
  rw [double?.eq_def]
  rfl

theorem double?_space : double? gap (' ' :: rest) = double? gap.space rest := by
  rw [double?_cons (by decide), if_pos rfl]

theorem double?_close : double? gap ('"' :: rest) = some (gap.text, rest) := by
  rw [double?_cons (by decide), if_neg (by decide), if_neg (by decide), if_pos rfl]

theorem double?_join (h : startsMarker rest = false) :
    double? gap ('\\' :: '\n' :: rest) = (double? (.joined 0) rest).map (prepend gap.text) := by
  rw [double?_backslash]
  exact if_neg (by simp [h])

theorem double?_letter {letter : Char} (h : unescape? letter = some c) :
    double? gap ('\\' :: letter :: rest) =
      (double? (.blanks 0) rest).map (prepend (gap.text ++ [c])) := by
  have hne : ∀ other, unescape? other = none → letter ≠ other := by
    rintro other hother rfl
    rw [h] at hother
    cases hother
  have hline := hne '\n' rfl
  have hx := hne 'x' rfl
  have hu := hne 'u' rfl
  have hU := hne 'U' rfl
  rw [double?_backslash]
  split
  all_goals simp_all

theorem double?_code {width : Nat} {digits : List Char} {mark : Char}
    (hmark : (mark, width) ∈ [('x', 2), ('u', 4), ('U', 8)]) (hlength : digits.length = width)
    (h : coded? digits = some c) :
    double? gap ('\\' :: mark :: (digits ++ rest)) =
      (double? (.blanks 0) rest).map (prepend (gap.text ++ [c])) := by
  simp only [List.mem_cons, Prod.mk.injEq, List.not_mem_nil, or_false] at hmark
  rw [double?_backslash]
  rcases hmark with ⟨rfl, rfl⟩ | ⟨rfl, rfl⟩ | ⟨rfl, rfl⟩
  · match digits, hlength with
    | [_, _], _ => simp [h]
  · match digits, hlength with
    | [_, _, _, _], _ => simp [h]
  · match digits, hlength with
    | [_, _, _, _, _, _, _, _], _ => simp [h]

theorem double?_kept (hspace : c ≠ ' ') (hline : c ≠ '\n') (hquote : c ≠ '"')
    (hbackslash : c ≠ '\\') :
    double? gap (c :: rest) = (double? (.blanks 0) rest).map (prepend (gap.text ++ [c])) := by
  rw [double?_cons hbackslash, if_neg hspace, if_neg hline, if_neg hquote]

end Double

/-- Whether a plain scalar can begin like this. -/
def startsPlain : List Char → Bool
  | [] => false
  | c :: rest =>
    !isSpacing c && !("#,[]\x7b\x7d&*!|>'\"%@\x60".toList.contains c) &&
      (!(['?', ':', '-'].contains c) || !(rest.head?.all isSpacing))

/-- The characters of a plain scalar and what follows it.  A scalar goes no further than its last
character that is no blank, behind which `mark` is what is left of the text.  It ends before a colon
with a blank behind it, a number sign with a blank before it, a line that begins before the column
`least` and the marker of a document. -/
def plain? (least : Nat) : (mark : List Char) → (column : Nat) → Gap → List Char →
    List Char × List Char
  | mark, _, _, [] => ([], mark)
  | mark, column, gap, c :: rest =>
    if c = ' ' then plain? least mark (column + 1) gap.space rest
    else if c = '\n' then
      if startsMarker rest then ([], mark) else plain? least mark 0 gap.feed rest
    else if (c = ':' ∧ rest.head?.all isSpacing) ∨
        (gap ≠ .blanks 0 ∧ (c = '#' ∨ column < least)) then
      ([], mark)
    else prepend (gap.text ++ [c]) (plain? least rest (column + 1) (.blanks 0) rest)

section Plain

variable {least column : Nat} {mark rest : List Char} {gap : Gap} {c : Char}

theorem plain?_cons (least : Nat) (mark : List Char) (column : Nat) (gap : Gap) (c : Char)
    (rest : List Char) : plain? least mark column gap (c :: rest) =
    if c = ' ' then plain? least mark (column + 1) gap.space rest
    else if c = '\n' then
      if startsMarker rest then ([], mark) else plain? least mark 0 gap.feed rest
    else if (c = ':' ∧ rest.head?.all isSpacing) ∨
        (gap ≠ .blanks 0 ∧ (c = '#' ∨ column < least)) then
      ([], mark)
    else prepend (gap.text ++ [c]) (plain? least rest (column + 1) (.blanks 0) rest) :=
  rfl

theorem plain?_space :
    plain? least mark column gap (' ' :: rest) = plain? least mark (column + 1) gap.space rest := by
  rw [plain?_cons, if_pos rfl]

theorem plain?_feed (h : startsMarker rest = false) :
    plain? least mark column gap ('\n' :: rest) = plain? least mark 0 gap.feed rest := by
  rw [plain?_cons, if_neg (by decide), if_pos rfl, if_neg (by simp [h])]

theorem plain?_kept (hspace : c ≠ ' ') (hline : c ≠ '\n')
    (hcolon : ¬ (c = ':' ∧ rest.head?.all isSpacing))
    (hgap : gap ≠ .blanks 0 → c ≠ '#' ∧ least ≤ column) :
    plain? least mark column gap (c :: rest) =
      prepend (gap.text ++ [c]) (plain? least rest (column + 1) (.blanks 0) rest) := by
  rw [plain?_cons, if_neg hspace, if_neg hline, if_neg]
  rintro (h | ⟨hne, h⟩)
  · exact hcolon h
  · have hkept := hgap hne
    rcases h with h | h
    · exact hkept.1 h
    · omega

end Plain

/-! ## Blocks -/

/-- What comes next in a text: whether a list or a record in block style may begin there, the
column, and the rest of the text from there on. -/
structure Ahead where
  fresh : Bool
  column : Nat
  rest : List Char

/-- What comes after blanks, comments and line breaks, in the given column or on a later line. -/
def next : (comment fresh : Bool) → (column : Nat) → List Char → Ahead
  | _, fresh, column, [] => ⟨fresh, column, []⟩
  | comment, fresh, column, c :: rest =>
    if c = '\n' then next false true 0 rest
    else if comment ∨ c = ' ' then next comment fresh (column + 1) rest
    else if c = '#' then next true fresh (column + 1) rest
    else ⟨fresh, column, c :: rest⟩

section Next

variable {fresh : Bool} {column : Nat}

theorem next_cons (comment fresh : Bool) (column : Nat) (c : Char) (rest : List Char) :
    next comment fresh column (c :: rest) =
    if c = '\n' then next false true 0 rest
    else if comment ∨ c = ' ' then next comment fresh (column + 1) rest
    else if c = '#' then next true fresh (column + 1) rest
    else ⟨fresh, column, c :: rest⟩ :=
  rfl

theorem next_feed {comment : Bool} (rest : List Char) :
    next comment fresh column ('\n' :: rest) = next false true 0 rest := by
  rw [next_cons, if_pos rfl]

theorem next_space (rest : List Char) :
    next false fresh column (' ' :: rest) = next false fresh (column + 1) rest := by
  rw [next_cons, if_neg (by decide), if_pos (.inr rfl)]

theorem next_newline (indent : Nat) (rest : List Char) :
    next false fresh column (newline indent ++ rest) = next false true indent rest := by
  have hindent : ∀ k place, next false true place (List.replicate k ' ' ++ rest) =
      next false true (place + k) rest := by
    intro k
    induction k with
    | zero => intro place; rfl
    | succ k ih =>
        intro place
        rw [List.replicate_succ, List.cons_append, next_space, Nat.add_comm k 1, ← Nat.add_assoc]
        exact ih (place + 1)
  rw [newline, List.cons_append, next_feed, hindent, Nat.zero_add]

theorem next_word {c : Char} (hspace : c ≠ ' ') (hline : c ≠ '\n') (hcomment : c ≠ '#')
    (rest : List Char) : next false fresh column (c :: rest) = ⟨fresh, column, c :: rest⟩ := by
  rw [next_cons, if_neg hline, if_neg (by simpa using hspace), if_neg hcomment]

end Next

/-- The tag and the characters of a scalar, and what follows it. -/
def scalar? (least : Nat) (ahead : Ahead) : Option (Option Tag × List Char × List Char) :=
  match ahead.rest with
  | [] => none
  | c :: rest =>
    if c = '\x27' then (single? (.blanks 0) rest).map fun r => (none, r)
    else if c = '"' then (double? (.blanks 0) rest).map fun r => (none, r)
    else if startsPlain (c :: rest) ∧ ¬ (ahead.column = 0 ∧ startsMarker (c :: rest)) then
      let r := plain? least (c :: rest) ahead.column (.blanks 0) (c :: rest)
      some (Tag.ofPlain? r.1, r)
    else none

theorem scalar?_single {least column : Nat} {fresh : Bool} {rest : List Char} :
    scalar? least ⟨fresh, column, '\x27' :: rest⟩ =
      (single? (.blanks 0) rest).map fun r => (none, r) :=
  rfl

theorem scalar?_double {least column : Nat} {fresh : Bool} {rest : List Char} :
    scalar? least ⟨fresh, column, '"' :: rest⟩ =
      (double? (.blanks 0) rest).map fun r => (none, r) :=
  rfl

/-- A key with its colon: its text, the column behind the colon, and the rest of the text. -/
structure Key where
  text : String
  column : Nat
  rest : List Char

/-- The key that comes next: a scalar on one line, neither longer than 1024 characters nor with a
tag, that has a colon and a blank behind it. -/
def key? (least : Nat) (ahead : Ahead) : Option Key :=
  match scalar? least ahead with
  | some (none, chars, rest) =>
    match rest.dropWhile (· == ' ') with
    | ':' :: more =>
      let written := ahead.rest.take (ahead.rest.length - (more.length + 1))
      if more.head?.all isSpacing ∧ '\n' ∉ written ∧ written.length ≤ 1024 then
        some ⟨.ofList chars, ahead.column + written.length + 1, more⟩
      else none
    | _ => none
  | _ => none

/-- Where a value stands: in a document, or in an entry or an item in the given column. -/
inductive Parent where
  | document
  | entry (column : Nat)
  | item (column : Nat)

/-- The least column in which a scalar stands that has this parent. -/
def Parent.least : Parent → Nat
  | document => 0
  | entry column => column + 1
  | item column => column + 1

def Ahead.isItem (ahead : Ahead) : Bool :=
  match ahead.rest with
  | '-' :: rest => rest.head?.all isSpacing
  | _ => false

/-- Whether what comes next belongs to a parent.  The items of a list under a key may stand in the
column of the key. -/
def Parent.has (parent : Parent) (ahead : Ahead) : Bool :=
  match parent with
  | entry column => column < ahead.column || (column == ahead.column && ahead.isItem)
  | _ => parent.least ≤ ahead.column

section Nodes

variable (construct : Tag → String → Option Value)

/-- What a scalar is read as. -/
def typed (tag : Option Tag) (chars : List Char) : Option Value :=
  match tag with
  | none => some (.text (.ofList chars))
  | some tag => construct tag (.ofList chars)

mutual

/-- The value that comes next, at most `n` deep, and what comes after it. -/
def node? : (n : Nat) → Parent → Ahead → Option (Value × Ahead)
  | 0, _, _ => none
  | n + 1, parent, ahead =>
    if ahead.rest = [] ∨ parent.has ahead = false then some (.null, ahead)
    else if ahead.isItem then
      if ahead.fresh then
        (items? n ahead.column ahead.rest.tail).map fun r => (.list r.1, r.2)
      else none
    else
      match ahead.rest with
      | '[' :: rest =>
        match rest.dropWhile (· == ' ') with
        | ']' :: rest => some (.list [], next false false 0 rest)
        | _ => none
      | '\x7b' :: rest =>
        match rest.dropWhile (· == ' ') with
        | '\x7d' :: rest => some (.record [], next false false 0 rest)
        | _ => none
      | _ =>
        match key? parent.least ahead with
        | some key =>
          if ahead.fresh then
            (entries? n ahead.column key).map fun r => (.gather r.1, r.2)
          else none
        | none =>
          match scalar? parent.least ahead with
          | some (tag, chars, rest) =>
            (typed construct tag chars).map fun v => (v, next false false 0 rest)
          | none => none

/-- The items of a list whose dashes stand in the given column, from behind the first dash on, and
what comes after them. -/
def items? : (n : Nat) → (column : Nat) → List Char → Option (List Value × Ahead)
  | 0, _, _ => none
  | n + 1, column, rest =>
    match node? n (.item column) (next false true (column + 1) rest) with
    | none => none
    | some (v, after) =>
      if after.fresh ∧ after.column = column ∧ after.isItem then
        (items? n column after.rest.tail).map fun r => (v :: r.1, r.2)
      else some ([v], after)

/-- The entries of a record whose keys stand in the given column, from behind the first key on, and
what comes after them. -/
def entries? : (n : Nat) → (column : Nat) → Key → Option (List (String × Value) × Ahead)
  | 0, _, _ => none
  | n + 1, column, key =>
    match node? n (.entry column) (next false false key.column key.rest) with
    | none => none
    | some (v, after) =>
      if after.fresh ∧ after.column = column ∧ after.rest ≠ [] then
        match key? (column + 1) after with
        | some key' => (entries? n column key').map fun r => ((key.text, v) :: r.1, r.2)
        | none => none
      else some ([(key.text, v)], after)

end

/-- The value of a document that is the whole of a text.  Of two steps down one takes a character,
so that the depth is enough for every text. -/
def read (text : String) : Option Value :=
  if text.toList.all isOrdinary then
    match node? construct (2 * text.toList.length + 2) .document
        (next false true 0 text.toList) with
    | some (v, after) => if after.rest = [] then some v else none
    | none => none
  else none

end Nodes

example (construct : Tag → String → Option Value) :
    read construct "'a': 'it''s'  # b\n'c':\n- 'd\n\n  e'\n- - \"f\\\n    \\ g\"\n" =
      some (.record [("a", .text "it's"), ("c", .list [.text "d\ne", .list [.text "f g"]])]) := by
  cbv

end ClassDiagram.Yaml
