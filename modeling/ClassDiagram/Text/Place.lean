/-!
# Places in a text

A place is a line and a column, both counted from one as characters go by: a line feed starts a
new line, and every other character moves one column on.  A `Point` is a place together with its
offset from the start of the text and what is still to be read; advancing keeps the three in step.

Lines and columns are integers, because tokens made by hand may carry any.
-/

namespace ClassDiagram

structure Place where
  line : Int
  column : Int
  deriving DecidableEq, Repr, Inhabited

namespace Place

def start : Place := ⟨1, 1⟩

/-- The place of tokens and nodes that come from no text. -/
def nowhere : Place := ⟨0, 0⟩

def after (p : Place) (c : Char) : Place :=
  if c = '\n' then ⟨p.line + 1, 1⟩ else ⟨p.line, p.column + 1⟩

def afterAll (p : Place) (cs : List Char) : Place :=
  cs.foldl after p

@[simp] theorem after_lineFeed (p : Place) : p.after '\n' = ⟨p.line + 1, 1⟩ := rfl

theorem after_of_ne (p : Place) {c : Char} (h : c ≠ '\n') :
    p.after c = ⟨p.line, p.column + 1⟩ := by
  simp [after, h]

@[simp] theorem afterAll_nil (p : Place) : p.afterAll [] = p := rfl

@[simp] theorem afterAll_cons (p : Place) (c : Char) (cs : List Char) :
    p.afterAll (c :: cs) = (p.after c).afterAll cs := rfl

@[simp] theorem afterAll_append (p : Place) (cs ds : List Char) :
    p.afterAll (cs ++ ds) = (p.afterAll cs).afterAll ds := by
  simp [afterAll]

/-- A place as it is shown after a file's name: `:line:column`. -/
def suffix (p : Place) : String :=
  ":" ++ toString p.line ++ ":" ++ toString p.column

def describe (p : Place) : String :=
  "Line " ++ toString p.line ++ ", column " ++ toString p.column

end Place

/-- A point in a text: what is left to read, how many characters lie before it, and its place. -/
structure Point where
  rest : List Char
  offset : Nat
  place : Place
  deriving DecidableEq, Repr

namespace Point

def ofString (text : String) : Point := ⟨text.toList, 0, .start⟩

/-- The point one character on; the end of the text stays where it is. -/
def next (p : Point) : Point :=
  match p.rest with
  | [] => p
  | c :: rest => ⟨rest, p.offset + 1, p.place.after c⟩

def forward (p : Point) : Nat → Point
  | 0 => p
  | n + 1 => p.next.forward n

@[simp] theorem rest_next (p : Point) : p.next.rest = p.rest.tail := by
  cases p with
  | mk rest offset place => cases rest <;> rfl

@[simp] theorem forward_zero (p : Point) : p.forward 0 = p := rfl

theorem forward_succ (p : Point) (n : Nat) : p.forward (n + 1) = p.next.forward n := rfl

@[simp] theorem rest_forward (p : Point) (n : Nat) : (p.forward n).rest = p.rest.drop n := by
  induction n generalizing p with
  | zero => rfl
  | succ n ih => simp [forward_succ, ih]

theorem place_forward (p : Point) (n : Nat) :
    (p.forward n).place = p.place.afterAll (p.rest.take n) := by
  induction n generalizing p with
  | zero => simp
  | succ n ih =>
      rw [forward_succ, ih]
      cases p with
      | mk rest offset place => cases rest <;> simp [next]

theorem offset_forward (p : Point) {n : Nat} (h : n ≤ p.rest.length) :
    (p.forward n).offset = p.offset + n := by
  induction n generalizing p with
  | zero => simp
  | succ n ih =>
      cases p with
      | mk rest offset place =>
          cases rest with
          | nil => simp at h
          | cons c rest =>
              rw [forward_succ, ih _ (by simpa [next] using h)]
              simp [next]
              omega

end Point

end ClassDiagram
