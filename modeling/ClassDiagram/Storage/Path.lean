/-!
# Paths

A path is a sequence of names, from the working directory or, after a slash, from the root.  Empty
names and single dots say nothing and are dropped, so that every path has one way to be shown; two
dots are kept.  Exactly two slashes at the start are a root of their own.
-/

namespace ClassDiagram.Storage

def splitSlash : List Char → List (List Char)
  | [] => [[]]
  | '/' :: rest => [] :: splitSlash rest
  | c :: rest =>
    match splitSlash rest with
    | [] => [[c]]
    | name :: names => (c :: name) :: names

inductive Root where
  | workingDirectory
  | slash
  | twoSlashes
  deriving DecidableEq, Repr

structure Path where
  root : Root
  names : List (List Char)
  deriving DecidableEq, Repr

namespace Path

def rootOf (text : List Char) : Root :=
  match (text.takeWhile (· == '/')).length with
  | 0 => .workingDirectory
  | 2 => .twoSlashes
  | _ => .slash

def ofString (text : String) : Path where
  root := rootOf text.toList
  names := (splitSlash text.toList).filter fun name => name ≠ [] ∧ name ≠ ['.']

/-- What a second path leads to from the end of a first: a path from the root leads there, whatever
the first one is. -/
def join (p q : Path) : Path :=
  if q.root = .workingDirectory then ⟨p.root, p.names ++ q.names⟩ else q

def display (p : Path) : String :=
  let names := "/".intercalate (p.names.map String.ofList)
  match p.root with
  | .workingDirectory => if p.names = [] then "." else names
  | .slash => "/" ++ names
  | .twoSlashes => "//" ++ names

end Path

end ClassDiagram.Storage
