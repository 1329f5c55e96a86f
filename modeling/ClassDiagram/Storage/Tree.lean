import ClassDiagram.Storage.Fault
import ClassDiagram.Storage.Path

/-!
# Directory trees

A directory tree kept in memory, and the files in it by their paths.  A path is followed name by
name: only a directory can be passed through, two dots lead back to where the walk came from, and
above the tree lies nothing but a directory without names.  A trailing slash asks for a directory.
A file can be written wherever its directory is; what is written above the tree leaves it as it is.
-/

namespace ClassDiagram.Storage

inductive Tree where
  | file (bytes : List UInt8)
  | directory (entries : List (List Char × Tree))
  deriving Inhabited

namespace Tree

def maxName : Nat := 255

def maxPath : Nat := 4095

def byteSize (text : List Char) : Nat := (String.ofList text).utf8ByteSize

def find? (name : List Char) : List (List Char × Tree) → Option Tree
  | [] => none
  | (other, t) :: rest => if other = name then some t else find? name rest

def put (name : List Char) (tree : Tree) : List (List Char × Tree) → List (List Char × Tree)
  | [] => [(name, tree)]
  | (other, t) :: rest =>
    if other = name then (name, tree) :: rest else (other, t) :: put name tree rest

/-- The tree with what lies at the end of the names changed, and directories on the way to it. -/
def alter (change : Tree → Tree) : List (List Char) → Tree → Tree
  | [], here => change here
  | name :: names, here =>
    let entries := match here with
      | .directory entries => entries
      | .file _ => []
    .directory (put name (alter change names ((find? name entries).getD (.directory []))) entries)

def empty : Tree := .directory []

def addFile (tree : Tree) (path : String) (bytes : List UInt8) : Tree :=
  alter (fun _ => .file bytes) (Path.ofString path).names tree

/-- The tree with a directory at a path; one that is there already stays as it is. -/
def addDirectory (tree : Tree) (path : String) : Tree :=
  alter id (Path.ofString path).names tree

/-- Where a walk has come to: what is there, and the directories that were passed on the way, each
with the name that was taken there, last first.  What is not inside lies above the tree or beside
it. -/
structure Spot where
  here : Tree
  passed : List (List Char × List (List Char × Tree)) := []
  inside : Bool := true
  deriving Inhabited

def Spot.above : Spot where
  here := empty
  inside := false

def Spot.start (tree : Tree) (path : List Char) : Spot :=
  if path.head? = some '/' then .above else { here := tree }

def Spot.rebuild (s : Spot) (here : Tree) : Tree :=
  s.passed.foldl (fun below (name, entries) => .directory (put name below entries)) here

def step (s : Spot) (name : List Char) : Except Fault Spot :=
  match s.here with
  | .file _ => .error .notADirectory
  | .directory entries =>
    if name = [] ∨ name = ['.'] then .ok s
    else if name = ['.', '.'] then
      match s.passed with
      | [] => .ok .above
      | (_, entries) :: passed => .ok { s with here := .directory entries, passed }
    else if maxName < byteSize name then .error .nameTooLong
    else
      match find? name entries with
      | none => .error .missing
      | some here => .ok { s with here, passed := (name, entries) :: s.passed }

def walk (s : Spot) : List (List Char) → Except Fault Spot
  | [] => .ok s
  | name :: names => do walk (← step s name) names

def follow (tree : Tree) (path : List Char) : Except Fault Spot :=
  if path = [] then .error .missing
  else if maxPath < byteSize path then .error .nameTooLong
  else walk (.start tree path) (splitSlash path)

def files (tree : Tree) : Files := fun path => do
  match (← follow tree path.toList).here with
  | .directory _ => .error .isADirectory
  | .file bytes => .ok bytes

/-- The tree with a file written at a path.  The directory must be there; a file that is there
already gives way. -/
def writeFile (tree : Tree) (path : String) (bytes : List UInt8) : Except Fault Tree := do
  let text := path.toList
  let names := splitSlash text
  if text = [] then .error .missing
  else if maxPath < byteSize text then .error .nameTooLong
  else
    let s ← walk (.start tree text) names.dropLast
    match s.here, step s (names.getLastD []) with
    | _, .ok ⟨.directory _, _, _⟩ => .error .isADirectory
    | .directory entries, .ok ⟨.file _, _, _⟩ | .directory entries, .error .missing =>
      if s.inside then .ok (s.rebuild (.directory (put (names.getLastD []) (.file bytes) entries)))
      else .ok tree
    | .file _, _ => .error .notADirectory
    | _, .error fault => .error fault

def list (tree : Tree) (path : String) : Except Fault (List (List Char × List UInt8)) := do
  match (← follow tree path.toList).here with
  | .file _ => .error .notADirectory
  | .directory entries =>
    .ok (entries.filterMap fun (name, t) =>
      match t with
      | .file bytes => some (name, bytes)
      | .directory _ => none)

end Tree

end ClassDiagram.Storage
