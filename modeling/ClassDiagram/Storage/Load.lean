import ClassDiagram.Reader
import ClassDiagram.Storage.Fault
import ClassDiagram.Storage.Path
import ClassDiagram.Text.Newline

/-!
# Loading diagrams from files

A file is read as strict UTF-8, its line ends become line feeds, and the text is given to a reader.
-/

namespace ClassDiagram.Storage

def readText (files : Files) (path : String) : Except TextFault String :=
  if path.toList.contains '\x00' then .error .nullInPath
  else
    match files path with
    | .error fault => .error (.access fault path)
    | .ok bytes =>
      match Text.Utf8.decode bytes with
      | .error fault => .error (.encoding fault)
      | .ok text => .ok (String.ofList (Text.normalizeLineEnds text))

inductive LoadError where
  | text (fault : TextFault)
  | read (error : ReadError)

def loadDiagram (files : Files) (reader : Reader) (path : String) : Except LoadError Diagram :=
  match readText files path with
  | .error fault => .error (.text fault)
  | .ok text => (reader.read text).mapError .read

end ClassDiagram.Storage
