import ClassDiagram.Dump.Settings
import ClassDiagram.Storage.Load
import ClassDiagram.Text.Encoding

/-!
# Dumping files

Each file gets a report: the diagram in it, or one message why there is none.  The reports are
printed one after the other, and in the end the number of files without a diagram if there are any.
The reader is looked at before the file is, the format not before there is a diagram to write; if
one is wanting, there is no report, and nothing more is printed.  Nor is there if standard output
cannot encode a report.
-/

namespace ClassDiagram.Dump

open Storage

structure Report where
  text : String
  succeeded : Bool
  deriving DecidableEq, Repr

inductive Fault where
  | nullInPath
  | unknownReader (name : String)
  | unknownFormat (name : String)
  | noReader
  | noFormat
  | unencodable (fault : Text.Encoding.Fault)
  deriving DecidableEq, Repr

def Fault.message : Fault → String
  | nullInPath => TextFault.nullInPath.message
  | unknownReader name => Text.quoted name
  | unknownFormat name => Text.quoted name
  | noReader | noFormat => "unhashable type: 'list'"
  | unencodable fault => fault.message

/-- A choice that was made, or else the fault that it was not. -/
def orFault {α : Type} (fault : Fault) : Option α → Except Fault α
  | none => .error fault
  | some a => .ok a

/-- The report on a file, given a reader, and a format or a fault to be found when it is needed. -/
def reportWith (files : Files) (format : Except Fault Format) (reader : Reader) (file : String) :
    Except Fault Report :=
  let path := (Path.ofString file).display
  match loadDiagram files reader path with
  | .ok d => format.map fun f => ⟨f.render d, true⟩
  | .error (.text .nullInPath) => .error .nullInPath
  | .error (.text (.access .missing _)) => .ok ⟨path ++ ": file not found\n", false⟩
  | .error (.text fault) => .ok ⟨path ++ ": error: " ++ fault.message ++ "\n", false⟩
  | .error (.read e) => .ok ⟨path ++ e.place.suffix ++ ": error: " ++ e.message ++ "\n", false⟩

def report (files : Files) (format : Format) (reader : Reader) (file : String) :
    Except Fault Report :=
  reportWith files (.ok format) reader file

/-- The report on a file when format and reader are given by name. -/
def reportNamed (files : Files) (format reader : String) (file : String) : Except Fault Report := do
  let reader ← orFault (.unknownReader reader) (Reader.ofName? reader)
  reportWith files (orFault (.unknownFormat format) (Format.ofName? format)) reader file

/-- The report on a file when format and reader are those of the settings. -/
def reportFor (files : Files) (settings : Settings) (file : String) : Except Fault Report := do
  let reader ← orFault .noReader settings.reader
  reportWith files (orFault .noFormat settings.format) reader file

/-- How a run ends: with an exit code, or with a fault that nothing catches. -/
inductive Ending where
  | exit (code : Nat)
  | fault (fault : Fault)
  deriving DecidableEq, Repr

structure Run where
  output : String := ""
  errors : String := ""
  ending : Ending
  deriving DecidableEq, Repr

/-- Reports on files one after the other; `output` has been printed before, and `failed` files had
no diagram. -/
def reportAll (stdout : Text.Encoding) (files : Files) (settings : Settings) :
    List String → (output : String) → (failed : Nat) → Run
  | [], output, 0 => { output, ending := .exit 0 }
  | [], output, failed + 1 =>
    { output := output ++ "\n" ++ toString (failed + 1) ++ " file(s) failed to parse\n"
      ending := .exit 1 }
  | file :: rest, output, failed =>
    match reportFor files settings file with
    | .error fault => { output, ending := .fault fault }
    | .ok r =>
      match stdout.fault? r.text with
      | some fault => { output, ending := .fault (.unencodable fault) }
      | none =>
        reportAll stdout files settings rest (output ++ r.text)
          (if r.succeeded then failed else failed + 1)

/-- A run of the program whose standard output has the encoding. -/
def runOn (stdout : Text.Encoding) (files : Files) (arguments : List String) : Run :=
  match program.parse {} arguments with
  | .help => { output := program.helpText, ending := .exit 0 }
  | .failure message => { errors := program.complaint message, ending := .exit 2 }
  | .settings settings =>
    if settings.files = [] then { output := program.helpText, ending := .exit 1 }
    else reportAll stdout files settings settings.files "" 0

/-- A run of the program that prints in UTF-8. -/
def run (files : Files) (arguments : List String) : Run := runOn .utf8 files arguments

end ClassDiagram.Dump
