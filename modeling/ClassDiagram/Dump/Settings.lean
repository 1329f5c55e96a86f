import ClassDiagram.CommandLine
import ClassDiagram.Reader
import ClassDiagram.Record.Json
import ClassDiagram.Record.Shape
import ClassDiagram.Yaml.Block

/-!
# What to dump and how

The program that prints diagrams takes files, the format to print them in, and the reader to read
them with.
-/

namespace ClassDiagram.Dump

inductive Format where
  | yaml
  | json
  deriving DecidableEq, Repr

namespace Format

def name : Format → String
  | yaml => "yaml"
  | json => "json"

def all : List Format := [json, yaml]

def ofName? (name : String) : Option Format := all.find? (·.name == name)

/-- A diagram in the format.  A YAML document ends its last line; a JSON text does not. -/
def render : Format → Diagram → String
  | yaml, d => Yaml.render d.toRecord
  | json, d => Json.render (some 2) d.toRecord

end Format

/-- What to dump and how; there is no format, or no reader, if the option for it is left blank. -/
structure Settings where
  format : Option Format := some .yaml
  reader : Option Reader := some .descent
  files : List String := []
  deriving DecidableEq, Repr

def formatOption : CommandLine.ValueOption Settings where
  flag := "--format"
  store value settings :=
    match Format.ofName? value with
    | some format => .ok { settings with format := some format }
    | none => .error (CommandLine.invalidChoice value (Format.all.map Format.name))
  leaveBlank settings := { settings with format := none }

def readerOption : CommandLine.ValueOption Settings where
  flag := "--parser"
  store value settings :=
    match Reader.ofName? value with
    | some reader => .ok { settings with reader := some reader }
    | none => .error (CommandLine.invalidChoice value (Reader.all.map Reader.name))
  leaveBlank settings := { settings with reader := none }

def program : CommandLine.Program Settings where
  name := "cdl_dump.py"
  usage :=
    "usage: cdl_dump.py [-h] [--format \x7bjson,yaml\x7d] [--parser \x7bpeg,rd\x7d] [files ...]\n"
  description :=
    "Parse class diagram files and print their AST.\n\n" ++
    "positional arguments:\n" ++
    "  files                 Files to parse\n\n" ++
    "options:\n" ++
    "  -h, --help            show this help message and exit\n" ++
    "  --format \x7bjson,yaml\x7d  Output format (default: yaml)\n" ++
    "  --parser \x7bpeg,rd\x7d     rd = hand-written parser, peg = Lark grammar (default:\n" ++
    "                        rd)\n"
  options := [formatOption, readerOption]
  addFile := some fun file settings => { settings with files := settings.files ++ [file] }

end ClassDiagram.Dump
