import ClassDiagram.CommandLine
import ClassDiagram.Fuzz.Session

/-!
# The fuzzing program

The program takes a duration in minutes, a number of inputs, and a seed.  Without a seed it takes
the time for one.  A duration left blank is none; a limit and a seed left blank are of no use, and
the program fails when it comes to need them.
-/

namespace ClassDiagram.Fuzz

inductive Seed where
  | time
  | given (n : Int)
  | blank
  deriving DecidableEq, Repr

structure Settings where
  duration : Option Float := none
  limit : Limit := .none
  seed : Seed := .time

def durationOption : CommandLine.ValueOption Settings where
  flag := "--duration"
  store value settings :=
    match Text.float? value with
    | some minutes => .ok { settings with duration := some minutes }
    | none => .error (CommandLine.invalidValue "float" value)
  leaveBlank settings := { settings with duration := none }

def iterationsOption : CommandLine.ValueOption Settings where
  flag := "--iterations"
  store value settings :=
    match Text.int? value with
    | some n => .ok { settings with limit := .upTo n }
    | none => .error (CommandLine.invalidValue "int" value)
  leaveBlank settings := { settings with limit := .blank }

def seedOption : CommandLine.ValueOption Settings where
  flag := "--seed"
  store value settings :=
    match Text.int? value with
    | some n => .ok { settings with seed := .given n }
    | none => .error (CommandLine.invalidValue "int" value)
  leaveBlank settings := { settings with seed := .blank }

def program : CommandLine.Program Settings where
  name := "fuzz_parser.py"
  usage :=
    "usage: fuzz_parser.py [-h] [--duration DURATION] [--iterations ITERATIONS]\n" ++
    "                      [--seed SEED]\n"
  description :=
    "Fuzz the class diagram parser\n\n" ++
    "options:\n" ++
    "  -h, --help            show this help message and exit\n" ++
    "  --duration DURATION   Duration in minutes (default: run forever)\n" ++
    "  --iterations ITERATIONS\n" ++
    "                        Stop after this many inputs\n" ++
    "  --seed SEED           Random seed for reproducibility\n"
  options := [durationOption, iterationsOption, seedOption]
  addFile := none

/-- Finds the seed and prints it: the time in whole seconds if none is given. -/
def announceSeed (bench : Bench) (seed : Seed) : Trial Int := do
  let announce (text : String) : Trial Unit := Trial.print ("Random seed: " ++ text)
  match seed with
  | .time =>
    let n := Text.wholePart (← Trial.now bench)
    announce (toString n)
    return n
  | .given n =>
    announce (toString n)
    return n
  | .blank =>
    announce "[]"
    throw .blankSeed

/-- What a command prints and how it ends: with an exit code, or by itself, leaving a session. -/
inductive CommandResult where
  | exit (code : Nat) (output errors : String)
  | finished (outcome : EStateM.Result Fault Session Ending)

/-- Runs the program over at most `n` passes; `source` makes the source of randomness of a seed. -/
def command (bench : Bench) (source : Int → Draws) (n : Nat) (arguments : List String) :
    CommandResult :=
  match program.parse {} arguments with
  | .help => .exit 0 program.helpText ""
  | .failure message => .exit 2 "" (program.complaint message)
  | .settings settings =>
    let trial : Trial Ending := do
      let seed ← announceSeed bench settings.seed
      modify fun s => { s with draws := source seed }
      Trial.run bench n settings.duration settings.limit
    .finished (trial { draws := source 0 })

end ClassDiagram.Fuzz
