import ClassDiagram.Dump.Report
import ClassDiagram.Fuzz.Command
import Std.Time.Format

/-!
# The programs

`dump` prints the diagrams in files, and `fuzz` tries inputs on the readers until it is stopped.
Here files are read and written and the time is asked for; what is done with them is told elsewhere.
-/

namespace ClassDiagram

namespace Storage

/-- The fault with a number, which may be counted down from 2³². -/
def Fault.ofCode (code : UInt32) (reason : String) : Fault :=
  match min code.toNat (UInt32.size - code.toNat) with
  | 2 => missing
  | 20 => notADirectory
  | 21 => isADirectory
  | 36 => nameTooLong
  | n => other n reason

def Fault.ofError : IO.Error → Fault
  | .noFileOrDirectory _ code reason | .inappropriateType _ code reason
  | .invalidArgument _ code reason | .permissionDenied _ code reason
  | .resourceExhausted _ code reason | .otherError code reason => ofCode code reason
  | e => other 0 (toString e)

def readBytes (path : String) : IO (Except Fault (List UInt8)) := do
  try return .ok (← IO.FS.readBinFile path).toList
  catch e => return .error (.ofError e)

def readFiles (paths : List String) : IO Files := do
  let found ← paths.mapM fun path => return (path, ← readBytes path)
  return fun path => (found.lookup path).getD (.error .missing)

end Storage

def Dump.perform (arguments : List String) : IO UInt32 := do
  let paths :=
    match program.parse {} arguments with
    | .settings settings => settings.files.map fun file => (Storage.Path.ofString file).display
    | _ => []
  let r := run (← Storage.readFiles paths) arguments
  IO.print r.output
  IO.eprint r.errors
  match r.ending with
  | .exit code => return code.toUInt32
  | .fault fault =>
    IO.eprintln fault.message
    return 1

namespace Fuzz

/-- A bench whose clock shows the time that it is now. -/
def benchNow : IO Bench := do
  let seconds := (← Std.Time.Timestamp.now).toNanosecondsSinceUnixEpoch.val
  let date ← Std.Time.PlainDateTime.now
  return {
    descent := fun _ => Attempt.byDescent
    grammar := fun _ => Attempt.byGrammar
    clock := fun _ => Float.ofInt seconds / 1000000000
    timestamp := date.format "uuuuMMdd_HHmmss"
    directory := "fuzz_findings"
    refusal? := fun _ => none }

/-- Performs part of a session: writes its reports, and prints what it prints. -/
def perform {α : Type} (trial : Bench → Trial α) (session : Session) : IO (α × Session) := do
  let outcome := trial (← benchNow) { session with printed := "", findings := [] }
  let after := match outcome with
    | .ok _ s | .error _ s => s
  for finding in after.findings do
    IO.FS.writeFile finding.path finding.report
  IO.print after.printed
  match outcome with
  | .ok a s => return (a, s)
  | .error fault _ => throw (IO.userError fault.message)

partial def performPasses (deadline : Option Float) (limit : Limit) (corpus : List String)
    (session : Session) : IO (Ending × Session) := do
  let pass := fun bench => Trial.passes bench deadline limit 1 corpus
  match ← perform pass session with
  | ((.unfinished, corpus), session) => performPasses deadline limit corpus session
  | ((ending, _), session) => return (ending, session)

def performRun (settings : Settings) : IO Unit := do
  let (seed, session) ← perform (announceSeed · settings.seed) { draws := .ofSeed 0 }
  let (deadline, session) ←
    perform (Trial.opening · settings.duration) { session with draws := .ofSeed seed }
  IO.FS.createDirAll (← benchNow).directory
  let (ending, session) ← performPasses deadline settings.limit seedCorpus session
  discard <| perform (Trial.closing · ending) session

def performCommand (arguments : List String) : IO UInt32 := do
  match program.parse {} arguments with
  | .help =>
    IO.print program.helpText
    return 0
  | .failure message =>
    IO.eprint (program.complaint message)
    return 2
  | .settings settings =>
    performRun settings
    return 0

end Fuzz

end ClassDiagram

def main (arguments : List String) : IO UInt32 := do
  match arguments with
  | "dump" :: rest => ClassDiagram.Dump.perform rest
  | "fuzz" :: rest => ClassDiagram.Fuzz.performCommand rest
  | _ =>
    IO.eprintln "usage: (dump | fuzz) [arguments ...]"
    return 2
