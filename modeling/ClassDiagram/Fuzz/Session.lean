import ClassDiagram.Digest.Md5
import ClassDiagram.Fuzz.Corpus
import ClassDiagram.Fuzz.Mutate
import ClassDiagram.Fuzz.Verdict
import ClassDiagram.Storage.Fault
import ClassDiagram.Storage.Path
import ClassDiagram.Text.Fixed

/-!
# Fuzzing sessions

A session tries inputs on the two readers, counts what comes of them, and keeps a report on every
input that showed something, one for each digest.  A run goes on until its time is up, until it has
tried as many inputs as it may, or until the user stops it; a duration of zero counts as none.

What lies outside a session, its bench, is given by functions: what a reader makes of an input at
its n-th call, what the clock shows at its n-th reading, and where no report can be written.
-/

namespace ClassDiagram.Fuzz

structure Bench where
  /-- The reader by descent; the number tells how often it was called before. -/
  descent : Nat → String → Attempt
  /-- The reader by grammar; the number tells how often it was called before. -/
  grammar : Nat → String → Attempt
  /-- The time in seconds; the number tells how often the clock was read before. -/
  clock : Nat → Float
  timestamp : String
  directory : String
  /-- Why no report can be written at a path; nothing if one can. -/
  refusal? : String → Option Storage.Fault

structure Stats where
  iterations : Nat := 0
  parseOk : Nat := 0
  parseError : Nat := 0
  crashes : Nat := 0
  timeouts : Nat := 0
  mismatches : Nat := 0
  uniqueFindings : List String := []
  deriving DecidableEq, Repr

namespace Stats

def record (stats : Stats) : Verdict → Stats
  | .agreement => { stats with parseOk := stats.parseOk + 1 }
  | .refusal => { stats with parseError := stats.parseError + 1 }
  | .timeout _ => { stats with timeouts := stats.timeouts + 1 }
  | .mismatch _ => { stats with mismatches := stats.mismatches + 1 }
  | .crash _ _ => { stats with crashes := stats.crashes + 1 }
  | .interruption => stats

def counts (stats : Stats) : List (String × Nat) :=
  [("parse_ok", stats.parseOk), ("parse_error", stats.parseError), ("crashes", stats.crashes),
    ("timeouts", stats.timeouts), ("mismatches", stats.mismatches)]

/-- The line that sums up the counts after the given time. -/
def summary (stats : Stats) (elapsed : Float) : String :=
  let rate := if elapsed > 0 then Text.fixed 0 (Float.ofNat stats.iterations / elapsed) else "0"
  "[" ++ Text.fixed 1 elapsed ++ "s] iterations=" ++ toString stats.iterations ++ " (" ++ rate ++
    "/s) " ++ " ".intercalate ((counts stats).map fun (name, n) => name ++ "=" ++ toString n) ++
    " unique=" ++ toString stats.uniqueFindings.length

end Stats

structure Finding where
  path : String
  report : String
  deriving DecidableEq, Repr

namespace Finding

/-- The name of an input among the findings: eight digits of its digest. -/
def digestOf (input : String) : String :=
  String.ofList ((Digest.Md5.hexDigest input.toUTF8.toList).take 8)

def fileName (bench : Bench) (input : String) (concern : Concern) : String :=
  concern.category ++ "_" ++ bench.timestamp ++ "_" ++ digestOf input ++ ".txt"

def pathOf (bench : Bench) (input : String) (concern : Concern) : String :=
  ((Storage.Path.ofString bench.directory).join
    (Storage.Path.ofString (fileName bench input concern))).display

/-- The report on an input, up to the heading of its last section. -/
def text (bench : Bench) (input : String) (concern : Concern) : String :=
  "\n".intercalate
    ["Category: " ++ concern.category, "Error: " ++ concern.kind ++ ": " ++ concern.message,
      "Timestamp: " ++ bench.timestamp, "", "--- Input ---", input, "", "--- Traceback ---"]

def about (bench : Bench) (input : String) (concern : Concern) : Finding :=
  ⟨pathOf bench input concern, text bench input concern⟩

end Finding

/-- A session: its source of randomness, how often the clock and the readers have been used, what
has been counted, which reports have been written, when the run began, and what has been
printed. -/
structure Session where
  draws : Draws
  readings : Nat := 0
  descentCalls : Nat := 0
  grammarCalls : Nat := 0
  stats : Stats := {}
  findings : List Finding := []
  startTime : Float := 0
  printed : String := ""

/-- What a session does not deal with itself: a choice from nothing, a report that cannot be
written, a limit or a seed whose option was left blank, and the user's wish to stop. -/
inductive Fault where
  | draw (fault : DrawFault)
  | unsaved (fault : Storage.TextFault)
  | blankLimit
  | blankSeed
  | interrupted
  deriving DecidableEq, Repr

def Fault.message : Fault → String
  | draw fault => fault.message
  | unsaved fault => fault.message
  | blankLimit => "'>=' not supported between instances of 'int' and 'list'"
  | blankSeed =>
    "The only supported seed types are: None,\nint, float, str, bytes, and bytearray."
  | interrupted => ""

/-- How many inputs may be tried: any number, so many, or what only a blank option says. -/
inductive Limit where
  | none
  | upTo (n : Int)
  | blank
  deriving DecidableEq, Repr

abbrev Trial := EStateM Fault Session

/-- How the passes of a run come to an end. -/
inductive Ending where
  | timeUp
  | limitReached
  | interrupted
  /-- The run would go on, but no more passes were allowed. -/
  | unfinished
  deriving DecidableEq, Repr

/-- When a run of the given duration in minutes ends.  A duration of zero sets no end. -/
def deadline? (start : Float) (duration : Option Float) : Option Float :=
  duration.bind fun minutes => if minutes == 0 then none else some (start + minutes * 60)

namespace Trial

variable {α : Type}

def random (g : Gen α) : Trial α := fun s =>
  match g s.draws with
  | .ok a draws => .ok a { s with draws }
  | .error e draws => .error (.draw e) { s with draws }

def print (line : String) : Trial Unit :=
  modify fun s => { s with printed := s.printed ++ line ++ "\n" }

def count (f : Stats → Stats) : Trial Unit := modify fun s => { s with stats := f s.stats }

def now (bench : Bench) : Trial Float :=
  modifyGet fun s => (bench.clock s.readings, { s with readings := s.readings + 1 })

def startClock (bench : Bench) : Trial Float := do
  let start ← now bench
  modify fun s => { s with startTime := start }
  return start

def tryDescent (bench : Bench) (input : String) : Trial Attempt :=
  modifyGet fun s =>
    (bench.descent s.descentCalls input, { s with descentCalls := s.descentCalls + 1 })

def tryGrammar (bench : Bench) (input : String) : Trial Attempt :=
  modifyGet fun s =>
    (bench.grammar s.grammarCalls input, { s with grammarCalls := s.grammarCalls + 1 })

def keep (bench : Bench) (finding : Finding) : Trial Unit :=
  if finding.path.toList.contains '\x00' then throw (.unsaved .nullInPath)
  else
    match bench.refusal? finding.path with
    | some fault => throw (.unsaved (.access fault finding.path))
    | none => modify fun s => { s with findings := s.findings ++ [finding] }

/-- Writes a report on an input, unless there has been one with the same digest.  The digest counts
even if the report cannot be written. -/
def saveFinding (bench : Bench) (input : String) (concern : Concern) : Trial Unit := do
  let digest := Finding.digestOf input
  if digest ∈ (← get).stats.uniqueFindings then return
  count fun stats => { stats with uniqueFindings := stats.uniqueFindings ++ [digest] }
  let finding := Finding.about bench input concern
  keep bench finding
  print ("\n[!] Saved finding: " ++ finding.path)

/-- Tries an input on both readers, the second only if the first accepts it. -/
def examine (bench : Bench) (input : String) : Trial Verdict := do
  match ← tryDescent bench input with
  | .parsed d => return .ofSecond d (← tryGrammar bench input)
  | attempt => return .ofFailure attempt

/-- Tries an input, counts the verdict, and keeps a report if the input showed something; tells
whether it did. -/
def testInput (bench : Bench) (input : String) : Trial Bool := do
  let verdict ← examine bench input
  if verdict = .interruption then throw .interrupted
  count (Stats.record · verdict)
  match verdict.concern? with
  | none => return false
  | some concern =>
    saveFinding bench input concern
    return true

def printStats (bench : Bench) : Trial Unit := do
  let time ← now bench
  let s ← get
  print (s.stats.summary (time - s.startTime))

/-- One pass of a run: makes an input and tries it; the corpus grows if the input showed
something.  After every thousandth input the counts are printed. -/
def pass (bench : Bench) (corpus : List String) : Trial (List String) := do
  count fun stats => { stats with iterations := stats.iterations + 1 }
  let input ← random (Gen.nextInput corpus)
  let corpus := if ← testInput bench input then grow corpus input else corpus
  if (← get).stats.iterations % 1000 = 0 then printStats bench
  return corpus

/-- Whether there still is time; without a deadline, the clock is not read. -/
def inTime (bench : Bench) : Option Float → Trial Bool
  | none => return true
  | some deadline => return (← now bench) < deadline

def atLimit : Limit → Trial Bool
  | .none => return false
  | .upTo n => return n ≤ ((← get).stats.iterations : Int)
  | .blank => throw .blankLimit

/-- Makes passes until something ends them, at most `passes` many; gives the corpus too. -/
def passes (bench : Bench) (deadline : Option Float) (limit : Limit) :
    (passes : Nat) → List String → Trial (Ending × List String)
  | 0, corpus => return (.unfinished, corpus)
  | n + 1, corpus => do
    if !(← inTime bench deadline) then return (.timeUp, corpus)
    if ← atLimit limit then return (.limitReached, corpus)
    let corpus ← pass bench corpus
    passes bench deadline limit n corpus

/-- Makes passes, and takes the user's wish to stop as an end. -/
def passesOrStop (bench : Bench) (deadline : Option Float) (limit : Limit) (n : Nat) :
    Trial Ending := fun s =>
  match passes bench deadline limit n seedCorpus s with
  | .ok (ending, _) s => .ok ending s
  | .error .interrupted s => .ok .interrupted s
  | .error fault s => .error fault s

/-- Opens a run of the given duration, and gives its deadline. -/
def opening (bench : Bench) (duration : Option Float) : Trial (Option Float) := do
  let start ← startClock bench
  print ("Fuzzing with " ++ toString seedCorpus.length ++ " seed inputs, findings in " ++
    (Storage.Path.ofString bench.directory).display)
  print ("".pushn '-' 60)
  return deadline? start duration

/-- Closes a run that has come to its end. -/
def closing (bench : Bench) (ending : Ending) : Trial Unit := do
  if ending = .interrupted then print "\n\nInterrupted by user"
  print ("\n" ++ "".pushn '=' 60)
  print "Final Statistics:"
  printStats bench

def run (bench : Bench) (n : Nat) (duration : Option Float) (limit : Limit) : Trial Ending := do
  let deadline ← opening bench duration
  let ending ← passesOrStop bench deadline limit n
  closing bench ending
  return ending

end Trial

end ClassDiagram.Fuzz
