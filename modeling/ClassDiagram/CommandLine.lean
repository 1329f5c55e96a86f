import ClassDiagram.Text.Numeral
import ClassDiagram.Text.Quoted

/-!
# Command lines

A program has long options that take one value each, the option for help, and perhaps files.
Options may be abbreviated as long as only one fits, and their values follow as the next argument or
after an equals sign.  Two dashes end the options; after an equals sign they stand for no value at
all, which leaves the option blank, and no value is checked then.  What begins with a dash and is no
option is nonetheless an argument if it is a dash alone, a negative number, or has a blank in it.

The files are one unbroken run of arguments: once an option has followed the first run, further
arguments are not recognised.  Arguments are first sorted, where an ambiguous abbreviation is found,
and then taken in order, where the first thing wrong is reported; what was not recognised is
reported last.
-/

namespace ClassDiagram.CommandLine

/-- An option with a value: how it is called, what its value does to the settings, or what is wrong
with the value, and what becomes of the settings if the option is left blank. -/
structure ValueOption (Settings : Type) where
  flag : String
  store : String → Settings → Except String Settings
  leaveBlank : Settings → Settings

/-- Puts a value given after an equals sign into the settings. -/
def ValueOption.assign {Settings : Type} (option : ValueOption Settings) (value : String)
    (settings : Settings) : Except String Settings :=
  if value = "--" then .ok (option.leaveBlank settings) else option.store value settings

/-- What a program is called and understands. -/
structure Program (Settings : Type) where
  name : String
  usage : String
  description : String
  options : List (ValueOption Settings)
  addFile : Option (String → Settings → Settings)

/-- What an option asks for. -/
inductive Request (Settings : Type) where
  | help
  | value (option : ValueOption Settings)

/-- An argument, sorted. -/
inductive Argument (Settings : Type) where
  | plain (text : String)
  | separator
  | option (flag : String) (request : Request Settings) (value : Option String)
  | unknown (text : String)

/-- What a command line comes to. -/
inductive Outcome (Settings : Type) where
  | help
  | failure (message : String)
  | settings (settings : Settings)

/-- Why settings are not what was asked for: the value of an option is none of those allowed. -/
def invalidChoice (value : String) (choices : List String) : String :=
  "invalid choice: " ++ Text.quoted value ++ " (choose from " ++
    ", ".intercalate (choices.map Text.quoted) ++ ")"

/-- Why settings are not what was asked for: the value of an option is not of the right type. -/
def invalidValue (type value : String) : String :=
  "invalid " ++ type ++ " value: " ++ Text.quoted value

/-- A text before and after its first equals sign. -/
def splitEquals (text : List Char) : Option (List Char × List Char) :=
  match text.dropWhile (· != '=') with
  | [] => none
  | _ :: after => some (text.takeWhile (· != '='), after)

/-- Whether a text is a negative number.  A line feed may end it. -/
def isNegativeNumber (text : List Char) : Bool :=
  match text with
  | '-' :: rest =>
    let number := if rest.getLast? = some '\n' then rest.dropLast else rest
    let fraction := number.dropWhile Text.isDecimalDigit
    match fraction with
    | [] => !number.isEmpty
    | '.' :: digits => !digits.isEmpty && digits.all Text.isDecimalDigit
    | _ => false
  | _ => false

variable {Settings : Type}

namespace Program

def flags (p : Program Settings) : List (String × Request Settings) :=
  [("-h", .help), ("--help", .help)] ++ p.options.map fun o => (o.flag, .value o)

def request? (p : Program Settings) (flag : List Char) : Option (Request Settings) :=
  p.flags.lookup (String.ofList flag)

/-- The flags that `text` may abbreviate, with the value it gives them.  The value of a short flag
may follow at once. -/
def candidates (p : Program Settings) (text : List Char) :
    List (String × Request Settings × Option String) :=
  if ['-', '-'].isPrefixOf text then
    let (start, value) : List Char × Option String :=
      match splitEquals text with
      | some (before, after) => (before, some (String.ofList after))
      | none => (text, none)
    p.flags.filterMap fun (flag, request) =>
      if start.isPrefixOf flag.toList then some (flag, request, value) else none
  else
    p.flags.filterMap fun (flag, request) =>
      if flag.toList = text.take 2 then some (flag, request, some (String.ofList (text.drop 2)))
      else if text.isPrefixOf flag.toList then some (flag, request, none)
      else none

/-- Sorts an argument that begins with a dash and is no flag as it stands. -/
def sortDashed (p : Program Settings) (text : List Char) : Except String (Argument Settings) :=
  match p.candidates text with
  | [(flag, request, value)] => .ok (.option flag request value)
  | [] =>
    if isNegativeNumber text || text.contains ' ' then .ok (.plain (String.ofList text))
    else .ok (.unknown (String.ofList text))
  | several =>
    .error ("ambiguous option: " ++ String.ofList text ++ " could match " ++
      ", ".intercalate (several.map (·.1)))

def sort (p : Program Settings) (argument : String) : Except String (Argument Settings) :=
  let text := argument.toList
  if text.head? ≠ some '-' then .ok (.plain argument)
  else
    match p.request? text with
    | some request => .ok (.option argument request none)
    | none =>
      if text = ['-'] then .ok (.plain argument)
      else
        match splitEquals text with
        | none => p.sortDashed text
        | some (before, after) =>
          match p.request? before with
          | some request =>
            .ok (.option (String.ofList before) request (some (String.ofList after)))
          | none => p.sortDashed text

/-- Sorts all arguments; after two dashes every argument is a plain one. -/
def sortAll (p : Program Settings) : List String → Except String (List (Argument Settings))
  | [] => .ok []
  | argument :: rest =>
    if argument = "--" then .ok (.separator :: rest.map .plain)
    else
      match p.sort argument with
      | .error e => .error e
      | .ok a => (p.sortAll rest).map (a :: ·)

/-- What a help flag comes to if a value is given to it: a value that spells short help flags is a
request for help, and any other is wrong. -/
def helpWith (short : Bool) : List Char → Option String
  | [] => some "''"
  | c :: rest =>
    if short ∧ c = 'h' then
      match rest with
      | [] => none
      | d :: more => helpWith short (d :: more)
    else some (Text.quoted (String.ofList (c :: rest)))

def argumentError (name message : String) : Outcome Settings :=
  .failure ("argument " ++ name ++ ": " ++ message)

/-- Whether the run of files is still to come, under way, or over. -/
inductive FileRun where
  | awaited
  | underway
  | closed
  deriving DecidableEq, Repr

/-- The run of files when an option comes. -/
def FileRun.interrupt : FileRun → FileRun
  | .awaited => .awaited
  | _ => .closed

def take (p : Program Settings) :
    List (Argument Settings) → Settings → FileRun → (unrecognized : List String) → Outcome Settings
  | [], settings, _, [] => .settings settings
  | [], _, _, unrecognized => .failure ("unrecognized arguments: " ++ " ".intercalate unrecognized)
  | .unknown text :: rest, settings, run, unrecognized =>
    p.take rest settings run.interrupt (unrecognized ++ [text])
  | .separator :: rest, settings, run, unrecognized =>
    match run with
    | .closed => p.take rest settings .closed (unrecognized ++ ["--"])
    | _ => p.take rest settings .underway unrecognized
  | .plain text :: rest, settings, run, unrecognized =>
    match run, p.addFile with
    | .closed, _ | _, none => p.take rest settings .closed (unrecognized ++ [text])
    | _, some add => p.take rest (add text settings) .underway unrecognized
  | .option _ .help none :: _, _, _, _ => .help
  | .option flag .help (some value) :: _, _, _, _ =>
    match helpWith (flag == "-h") value.toList with
    | none => .help
    | some ignored => argumentError "-h/--help" ("ignored explicit argument " ++ ignored)
  | .option _ (.value o) (some value) :: rest, settings, run, unrecognized =>
    match o.assign value settings with
    | .ok settings => p.take rest settings run.interrupt unrecognized
    | .error message => argumentError o.flag message
  | .option _ (.value o) none :: .plain value :: rest, settings, run, unrecognized =>
    match o.store value settings with
    | .ok settings => p.take rest settings run.interrupt unrecognized
    | .error message => argumentError o.flag message
  | .option _ (.value o) none :: _, _, _, _ => argumentError o.flag "expected one argument"

/-- What a command line comes to, from the settings that hold if nothing is said. -/
def parse (p : Program Settings) (defaults : Settings) (arguments : List String) :
    Outcome Settings :=
  match p.sortAll arguments with
  | .error message => .failure message
  | .ok sorted => p.take sorted defaults (if p.addFile.isSome then .awaited else .closed) []

def helpText (p : Program Settings) : String := p.usage ++ "\n" ++ p.description

/-- What is printed when the command line is wrong. -/
def complaint (p : Program Settings) (message : String) : String :=
  p.usage ++ p.name ++ ": error: " ++ message ++ "\n"

end Program

end ClassDiagram.CommandLine
