import EventLoop.Json.Writing
import EventLoop.Loop.Generation
import EventLoop.Timeline.Document
import EventLoop.Timeline.Report

/-!
# The command line

A command names a script and says what is to be printed of its timeline. Some options belong to a
command, others may also stand before it; one that stands in both places counts where it stands
last. Nothing is read or run before the whole command line is understood, and the settings are read
before the script.
-/

namespace EventLoop

/-- What an argument looks like. -/
inductive Argument where
  | plain (word : String)
  /-- An option by its full name, maybe with its value. -/
  | option (name : String) (value : Option String)
  /-- Two dashes, after which no argument is an option. -/
  | separator
  /-- One dash and more. There are no such options. -/
  | short
deriving DecidableEq, Repr

/-- Looks at an argument. A dash alone is a plain word. -/
def Argument.ofText (arg : String) : Argument :=
  match arg.toList with
  | ['-', '-'] => .separator
  | '-' :: '-' :: rest =>
    match rest.span (· ≠ '=') with
    | (name, _ :: value) => .option (String.ofList name) (some (String.ofList value))
    | (name, []) => .option (String.ofList name) none
  | '-' :: _ :: _ => .short
  | _ => .plain arg

/-- Options with their values, in the order in which they were given. -/
abbrev Options := List (String × String)

namespace Options

/-- The value of an option. It may be given once. -/
def value? (name : String) (options : Options) : Option (Option String) :=
  match options.filter fun option => option.1 = name with
  | [] => some none
  | [(_, value)] => some (some value)
  | _ => none

/-- The value of an option, read as what it stands for. -/
def read? {α : Type} (name : String) (read : String → Option α) (options : Options) :
    Option (Option α) := do
  match ← options.value? name with
  | some value => return some (← read value)
  | none => return none

end Options

namespace CommandLine

/-- The options that may stand before a command. -/
def globalNames : List String :=
  ["config", "max-iterations", "line-mode"]

/-- The options before the command, the command, and the arguments after it. -/
def splitCommand : List String → Option (Options × String × List String)
  | [] => none
  | arg :: rest =>
    match Argument.ofText arg with
    | .plain word => some ([], word, rest)
    | .option name (some value) => do
      guard (name ∈ globalNames)
      let (options, word, rest) ← splitCommand rest
      return ((name, value) :: options, word, rest)
    | .option name none =>
      match rest with
      | [] => none
      | value :: rest =>
        match Argument.ofText value with
        | .plain value => do
          guard (name ∈ globalNames)
          let (options, word, rest) ← splitCommand rest
          return ((name, value) :: options, word, rest)
        | _ => none
    | .separator | .short => none

/-- The options after a command, which are to be among the names, and the other arguments. -/
def splitOptions (names : List String) : List String → Option (Options × List String)
  | [] => some ([], [])
  | arg :: rest =>
    match Argument.ofText arg with
    | .plain word => do
      let (options, words) ← splitOptions names rest
      return (options, word :: words)
    | .option name (some value) => do
      guard (name ∈ names)
      let (options, words) ← splitOptions names rest
      return ((name, value) :: options, words)
    | .option name none =>
      match rest with
      | [] => none
      | value :: rest =>
        match Argument.ofText value with
        | .plain value => do
          guard (name ∈ names)
          let (options, words) ← splitOptions names rest
          return ((name, value) :: options, words)
        | _ => none
    | .separator => some ([], rest)
    | .short => none

/-- Reads a number that fits a machine word, with or without a plus sign. -/
def word? (text : String) : Option Nat :=
  let digits := match text.toList with
    | '+' :: digits => digits
    | digits => digits
  if digits.isEmpty || !digits.all Char.isDigit then none
  else
    let n := Number.ofDigits digits
    if n < Number.wordCount then some n else none

/-- Reads the name of a file, which is not empty. -/
def path? (text : String) : Option String :=
  if text.isEmpty then none else some text

end CommandLine

/-- In which form a whole timeline is printed. -/
inductive TimelineFormat where
  | text
  | json
deriving DecidableEq, Repr

/-- Reads the word for a form. -/
def TimelineFormat.ofWord? : String → Option TimelineFormat
  | "text" => some text
  | "json" => some json
  | _ => none

/-- What is to be printed of a timeline. -/
inductive Command where
  /-- All of it. -/
  | run (format : TimelineFormat)
  /-- One snapshot. -/
  | step (cursor : Nat)
  /-- Every snapshot from one on, with a pause after each, in milliseconds. -/
  | play (pause start : Nat)
deriving DecidableEq, Repr

namespace Command

/-- What a command prints, in pieces. -/
def pages (timeline : Timeline) : Command → List String
  | run .text => [timeline.summary]
  | run .json => [timeline.toJson.pretty ++ "\n"]
  | step cursor => (timeline.detailAt? cursor).toList
  | play _ start => (timeline.detailsFrom start).map (· ++ "\n")

/-- The pause after each piece, in milliseconds. -/
def pause : Command → Nat
  | run _ | step _ => 0
  | play pause _ => pause

end Command

/-- A command line that was understood. -/
structure Invocation where
  /-- The file that holds the settings. -/
  config : Option String
  overrides : Overrides
  /-- The file that holds the script. -/
  file : String
  command : Command
deriving DecidableEq, Repr

/-- The options that may stand before a command. -/
structure GlobalOptions where
  config : Option String
  overrides : Overrides

namespace GlobalOptions

/-- Reads the values of options. -/
def ofOptions? (options : Options) : Option GlobalOptions := do
  return {
    config := ← options.read? "config" CommandLine.path?
    overrides :=
      { maxIterations := ← options.read? "max-iterations" CommandLine.word?
        lineMode := ← options.read? "line-mode" LineMode.ofWord? } }

/-- The options, and others in place of those that are not given. -/
def orElse (options others : GlobalOptions) : GlobalOptions where
  config := options.config <|> others.config
  overrides :=
    { maxIterations := options.overrides.maxIterations <|> others.overrides.maxIterations
      lineMode := options.overrides.lineMode <|> others.overrides.lineMode }

end GlobalOptions

namespace Invocation

/-- The options that belong to a command. -/
def optionNames : String → Option (List String)
  | "run" => some ["format"]
  | "show" => some ["at"]
  | "play" => some ["interval-ms", "from"]
  | _ => none

/-- The command with its options. -/
def command? (word : String) (options : Options) : Option Command :=
  match word with
  | "run" => do
    return .run ((← options.read? "format" TimelineFormat.ofWord?).getD .text)
  | "show" => do
    return .step (← ← options.read? "at" CommandLine.word?)
  | "play" => do
    let pause ← options.read? "interval-ms" CommandLine.word?
    let start ← options.read? "from" CommandLine.word?
    return .play (pause.getD 800) (start.getD 0)
  | _ => none

/-- Reads a command line. There is one way to go wrong: it is not understood. -/
def ofArguments? (args : List String) : Option Invocation := do
  let (before, word, rest) ← CommandLine.splitCommand args
  let names ← optionNames word
  let (options, words) ← CommandLine.splitOptions (names ++ CommandLine.globalNames) rest
  let globals := (← GlobalOptions.ofOptions? options).orElse (← GlobalOptions.ofOptions? before)
  let command ← command? word options
  match words with
  | [file] =>
    return {
      config := globals.config
      overrides := globals.overrides
      file := ← CommandLine.path? file
      command }
  | _ => none

/-- Why a command line that was understood comes to nothing. -/
inductive Failure where
  | unreadableConfig (path : String)
  | invalidConfig (path : String)
  | unreadableScript (path : String)
deriving DecidableEq, Repr

def Failure.message : Failure → String
  | unreadableConfig path => s!"Failed to read config {path}"
  | invalidConfig path => s!"Invalid config {path}"
  | unreadableScript path => s!"Failed to read script {path}"

variable {m : Type → Type} [Monad m] (readFile : String → m (Option String))

/-- The settings in a file, with some of them replaced; without a file, the usual ones. -/
def loadSettings (config : Option String) (overrides : Overrides) :
    m (Except Failure Settings) := do
  match config with
  | none => return .ok (Settings.usual.override overrides)
  | some path =>
    match ← readFile path with
    | none => return .error (.unreadableConfig path)
    | some source =>
      match Settings.ofText? source with
      | none => return .error (.invalidConfig path)
      | some settings => return .ok (settings.override overrides)

/-- What a command line prints, in pieces. -/
def perform (invocation : Invocation) : m (Except Failure (List String)) := do
  match ← loadSettings readFile invocation.config invocation.overrides with
  | .error failure => return .error failure
  | .ok settings =>
    match ← readFile invocation.file with
    | none => return .error (.unreadableScript invocation.file)
    | some source =>
      return .ok (invocation.command.pages (Timeline.ofSource settings source))

end Invocation

end EventLoop
