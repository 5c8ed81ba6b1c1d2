import ExternalAnnotations.Command.Settings
import ExternalAnnotations.Index.Detailed

/-!
# The command line

What each command writes and how it ends, given the files and variables that it sees.
-/

namespace ExternalAnnotations

inductive Command
  /-- Lists the tokens of a file, with their texts or with their places. -/
  | lex (file : String) (places : Bool)
  /-- Lists the declarations and entries of a file. -/
  | parse (file : String) (detailed : Bool)
  /-- Counts what is in files and directories, and may insist on nothing being malformed. -/
  | check (paths : List String) (strict : Bool)
  deriving DecidableEq, Repr

/-- What a run writes and the code it ends with. -/
structure Outcome where
  code : Nat
  output : String
  errors : String

/-- Why a run fails. -/
inductive CommandError
  | file (error : FileError)
  | load (error : LoadError)
  | malformedEntries

namespace CommandError

def message : CommandError → String
  | file error => error.message
  | load error => error.message
  | malformedEntries => "malformed index entries found"

def causes : CommandError → List String
  | load error => error.causes
  | file _ | malformedEntries => []

/-- A cause among others, under its number. Its further lines are indented as its text is. -/
def numberedCause (number : Nat) (cause : String) : String :=
  "    " ++ toString number ++ ": " ++ "\n       ".intercalate (cause.splitOn "\n")

/-- What lies behind an error: one cause stands alone, several are numbered. -/
def causesText : List String → String
  | [] => ""
  | [cause] => "\n\nCaused by:\n    " ++ cause
  | causes => "\n\nCaused by:\n" ++ "\n".intercalate (causes.mapIdx numberedCause)

/-- The report of the error at the end of a run. -/
def report (error : CommandError) : String :=
  "Error: " ++ error.message ++ causesText error.causes ++ "\n"

end CommandError

/-- Each line with the character that ends it. -/
def asLines (lines : List String) : String := String.join (lines.map (· ++ "\n"))

def warnings (diagnostics : List Diagnostic) : String :=
  asLines (diagnostics.map ("warning: " ++ ·.text))

namespace Outcome

def success (output errors : String) : Outcome := ⟨0, output, errors⟩

/-- A run that fails after it has written something. -/
def failure (error : CommandError) (output errors : String) : Outcome :=
  ⟨1, output, errors ++ error.report⟩

end Outcome

namespace Command

def tokenLine (places : Bool) (token : Token) : String :=
  if places then token.kind.label ++ " at " ++ token.start.text
  else token.kind.label ++ ": '" ++ token.lexeme ++ "'"

def declarationLine (declaration : Declaration) : String :=
  "annotation @" ++ declaration.name ++ " (" ++ toString declaration.elements.length
    ++ " elements)"

def summaryLine (files : Nat) (parsed : Parsed) : String :=
  toString files ++ " file(s), " ++ toString parsed.index.size ++ " entries, "
    ++ toString parsed.index.declarations.length ++ " annotation declarations, "
    ++ toString parsed.diagnostics.length ++ " diagnostics"

def listTokens (places : Bool) (source : String) : Outcome :=
  .success (asLines ((significantTokens source).map (tokenLine places))) ""

def listEntries (detailed : Bool) (source : String) : Outcome :=
  let parsed := ExternalAnnotations.parse source
  let entryText := if detailed then Entry.detailedText else Entry.text
  .success
    (asLines (parsed.index.declarations.map declarationLine
      ++ parsed.index.entries.map entryText))
    (warnings parsed.diagnostics)

/-- Counts what texts say. -/
def summarize (strict : Bool) (sources : List String) : Outcome :=
  let parsed := parseAll sources
  let output := asLines [summaryLine sources.length parsed]
  let errors := warnings parsed.diagnostics
  if strict && parsed.diagnostics.any (·.isMalformed) then
    .failure .malformedEntries output errors
  else .success output errors

/-- Does something with the text of a file. -/
def withFile (files : Files) (file : String) (run : String → Outcome) : Outcome :=
  match files file >>= FileTree.read with
  | .ok source => run source
  | .error error => .failure (.file error) "" ""

/-- The settings under which paths are checked: those of the environment come first. -/
def checkSettings (environment : Environment) (paths : List String) :
    Except LoadError Settings := do
  let settings ← Settings.ofEnvironment environment
  return { settings with sources := settings.sources ++ paths.map .path }

def run (files : Files) (environment : Environment) : Command → Outcome
  | lex file places => withFile files file (listTokens places)
  | parse file detailed => withFile files file (listEntries detailed)
  | check paths strict =>
    match checkSettings environment paths >>= (·.load files) with
    | .ok texts => summarize strict (texts.map (·.2))
    | .error error => .failure (.load error) "" ""

/-- Splits arguments into flags and others. After `--` there are no more flags. -/
def splitArguments : List String → List String × List String
  | [] => ([], [])
  | "--" :: arguments => ([], arguments)
  | argument :: arguments =>
    let (flags, others) := splitArguments arguments
    if argument.startsWith "-" && argument != "-" then (argument :: flags, others)
    else (flags, argument :: others)

/-- Whether one flag is given, under one of its names, and no other. -/
def onlyFlag? (names flags : List String) : Option Bool :=
  match flags with
  | [] => some false
  | [flag] => if names.contains flag then some true else none
  | _ => none

def ofArguments? : List String → Option Command
  | [] => none
  | name :: arguments =>
    let (flags, others) := splitArguments arguments
    match name, others with
    | "lex", [file] => (onlyFlag? ["-l", "--locations"] flags).map (lex file)
    | "parse", [file] => (onlyFlag? ["-d", "--detailed"] flags).map (parse file)
    | "check", path :: paths => (onlyFlag? ["--strict"] flags).map (check (path :: paths))
    | _, _ => none

/-- How the commands are used. -/
def usage : String :=
  "usage: lex FILE [-l|--locations] | parse FILE [-d|--detailed] | check PATH... [--strict]"

/-- Runs the command that arguments give. -/
def runArguments (files : Files) (environment : Environment) (arguments : List String) : Outcome :=
  match ofArguments? arguments with
  | some command => command.run files environment
  | none => ⟨2, "", asLines [usage]⟩

def paths (environment : Environment) : Command → List String
  | lex file _ | parse file _ => [file]
  | check paths _ => environment.paths pathsVariable ++ paths

end Command

end ExternalAnnotations
