import ExternalAnnotations.Command.Files
import ExternalAnnotations.Header.Contents
import ExternalAnnotations.Text.Blank

/-!
# Settings

What headers show and where indexes come from. Variables of the environment can change the first
and add to the second.
-/

namespace ExternalAnnotations

/-- Where the text of an index comes from. -/
inductive IndexOrigin
  /-- A text with a name. -/
  | inline (name contents : String)
  /-- A file, or a directory whose index files are all read. -/
  | path (location : String)
  deriving DecidableEq, Repr

structure Settings where
  options : HeaderOptions
  sources : List IndexOrigin
  deriving DecidableEq, Repr

/-- The variables of an environment. -/
abbrev Environment := String → Option String

/-- A problem that ends a run. -/
inductive LoadError
  | unreadable (path : String) (cause : FileError)
  | unlisted (cause : ListingError)
  | notBoolean (name value : String)
  deriving DecidableEq, Repr

namespace LoadError

def message : LoadError → String
  | unreadable path cause =>
    "failed to read annotation index '" ++ path ++ "': " ++ cause.message
  | unlisted cause => "Directory walk error: " ++ cause.message
  | notBoolean name value =>
    "Configuration error: " ++ name ++ " must be a boolean, got '" ++ value ++ "'"

/-- What lies behind a problem, from the nearest cause to the last. -/
def causes : LoadError → List String
  | unreadable _ cause => [cause.message]
  | unlisted error => [error.message, error.cause.message]
  | notBoolean _ _ => []

end LoadError

/-- The truth value that a word stands for. -/
def booleanWord? (word : String) : Option Bool :=
  if ["1", "true", "yes", "on"].contains word then some true
  else if ["0", "false", "no", "off", ""].contains word then some false
  else none

/-- The truth value of a variable, if it is set. Blanks around it and case do not matter. -/
def Environment.flag? (environment : Environment) (name : String) :
    Except LoadError (Option Bool) :=
  match environment name with
  | none => .ok none
  | some value =>
    let word := String.ofList ((trim value.toList).map Char.toLower)
    match booleanWord? word with
    | some flag => .ok (some flag)
    | none => .error (.notBoolean name word)

/-- The paths in a variable that holds several with colons between them. -/
def Environment.paths (environment : Environment) (name : String) : List String :=
  let parts := (environment name).elim [] fun value => segments (· == ':') value.toList
  ((parts.map trim).filter (!·.isEmpty)).map String.ofList

/-- The variable that turns nullability on or off. -/
def nullabilityVariable : String := "JAIF_NULLABILITY"

/-- The variable that turns stripping of metadata on or off. -/
def stripVariable : String := "JAIF_STRIP_REFLECTION"

/-- The variable that names index files and directories. -/
def pathsVariable : String := "JAIF_ANNOTATIONS"

namespace Settings

instance : Inhabited Settings := ⟨⟨⟨false, false⟩, []⟩⟩

/-- The settings changed as the environment says. -/
def applyEnvironment (settings : Settings) (environment : Environment) :
    Except LoadError Settings := do
  let nullability ← environment.flag? nullabilityVariable
  let strip ← environment.flag? stripVariable
  return {
    options := {
      nullability := nullability.getD settings.options.nullability
      stripReflection := strip.getD settings.options.stripReflection }
    sources := settings.sources ++ (environment.paths pathsVariable).map .path }

def ofEnvironment (environment : Environment) : Except LoadError Settings :=
  applyEnvironment default environment

end Settings

def readNamed (path : String) (tree : FileTree) : Except LoadError (String × String) :=
  (tree.read.map ((path, ·))).mapError (.unreadable path)

/-- The names and texts that a source gives. -/
def IndexOrigin.load (files : Files) : IndexOrigin → Except LoadError (List (String × String))
  | inline name contents => .ok [(name, contents)]
  | path location =>
    match files location with
    | .error error => .error (.unreadable location error)
    | .ok tree =>
      if tree.isDirectory then do
        let found ← (tree.indexFiles location).mapError .unlisted
        found.mapM fun (name, file) => readNamed name file
      else (readNamed location tree).map ([·])

/-- The names and texts of all sources in order. -/
def Settings.load (settings : Settings) (files : Files) :
    Except LoadError (List (String × String)) := do
  return (← settings.sources.mapM (·.load files)).flatten

/-- What the texts of all sources say. -/
def Settings.parse (settings : Settings) (files : Files) : Except LoadError Parsed := do
  return parseAll ((← settings.load files).map (·.2))

/-- An injector for all sources. -/
def Settings.injector (settings : Settings) (files : Files) : Except LoadError Injector := do
  return .ofParsed (← settings.parse files)

end ExternalAnnotations
