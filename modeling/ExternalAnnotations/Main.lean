import ExternalAnnotations.Command.Basic

/-!
# The program

Reads the files and variables that a command speaks of, and writes what `Command.run` says.
-/

namespace ExternalAnnotations

/-- The system's number of an error, which is sometimes given negated. -/
def systemNumber (code : UInt32) : UInt32 := min code (0 - code)

/-- Why the system could not read a file. -/
def FileError.ofSystem : IO.Error → FileError
  | .noFileOrDirectory _ _ _ => notFound
  | .inappropriateType _ _ _ => notADirectory
  | .permissionDenied _ _ _ => other "Permission denied (os error 13)"
  | .invalidArgument path code details =>
    if systemNumber code = 36 then nameTooLong
    else other (toString (IO.Error.invalidArgument path code details))
  | error => other (toString error)

def readFile (path : String) : IO FileTree := do
  try return .file (← IO.FS.readBinFile path)
  catch error => return .unreadable (.ofSystem error)

/-- Reads a directory with the directories and index files in it. -/
partial def readDirectory (path : String) : IO FileTree := do
  try
    let entries ← ((← IO.currentDir) / path).readDir
    let found ← entries.toList.filterMapM fun entry => do
      let inner := joinPath path entry.fileName
      match (← entry.path.symlinkMetadata).type with
      | .dir => return some (entry.fileName, ← readDirectory inner)
      | .file =>
        if hasIndexExtension entry.fileName then return some (entry.fileName, ← readFile inner)
        else return none
      | _ => return none
    return .ofEntries found
  catch error => return .unlisted (.ofSystem error)

def readPath (path : String) : IO FileTree := do
  if path ≠ "" && (← ((← IO.currentDir) / path).isDir) then readDirectory path
  else readFile path

/-- Reads what some paths lead to. -/
def readFiles (paths : List String) : IO Files := do
  let found ← paths.mapM fun path => return (path, ← readPath path)
  return fun path =>
    match found.lookup path with
    | some tree => .ok tree
    | none => .error .notFound

/-- Reads the variables that the program knows. -/
def readEnvironment : IO Environment := do
  let found ← [nullabilityVariable, stripVariable, pathsVariable].mapM fun name =>
    return (name, ← IO.getEnv name)
  return fun name => (found.lookup name).join

end ExternalAnnotations

open ExternalAnnotations in
def main (arguments : List String) : IO UInt32 := do
  let environment ← readEnvironment
  let paths := (Command.ofArguments? arguments).elim [] (·.paths environment)
  let outcome := Command.runArguments (← readFiles paths) environment arguments
  IO.print outcome.output
  IO.eprint outcome.errors
  return outcome.code.toUInt32
