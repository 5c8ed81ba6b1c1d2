/-!
# Files

The part of a file system that a command sees: what a path leads to, or why it leads nowhere.
-/

namespace ExternalAnnotations

/-- Why a file cannot be read. -/
inductive FileError
  | notFound
  | notADirectory
  | isADirectory
  | nameTooLong
  | invalidName
  | invalidText
  | other (message : String)
  deriving DecidableEq, Repr

def FileError.message : FileError → String
  | notFound => "No such file or directory (os error 2)"
  | notADirectory => "Not a directory (os error 20)"
  | isADirectory => "Is a directory (os error 21)"
  | nameTooLong => "File name too long (os error 36)"
  | invalidName => "file name contained an unexpected NUL byte"
  | invalidText => "stream did not contain valid UTF-8"
  | other message => message

/-- A file or a directory with all that is in it. -/
inductive FileTree
  | file (contents : ByteArray)
  | directory (entries : List (String × FileTree))
  /-- A file that cannot be read. -/
  | unreadable (error : FileError)
  /-- A directory whose entries cannot be listed. -/
  | unlisted (error : FileError)

/-- What a path leads to. -/
abbrev Files := String → Except FileError FileTree

namespace FileTree

instance : Inhabited FileTree := ⟨directory []⟩

def isDirectory : FileTree → Bool
  | directory _ | unlisted _ => true
  | file _ | unreadable _ => false

/-- The text of a file. -/
def read : FileTree → Except FileError String
  | file contents =>
    match String.fromUTF8? contents with
    | some text => .ok text
    | none => .error .invalidText
  | unreadable error => .error error
  | directory _ | unlisted _ => .error .isADirectory

/-- What is under a name in a directory, which is an empty directory if there is nothing. -/
def entry (root : FileTree) (name : String) : FileTree :=
  match root with
  | directory entries => (entries.lookup name).getD (directory [])
  | _ => directory []

/-- A directory, whose entries are held in the order of their names. -/
def ofEntries (entries : List (String × FileTree)) : FileTree :=
  directory (entries.mergeSort fun a b => a.1 ≤ b.1)

/-- A directory with something put under a name. -/
def setEntry (root : FileTree) (name : String) (tree : FileTree) : FileTree :=
  match root with
  | directory entries => ofEntries ((name, tree) :: entries.filter (·.1 != name))
  | _ => directory [(name, tree)]

/-- Whether a name on a path leads nowhere else. -/
def staysHere (name : String) : Bool := name == "" || name == "."

/-- A directory with what is at the end of a path changed, given the names on the path.
Directories that are missing on the way are made. -/
def changeAt (root : FileTree) (names : List String) (change : FileTree → FileTree) : FileTree :=
  match names with
  | [] => change root
  | name :: names =>
    if staysHere name then root.changeAt names change
    else root.setEntry name ((root.entry name).changeAt names change)

/-- A directory with something put at the end of a path. -/
def insert (root : FileTree) (names : List String) (tree : FileTree) : FileTree :=
  root.changeAt names fun _ => tree

/-- A directory with a path of directories in it. -/
def makeDirectories (root : FileTree) (names : List String) : FileTree :=
  root.changeAt names id

/-- The longest name of a file, in bytes. -/
def maxNameLength : Nat := 255

/-- The longest path, in bytes. -/
def maxPathLength : Nat := 4095

/-- Follows the names of a path, given the directories that are open from the innermost out. Nothing
is known of what is outside of them. -/
def follow (outer : List FileTree) (current : FileTree) : List String → Except FileError FileTree
  | [] => .ok current
  | name :: names =>
    match current with
    | directory entries =>
      if staysHere name then follow outer current names
      else if name = ".." then
        match outer with
        | parent :: outer => follow outer parent names
        | [] => .error .notFound
      else if maxNameLength < name.utf8ByteSize then .error .nameTooLong
      else
        match entries.lookup name with
        | some next => follow (current :: outer) next names
        | none => .error .notFound
    | unlisted error => .error error
    | file _ | unreadable _ => .error .notADirectory

def namesOf (path : String) : List String := path.splitOn "/"

end FileTree

/-- Whether a path is longer than paths may be. -/
def isTooLong (path : String) : Bool := FileTree.maxPathLength < path.utf8ByteSize

def joinPath (directory name : String) : String :=
  if directory.endsWith "/" then directory ++ name else directory ++ "/" ++ name

mutual

/-- What is seen at the end of a path: a file or directory whose own path is too long cannot be
opened. -/
def FileTree.seenAt (path : String) : FileTree → FileTree
  | .file contents => if isTooLong path then .unreadable .nameTooLong else .file contents
  | .directory entries =>
    if isTooLong path then .unlisted .nameTooLong
    else .directory (FileTree.entriesSeenAt path entries)
  | .unreadable error => .unreadable error
  | .unlisted error => .unlisted error

def FileTree.entriesSeenAt (path : String) : List (String × FileTree) → List (String × FileTree)
  | [] => []
  | (name, tree) :: entries =>
    (name, tree.seenAt (joinPath path name)) :: FileTree.entriesSeenAt path entries

end

/-- What a path leads to from a directory. -/
def FileTree.resolve (root : FileTree) : Files := fun path =>
  if path.toList.contains '\x00' then .error .invalidName
  else if isTooLong path then .error .nameTooLong
  else if path = "" || path.startsWith "/" then .error .notFound
  else (follow [] root (namesOf path)).map (·.seenAt path)

/-- The extension of the files that hold indexes. -/
def indexExtension : List Char := "jaif".toList

/-- Whether a name has the extension of an index: what follows its last dot, unless nothing comes
before that dot. -/
def hasIndexExtension (name : String) : Bool :=
  match name.toList.reverse.span (· != '.') with
  | (extension, '.' :: before) => extension.reverse == indexExtension && !before.isEmpty
  | _ => false

/-- A directory that cannot be listed. -/
structure ListingError where
  path : String
  cause : FileError
  deriving DecidableEq, Repr

def ListingError.message (error : ListingError) : String :=
  "IO error for operation on " ++ error.path ++ ": " ++ error.cause.message

mutual

/-- The index files in a directory and those in it, in the order of their names: what is in a
directory comes where its own name stands. -/
def FileTree.indexFiles (path : String) :
    FileTree → Except ListingError (List (String × FileTree))
  | .directory entries => FileTree.allIndexFiles path entries
  | .unlisted error => .error ⟨path, error⟩
  | .file _ | .unreadable _ => .ok []

def FileTree.allIndexFiles (path : String) :
    List (String × FileTree) → Except ListingError (List (String × FileTree))
  | [] => .ok []
  | (name, tree) :: entries => do
    let here := joinPath path name
    let found ←
      if tree.isDirectory then tree.indexFiles here
      else .ok (if hasIndexExtension name then [(here, tree)] else [])
    return found ++ (← FileTree.allIndexFiles path entries)

end

end ExternalAnnotations
