import ExternalAnnotations.Diagnostic
import ExternalAnnotations.Index.Basic
import ExternalAnnotations.Index.Section
import ExternalAnnotations.Token.Lexer

/-!
# Parsing an index

A text is a sequence of blocks. `Block.read` reads the block at which a cursor stands and says
what it contributes, what is wrong with it, and which package and class it leaves open. After an
error the parser goes on at the next block, so what one block lacks costs the others nothing.
-/

namespace ExternalAnnotations

/-- What the text of an index says: its entries and declarations, and what is wrong with it. -/
structure Parsed where
  index : Index
  diagnostics : List Diagnostic

namespace Parsed

instance : EmptyCollection Parsed := ⟨⟨{}, []⟩⟩

instance : Inhabited Parsed := ⟨{}⟩

/-- What two texts say, one after the other. -/
def append (first second : Parsed) : Parsed :=
  ⟨first.index ++ second.index, first.diagnostics ++ second.diagnostics⟩

instance : Append Parsed := ⟨append⟩

def ofEntries (entries : List Entry) : Parsed := ⟨.of entries [], []⟩

def ofDeclaration (declaration : Declaration) : Parsed := ⟨.of [] [declaration], []⟩

def ofDiagnostic (diagnostic : Diagnostic) : Parsed := ⟨{}, [diagnostic]⟩

end Parsed

/-- What is known of the package or class that a block is in. -/
inductive Scope
  /-- No header has been read. -/
  | missing
  | known (name : String)
  /-- The header was malformed, so what is in it is passed over. -/
  | malformed
  deriving DecidableEq, Repr

/-- The package and the class that are open between two blocks. -/
structure Scopes where
  package : Scope
  owner : Scope
  deriving DecidableEq, Repr

/-- Before the first block nothing is open. -/
def Scopes.none : Scopes := ⟨.missing, .missing⟩

/-- The name of the open package, empty if there is none. -/
def Scopes.packageName (scopes : Scopes) : String :=
  match scopes.package with
  | .known name => name
  | .missing | .malformed => ""

/-- What a block contributes, what is wrong with it, where reading it ends, and what it leaves
open. -/
structure Block where
  parsed : Parsed := {}
  failure : Option SyntaxError := none
  cursor : Cursor
  scopes : Scopes

namespace Block

/-- A block that opens a package, in which no class is open. -/
def package (cursor : Cursor) : Block :=
  match Reader.packageHeader cursor with
  | .ok name next => { cursor := next, scopes := ⟨.known name, .missing⟩ }
  | .error error next =>
    { failure := some error, cursor := next, scopes := ⟨.malformed, .missing⟩ }

/-- A block that opens a class and gives annotations to it. The class is open from its header on,
also when something is wrong with the annotations. -/
def ofClass (scopes : Scopes) (cursor : Cursor) : Block :=
  match Reader.classHeader cursor with
  | .error error next =>
    { failure := some error, cursor := next, scopes := { scopes with owner := .malformed } }
  | .ok (name, place) next =>
    let owner := qualify scopes.packageName name
    let scopes := { scopes with owner := .known owner }
    match Reader.annotations next with
    | .error error last => { failure := some error, cursor := last, scopes }
    | .ok annotations last =>
      let subject : Subject := ⟨owner, scopes.packageName, none⟩
      { parsed := .ofEntries (subject.entry .declaration place annotations)
        cursor := last
        scopes }

/-- A block that declares an annotation type. -/
def declaration (scopes : Scopes) (cursor : Cursor) : Block :=
  match Reader.declaration scopes.packageName cursor with
  | .error error next => { failure := some error, cursor := next, scopes }
  | .ok declaration next => { parsed := .ofDeclaration declaration, cursor := next, scopes }

def ofSections (scopes : Scopes) (read : Section) : Block :=
  { parsed := .ofEntries read.kept, failure := read.failure, cursor := read.cursor, scopes }

/-- A block that is passed over because the header it is in was malformed. -/
def skipped (scopes : Scopes) (cursor : Cursor) : Block :=
  { cursor := cursor.forward.skipToBlock cursor.rest.length, scopes }

/-- A token with which no block can begin here. -/
def misplaced (expected : String) (scopes : Scopes) (cursor : Cursor) : Block :=
  { failure := some (cursor.unexpected expected), cursor, scopes }

/-- A block about a member of the open class. -/
def member (read : String → String → Cursor → Section) (scopes : Scopes) (cursor : Cursor) :
    Block :=
  match scopes.owner with
  | .known owner => ofSections scopes (read owner scopes.packageName cursor)
  | .malformed => skipped scopes cursor
  | .missing => misplaced "a 'class' block before members" scopes cursor

def read (scopes : Scopes) (cursor : Cursor) : Block :=
  match cursor.kind? with
  | some .packageWord => package cursor
  | some .classWord =>
    if scopes.package = .malformed then skipped scopes cursor else ofClass scopes cursor
  | some .annotationWord =>
    if scopes.package = .malformed then skipped scopes cursor else declaration scopes cursor
  | some .methodWord => member Section.method scopes cursor
  | some .fieldWord => member Section.field scopes cursor
  | _ => misplaced "'package', 'annotation', 'class', 'method' or 'field'" scopes cursor

/-- The most tokens that are passed over after an error. -/
def maxSkipped : Nat := 200000

/-- Where the parser goes on after a block that started at a cursor: where the block ends, or after
an error at the next block, but always past the first token. -/
def resume (start : Cursor) (block : Block) : Cursor :=
  if block.failure.isNone then block.cursor
  else
    let cursor :=
      if block.cursor.rest.length = start.rest.length then block.cursor.forward else block.cursor
    cursor.skipToBlock maxSkipped

/-- What a block says, its error included. -/
def outcome (source : List Char) (block : Block) : Parsed :=
  block.parsed ++ (block.failure.elim {} fun error => .ofDiagnostic (.ofSyntaxError source error))

end Block

/-- Parses blocks to the end of the tokens. Every round takes at least one token, which is why
this ends. -/
def parseBlocks (source : List Char) (scopes : Scopes) (cursor : Cursor) : Parsed :=
  if cursor.rest.isEmpty then {}
  else
    let block := Block.read scopes cursor
    let next := block.resume cursor
    block.outcome source ++
      if next.rest.length < cursor.rest.length then parseBlocks source block.scopes next else {}
termination_by cursor.rest.length

/-- Parses the text of an index. -/
def parse (source : String) : Parsed :=
  parseBlocks source.toList .none (.ofTokens (significantTokens source))

/-- Parses several texts, each by itself, into one index. -/
def parseAll (sources : List String) : Parsed :=
  (sources.map parse).foldl Parsed.append {}

end ExternalAnnotations
