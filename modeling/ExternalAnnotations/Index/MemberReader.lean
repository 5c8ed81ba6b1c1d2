import ExternalAnnotations.Index.Entry
import ExternalAnnotations.Index.ValueReader

/-!
# Reading the headers of blocks

What stands between the keyword of a block, or of a section of a method block, and the
annotations in it; and the elements of a declared annotation type.
-/

namespace ExternalAnnotations

namespace Reader

/-- Reads the name of a package, empty where the colon comes at once. -/
def packageHeader : Reader String := do
  let _ ← expect .packageWord "'package'"
  let name ← if (← get).isAt .colon then pure "" else qualifiedName "package name"
  let _ ← expect .colon "':' after package name"
  return name

/-- Reads the simple name of a class and the place of the block. -/
def classHeader : Reader (String × Location) := do
  let keyword ← expect .classWord "'class'"
  let name ← name "class name"
  let _ ← expect .colon "':' after class name"
  return (name, keyword.start)

/-- Reads the parts of a descriptor up to the colon. They have to touch one another. -/
def descriptorParts (last : Token) : List Token → EStateM.Result SyntaxError Cursor (List Token)
  | [] => fail "':' after method descriptor" ⟨some last, []⟩
  | token :: rest =>
    let cursor : Cursor := ⟨some last, token :: rest⟩
    if token.kind = .colon then .ok [] cursor
    else if !token.kind.fitsDescriptor || token.start.offset ≠ last.finish.offset then
      fail "method descriptor followed by ':'" cursor
    else
      match descriptorParts token rest with
      | .ok parts next => .ok (token :: parts) next
      | .error error next => .error error next

def descriptor : Reader MethodDescriptor := do
  let opening ← expect .openParen "'(' starting method descriptor"
  let parts ← fun cursor => descriptorParts opening cursor.rest
  let text := String.join ((opening :: parts).map (·.lexeme))
  match MethodDescriptor.decode text with
  | .ok descriptor => return descriptor
  | .error error => throw (.invalidDescriptor error opening.start)

/-- Whether a token names a method: constructors and class initialisers have names of their own. -/
def isMethodName (kind : TokenKind) : Bool := kind == .specialName || kind.isName

/-- Reads the name and descriptor of a method and the place of the block. -/
def methodHeader : Reader (Member × Location) := do
  let keyword ← expect .methodWord "'method'"
  let name := (← token isMethodName "method name").lexeme
  let descriptor ← descriptor
  let _ ← expect .colon "':' after method descriptor"
  return (.method name descriptor, keyword.start)

/-- Reads the name of a field and the place of the block. -/
def fieldHeader : Reader (Member × Location) := do
  let keyword ← expect .fieldWord "'field'"
  let name ← name "field name"
  let _ ← expect .colon "':' after field name"
  return (.field name, keyword.start)

/-- Reads the place of a section for the type that a method returns. -/
def returnHeader : Reader Location := do
  let keyword ← expect .returnWord "'return'"
  let _ ← expect .colon "':' after 'return'"
  return keyword.start

def position : Reader Nat := do
  let number ← expect .decimalInteger "parameter index"
  match Literal.position number.lexeme.toList with
  | .ok position => return position
  | .error fault => throw (.invalidLiteral number.lexeme fault.message number.start)

/-- Reads the position of a parameter and the place of its section. -/
def parameterHeader : Reader (Nat × Location) := do
  let keyword ← expect .parameterWord "'parameter'"
  let _ ← expect .hash "'#' before parameter index"
  let position ← position
  let _ ← expect .colon "':' after parameter index"
  return (position, keyword.start)

/-- Reads what opens a section for the type of a parameter or field. -/
def typeHeader : Reader Unit := do
  let _ ← expect .typeWord "'type'"
  let _ ← expect .colon "':' after 'type'"

/-- The element type that a plain name stands for. -/
def namedElementType? (name : String) : Option ElementType :=
  if name = "String" || name = "java.lang.String" then some .string
  else if name = "Class" || name = "java.lang.Class" then some .classLiteral
  else (Primitive.ofKeyword? name).map .primitive

/-- Reads an element type without its dimensions. -/
def innermostElementType : Reader ElementType := do
  let cursor ← get
  match cursor.kind? with
  | some .enumWord =>
    forward
    return .enum (← qualifiedName "enum type name")
  | some .annotationFieldWord =>
    forward
    return .annotationType (← qualifiedName "annotation type name")
  | some .identifier =>
    let name ← qualifiedName "element type"
    match namedElementType? name with
    | some type => return type
    | none =>
      throw (.unexpectedToken
        "primitive, String, Class, 'enum' or 'annotation-field' element type" name cursor.place)
  | _ => fail "annotation element type"

/-- Reads the brackets of one dimension. -/
def dimension : Reader Unit := do
  forward
  let _ ← expect .closeBracket "']'"

def elementType : Reader ElementType := do
  let type ← innermostElementType
  let dimensions ← manyWhile (·.isAt .openBracket) dimension
  return dimensions.foldl (fun type _ => .array type) type

/-- Reads the declaration of an element, whose default may be nested one level more than an
argument of an annotation. -/
def elementDeclaration : Reader ElementDeclaration := do
  let type ← elementType
  let name ← elementName
  let default ← if ← eat .equals then some <$> value (maxValueDepth + 1) else pure none
  return ⟨name, type, default⟩

/-- Whether the block goes on. -/
def withinBlock (cursor : Cursor) : Bool := !cursor.rest.isEmpty && !cursor.startsBlock

/-- Reads the declaration of an annotation type in a package. -/
def declaration (package : String) : Reader Declaration := do
  let keyword ← expect .annotationWord "'annotation'"
  let _ ← expect .atSign "'@' before annotation name"
  let name ← name "annotation name"
  let _ ← expect .colon "':' after annotation name"
  let annotations ← annotations
  let elements ← manyWhile withinBlock elementDeclaration
  return ⟨qualify package name, annotations, elements, keyword.start⟩

end Reader

end ExternalAnnotations
