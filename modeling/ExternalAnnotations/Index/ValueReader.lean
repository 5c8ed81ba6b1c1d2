import ExternalAnnotations.AnnotationType.ElementType
import ExternalAnnotations.Index.Cursor
import ExternalAnnotations.Index.Literal

/-!
# Reading names, annotations and values

Values may be nested in arrays and annotations up to a fixed depth. `Reader.value` is given the
room that is left, so what is nested too deeply is found before it is read.
-/

namespace ExternalAnnotations

/-- The depth of the innermost values. -/
def maxValueDepth : Nat := 64

namespace Reader

def name (expected : String) : Reader String := do
  return (← token TokenKind.isName expected).lexeme

/-- Reads the name of an element, which may be any keyword but a literal. -/
def elementName : Reader String := do
  let isElementName (kind : TokenKind) :=
    kind == .identifier || (kind.isKeyword && !kind.isLiteral)
  return (← token isElementName "element name").lexeme

/-- Whether a name goes on with a dot and another part. -/
def continuesName (cursor : Cursor) : Bool :=
  cursor.isAt .dot && cursor.secondKind?.any TokenKind.isName

/-- Reads a name of parts with dots between them. -/
def qualifiedName (expected : String) : Reader String := do
  let first ← name expected
  let others ← manyWhile continuesName do
    forward
    name expected
  return others.foldl (fun dotted part => dotted ++ "." ++ part) first

/-- Whether the arguments of an annotation are given by name. -/
def startsNamedArguments (cursor : Cursor) : Bool :=
  (cursor.kind?.any fun kind => kind == .identifier || kind.isKeyword)
    && cursor.secondKind? == some .equals

/-- Reads one argument that is given by name. -/
def namedArgument (argument : Reader WrittenValue) : Reader (String × WrittenValue) := do
  let element ← elementName
  let _ ← expect .equals "'=' after element name"
  return (element, ← argument)

/-- Reads an argument without a name. -/
def soleArgument (argument : Reader WrittenValue) : Reader (List (String × WrittenValue)) := do
  return [(soleElement, ← argument)]

/-- Reads what stands between the parentheses of an annotation, if there are any. -/
def arguments (argument : Reader WrittenValue) : Reader (List (String × WrittenValue)) := do
  if !(← eat .openParen) then return []
  if ← eat .closeParen then return []
  let values ←
    if startsNamedArguments (← get) then commaSeparated (namedArgument argument)
    else soleArgument argument
  let _ ← expect .closeParen "')' closing annotation arguments"
  return values

/-- Reads an annotation, given how to read an argument. -/
def annotationOf (argument : Reader WrittenValue) : Reader AnnotationUse := do
  let sign ← expect .atSign "'@'"
  let typeName ← qualifiedName "annotation type name"
  return ⟨typeName, ← arguments argument, sign.start⟩

/-- Reads what follows the opening brace of an array, given how to read an item. -/
def arrayItems (item : Reader WrittenValue) : Reader (List WrittenValue) := do
  if ← eat .closeBrace then return []
  let items ← commaSeparated item
  let _ ← expect .closeBrace "'\x7d' closing array value"
  return items

def literal (token : Token) : Reader WrittenValue := fun cursor =>
  match Literal.value token with
  | .ok value => .ok value cursor.forward
  | .error fault =>
    .error (.invalidLiteral token.lexeme fault.message token.start) cursor.forward

/-- Whether a dotted name is that of a class literal. -/
def endsClassLiteral (cursor : Cursor) : Bool :=
  cursor.isAt .dot && cursor.secondKind? == some .classWord

/-- Reads a name or class literal. -/
def nameValue : Reader WrittenValue := do
  let dotted ← qualifiedName "annotation value"
  if endsClassLiteral (← get) then
    forward
    forward
    return .classLiteral dotted
  else return .name dotted

/-- Reads a value, given how to read what is nested in it: an item of an array, or an argument of
an annotation. -/
def valueOf (item argument : Reader WrittenValue) : Reader WrittenValue := fun cursor =>
  match cursor.rest with
  | [] => fail "annotation value" cursor
  | token :: _ =>
    if token.kind.isLiteral then literal token cursor
    else if token.kind = .openBrace then
      (do forward; return .array (← arrayItems item) : Reader WrittenValue) cursor
    else if token.kind = .atSign then
      (do return .nested (← annotationOf argument) : Reader WrittenValue) cursor
    else if token.kind.isName then nameValue cursor
    else fail "annotation value" cursor

/-- Fails because there is no room for another value. -/
def tooDeep : Reader WrittenValue := fun cursor => .error (.tooDeep cursor.place) cursor

/-- Reads a value that leaves room for so many levels of values, itself included. An annotation
and its arguments are a level each. -/
def value : Nat → Cursor → EStateM.Result SyntaxError Cursor WrittenValue
  | 0, cursor => tooDeep cursor
  | 1, cursor => valueOf tooDeep tooDeep cursor
  | room + 2, cursor => valueOf (value (room + 1)) (value room) cursor

/-- Reads an annotation that stands by itself. -/
def annotationUse : Reader AnnotationUse := annotationOf (value maxValueDepth)

/-- Reads annotations as long as there are any. -/
def annotations : Reader (List AnnotationUse) := manyWhile (·.isAt .atSign) annotationUse

end Reader

end ExternalAnnotations
