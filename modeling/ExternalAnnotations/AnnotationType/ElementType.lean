import ExternalAnnotations.Signature.Type

/-!
# Elements of annotation types
-/

namespace ExternalAnnotations

/-- The element that is meant where a value is written without a name. -/
def soleElement : String := "value"

/-- The type of an element of an annotation type. -/
inductive ElementType
  | primitive (p : Primitive)
  | string
  | classLiteral
  | enum (typeName : String)
  | annotationType (typeName : String)
  | array (item : ElementType)
  deriving DecidableEq, Repr

namespace ElementType

/-- The type as it is written in an index. -/
def text : ElementType → String
  | primitive p => p.keyword
  | string => "String"
  | classLiteral => "Class"
  | enum name => "enum " ++ name
  | annotationType name => "annotation-field " ++ name
  | array item => item.text ++ "[]"

/-- The element type for the result of a method of an annotation class. A class that is none of
the annotation classes is taken for an enum. -/
def ofErasedType? (isAnnotationType : String → Bool) : ErasedType → Option ElementType
  | .void => none
  | .primitive p => some (primitive p)
  | .named name => some <|
    if name = "java.lang.String" then string
    else if name = "java.lang.Class" then classLiteral
    else if isAnnotationType name then annotationType name
    else enum name
  | .array item => (ofErasedType? isAnnotationType item).map array

end ElementType

end ExternalAnnotations
