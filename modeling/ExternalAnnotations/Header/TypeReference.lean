import ExternalAnnotations.Header.Name

/-!
# References to annotation types

Generated files make every annotation that is kept when the program runs, so they need the header
of its type and the function that makes it.
-/

namespace ExternalAnnotations

structure TypeReference where
  /-- The binary name of the annotation type. -/
  typeName : String
  header : String
  /-- The function that makes an annotation of the type. -/
  maker : String
  deriving DecidableEq, Repr

/-- The reference to a type. A nested type is declared in the header of its top-level class. -/
def TypeReference.ofName (typeName : String) : TypeReference :=
  let topLevel := typeName.toList.takeWhile (· != nestedSeparator)
  { typeName
    header := String.ofList (topLevel.map fun c => if c = '.' then '/' else c) ++ ".h"
    maker := "create_" ++ headerClassName typeName }

namespace Class

/-- The annotations on a method and its parts. -/
def methodAnnotations (method : Method) : List AnnotationInstance :=
  method.annotations ++ method.result.annotations
    ++ method.parameters.flatMap fun parameter =>
      parameter.annotations ++ parameter.type.annotations

/-- The annotations on a class and its members, in order. -/
def allAnnotations (c : Class) : List AnnotationInstance :=
  c.annotations ++ c.methods.flatMap methodAnnotations
    ++ c.fields.flatMap fun field => field.annotations ++ field.type.annotations

/-- The annotation types of which a class has annotations that are kept when the program runs,
each once, in the order of first use. -/
def runtimeReferences (c : Class) : List TypeReference :=
  let kept := c.allAnnotations.filter (·.retention == .runtime)
  (kept.map (·.typeName)).eraseDups.map TypeReference.ofName

end Class

end ExternalAnnotations
