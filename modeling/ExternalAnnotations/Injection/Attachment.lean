import ExternalAnnotations.Injection.Matching

/-!
# Putting annotations on the parts of a class

New annotations come after those that are there. Type annotations go only to references: on `void`
and on primitive types they would mean nothing.
-/

namespace ExternalAnnotations

namespace TypeUse

/-- The type with further annotations, if it can have any. -/
def attach? (use : TypeUse) (annotations : List AnnotationInstance) : Option TypeUse :=
  if use.type.isReference then some { use with annotations := use.annotations ++ annotations }
  else none

end TypeUse

namespace Parameter

def attach (parameter : Parameter) (annotations : List AnnotationInstance) : Parameter :=
  { parameter with annotations := parameter.annotations ++ annotations }

def attachToType? (parameter : Parameter) (annotations : List AnnotationInstance) :
    Option Parameter := do
  return { parameter with type := ← parameter.type.attach? annotations }

end Parameter

/-- A list with another item in the place of the one at an index, if that can be had. -/
def replaceAt? {α : Type} (items : List α) (index : Nat) (change : α → Option α) :
    Option (List α) := do
  return items.set index (← change (← items[index]?))

namespace Method

/-- The method with annotations on a part of it. -/
def attach? (method : Method) (annotations : List AnnotationInstance) :
    Placement → Option Method
  | .declaration => some { method with annotations := method.annotations ++ annotations }
  | .returnType => do return { method with result := ← method.result.attach? annotations }
  | .parameter position => do
    let parameters ← replaceAt? method.parameters position (some <| ·.attach annotations)
    return { method with parameters }
  | .parameterType position => do
    let parameters ← replaceAt? method.parameters position (·.attachToType? annotations)
    return { method with parameters }
  | .fieldType => none

end Method

namespace Field

/-- The field with annotations on a part of it. -/
def attach? (field : Field) (annotations : List AnnotationInstance) : Placement → Option Field
  | .declaration => some { field with annotations := field.annotations ++ annotations }
  | .fieldType => do return { field with type := ← field.type.attach? annotations }
  | _ => none

end Field

namespace Class

/-- The class with annotations on a part of an element, if that part can have them. -/
def attach? (c : Class) (placement : Placement) (annotations : List AnnotationInstance) :
    Position → Option Class
  | .classItself =>
    if placement = .declaration then some { c with annotations := c.annotations ++ annotations }
    else none
  | .method index => do
    let methods ← replaceAt? c.methods index (·.attach? annotations placement)
    return { c with methods }
  | .field index => do
    let fields ← replaceAt? c.fields index (·.attach? annotations placement)
    return { c with fields }

end Class

end ExternalAnnotations
