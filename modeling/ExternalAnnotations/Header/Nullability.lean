import ExternalAnnotations.Program.Class

/-!
# Nullability

Whether a reference can be null is said by annotations that are known by their simple names. Those
on a type come before those on what is declared with it.
-/

namespace ExternalAnnotations

inductive Nullability
  | nonnull
  | nullable
  deriving DecidableEq, Repr

namespace Nullability

/-- The word that says it in a header. -/
def specifier : Nullability → String
  | nonnull => "__nonnull"
  | nullable => "__nullable"

/-- The simple names of the annotations that say it. -/
def annotationNames : Nullability → List String
  | nonnull => ["Nonnull", "NonNull", "NotNull"]
  | nullable => ["Nullable", "CheckForNull", "NullableDecl"]

/-- What an annotation says. -/
def ofInstance? (given : AnnotationInstance) : Option Nullability :=
  [nonnull, nullable].find? (·.annotationNames.contains given.simpleName)

end Nullability

/-- What the annotations on a type, and then those on what is declared, say of a reference. -/
def TypeUse.nullability? (use : TypeUse) (declared : List AnnotationInstance) :
    Option Nullability :=
  if use.type.isReference then (use.annotations ++ declared).findSome? Nullability.ofInstance?
  else none

/-- Whether the result of a method can be null. A constructor never gives null. -/
def Method.nullability? (method : Method) : Option Nullability :=
  if method.isConstructor then some .nonnull else method.result.nullability? method.annotations

def Parameter.nullability? (parameter : Parameter) : Option Nullability :=
  parameter.type.nullability? parameter.annotations

def Field.nullability? (field : Field) : Option Nullability :=
  field.type.nullability? field.annotations

end ExternalAnnotations
