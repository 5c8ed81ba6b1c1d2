import ExternalAnnotations.AnnotationType.ElementType
import ExternalAnnotations.Program.Basic

/-!
# Annotation types

What is known of an annotation type: how long its annotations are kept, what they may be put on,
and which elements they have. This comes from an annotation class of the program, from a
declaration of the index, or from the table of annotation types that every program knows.
-/

namespace ExternalAnnotations

/-- An element of an annotation type. -/
structure AnnotationElement where
  name : String
  type : ElementType
  default : Option AnnotationValue

structure AnnotationType where
  /-- The binary name. -/
  name : String
  retention : Retention
  /-- What the annotations may be put on. Without restriction it is empty. -/
  targets : List Target
  elements : List AnnotationElement

/-- The meta-annotation that gives the retention of an annotation type. -/
def retentionName : String := "java.lang.annotation.Retention"

/-- The meta-annotation that gives the targets of an annotation type. -/
def targetName : String := "java.lang.annotation.Target"

namespace AnnotationType

def element? (type : AnnotationType) (name : String) : Option AnnotationElement :=
  type.elements.find? (·.name == name)

/-- The value of the element `value` of the first annotation of a type. -/
def metaValue? (annotations : List AnnotationInstance) (typeName : String) :
    Option AnnotationValue :=
  (AnnotationInstance.find? annotations typeName).bind (·.value? soleElement)

def retentionOf (annotations : List AnnotationInstance) : Retention :=
  ((metaValue? annotations retentionName).bind (·.constant?)).bind Retention.ofConstant?
    |>.getD default

def targetsOf (annotations : List AnnotationInstance) : List Target :=
  ((metaValue? annotations targetName).elim [] (·.items)).filterMap fun item =>
    item.constant?.bind Target.ofConstant?

/-- The element that a method of an annotation class declares. -/
def elementOf? (program : Program) (method : Method) : Option AnnotationElement :=
  if method.isConstructor || method.isStatic then none
  else
    (ElementType.ofErasedType? program.isAnnotationType method.result.type).map
      (⟨method.name, ·, method.default⟩)

/-- The annotation type that an annotation class of a program declares. -/
def ofClass (program : Program) (c : Class) : AnnotationType :=
  ⟨c.binaryName, retentionOf c.annotations, targetsOf c.annotations,
    c.methods.filterMap (elementOf? program)⟩

/-- The annotation types that every program knows. -/
def builtins : List AnnotationType := [
  ⟨retentionName, .runtime, [.annotationType],
    [⟨soleElement, .enum "java.lang.annotation.RetentionPolicy", none⟩]⟩,
  ⟨targetName, .runtime, [.annotationType],
    [⟨soleElement, .array (.enum "java.lang.annotation.ElementType"), none⟩]⟩,
  ⟨"java.lang.annotation.Documented", .runtime, [.annotationType], []⟩,
  ⟨"java.lang.annotation.Inherited", .runtime, [.annotationType], []⟩,
  ⟨"java.lang.Deprecated", .runtime, [], []⟩,
  ⟨"java.lang.Override", .source, [.method], []⟩,
  ⟨"java.lang.SuppressWarnings", .source, [], [⟨soleElement, .array .string, none⟩]⟩,
  ⟨"java.lang.FunctionalInterface", .runtime, [.type], []⟩,
  ⟨"java.lang.SafeVarargs", .runtime, [.constructor, .method], []⟩]

def builtin? (name : String) : Option AnnotationType := builtins.find? (·.name == name)

end AnnotationType

end ExternalAnnotations
