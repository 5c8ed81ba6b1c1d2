import ExternalAnnotations.Index.Written
import ExternalAnnotations.Signature.Descriptor
import ExternalAnnotations.AnnotationType.ElementType

/-!
# Entries and declarations

An index says two kinds of things: entries give annotations to elements of a program, and
declarations introduce annotation types.
-/

namespace ExternalAnnotations

/-- The part of an element of a program to which annotations go. -/
inductive Placement
  /-- The class, method, constructor or field itself. -/
  | declaration
  | returnType
  | parameter (position : Nat)
  | parameterType (position : Nat)
  | fieldType
  deriving DecidableEq, Repr

namespace Placement

/-- Whether annotations go to a type instead of something declared. -/
def isType : Placement → Bool
  | returnType | parameterType _ | fieldType => true
  | declaration | parameter _ => false

def text : Placement → String
  | declaration => "declaration"
  | returnType => "return"
  | parameter position => "parameter #" ++ toString position
  | parameterType position => "parameter #" ++ toString position ++ " type"
  | fieldType => "field type"

end Placement

/-- A member of a class as an index names it. -/
inductive Member
  | method (name : String) (descriptor : MethodDescriptor)
  | field (name : String)
  deriving DecidableEq, Repr

def Member.text : Member → String
  | .method name descriptor => "method " ++ name ++ String.ofList descriptor.encode
  | .field name => "field " ++ name

/-- Annotations for one element of a program. -/
structure Entry where
  /-- The binary name of the class. -/
  owner : String
  /-- The package in which the entry stands and unqualified annotation names are looked up. -/
  package : String
  member : Option Member
  placement : Placement
  annotations : List AnnotationUse
  place : Location

def Entry.text (entry : Entry) : String :=
  entry.owner ++ (entry.member.elim "" (" " ++ ·.text)) ++ " [" ++ entry.placement.text ++ "]"
    ++ String.join (entry.annotations.map (" " ++ ·.text))

/-- An element of a declared annotation type. -/
structure ElementDeclaration where
  name : String
  type : ElementType
  default : Option WrittenValue

/-- An annotation type that an index declares. -/
structure Declaration where
  /-- The name with its package. -/
  name : String
  annotations : List AnnotationUse
  elements : List ElementDeclaration
  place : Location

def Declaration.simpleName (declaration : Declaration) : String :=
  ExternalAnnotations.simpleName declaration.name

end ExternalAnnotations
