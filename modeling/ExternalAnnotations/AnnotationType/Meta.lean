/-!
# What annotation types say about themselves

How long an annotation is kept and what it may be put on, as the meta-annotations
`java.lang.annotation.Retention` and `java.lang.annotation.Target` say.
-/

namespace ExternalAnnotations

/-- How long an annotation is kept. -/
inductive Retention
  /-- Dropped when the program is compiled. -/
  | source
  /-- Kept in generated files. -/
  | classFile
  /-- Kept when the program runs. -/
  | runtime
  deriving DecidableEq, Repr

namespace Retention

/-- What holds when an annotation type does not say. -/
instance : Inhabited Retention := ⟨classFile⟩

def constant : Retention → String
  | source => "SOURCE"
  | classFile => "CLASS"
  | runtime => "RUNTIME"

def ofConstant? (name : String) : Option Retention :=
  [source, classFile, runtime].find? (·.constant == name)

/-- Whether generated files have to hold the annotation. -/
def isEmitted : Retention → Bool
  | source => false
  | classFile | runtime => true

end Retention

/-- What an annotation may be put on. -/
inductive Target
  | type
  | field
  | method
  | parameter
  | constructor
  | localVariable
  | annotationType
  | package
  | typeParameter
  | typeUse
  deriving DecidableEq, Repr

namespace Target

def all : List Target :=
  [type, field, method, parameter, constructor, localVariable, annotationType, package,
    typeParameter, typeUse]

def constant : Target → String
  | type => "TYPE"
  | field => "FIELD"
  | method => "METHOD"
  | parameter => "PARAMETER"
  | constructor => "CONSTRUCTOR"
  | localVariable => "LOCAL_VARIABLE"
  | annotationType => "ANNOTATION_TYPE"
  | package => "PACKAGE"
  | typeParameter => "TYPE_PARAMETER"
  | typeUse => "TYPE_USE"

def ofConstant? (name : String) : Option Target := all.find? (·.constant == name)

end Target

end ExternalAnnotations
