import ExternalAnnotations.AnnotationType.Meta
import ExternalAnnotations.Signature.Type
import ExternalAnnotations.Number.Layout
import ExternalAnnotations.Text.Quoted

/-!
# Annotations on a program

An annotation as it stands on an element of a program, with its type resolved and its values
checked. Whether it was written in the program or came from an index cannot be told.
-/

namespace ExternalAnnotations

mutual

/-- The value of an element. -/
inductive AnnotationValue
  | boolean (b : Bool)
  | byte (n : Int8)
  | char (c : Char)
  | short (n : Int16)
  | int (n : Int32)
  | long (n : Int64)
  | float (x : Single)
  | double (x : Double)
  | string (s : String)
  | classLiteral (type : ErasedType)
  | enum (typeName constant : String)
  | nested (inner : AnnotationInstance)
  | array (items : List AnnotationValue)

structure AnnotationInstance where
  /-- The binary name of the annotation type. -/
  typeName : String
  values : List (String × AnnotationValue)
  retention : Retention

end

instance : Inhabited AnnotationValue := ⟨.boolean false⟩

namespace AnnotationValue

/-- The text of a string value. -/
def string? : AnnotationValue → Option String
  | string s => some s
  | _ => none

/-- The name of the constant of an enum value. -/
def constant? : AnnotationValue → Option String
  | enum _ constant => some constant
  | _ => none

/-- The items of an array value. Any other value counts as an array of one item. -/
def items : AnnotationValue → List AnnotationValue
  | array items => items
  | value => [value]

end AnnotationValue

mutual

def AnnotationValue.text : AnnotationValue → String
  | .boolean b => if b then "true" else "false"
  | .byte n => toString n.toInt
  | .char c => "'" ++ c.toString ++ "'"
  | .short n => toString n.toInt
  | .int n => toString n.toInt
  | .long n => toString n.toInt ++ "L"
  | .float x => x.text ++ "f"
  | .double x => x.text
  | .string s => quoted s
  | .classLiteral type => type.text ++ ".class"
  | .enum typeName constant => typeName ++ "." ++ constant
  | .nested inner => inner.text
  | .array items => "\x7b" ++ ", ".intercalate (AnnotationValue.texts items) ++ "\x7d"

def AnnotationInstance.text : AnnotationInstance → String
  | ⟨typeName, values, _⟩ =>
    "@" ++ typeName ++
      if values.isEmpty then ""
      else "(" ++ ", ".intercalate (AnnotationInstance.fieldTexts values) ++ ")"

def AnnotationValue.texts : List AnnotationValue → List String
  | [] => []
  | value :: values => value.text :: AnnotationValue.texts values

def AnnotationInstance.fieldTexts : List (String × AnnotationValue) → List String
  | [] => []
  | (name, value) :: fields =>
    (name ++ "=" ++ value.text) :: AnnotationInstance.fieldTexts fields

end

mutual

/-- Whether two values are equal as values, which for numbers is not equality of bits. -/
def AnnotationValue.same : AnnotationValue → AnnotationValue → Bool
  | .boolean a, .boolean b => a == b
  | .byte a, .byte b => a == b
  | .char a, .char b => a == b
  | .short a, .short b => a == b
  | .int a, .int b => a == b
  | .long a, .long b => a == b
  | .float a, .float b => a.equal b
  | .double a, .double b => a.equal b
  | .string a, .string b => a == b
  | .classLiteral a, .classLiteral b => a == b
  | .enum a constant, .enum b constant' => a == b && constant == constant'
  | .nested a, .nested b => a.same b
  | .array as, .array bs => AnnotationValue.allSame as bs
  | _, _ => false

def AnnotationInstance.same : AnnotationInstance → AnnotationInstance → Bool
  | ⟨name, values, retention⟩, ⟨name', values', retention'⟩ =>
    name == name' && AnnotationInstance.sameFields values values' && retention == retention'

def AnnotationValue.allSame : List AnnotationValue → List AnnotationValue → Bool
  | [], [] => true
  | a :: as, b :: bs => a.same b && AnnotationValue.allSame as bs
  | _, _ => false

def AnnotationInstance.sameFields :
    List (String × AnnotationValue) → List (String × AnnotationValue) → Bool
  | [], [] => true
  | (name, a) :: as, (name', b) :: bs =>
    name == name' && a.same b && AnnotationInstance.sameFields as bs
  | _, _ => false

end

instance : BEq AnnotationValue := ⟨AnnotationValue.same⟩

instance : BEq AnnotationInstance := ⟨AnnotationInstance.same⟩

namespace AnnotationInstance

/-- An annotation of which only the type is known. -/
def bare (typeName : String) : AnnotationInstance := ⟨typeName, [], default⟩

def value? (inner : AnnotationInstance) (element : String) : Option AnnotationValue :=
  (inner.values.find? (·.1 == element)).map (·.2)

def simpleName (inner : AnnotationInstance) : String :=
  ExternalAnnotations.simpleName inner.typeName

/-- The first annotation of a type. -/
def find? (annotations : List AnnotationInstance) (typeName : String) :
    Option AnnotationInstance :=
  List.find? (·.typeName == typeName) annotations

end AnnotationInstance

end ExternalAnnotations
