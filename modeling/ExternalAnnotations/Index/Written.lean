import ExternalAnnotations.Number.Layout
import ExternalAnnotations.Text.Location
import ExternalAnnotations.Text.Quoted

/-!
# Annotations as they are written

Annotations and their element values as an index spells them, before anything is known about the
annotation types. `AnnotationUse.render` spells one again.
-/

namespace ExternalAnnotations

mutual

/-- An element value as it is written. -/
inductive WrittenValue
  | bool (b : Bool)
  | int (n : Int64)
  | float (x : Double)
  | char (c : Char)
  | string (s : String)
  /-- An enum constant or another dotted name. -/
  | name (dotted : String)
  /-- A class literal, by the name before `.class`. -/
  | classLiteral (dotted : String)
  | array (items : List WrittenValue)
  | nested (use : AnnotationUse)

/-- An annotation as it is written, with the names of its elements in the order of writing. -/
structure AnnotationUse where
  /-- The name of the annotation type, perhaps without its package. -/
  typeName : String
  values : List (String × WrittenValue)
  place : Location

end

instance : Inhabited WrittenValue := ⟨.bool false⟩

mutual

/-- The spelling of a value. -/
def WrittenValue.render : WrittenValue → List Char
  | .bool b => (if b then "true" else "false").toList
  | .int n => (toString n.toInt).toList
  | .float x => x.text.toList
  | .char c => ['\'', c, '\'']
  | .string s => (quoted s).toList
  | .name dotted => dotted.toList
  | .classLiteral dotted => dotted.toList ++ ".class".toList
  | .array items => '\x7b' :: List.intercalate [','] (WrittenValue.renderAll items) ++ ['\x7d']
  | .nested use => use.render

/-- The spelling of an annotation. -/
def AnnotationUse.render : AnnotationUse → List Char
  | ⟨typeName, values, _⟩ =>
    '@' :: typeName.toList ++
      if values.isEmpty then []
      else '(' :: List.intercalate [','] (AnnotationUse.renderFields values) ++ [')']

def WrittenValue.renderAll : List WrittenValue → List (List Char)
  | [] => []
  | value :: values => value.render :: WrittenValue.renderAll values

def AnnotationUse.renderFields : List (String × WrittenValue) → List (List Char)
  | [] => []
  | (name, value) :: fields =>
    (name.toList ++ '=' :: value.render) :: AnnotationUse.renderFields fields

end

def WrittenValue.text (value : WrittenValue) : String := String.ofList value.render

def AnnotationUse.text (a : AnnotationUse) : String := String.ofList a.render

/-- The first value written for an element. -/
def AnnotationUse.value? (a : AnnotationUse) (element : String) : Option WrittenValue :=
  (a.values.find? (·.1 == element)).map (·.2)

end ExternalAnnotations
