import ExternalAnnotations.Index.Entry
import ExternalAnnotations.Text.Outline

/-!
# The detailed view of entries

An entry with everything that was read for it, places included.
-/

namespace ExternalAnnotations

namespace Outline

def ofString (s : String) : Outline := atom (quoted s)

def ofNat (n : Nat) : Outline := atom (toString n)

def ofLocation (place : Location) : Outline :=
  record "Location"
    [("line", ofNat place.line), ("column", ofNat place.column), ("offset", ofNat place.offset)]

mutual

def ofValue : WrittenValue → Outline
  | .bool b => applied "Bool" [atom (if b then "true" else "false")]
  | .int n => applied "Int" [atom (toString n.toInt)]
  | .float x => applied "Float" [atom x.markedText]
  | .char c => applied "Char" [atom (quotedChar c)]
  | .string s => applied "Str" [ofString s]
  | .name dotted => applied "Name" [ofString dotted]
  | .classLiteral dotted => applied "ClassLiteral" [ofString dotted]
  | .array items => applied "Array" [list (ofValues items)]
  | .nested use => applied "Annotation" [ofUse use]

def ofUse : AnnotationUse → Outline
  | ⟨typeName, values, place⟩ =>
    record "ParsedAnnotation"
      [("type_name", ofString typeName), ("values", list (ofFields values)),
        ("location", ofLocation place)]

def ofValues : List WrittenValue → List Outline
  | [] => []
  | value :: values => ofValue value :: ofValues values

def ofFields : List (String × WrittenValue) → List Outline
  | [] => []
  | (name, value) :: fields => applied "" [ofString name, ofValue value] :: ofFields fields

end

def ofType : ErasedType → Outline
  | .void => atom "Void"
  | .primitive p => applied "Primitive" [atom p.capitalized]
  | .named name => applied "Class" [ofString name]
  | .array item => applied "Array" [ofType item]

def ofMember : Member → Outline
  | .method name descriptor =>
    record "Method"
      [("name", ofString name),
        ("descriptor", record "MethodDescriptor"
          [("parameters", list (descriptor.parameters.map ofType)),
            ("return_type", ofType descriptor.result)])]
  | .field name => record "Field" [("name", ofString name)]

def ofPlacement : Placement → Outline
  | .declaration => atom "Declaration"
  | .returnType => atom "ReturnType"
  | .parameter position => applied "Parameter" [ofNat position]
  | .parameterType position => applied "ParameterType" [ofNat position]
  | .fieldType => atom "FieldType"

def ofEntry (entry : Entry) : Outline :=
  record "AnnotationIndexEntry"
    [("owner", ofString entry.owner), ("package", ofString entry.package),
      ("member", optional (entry.member.map ofMember)), ("path", ofPlacement entry.placement),
      ("annotations", list (entry.annotations.map ofUse)), ("location", ofLocation entry.place)]

end Outline

/-- The detailed view of an entry. -/
def Entry.detailedText (entry : Entry) : String := (Outline.ofEntry entry).text

end ExternalAnnotations
