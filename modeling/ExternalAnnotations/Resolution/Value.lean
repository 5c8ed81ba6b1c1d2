import ExternalAnnotations.Resolution.Name

/-!
# From written values to element values

A written value becomes the value of an element if it fits the type of the element. What is looked
up on the way is kept in a `Memo`, and what is wrong is reported there.
-/

namespace ExternalAnnotations

/-- The annotation types looked up so far, with those that were not found, and what was reported. -/
structure Memo where
  known : List (String × Option AnnotationType)
  diagnostics : List Diagnostic

namespace Memo

instance : EmptyCollection Memo := ⟨⟨[], []⟩⟩

instance : Inhabited Memo := ⟨{}⟩

def find? (memo : Memo) (name : String) : Option (Option AnnotationType) :=
  memo.known.lookup name

def report (memo : Memo) (diagnostic : Diagnostic) : Memo :=
  { memo with diagnostics := memo.diagnostics ++ [diagnostic] }

/-- Keeps what was found for a name. -/
def remember (memo : Memo) (name : String) (found : Option AnnotationType) : Memo :=
  { memo with known := (name, found) :: memo.known }

end Memo

/-- Work that looks up annotation types. -/
abbrev Resolving := StateM Memo

/-- Work that looks up annotation types and may find that a value does not fit. -/
abbrev Converting := ExceptT ElementFault Resolving

/-- The integer of some width that is equal to a given one, if there is one. -/
def narrow? {α : Type} (ofInt : Int → α) (toInt : α → Int) (n : Int64) : Option α :=
  if toInt (ofInt n.toInt) = n.toInt then some (ofInt n.toInt) else none

/-- The value of a primitive element. -/
def primitiveValue? : Primitive → WrittenValue → Option AnnotationValue
  | .boolean, .bool b => some (.boolean b)
  | .char, .char c => some (.char c)
  | .byte, .int n => (narrow? Int8.ofInt Int8.toInt n).map .byte
  | .short, .int n => (narrow? Int16.ofInt Int16.toInt n).map .short
  | .int, .int n => (narrow? Int32.ofInt Int32.toInt n).map .int
  | .long, .int n => some (.long n)
  | .float, .int n => some (.float (.ofInt n.toInt))
  | .float, .float x => some (.float x.toSingle)
  | .double, .int n => some (.double (.ofInt n.toInt))
  | .double, .float x => some (.double x)
  | _, _ => none

/-- The type that a class literal names. -/
def literalType (name : String) : ErasedType :=
  if name = "void" then .void
  else
    match Primitive.ofKeyword? name with
    | some p => .primitive p
    | none => .named name

/-- The value of an element that is neither an array nor an annotation. -/
def simpleValue (program : Program) (value : WrittenValue) (type : ElementType) :
    Except ElementFault AnnotationValue :=
  match type, value with
  | .primitive p, value =>
    match primitiveValue? p value with
    | some converted => .ok converted
    | none => .error (.mismatch type value)
  | .string, .string s => .ok (.string s)
  | .classLiteral, .classLiteral name => .ok (.classLiteral (literalType name))
  | .enum typeName, .name written => program.enumValue typeName written
  | type, value => .error (.mismatch type value)

/-- The value of an element for a single value: an array element has it as its only item. -/
def promote (convert : ElementType → Converting AnnotationValue) :
    ElementType → Converting AnnotationValue
  | .array item => do return .array [← promote convert item]
  | type => convert type

def reportFault (typeName element : String) (fault : ElementFault) : Resolving Unit :=
  modify (·.report (.invalidElement typeName element fault))

/-- The values of the elements of a type in their order, given how to convert what was written for
them. What does not fit is reported and left out, and an element that was not written has its
default. -/
def fillElements (type : AnnotationType)
    (written : List (String × (ElementType → Converting AnnotationValue))) :
    List AnnotationElement → Resolving (List (String × AnnotationValue))
  | [] => return []
  | element :: elements => do
    let value ← match written.lookup element.name with
      | none => pure element.default
      | some convert =>
        match ← (convert element.type).run with
        | .ok value => pure (some value)
        | .error fault => do
          reportFault type.name element.name fault
          pure none
    let others ← fillElements type written elements
    return match value with
      | some value => (element.name, value) :: others
      | none => others

/-- The annotation of a type with given values. Values for elements that the type does not have
are reported first. -/
def instantiate (type : AnnotationType)
    (written : List (String × (ElementType → Converting AnnotationValue))) :
    Resolving AnnotationInstance := do
  written.forM fun (name, _) =>
    if (type.element? name).isNone then reportFault type.name name .noSuchElement else pure ()
  return ⟨type.name, ← fillElements type written type.elements, type.retention⟩

/-- How an annotation type is looked up by its full name. -/
abbrev TypeLookup := String → Resolving (Option AnnotationType)

section

variable (sources : TypeSources) (lookup : TypeLookup) (package : String)

mutual

/-- The value of an element for a value written in a package. -/
def convertValue : WrittenValue → ElementType → Converting AnnotationValue
  | .array items, .array item => do return .array (← convertItems items item)
  | .nested use, type =>
    promote (fun
      | .annotationType expected =>
        let found := sources.fullName package use.typeName
        if found = expected then do return .nested (← applyUse use)
        else throw (.otherType expected found)
      | type => throw (.mismatch type (.nested use))) type
  | value, type =>
    promote (fun type => ExceptT.mk (pure (simpleValue sources.program value type))) type

def convertItems : List WrittenValue → ElementType → Converting (List AnnotationValue)
  | [], _ => return []
  | value :: values, type => do
    let first ← convertValue value type
    return first :: (← convertItems values type)

/-- How what was written for each element is converted. -/
def convertFields : List (String × WrittenValue) →
    List (String × (ElementType → Converting AnnotationValue))
  | [] => []
  | (name, value) :: fields => (name, convertValue value) :: convertFields fields

/-- The annotation that is meant by one written in a package. -/
def applyUse : AnnotationUse → Resolving AnnotationInstance
  | ⟨typeName, values, _⟩ => do
    let name := sources.fullName package typeName
    match ← lookup name with
    | some type => instantiate type (convertFields values)
    | none => return .bare name

end

end

end ExternalAnnotations
