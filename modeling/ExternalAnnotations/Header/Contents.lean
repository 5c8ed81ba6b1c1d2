import ExternalAnnotations.Header.Nullability
import ExternalAnnotations.Header.Reflection
import ExternalAnnotations.Header.TypeReference
import ExternalAnnotations.Injection.Injector

/-!
# Contents of headers

What the generated header and metadata of a class hold, once annotations have been injected.
-/

namespace ExternalAnnotations

structure ParameterHeader where
  name : String
  type : String
  nullability : Option Nullability

structure MethodHeader where
  name : String
  selector : String
  isStatic : Bool
  isConstructor : Bool
  result : String
  resultNullability : Option Nullability
  parameters : List ParameterHeader
  /-- The name by which reflection finds the method. -/
  recordedName : Option String

structure ClassHeader where
  binaryName : String
  headerName : String
  hasMetadata : Bool
  methods : List MethodHeader
  runtimeReferences : List TypeReference

/-- A type with the word for its nullability. -/
def markedType (type : String) (nullability : Option Nullability) : String :=
  type ++ nullability.elim "" (" " ++ ·.specifier)

/-- A parameter as it follows its piece of a selector. -/
def ParameterHeader.text (parameter : ParameterHeader) : String :=
  ":(" ++ markedType parameter.type parameter.nullability ++ ")" ++ parameter.name

namespace MethodHeader

/-- The pieces of the selector that are not empty. -/
def pieces (header : MethodHeader) : List String :=
  ((segments (· == ':') header.selector.toList).filter (!·.isEmpty)).map String.ofList

/-- The selector without the colons at its end. -/
def bareSelector (header : MethodHeader) : String :=
  String.ofList (header.selector.toList.reverse.dropWhile (· == ':')).reverse

/-- The selector with the parameters in it. If it has not one piece for each parameter, the
parameters come after it. -/
def signature (header : MethodHeader) : String :=
  if header.parameters.isEmpty then header.selector
  else if header.pieces.length = header.parameters.length then
    " ".intercalate (List.zipWith (fun piece parameter => piece ++ parameter.text)
      header.pieces header.parameters)
  else header.bareSelector ++ String.join (header.parameters.map (" " ++ ·.text))

/-- The declaration of the method, such as `- (NSString * __nonnull)foo;`. -/
def declaration (header : MethodHeader) : String :=
  (if header.isStatic then "+" else "-") ++ " ("
    ++ markedType header.result header.resultNullability ++ ")" ++ header.signature ++ ";"

end MethodHeader

namespace ClassHeader

/-- The first method of a name. -/
def method? (header : ClassHeader) (name : String) : Option MethodHeader :=
  header.methods.find? (·.name == name)

def declarations (header : ClassHeader) : List String := header.methods.map (·.declaration)

/-- The names of methods in the metadata, if there is any. -/
def recordedNames (header : ClassHeader) : List String :=
  if header.hasMetadata then header.methods.filterMap (·.recordedName) else []

end ClassHeader

/-- What is left to choose about headers. -/
structure HeaderOptions where
  /-- Whether headers say what can be null. -/
  nullability : Bool
  /-- Whether classes that do not ask for metadata are left without. -/
  stripReflection : Bool
  deriving DecidableEq, Repr

namespace HeaderOptions

/-- Nullability, if headers show it. -/
def shown (options : HeaderOptions) (nullability : Option Nullability) : Option Nullability :=
  if options.nullability then nullability else none

def describeParameter (options : HeaderOptions) (parameter : Parameter) : ParameterHeader :=
  ⟨parameter.name, parameter.type.type.headerText, options.shown parameter.nullability?⟩

def describeMethod (options : HeaderOptions) (program : Program) (slot : Slot) (method : Method) :
    MethodHeader :=
  { name := method.name
    selector := method.selector
    isStatic := method.isStatic
    isConstructor := method.isConstructor
    result := if method.isConstructor then "instancetype" else method.result.type.headerText
    resultNullability := options.shown method.nullability?
    parameters := method.parameters.map options.describeParameter
    recordedName := program.recordedName? slot method }

def describeClass (options : HeaderOptions) (program : Program) (slot : Slot) (c : Class) :
    ClassHeader :=
  { binaryName := c.binaryName
    headerName := headerClassName c.binaryName
    hasMetadata := c.hasMetadata options.stripReflection
    methods := c.methods.map (options.describeMethod program slot)
    runtimeReferences := c.runtimeReferences }

/-- The headers of the classes of a source file. -/
def describeFile (options : HeaderOptions) (program : Program) (file : FileId) : List ClassHeader :=
  (program.classesIn file).filterMap fun slot =>
    (program.classes[slot]?).map (options.describeClass program slot)

/-- Injects annotations into a source file and gives the headers of its classes. -/
def makeHeaders (options : HeaderOptions) (file : FileId) :
    Injection.Working (List ClassHeader) := do
  let _ ← Injection.injectFile file
  return options.describeFile (← get).program file

end HeaderOptions

end ExternalAnnotations
