import ExternalAnnotations.Program.Basic
import ExternalAnnotations.Text.Uppercase

/-!
# Names in generated headers

How classes, types and methods are called in a generated header. A class is called by its package
and name run together, and a method by a selector, which has a piece for every parameter.
-/

namespace ExternalAnnotations

/-- A text whose first character is in upper case. -/
def capitalize : List Char → List Char
  | [] => []
  | c :: text => uppercase c ++ text

/-- The name of a class in a header: `p.Outer$Inner` becomes `POuter_Inner`. -/
def headerClassName (binaryName : String) : String :=
  if binaryName = "java.lang.String" then "NSString"
  else if binaryName = "java.lang.Object" then "NSObject"
  else
    let runTogether := (segments (· == '.') binaryName.toList).flatMap capitalize
    String.ofList (runTogether.map fun c => if c = nestedSeparator then '_' else c)

namespace ErasedType

/-- The type in a declaration. -/
def headerText : ErasedType → String
  | void => "void"
  | primitive p => "j" ++ p.keyword
  | named name => if name = "java.lang.Object" then "id" else headerClassName name ++ " *"
  | array (.primitive p) => "IOS" ++ p.capitalized ++ "Array *"
  | array _ => "IOSObjectArray *"

/-- The type in a selector, for a type that is not an array. -/
def selectorBase : ErasedType → String
  | void => "Void"
  | primitive p => p.capitalized
  | named name => if name = "java.lang.Object" then "Id" else headerClassName name
  | array _ => ""

/-- The type in a selector. The number of dimensions is given if there are several. -/
def selectorText (type : ErasedType) : String :=
  let (inner, dimensions) := type.innermost
  inner.selectorBase ++
    match dimensions with
    | 0 => ""
    | 1 => "Array"
    | several => "Array" ++ toString several

end ErasedType

/-- The annotation that gives a method another selector. -/
def selectorAnnotationName : String := "com.google.j2objc.annotations.ObjectiveCName"

/-- The class from which the classes descend whose renamed methods are not found by their names. -/
def testCaseName : String := "junit.framework.TestCase"

namespace Method

def givenSelector? (method : Method) : Option String := do
  let given ← AnnotationInstance.find? method.annotations selectorAnnotationName
  (← given.value? "value").string?

/-- The pieces that the parameters of a method add to its selector. -/
def selectorPieces : List ErasedType → List String
  | [] => []
  | first :: others =>
    ("With" ++ first.selectorText) :: others.map fun type => "with" ++ type.selectorText

/-- The selector that follows from the name and the parameter types. -/
def derivedSelector (method : Method) : String :=
  let base := if method.isConstructor then "init" else method.name
  base ++ String.join ((selectorPieces method.parameterTypes).map (· ++ ":"))

def selector (method : Method) : String :=
  method.givenSelector?.getD method.derivedSelector

end Method

namespace Program

/-- Whether a class descends from the base class of test cases. -/
def isTestCase (program : Program) (slot : Slot) : Bool :=
  (program.ancestors slot).contains testCaseName

/-- The name by which a method of a class is found when the program runs. A renamed method of a
test case is not found. -/
def recordedName? (program : Program) (slot : Slot) (method : Method) : Option String :=
  if method.givenSelector?.isSome && program.isTestCase slot then none else some method.name

end Program

end ExternalAnnotations
