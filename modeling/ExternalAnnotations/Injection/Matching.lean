import ExternalAnnotations.Index.Entry
import ExternalAnnotations.Program.Class

/-!
# Matching entries with members

An entry is about the member whose name and whole signature it gives, and about no other: there is
no second choice among overloads.
-/

namespace ExternalAnnotations

/-- The element of a class that an entry is about. -/
inductive Position
  | classItself
  | method (index : Nat)
  | field (index : Nat)
  deriving DecidableEq, Repr

namespace Method

/-- Whether a method goes by a name in an index, where constructors have a name of their own. -/
def hasName (method : Method) (name : String) : Bool :=
  if name = constructorName then method.isConstructor
  else !method.isConstructor && method.name == name

def hasSignature (name : String) (descriptor : MethodDescriptor) (method : Method) : Bool :=
  method.hasName name && method.parameterTypes == descriptor.parameters
    && method.result.type == descriptor.result

end Method

/-- Whether a part of a method with so many parameters exists. -/
def Placement.isInMethod (arity : Nat) : Placement → Bool
  | .declaration | .returnType => true
  | .parameter position | .parameterType position => position < arity
  | .fieldType => false

/-- Whether a part of a field exists. -/
def Placement.isInField : Placement → Bool
  | .declaration | .fieldType => true
  | _ => false

namespace Class

/-- The method with a name and a signature, if it has the part at a placement. -/
def methodAt? (c : Class) (name : String) (descriptor : MethodDescriptor) (placement : Placement) :
    Option Position := do
  let index ← c.methods.findIdx? (Method.hasSignature name descriptor)
  if placement.isInMethod descriptor.arity then some (.method index) else none

/-- The field with a name, if it has the part at a placement. -/
def fieldAt? (c : Class) (name : String) (placement : Placement) : Option Position := do
  let index ← c.fields.findIdx? (·.name == name)
  if placement.isInField then some (.field index) else none

/-- The element of a class that an entry is about, if the class has it. -/
def position? (c : Class) (entry : Entry) : Option Position :=
  match entry.member with
  | none => if entry.placement = .declaration then some .classItself else none
  | some (.method name descriptor) => c.methodAt? name descriptor entry.placement
  | some (.field name) => c.fieldAt? name entry.placement

end Class

end ExternalAnnotations
