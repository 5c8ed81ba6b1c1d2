import ExternalAnnotations.AnnotationType.Instance

/-!
# Classes and their members

What a compiler knows of a class, its methods and its fields once it has read their declarations,
with the annotations on each part.
-/

namespace ExternalAnnotations

/-- The number under which a program holds a class. -/
abbrev Slot := Nat

/-- The number of a source file of a program. -/
abbrev FileId := Nat

inductive Modifier
  | isPublic
  | isProtected
  | isPrivate
  | isStatic
  | isFinal
  | isAbstract
  | isNative
  | isSynchronized
  | isDefault
  deriving DecidableEq, Repr

/-- The modifiers with `static` among them. -/
def Modifier.addStatic (modifiers : List Modifier) : List Modifier :=
  if modifiers.contains isStatic then modifiers else modifiers ++ [isStatic]

inductive ClassKind
  | ordinary
  | interface
  | enum
  | annotationType
  deriving DecidableEq, Repr

inductive MethodKind
  | ordinary
  | constructor
  deriving DecidableEq, Repr

/-- A type in a signature with the annotations on it. -/
structure TypeUse where
  type : ErasedType
  annotations : List AnnotationInstance
  deriving BEq

/-- A type without annotations. -/
def TypeUse.plain (type : ErasedType) : TypeUse := ⟨type, []⟩

structure Parameter where
  name : String
  type : TypeUse
  annotations : List AnnotationInstance
  deriving BEq

structure Method where
  name : String
  kind : MethodKind
  modifiers : List Modifier
  parameters : List Parameter
  result : TypeUse
  annotations : List AnnotationInstance
  /-- The default of an element, if the method is one of an annotation type. -/
  default : Option AnnotationValue
  deriving BEq

/-- The name of every constructor. -/
def constructorName : String := "<init>"

namespace Method

/-- A public method without parameters that returns nothing. -/
def ofName (name : String) : Method :=
  ⟨name, .ordinary, [.isPublic], [], .plain .void, [], none⟩

/-- A public constructor without parameters. -/
def ofConstructor : Method := { ofName constructorName with kind := .constructor }

def isConstructor (method : Method) : Bool := method.kind == .constructor

def isStatic (method : Method) : Bool := method.modifiers.contains .isStatic

def parameterTypes (method : Method) : List ErasedType := method.parameters.map (·.type.type)

end Method

structure Field where
  name : String
  modifiers : List Modifier
  type : TypeUse
  annotations : List AnnotationInstance
  deriving BEq

/-- A private field without annotations. -/
def Field.ofName (name : String) (type : ErasedType) : Field :=
  ⟨name, [.isPrivate], .plain type, []⟩

/-- A class, interface, enum or annotation type. -/
structure Class where
  binaryName : String
  kind : ClassKind
  modifiers : List Modifier
  superclass : Option String
  interfaces : List String
  annotations : List AnnotationInstance
  methods : List Method
  fields : List Field
  /-- The class that this one is nested in. -/
  enclosing : Option Slot
  /-- The classes nested in this one. -/
  nested : List Slot
  file : FileId
  deriving BEq

namespace Class

def simpleName (c : Class) : String := ExternalAnnotations.simpleName c.binaryName

def package (c : Class) : String := packageOf c.binaryName

def isAnnotationType (c : Class) : Bool := c.kind == .annotationType

/-- Whether objects of the class belong to no object of an enclosing class. -/
def isStatic (c : Class) : Bool :=
  c.enclosing.isNone || c.modifiers.contains .isStatic || c.kind != .ordinary

def method? (c : Class) (name : String) : Option Method := c.methods.find? (·.name == name)

def field? (c : Class) (name : String) : Option Field := c.fields.find? (·.name == name)

def constructors (c : Class) : List Method := c.methods.filter (·.isConstructor)

end Class

end ExternalAnnotations
