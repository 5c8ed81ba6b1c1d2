import ExternalAnnotations.Program.Class

/-!
# Reflection metadata

Whether the generated files for a class describe it for use by reflection.
-/

namespace ExternalAnnotations

/-- How much reflection a class asks for. -/
inductive ReflectionLevel
  | full
  | nativeOnly
  deriving DecidableEq, Repr

namespace ReflectionLevel

def constant : ReflectionLevel → String
  | full => "FULL"
  | nativeOnly => "NATIVE_ONLY"

def ofConstant? (name : String) : Option ReflectionLevel :=
  [full, nativeOnly].find? (·.constant == name)

end ReflectionLevel

/-- The annotation by which a class asks for reflection. -/
def reflectionAnnotationName : String := "com.google.j2objc.annotations.ReflectionSupport"

namespace Class

def reflectionLevel? (c : Class) : Option ReflectionLevel := do
  let given ← AnnotationInstance.find? c.annotations reflectionAnnotationName
  ReflectionLevel.ofConstant? (← (← given.value? "value").constant?)

/-- Whether the class is described. What it asks for goes before the general setting. -/
def hasMetadata (c : Class) (stripReflection : Bool) : Bool :=
  match c.reflectionLevel? with
  | some .full => true
  | some .nativeOnly => false
  | none => !stripReflection

end Class

end ExternalAnnotations
