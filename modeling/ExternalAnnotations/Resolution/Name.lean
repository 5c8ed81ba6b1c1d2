import ExternalAnnotations.AnnotationType.Basic
import ExternalAnnotations.Diagnostic
import ExternalAnnotations.Index.Basic

/-!
# Names in an index

An index may leave out the package of an annotation type and the type of an enum constant. Here
the full names are found.
-/

namespace ExternalAnnotations

/-- Where annotation types may be declared. -/
structure TypeSources where
  program : Program
  index : Index

namespace TypeSources

/-- The packages whose built-in annotation types go by their simple names. -/
def builtinPackages : List String := ["java.lang", "java.lang.annotation"]

/-- The full name of an annotation type as it is written in a package. A simple name stands for
the last declaration of that name in the index, else for a class of the package, else for a
built-in type, and else for whatever the package may hold. -/
def fullName (sources : TypeSources) (package name : String) : String :=
  if isQualified name then name
  else
    match sources.index.declarationOfSimpleName? name with
    | some declaration => declaration.name
    | none =>
      let inPackage := qualify package name
      if (sources.program.find? inPackage).isSome then inPackage
      else
        (builtinPackages.map (qualify · name)).find? (AnnotationType.builtin? · |>.isSome)
          |>.getD inPackage

/-- An element type with the names in it completed. -/
def fullType (sources : TypeSources) (package : String) : ElementType → ElementType
  | .enum name => .enum (if isQualified name then name else qualify package name)
  | .annotationType name => .annotationType (sources.fullName package name)
  | .array item => .array (sources.fullType package item)
  | type => type

end TypeSources

/-- A name with dots for every separator. -/
def dotted (name : String) : List Char :=
  name.toList.map fun c => if c = nestedSeparator then '.' else c

/-- Whether a qualifier is a name or the end of it, in whichever way nesting is written. -/
def isQualifierOf (qualifier typeName : String) : Bool :=
  dotted qualifier == dotted typeName || ('.' :: dotted qualifier).isSuffixOf (dotted typeName)

/-- Turns the first dots of a text, at most so many, into separators of nested classes. -/
def nestDots : Nat → List Char → List Char
  | 0, text => text
  | _, [] => []
  | count + 1, c :: text =>
    if c = '.' then nestedSeparator :: nestDots count text else c :: nestDots (count + 1) text

/-- The binary names that a dotted name can stand for: any number of its last dots may separate
nested classes. -/
def binaryReadings (name : String) : List String :=
  (List.range (name.toList.count '.' + 1)).map fun nested =>
    String.ofList (nestDots nested name.toList.reverse).reverse

namespace Program

/-- The enum of a dotted name. -/
def enumNamed? (program : Program) (name : String) : Option Class :=
  (binaryReadings name).findSome? fun reading =>
    (program.find? reading).filter (·.kind == .enum)

/-- The enum value for a written constant. A qualifier has to be that of the enum, and an enum of
the program has to have the constant. -/
def enumValue (program : Program) (typeName written : String) :
    Except ElementFault AnnotationValue :=
  let constant := simpleName written
  let qualifier := (beforeLast? (· == '.') written.toList).map String.ofList
  if qualifier.any (!isQualifierOf · typeName) then .error (.foreignConstant written typeName)
  else if (program.enumNamed? typeName).any (·.field? constant |>.isNone) then
    .error (.noSuchConstant typeName constant)
  else .ok (.enum typeName constant)

end Program

end ExternalAnnotations
