import ExternalAnnotations.Resolution.Value

/-!
# Resolving annotations

Annotation types are looked up by their full names: in the program, in the index, and among those
that every program knows. A declaration of the index may use other declared types in its defaults,
and even itself; a type whose declaration is being worked on is not available to its own defaults,
which is why looking up ends.
-/

namespace ExternalAnnotations

mutual

/-- The names of the constants in the value of a meta-annotation. -/
def WrittenValue.constants : WrittenValue → List String
  | .name dotted => [simpleName dotted]
  | .array items => WrittenValue.allConstants items
  | _ => []

def WrittenValue.allConstants : List WrittenValue → List String
  | [] => []
  | value :: values => value.constants ++ WrittenValue.allConstants values

end

/-- Keeps what was found for a name and gives it. A name for which nothing was found is reported. -/
def conclude (name : String) (found : Option AnnotationType) :
    Resolving (Option AnnotationType) := do
  if found.isNone then modify (·.report (.unresolvedType name))
  modify (·.remember name found)
  return found

namespace TypeSources

def annotationClass? (sources : TypeSources) (name : String) : Option Class :=
  (sources.program.find? name).filter (·.isAnnotationType)

/-- The constants that the last meta-annotation of a type gives in a declaration. -/
def metaConstants? (sources : TypeSources) (declaration : Declaration) (typeName : String) :
    Option (List String) :=
  let package := packageOf declaration.name
  (declaration.annotations.findRev? fun use =>
      sources.fullName package use.typeName == typeName).map fun use =>
    (use.value? soleElement).elim [] (·.constants)

def declaredRetention (sources : TypeSources) (declaration : Declaration) : Retention :=
  ((sources.metaConstants? declaration retentionName).bind (·.head?)).bind Retention.ofConstant?
    |>.getD default

def declaredTargets (sources : TypeSources) (declaration : Declaration) : List Target :=
  ((sources.metaConstants? declaration targetName).getD []).filterMap Target.ofConstant?

/-- An element of a declared annotation type. A default that does not fit is reported and left
out. -/
def declaredElement (sources : TypeSources) (lookup : TypeLookup) (typeName : String)
    (element : ElementDeclaration) : Resolving AnnotationElement := do
  let package := packageOf typeName
  let type := sources.fullType package element.type
  let value ← match element.default with
    | none => pure none
    | some written =>
      match ← (convertValue sources lookup package written type).run with
      | .ok value => pure (some value)
      | .error fault => do
        reportFault typeName element.name fault
        pure none
  return ⟨element.name, type, value⟩

/-- The annotation type that a declaration of the index declares. -/
def declaredType (sources : TypeSources) (lookup : TypeLookup) (declaration : Declaration) :
    Resolving AnnotationType := do
  let elements ← declaration.elements.mapM (sources.declaredElement lookup declaration.name)
  return ⟨declaration.name, sources.declaredRetention declaration,
    sources.declaredTargets declaration, elements⟩

/-- Looks up an annotation type, given the names whose declarations are available. -/
def lookupAmong (sources : TypeSources) (available : List String) (name : String) :
    Resolving (Option AnnotationType) := do
  match (← get).find? name with
  | some found => return found
  | none =>
    match sources.annotationClass? name with
    | some c => conclude name (some (.ofClass sources.program c))
    | none =>
      match sources.index.declaration? name with
      | none => conclude name (AnnotationType.builtin? name)
      | some declaration =>
        if listed : name ∈ available then
          have := length_without_lt listed
          let type ← sources.declaredType (fun name' =>
            sources.lookupAmong (without available name) name') declaration
          conclude name (some type)
        else return none
termination_by available.length

/-- Looks up the annotation type of a full name. -/
def lookupType (sources : TypeSources) (name : String) : Resolving (Option AnnotationType) :=
  sources.lookupAmong (sources.index.declarations.map (·.name)) name

/-- The annotation that is meant by one written in a package. -/
def resolve (sources : TypeSources) (package : String) (use : AnnotationUse) :
    Resolving AnnotationInstance :=
  applyUse sources sources.lookupType package use

end TypeSources

end ExternalAnnotations
