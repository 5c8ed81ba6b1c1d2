import ExternalAnnotations.Proofs.Resolution.Classes

/-!
# Declarations that say the same as classes

A declaration of an index says the same as an annotation class if its elements have the types that
the results of the methods are taken for, its defaults are converted to those of the methods, and
its meta-annotations have the values of those of the class. Then it declares the same annotation
type, if the annotation types in its defaults are found.
-/

namespace ExternalAnnotations

/-! ### Declarations that say the same as a class -/

namespace ElementType

/-- The result type of a method that declares an element. -/
def erased : ElementType → ErasedType
  | primitive p => .primitive p
  | string => .named "java.lang.String"
  | classLiteral => .named "java.lang.Class"
  | enum name => .named name
  | annotationType name => .named name
  | array item => .array item.erased

/-- A class that is written with its package, and which is not the class of strings or classes. -/
def IsOther (name : String) : Prop :=
  isQualified name = true ∧ name ≠ "java.lang.String" ∧ name ≠ "java.lang.Class"

/-- An element type that can be told from the erased type in a program. -/
def Settled (program : Program) : ElementType → Prop
  | primitive _ | string | classLiteral => True
  | enum name => IsOther name ∧ program.isAnnotationType name = false
  | annotationType name => IsOther name ∧ program.isAnnotationType name = true
  | array item => item.Settled program

variable {program : Program} {type : ElementType} (h : type.Settled program)
include h

lemma ofErasedType?_erased :
    ofErasedType? program.isAnnotationType type.erased = some type := by
  induction type with
  | primitive | string | classLiteral => rfl
  | enum name =>
    obtain ⟨⟨-, hstring, hclass⟩, hname⟩ := h
    simp [erased, ofErasedType?, hstring, hclass, hname]
  | annotationType name =>
    obtain ⟨⟨-, hstring, hclass⟩, hname⟩ := h
    simp [erased, ofErasedType?, hstring, hclass, hname]
  | array item ih =>
    rw [erased, ofErasedType?, ih h]
    rfl

lemma fullType_of_settled (sources : TypeSources) (package : String) :
    sources.fullType package type = type := by
  induction type with
  | primitive | string | classLiteral => rfl
  | enum name => rw [TypeSources.fullType, if_pos h.1.1]
  | annotationType name => rw [TypeSources.fullType, TypeSources.fullName, if_pos h.1.1]
  | array item ih => rw [TypeSources.fullType, ih h]

lemma within_of_settled : type.Within (program.isAnnotationType · = true) := by
  induction type with
  | primitive | string | classLiteral | enum => nofun
  | annotationType name =>
    rintro _ ⟨⟩
    exact h.2
  | array item ih => exact ih h

end ElementType

lemma notMem_without (pool : List String) (name : String) : name ∉ without pool name := by
  simp [without]

namespace TypeSources

/-- Looks up an annotation type while a declaration is worked on. -/
def lookupMeanwhile (sources : TypeSources) (declaration : Declaration) : TypeLookup :=
  sources.lookupAmong (without sources.allDeclared declaration.name)

/-- What becomes of a value that is written in a declaration, if nothing was looked up before. -/
def converted (sources : TypeSources) (declaration : Declaration) (written : WrittenValue)
    (type : ElementType) : Except ElementFault AnnotationValue × Memo :=
  (convertValue sources (sources.lookupMeanwhile declaration) (packageOf declaration.name) written
    type).run.run {}

/-- A value that is written in a declaration is converted to a value. -/
def Converts (sources : TypeSources) (declaration : Declaration) (written : WrittenValue)
    (type : ElementType) (value : AnnotationValue) : Prop :=
  (sources.converted declaration written type).1 = .ok value

/-- No default of a declaration is reported on. -/
def DefaultsUnreported (sources : TypeSources) (declaration : Declaration) : Prop :=
  ∀ element ∈ declaration.elements, ∀ written ∈ element.default,
    (sources.converted declaration written element.type).2.diagnostics = []

/-- The meta-annotations of a type that a declaration has. -/
def metaUses (sources : TypeSources) (declaration : Declaration) (typeName : String) :
    List AnnotationUse :=
  declaration.annotations.filter fun use =>
    sources.fullName (packageOf declaration.name) use.typeName == typeName

end TypeSources

/-- A meta-annotation is absent, or it is written once and is there once with the same value. -/
inductive SameMeta (converts : WrittenValue → AnnotationValue → Prop) :
    List AnnotationUse → List AnnotationInstance → Prop
  | absent : SameMeta converts [] []
  | once {use : AnnotationUse} {inner : AnnotationInstance}
      (h : Option.Rel converts (use.value? soleElement) (inner.value? soleElement)) :
      SameMeta converts [use] [inner]

/-- An element is declared in an index as by a method of a class. -/
structure SameElement (sources others : TypeSources) (declaration : Declaration)
    (element : ElementDeclaration) (method : Method) : Prop where
  name : element.name = method.name
  type : element.type.erased = method.result.type
  settled : element.type.Settled sources.program
  default : Option.Rel (others.Converts declaration · element.type ·) element.default method.default

/-- What one setting has as an annotation class, in the other one only the index declares. Both know
the same classes otherwise. -/
structure DeclaredInstead (sources others : TypeSources) (declaration : Declaration) (c : Class) :
    Prop where
  entered : sources.annotationClass? declaration.name = some c
  unknown : others.program.find? declaration.name = none
  declared : others.index.declaration? declaration.name = some declaration
  programs : sources.program.SameApartFrom declaration.name others.program
  name : declaration.name = c.binaryName
  retention : SameMeta
    (others.Converts declaration · (.enum "java.lang.annotation.RetentionPolicy") ·)
    (others.metaUses declaration retentionName)
    (c.annotations.filter (·.typeName == retentionName))
  target : SameMeta
    (others.Converts declaration · (.array (.enum "java.lang.annotation.ElementType")) ·)
    (others.metaUses declaration targetName) (c.annotations.filter (·.typeName == targetName))
  elements : List.Forall₂ (SameElement sources others declaration) declaration.elements
    (c.methods.filter (·.isElement))

/-! ### Meta-annotations -/

section

variable (sources : TypeSources) (lookup : TypeLookup) (package : String) (typeName : String)

lemma convertValue_enum (written : WrittenValue) :
    convertValue sources lookup package written (.enum typeName) =
      ExceptT.mk (pure (simpleValue sources.program written (.enum typeName))) := by
  cases written with
  | nested use =>
    rw [convertValue]
    rfl
  | bool | int | float | char | string | name | classLiteral | array =>
    exact convertValue_of_simple _ _ _ (by simp) (by simp)

lemma convertValue_promoted {written : WrittenValue} (h : ∀ items, written ≠ .array items)
    (item : ElementType) : convertValue sources lookup package written (.array item) =
      do return .array [← convertValue sources lookup package written item] := by
  cases written with
  | array items => exact absurd rfl (h items)
  | nested use => rw [convertValue, convertValue, promote]
  | bool | int | float | char | string | name | classLiteral =>
    rw [convertValue_of_simple _ _ _ (by simp) (by simp),
      convertValue_of_simple _ _ _ (by simp) (by simp), promote]

lemma convertItems_enum (items : List WrittenValue) :
    convertItems sources lookup package items (.enum typeName) =
      ExceptT.mk (pure (items.mapM (simpleValue sources.program · (.enum typeName)))) := by
  induction items with
  | nil =>
    rw [convertItems]
    rfl
  | cons item items ih =>
    rw [convertItems, convertValue_enum, ih, List.mapM_cons]
    cases simpleValue sources.program item (.enum typeName) with
    | error fault => rfl
    | ok value => cases items.mapM (simpleValue sources.program · (.enum typeName)) <;> rfl

end

lemma eq_name_of_simpleValue {program : Program} {written : WrittenValue} {typeName : String}
    {value : AnnotationValue} (h : simpleValue program written (.enum typeName) = .ok value) :
    ∃ dotted, written = .name dotted ∧ value = .enum typeName (simpleName dotted) := by
  cases written with
  | name dotted =>
    refine ⟨dotted, rfl, ?_⟩
    rw [simpleValue, Program.enumValue] at h
    split at h
    · contradiction
    · split at h
      · contradiction
      · exact (Except.ok.inj h).symm
  | bool | int | float | char | string | classLiteral | array | nested => contradiction

lemma constants_of_mapM {program : Program} {typeName : String} {items : List WrittenValue}
    {values : List AnnotationValue}
    (h : items.mapM (simpleValue program · (.enum typeName)) = .ok values) :
    values.map (·.constant?) = (WrittenValue.allConstants items).map some := by
  induction items generalizing values with
  | nil =>
    obtain rfl := Except.ok.inj h
    rfl
  | cons item items ih =>
    rw [List.mapM_cons] at h
    cases hfirst : simpleValue program item (.enum typeName) with
    | error fault =>
      rw [hfirst] at h
      contradiction
    | ok value =>
      cases hrest : items.mapM (simpleValue program · (.enum typeName)) with
      | error fault =>
        rw [hfirst, hrest] at h
        contradiction
      | ok others =>
        rw [hfirst, hrest] at h
        obtain rfl := Except.ok.inj h
        obtain ⟨dotted, rfl, rfl⟩ := eq_name_of_simpleValue hfirst
        rw [List.map_cons, ih hrest]
        rfl

namespace TypeSources.Converts

variable {sources : TypeSources} {declaration : Declaration} {typeName : String}
  {written : WrittenValue} {value : AnnotationValue}

lemma of_enum (h : sources.Converts declaration written (.enum typeName) value) :
    ∃ dotted, written = .name dotted ∧ value = .enum typeName (simpleName dotted) := by
  rw [TypeSources.Converts, TypeSources.converted, convertValue_enum] at h
  exact eq_name_of_simpleValue h

lemma of_enums (h : sources.Converts declaration written (.array (.enum typeName)) value) :
    value.items.map (·.constant?) = written.constants.map some := by
  rw [TypeSources.Converts, TypeSources.converted] at h
  by_cases harray : ∃ items, written = .array items
  · obtain ⟨items, rfl⟩ := harray
    rw [convertValue, convertItems_enum] at h
    cases hitems : items.mapM (simpleValue sources.program · (.enum typeName)) with
    | error fault =>
      rw [hitems] at h
      contradiction
    | ok values =>
      rw [hitems] at h
      obtain rfl := Except.ok.inj h
      exact constants_of_mapM hitems
  · rw [convertValue_promoted _ _ _ fun items hwritten => harray ⟨items, hwritten⟩,
      convertValue_enum] at h
    cases hvalue : simpleValue sources.program written (.enum typeName) with
    | error fault =>
      rw [hvalue] at h
      contradiction
    | ok item =>
      rw [hvalue] at h
      obtain rfl := Except.ok.inj h
      obtain ⟨dotted, rfl, rfl⟩ := eq_name_of_simpleValue hvalue
      rfl

end TypeSources.Converts

lemma findRev?_eq_getLast? {α : Type} (p : α → Bool) (items : List α) :
    items.findRev? p = (items.filter p).getLast? := by
  rw [List.findRev?_eq_find?_reverse, ← List.head?_filter, List.filter_reverse, List.head?_reverse]

namespace SameMeta

variable {sources : TypeSources} {declaration : Declaration} {metaName typeName : String}
  {annotations : List AnnotationInstance}

lemma metaConstants?_eq : sources.metaConstants? declaration metaName =
    (sources.metaUses declaration metaName).getLast?.map fun use =>
      (use.value? soleElement).elim [] (·.constants) := by
  rw [TypeSources.metaConstants?, TypeSources.metaUses, findRev?_eq_getLast?]

lemma metaValue?_eq : AnnotationType.metaValue? annotations metaName =
    (annotations.filter (·.typeName == metaName)).head?.bind (·.value? soleElement) := by
  rw [AnnotationType.metaValue?, AnnotationInstance.find?, List.head?_filter]

lemma retention_eq (h : SameMeta (sources.Converts declaration · (.enum typeName) ·)
    (sources.metaUses declaration retentionName)
    (annotations.filter (·.typeName == retentionName))) :
    sources.declaredRetention declaration = AnnotationType.retentionOf annotations := by
  rw [TypeSources.declaredRetention, AnnotationType.retentionOf, metaConstants?_eq, metaValue?_eq]
  generalize sources.metaUses declaration retentionName = uses,
    annotations.filter (·.typeName == retentionName) = inners at h ⊢
  cases h with
  | absent => rfl
  | @once use inner hvalue =>
    rw [List.getLast?_singleton, List.head?_cons, Option.map_some, Option.bind_some,
      Option.bind_some]
    generalize use.value? soleElement = written, inner.value? soleElement = value at hvalue ⊢
    cases hvalue with
    | none => rfl
    | some hconverts =>
      obtain ⟨dotted, rfl, rfl⟩ := hconverts.of_enum
      rfl

lemma targets_eq (h : SameMeta (sources.Converts declaration · (.array (.enum typeName)) ·)
    (sources.metaUses declaration targetName) (annotations.filter (·.typeName == targetName))) :
    sources.declaredTargets declaration = AnnotationType.targetsOf annotations := by
  rw [TypeSources.declaredTargets, AnnotationType.targetsOf, metaConstants?_eq, metaValue?_eq]
  generalize sources.metaUses declaration targetName = uses,
    annotations.filter (·.typeName == targetName) = inners at h ⊢
  cases h with
  | absent => rfl
  | @once use inner hvalue =>
    rw [List.getLast?_singleton, List.head?_cons, Option.map_some, Option.bind_some,
      Option.getD_some]
    generalize use.value? soleElement = written, inner.value? soleElement = value at hvalue ⊢
    cases hvalue with
    | none => rfl
    | @some written value hconverts =>
      have hitems : value.items.filterMap (fun item => item.constant?.bind Target.ofConstant?) =
          (value.items.map (·.constant?)).filterMap (·.bind Target.ofConstant?) := by
        rw [List.filterMap_map]
        rfl
      rw [Option.elim_some, Option.elim_some, hitems, hconverts.of_enums, List.filterMap_map]
      rfl

end SameMeta

/-! ### The declared type -/

namespace DeclaredInstead

variable {sources others : TypeSources} {declaration : Declaration} {c : Class}
  (h : DeclaredInstead sources others declaration c)
include h

lemma find?_entered : sources.program.find? declaration.name = some c ∧ c.isAnnotationType = true :=
  TypeSources.annotationClass?_eq_some_iff.1 h.entered

lemma annotationClass?_eq_none : others.annotationClass? declaration.name = none := by
  rw [TypeSources.annotationClass?, h.unknown]
  rfl

lemma declared? : others.declared? declaration.name = some declaration :=
  TypeSources.declared?_eq_some_iff.2 ⟨h.annotationClass?_eq_none, h.declared⟩

lemma enumValue : others.program.enumValue = sources.program.enumValue := by
  obtain ⟨hfind, hentered⟩ := h.find?_entered
  refine h.programs.enumValue ?_ ?_
  · have hkind : c.kind = .annotationType := eq_of_beq hentered
    rw [hfind, Option.all_some, hkind]
    rfl
  · rw [h.unknown]
    rfl

section

variable {kind : Memo → Prop} {related : Memo → Memo → Prop} {lookup : TypeLookup}
  (hreports : CarriesReports related) (hstart : ∀ memo, kind memo → related {} memo)
include hreports hstart

omit h in
lemma declaredElement_ensures {element : ElementDeclaration} {method : Method}
    (helement : SameElement sources others declaration element method)
    (hlookup : ∀ name ∈ element.default.elim [] (·.typeNames),
      NameInStep related others others (others.lookupMeanwhile declaration) lookup
        (sources.program.isAnnotationType · = true) (packageOf declaration.name) name)
    (hend : ∀ written ∈ element.default, ∀ memo,
      related (others.converted declaration written element.type).2 memo → kind memo) :
    Resolving.Ensures kind (others.declaredElement lookup declaration.name element)
      fun found => found = ⟨method.name, element.type, method.default⟩ := by
  intro memo hk
  rw [TypeSources.declaredElement, ElementType.fullType_of_settled helement.settled]
  have hdefault := helement.default
  generalize element.default = written, method.default = value at hlookup hend hdefault ⊢
  cases hdefault with
  | none => exact ⟨by rw [← helement.name]; rfl, hk⟩
  | @some written value hconverts =>
    obtain ⟨hsame, hm⟩ := convertValue_inStep hreports rfl _ written hlookup element.type
      (ElementType.within_of_settled helement.settled) {} memo (hstart memo hk)
    rw [TypeSources.Converts, TypeSources.converted] at hconverts
    rw [hconverts] at hsame
    rw [Resolving.run_bind, ← hsame]
    exact ⟨by rw [← helement.name]; rfl, hend _ rfl _ hm⟩

omit h in
lemma declaredElements_ensure {elements : List ElementDeclaration} {methods : List Method}
    (helements : List.Forall₂ (SameElement sources others declaration) elements methods)
    (hlookup : ∀ element ∈ elements, ∀ name ∈ element.default.elim [] (·.typeNames),
      NameInStep related others others (others.lookupMeanwhile declaration) lookup
        (sources.program.isAnnotationType · = true) (packageOf declaration.name) name)
    (hend : ∀ element ∈ elements, ∀ written ∈ element.default, ∀ memo,
      related (others.converted declaration written element.type).2 memo → kind memo)
    (hmethods : ∀ method ∈ methods, method.isElement = true) :
    Resolving.Ensures kind (elements.mapM (others.declaredElement lookup declaration.name))
      fun found => found = methods.filterMap (AnnotationType.elementOf? sources.program) := by
  induction helements with
  | nil => exact .pure rfl
  | @cons element method elements methods helement _ ih =>
    obtain ⟨hfirst, hlookup⟩ := List.forall_mem_cons.1 hlookup
    obtain ⟨hfirstEnd, hend⟩ := List.forall_mem_cons.1 hend
    obtain ⟨hmethod, hmethods⟩ := List.forall_mem_cons.1 hmethods
    have helementOf : AnnotationType.elementOf? sources.program method =
        some ⟨method.name, element.type, method.default⟩ := by
      rw [AnnotationType.elementOf?_of_isElement hmethod, ← helement.type,
        ElementType.ofErasedType?_erased helement.settled]
      rfl
    rw [List.mapM_cons, List.filterMap_cons, helementOf]
    refine (declaredElement_ensures hreports hstart helement hfirst hfirstEnd).bind ?_
    rintro _ rfl
    refine (ih hlookup hend hmethods).bind ?_
    rintro _ rfl
    exact .pure rfl

/-- The declaration gives the type that the class gives. -/
lemma declaredType_ensures
    (hlookup : ∀ name ∈ others.defaultNames declaration,
      sources.program.isAnnotationType name = true →
        FoundAlike related (others.lookupMeanwhile declaration) lookup
          (sources.program.isAnnotationType · = true) name)
    (hend : ∀ element ∈ declaration.elements, ∀ written ∈ element.default, ∀ memo,
      related (others.converted declaration written element.type).2 memo → kind memo) :
    Resolving.Ensures kind (others.declaredType lookup declaration)
      fun type => type = .ofClass sources.program c := by
  have helements := declaredElements_ensure hreports hstart h.elements
    (fun element hmem name hname => ⟨rfl, hlookup _
      (List.mem_flatMap.2 ⟨element, hmem, List.mem_map_of_mem hname⟩)⟩) hend
    fun method hmethod => (List.mem_filter.1 hmethod).2
  rw [TypeSources.declaredType]
  refine helements.bind ?_
  rintro _ rfl
  refine .pure ?_
  rw [h.retention.retention_eq, h.target.targets_eq, ← AnnotationType.elements_ofClass, h.name]
  rfl

end

end DeclaredInstead

end ExternalAnnotations
