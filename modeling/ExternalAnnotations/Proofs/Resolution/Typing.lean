import ExternalAnnotations.Proofs.Resolution.Queries
import ExternalAnnotations.Proofs.Program.Naming

/-!
# Annotations are well typed

An annotation has values for some elements of its type, in their order, and each value is one for
the type of its element. This goes for annotations nested in it as well, also where declarations
use each other: an annotation whose type could not be found in time has no values.
-/

namespace ExternalAnnotations

/-- The elements that annotations of a name may have. -/
def elementsAmong (types : String → Option AnnotationType) (name : String) :
    List AnnotationElement :=
  (types name).elim [] (·.elements)

/-- A value is one for an element type. An annotation that is a value has values for elements of
its type in turn. -/
inductive Conforms (types : String → Option AnnotationType) : ElementType → AnnotationValue → Prop
  | boolean (b : Bool) : Conforms types (.primitive .boolean) (.boolean b)
  | byte (n : Int8) : Conforms types (.primitive .byte) (.byte n)
  | char (c : Char) : Conforms types (.primitive .char) (.char c)
  | short (n : Int16) : Conforms types (.primitive .short) (.short n)
  | int (n : Int32) : Conforms types (.primitive .int) (.int n)
  | long (n : Int64) : Conforms types (.primitive .long) (.long n)
  | float (x : Single) : Conforms types (.primitive .float) (.float x)
  | double (x : Double) : Conforms types (.primitive .double) (.double x)
  | string (s : String) : Conforms types .string (.string s)
  | classLiteral (type : ErasedType) : Conforms types .classLiteral (.classLiteral type)
  | enum (typeName constant : String) : Conforms types (.enum typeName) (.enum typeName constant)
  | array {item : ElementType} {items : List AnnotationValue}
      (h : ∀ value ∈ items, Conforms types item value) :
      Conforms types (.array item) (.array items)
  | nested {inner : AnnotationInstance}
      (h : Fills (fun element => Conforms types element.type) (elementsAmong types inner.typeName)
        inner.values) :
      Conforms types (.annotationType inner.typeName) (.nested inner)

/-- All values of an annotation are for elements of its type, in their order. -/
def AnnotationInstance.WellTyped (types : String → Option AnnotationType)
    (inner : AnnotationInstance) : Prop :=
  Fills (fun element => Conforms types element.type)
    (elementsAmong types inner.typeName) inner.values

/-- The defaults of an annotation type are values for its elements. -/
def AnnotationType.DefaultsConform (types : String → Option AnnotationType)
    (type : AnnotationType) : Prop :=
  ∀ element ∈ type.elements, ∀ value, element.default = some value →
    Conforms types element.type value

namespace Fills

variable {ofElement : AnnotationElement → AnnotationValue → Prop}

lemma no_values (elements : List AnnotationElement) : Fills ofElement elements [] := by
  induction elements with
  | nil => exact .nil
  | cons element elements ih => exact .skip element ih

lemma mono {elements : List AnnotationElement} {values : List (String × AnnotationValue)}
    (h : Fills ofElement elements values) {other : AnnotationElement → AnnotationValue → Prop}
    (ho : ∀ element ∈ elements, ∀ value, ofElement element value → other element value) :
    Fills other elements values := by
  induction h with
  | nil => exact .nil
  | skip element _ ih => exact .skip element (ih (List.forall_mem_cons.1 ho).2)
  | take hvalue _ ih =>
    obtain ⟨hfirst, ho⟩ := List.forall_mem_cons.1 ho
    exact .take (hfirst _ hvalue) (ih ho)

lemma of_outlined {ofValue : ElementType → AnnotationValue → Prop} {hides : String → String → Bool}
    {enclosing enclosing' : List String}
    {elements others : List AnnotationElement} {values : List (String × AnnotationValue)}
    (h : Fills (fun element => ofValue element.type) elements values)
    (ho : elements.map (·.outlined hides enclosing) = others.map (·.outlined hides enclosing')) :
    Fills (fun element => ofValue element.type) others values := by
  induction h generalizing others with
  | nil =>
    obtain rfl := List.map_eq_nil_iff.1 ho.symm
    exact .nil
  | skip element _ ih =>
    obtain ⟨other, others, rfl, -, ho⟩ := List.map_eq_cons_iff.1 ho.symm
    exact .skip other (ih ho.symm)
  | @take element elements value values hvalue _ ih =>
    obtain ⟨other, others, rfl, hother, ho⟩ := List.map_eq_cons_iff.1 ho.symm
    obtain ⟨hname, htype, -⟩ := (AnnotationElement.mk.injEq ..).mp hother
    rw [← hname]
    rw [← htype] at hvalue
    exact .take hvalue (ih ho.symm)

end Fills

/-! ### Conversion keeps to the types -/

lemma conforms_of_primitiveValue? {types : String → Option AnnotationType} {p : Primitive}
    {written : WrittenValue} {value : AnnotationValue}
    (h : primitiveValue? p written = some value) :
    Conforms types (.primitive p) value := by
  have hmap : ∀ {α : Type} {found : Option α} {make : α → AnnotationValue},
      (∀ a, Conforms types (.primitive p) (make a)) → found.map make = some value →
        Conforms types (.primitive p) value := by
    rintro α found make hmake heq
    obtain ⟨a, -, rfl⟩ := Option.map_eq_some_iff.1 heq
    exact hmake a
  unfold primitiveValue? at h
  split at h
  · exact Option.some.inj h ▸ .boolean _
  · exact Option.some.inj h ▸ .char _
  · exact hmap .byte h
  · exact hmap .short h
  · exact hmap .int h
  · exact Option.some.inj h ▸ .long _
  · exact Option.some.inj h ▸ .float _
  · exact Option.some.inj h ▸ .float _
  · exact Option.some.inj h ▸ .double _
  · exact Option.some.inj h ▸ .double _
  · contradiction

lemma conforms_of_enumValue {types : String → Option AnnotationType} {program : Program}
    {typeName written : String} {value : AnnotationValue}
    (h : program.enumValue typeName written = .ok value) :
    Conforms types (.enum typeName) value := by
  unfold Program.enumValue at h
  dsimp only at h
  split at h
  · contradiction
  · split at h
    · contradiction
    · exact Except.ok.inj h ▸ .enum _ _

lemma conforms_of_simpleValue {types : String → Option AnnotationType} {program : Program}
    {written : WrittenValue} {type : ElementType} {value : AnnotationValue}
    (h : simpleValue program written type = .ok value) : Conforms types type value := by
  unfold simpleValue at h
  split at h
  · split at h
    · rename_i hp
      exact Except.ok.inj h ▸ conforms_of_primitiveValue? hp
    · contradiction
  · exact Except.ok.inj h ▸ .string _
  · exact Except.ok.inj h ▸ .classLiteral _
  · exact conforms_of_enumValue h
  · contradiction

namespace TypeSources

variable {sources : TypeSources}

lemma foundName_of_simplyNamed (h : sources.program.SimplyNamed) (name : String) :
    sources.foundName name = name := by
  rw [foundName]
  cases hc : sources.annotationClass? name with
  | none => rfl
  | some c => exact h.binaryName_of_find? (Option.filter_eq_some_iff.1 hc).1

lemma name_of_outline (h : sources.program.SimplyNamed) {name : String} {type : AnnotationType}
    (ho : sources.outline? name = some (type.outlined sources.entangles)) : type.name = name := by
  have hname : ((sources.outline? name).map (·.name)).getD name = _ := name_outline?
  rwa [ho, foundName_of_simplyNamed h] at hname

/-- What is found for a name has its outline, and its defaults are values for its elements. -/
def FoundTyped (sources : TypeSources) (types : String → Option AnnotationType) (name : String)
    (found : Option AnnotationType) : Prop :=
  found.map (·.outlined sources.entangles) = sources.outline? name ∧
    ∀ type, found = some type → type.DefaultsConform types

section

variable (hnamed : sources.program.SimplyNamed) {types : String → Option AnnotationType}
  (htypes : ∀ name, (types name).map (·.outlined sources.entangles) = sources.outline? name)
include hnamed htypes

/-- Values for the elements of what is found for a name are values for those of its type. -/
lemma FoundTyped.wellTyped {name : String} {type : AnnotationType}
    (h : sources.FoundTyped types name (some type)) {values : List (String × AnnotationValue)}
    (hvalues : Fills (fun element => Conforms types element.type) type.elements values) :
    type.name = name ∧
      AnnotationInstance.WellTyped types ⟨type.name, values, type.retention⟩ := by
  have hname := name_of_outline hnamed h.1.symm
  refine ⟨hname, ?_⟩
  obtain ⟨type', htype', hsame⟩ := Option.map_eq_some_iff.1 ((htypes name).trans h.1.symm)
  rw [AnnotationInstance.WellTyped, elementsAmong, hname, htype']
  exact hvalues.of_outlined ((AnnotationType.mk.injEq ..).mp hsame.symm).2.2.2

/-- Converted values are for the types that they are converted to, if that goes for the defaults of
what is found. -/
def typingInvariant : ConversionInvariant sources where
  ofValue := fun _ _ => Conforms types
  ofInstance := fun package use inner =>
    inner.typeName = sources.fullName package use.typeName ∧ inner.WellTyped types
  ofFound := fun name found => found = none ∨ sources.FoundTyped types name found
  simple := conforms_of_simpleValue
  lone := fun h => .array (by simpa using h)
  array := by
    intro package items item values h
    refine .array ?_
    induction h with
    | nil => nofun
    | cons hvalue _ ih => exact List.forall_mem_cons.2 ⟨hvalue, ih⟩
  nested := fun h => h.1 ▸ .nested h.2
  bare := fun _ => ⟨rfl, .no_values _⟩
  filled := by
    intro package use type values hfound hvalues
    have htyped := hfound.resolve_left (Option.some_ne_none _)
    refine htyped.wellTyped hnamed htypes (hvalues.mono fun element hmem value hgets => ?_)
    unfold AnnotationElement.Gets at hgets
    split at hgets
    · exact htyped.2 type rfl element hmem value hgets
    · exact hgets

end

lemma no_builtin_defaults :
    ∀ type ∈ AnnotationType.builtins, ∀ element ∈ type.elements, element.default.isNone := by
  decide

/-- If it goes for the defaults of annotation classes, it goes for all. -/
def typedInvariant (hnamed : sources.program.SimplyNamed)
    {types : String → Option AnnotationType}
    (htypes : ∀ name, (types name).map (·.outlined sources.entangles) = sources.outline? name)
    (hdefaults : ∀ name c, sources.annotationClass? name = some c →
      (AnnotationType.ofClass sources.program c).DefaultsConform types) :
    LookupInvariant sources where
  holds := sources.FoundTyped types
  ofClass := fun hc => ⟨sources.outlineInvariant.ofClass hc,
    fun type heq => Option.some.inj heq ▸ hdefaults _ _ hc⟩
  missing := by
    intro name hc hd
    refine ⟨sources.outlineInvariant.missing hc hd, fun type htype element hmem value hvalue => ?_⟩
    have hnone := no_builtin_defaults type (List.mem_of_find?_eq_some htype) element hmem
    rw [hvalue] at hnone
    contradiction
  declared := by
    intro available name declaration kind lookup hasked hd ha hkind hlookup memo hk
    have houtline := sources.outlineInvariant.declared hasked hd ha hkind
      (fun used hu => (hlookup used hu).mono fun found h => ⟨fun ha => (h.1 ha).1, h.2⟩) memo hk
    obtain ⟨hdefaults, hk⟩ := (typingInvariant hnamed htypes).declaredType_ensures hkind
      declaration (fun used hu => (hlookup used hu).mono fun _ => Answers.none_or) memo hk
    refine ⟨⟨houtline.1, ?_⟩, hk⟩
    rintro _ ⟨⟩ element hmem value hvalue
    obtain ⟨declared, -, -, written, -, hconforms⟩ := hdefaults element hmem value hvalue
    exact hconforms

lemma retention_applyUse (lookup : TypeLookup) (package : String) (use : AnnotationUse)
    (memo : Memo) :
    ((applyUse sources lookup package use).run memo).1.retention =
      (((lookup (sources.fullName package use.typeName)).run memo).1.map (·.retention)).getD
        default := by
  obtain ⟨typeName, values, place⟩ := use
  unfold applyUse
  rw [Resolving.run_bind]
  cases ((lookup (sources.fullName package typeName)).run memo).1 with
  | none => rfl
  | some type => rfl

/-- Whatever was asked before, the annotation that is meant by one written in a package has the
retention of its type, and it is well typed. -/
theorem resolve_wellTyped (hnamed : sources.program.SimplyNamed) {memo memo' : Memo}
    (h : sources.Queried memo) (h' : sources.Queried memo')
    (hdefaults : ∀ name c, sources.annotationClass? name = some c →
      (AnnotationType.ofClass sources.program c).DefaultsConform (sources.found memo'))
    (package : String) (use : AnnotationUse) :
    let inner := ((sources.resolve package use).run memo).1
    let type := sources.found memo' (sources.fullName package use.typeName)
    inner.typeName = sources.fullName package use.typeName ∧
      inner.retention = (type.map (·.retention)).getD .classFile ∧
      inner.WellTyped (sources.found memo') := by
  intro inner type
  have htypes := h'.outlined_found
  let typed := typedInvariant hnamed htypes hdefaults
  have hlookup : (typingInvariant hnamed htypes).Finds package
      (Memo.Keeps sources typed.holds sources.allDeclared) sources.lookupType use.typeNames :=
    fun name _ => (typed.lookupType_ensures _).mono fun _ => .inr
  have hinner := (typingInvariant hnamed htypes).applyUse_ensures Memo.Keeps.ignoresReports
    package use hlookup memo (h.keeps typed)
  refine ⟨hinner.1.1, ?_, hinner.1.2⟩
  have hsame : ∀ found : Option AnnotationType,
      (found.map (·.outlined sources.entangles)).map (·.retention) = found.map (·.retention) := by
    simp [AnnotationType.outlined, Function.comp_def]
  calc inner.retention = ((sources.found memo _).map (·.retention)).getD default :=
        retention_applyUse _ package use memo
    _ = (type.map (·.retention)).getD .classFile := by
        rw [← hsame, h.outlined_found, ← htypes, hsame]
        rfl

/-- An annotation class `p.Level` with a default, and declarations of `p.X` and `p.Y` that use each
other in theirs. -/
def circular : TypeSources where
  program := Program.addFile {} "p" none [{ ClassDraft.ofName "Level" .annotationType with
    methods := [⟨soleElement, .ordinary, [], [], ⟨.primitive .int, []⟩, [], some (.int 3)⟩] }]
  index := .of [] [
    ⟨"p.X", [], [⟨"levels", .array (.annotationType "Level"), some (.nested ⟨"Level", [], .start⟩)⟩,
      ⟨"other", .annotationType "Y", some (.nested ⟨"Y", [], .start⟩)⟩], .start⟩,
    ⟨"p.Y", [], [⟨soleElement, .annotationType "X", some (.nested ⟨"X", [], .start⟩)⟩], .start⟩]

lemma simplyNamed_circular : circular.program.SimplyNamed :=
  .addFile _ _ _ .empty ⟨⟨⟨by decide, by decide⟩, trivial⟩, trivial⟩

lemma defaultsConform_circular (types : String → Option AnnotationType) (name : String) (c : Class)
    (hc : circular.annotationClass? name = some c) :
    (AnnotationType.ofClass circular.program c).DefaultsConform types := by
  obtain ⟨slot, -, hslot⟩ := Option.bind_eq_some_iff.1 (Option.filter_eq_some_iff.1 hc).1
  obtain rfl := List.mem_singleton.1 (Array.mem_toList_iff.2 (Array.mem_of_getElem? hslot))
  intro element hmem value hvalue
  obtain rfl := List.mem_singleton.1 hmem
  exact Option.some.inj hvalue ▸ .int 3

theorem resolve_wellTyped_circular :
    let memo := ((circular.lookupType "p.Y").run {}).2
    let inner := ((circular.resolve "p" ⟨"X", [], .start⟩).run memo).1
    inner.text = "@p.X(levels=\x7b@p.Level(value=3)\x7d, other=@p.Y)" ∧
      inner.retention = .classFile ∧ inner.WellTyped (circular.found memo) := by
  intro memo inner
  have h : circular.Queried memo := .lookupType (.start []) "p.Y"
  obtain ⟨-, -, htyped⟩ := resolve_wellTyped simplyNamed_circular h h
    (defaultsConform_circular _) "p" ⟨"X", [], .start⟩
  exact ⟨by decide +kernel, by decide +kernel, htyped⟩

end TypeSources

end ExternalAnnotations
