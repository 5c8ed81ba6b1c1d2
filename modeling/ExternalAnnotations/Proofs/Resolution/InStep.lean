import ExternalAnnotations.Proofs.Resolution.Queries

/-!
# Conversion in step

Two runs are in step if they give the same and keep their memos related, reports included. Two
conversions of a value are in step where the programs have the same enums and the annotation types
looked up on the way are found alike. These are only types of elements: an annotation of another
type than that of the element it is written for is never looked up.
-/

namespace ExternalAnnotations

/-- From related memos two pieces of work give the same, and they leave related memos. -/
def Resolving.InStep {α : Type} (related : Memo → Memo → Prop) (work other : Resolving α) : Prop :=
  ∀ memo memo', related memo memo' → (work.run memo).1 = (other.run memo').1 ∧
    related (work.run memo).2 (other.run memo').2

/-- Memos stay related when the same is reported in both. -/
def CarriesReports (related : Memo → Memo → Prop) : Prop :=
  ∀ memo memo' diagnostic, related memo memo' →
    related (memo.report diagnostic) (memo'.report diagnostic)

namespace Resolving.InStep

variable {α β : Type} {related : Memo → Memo → Prop}

lemma pure (a : α) : InStep related (Pure.pure a) (Pure.pure a) := fun _ _ h => ⟨rfl, h⟩

lemma bind {work other : Resolving α} {next next' : α → Resolving β}
    (h : InStep related work other) (hn : ∀ a, InStep related (next a) (next' a)) :
    InStep related (work >>= next) (other >>= next') := by
  intro memo memo' hm
  obtain ⟨hvalue, hm⟩ := h memo memo' hm
  rw [run_bind, run_bind, ← hvalue]
  exact hn _ _ _ hm

lemma bindExcept {ε : Type} {work other : ExceptT ε Resolving α}
    {next next' : α → ExceptT ε Resolving β} (h : InStep related work.run other.run)
    (hn : ∀ a, InStep related (next a).run (next' a).run) :
    InStep related (work >>= next).run (other >>= next').run := by
  rw [ExceptT.run_bind, ExceptT.run_bind]
  refine h.bind fun result => ?_
  cases result with
  | ok a => exact hn a
  | error fault => exact pure _

lemma lift {ε : Type} {work other : Resolving α} (h : InStep related work other) :
    InStep related (liftM work : ExceptT ε Resolving α).run
      (liftM other : ExceptT ε Resolving α).run :=
  h.bind fun a => pure (Except.ok (ε := ε) a)

end Resolving.InStep

lemma reportFault_inStep {related : Memo → Memo → Prop} (hreports : CarriesReports related)
    (typeName element : String) (fault : ElementFault) :
    Resolving.InStep related (reportFault typeName element fault)
      (reportFault typeName element fault) :=
  fun _ _ h => ⟨rfl, hreports _ _ _ h⟩

namespace ElementType

/-- The annotation type that annotations for an element are of. -/
def annotationType? : ElementType → Option String
  | annotationType name => some name
  | array item => item.annotationType?
  | _ => none

/-- The annotation type in the type of an element, if there is one, is as wanted. -/
def Within (wanted : String → Prop) (type : ElementType) : Prop :=
  ∀ name, type.annotationType? = some name → wanted name

end ElementType

/-- Both lookups of a name find the same, and the annotation types of the elements of what they find
are as wanted. -/
def FoundAlike (related : Memo → Memo → Prop) (lookup lookup' : TypeLookup)
    (wanted : String → Prop) (name : String) : Prop :=
  ∃ found : Option AnnotationType,
    (∀ type ∈ found, ∀ element ∈ type.elements, element.type.Within wanted) ∧
      ∀ memo memo', related memo memo' → ((lookup name).run memo).1 = found ∧
        ((lookup' name).run memo').1 = found ∧
          related ((lookup name).run memo).2 ((lookup' name).run memo').2

/-- How values are converted, for the same elements and in step. -/
def FieldsInStep (related : Memo → Memo → Prop) (wanted : String → Prop) :
    List (String × (ElementType → Converting AnnotationValue)) →
      List (String × (ElementType → Converting AnnotationValue)) → Prop :=
  List.Forall₂ fun field field' => field.1 = field'.1 ∧ ∀ type : ElementType, type.Within wanted →
    Resolving.InStep related (field.2 type).run (field'.2 type).run

section

variable {related : Memo → Memo → Prop} {wanted : String → Prop}

lemma FieldsInStep.lookup
    {written written' : List (String × (ElementType → Converting AnnotationValue))}
    (h : FieldsInStep related wanted written written') (name : String) :
    Option.Rel (fun convert convert' => ∀ type : ElementType, type.Within wanted →
      Resolving.InStep related (convert type).run (convert' type).run)
      (written.lookup name) (written'.lookup name) :=
  lookup_of_forall₂ h

lemma promote_inStep {convert convert' : ElementType → Converting AnnotationValue}
    (h : ∀ type : ElementType, type.Within wanted →
      Resolving.InStep related (convert type).run (convert' type).run)
    {type : ElementType} (htype : type.Within wanted) :
    Resolving.InStep related (promote convert type).run (promote convert' type).run := by
  induction type with
  | array item ih =>
    rw [promote, promote]
    exact .bindExcept (ih htype) fun _ => .pure _
  | primitive | string | classLiteral | enum | annotationType => exact h _ htype

variable (hreports : CarriesReports related)
include hreports

lemma fillElements_inStep (type : AnnotationType)
    {written written' : List (String × (ElementType → Converting AnnotationValue))}
    (h : FieldsInStep related wanted written written') {elements : List AnnotationElement}
    (helements : ∀ element ∈ elements, element.type.Within wanted) :
    Resolving.InStep related (fillElements type written elements)
      (fillElements type written' elements) := by
  induction elements with
  | nil => exact .pure []
  | cons element elements ih =>
    obtain ⟨helement, helements⟩ := List.forall_mem_cons.1 helements
    rw [fillElements, fillElements]
    have hl := h.lookup element.name
    generalize written.lookup element.name = convert, written'.lookup element.name = convert'
      at hl ⊢
    cases hl with
    | none =>
      simp only [pure_bind]
      exact (ih helements).bind fun _ => .pure _
    | some hc =>
      refine (hc element.type helement).bind fun result => ?_
      cases result with
      | ok value =>
        simp only [pure_bind]
        exact (ih helements).bind fun _ => .pure _
      | error fault =>
        refine (reportFault_inStep hreports type.name element.name fault).bind fun _ => ?_
        simp only [pure_bind]
        exact (ih helements).bind fun _ => .pure _

lemma instantiate_inStep {type : AnnotationType}
    (htype : ∀ element ∈ type.elements, element.type.Within wanted)
    {written written' : List (String × (ElementType → Converting AnnotationValue))}
    (h : FieldsInStep related wanted written written') :
    Resolving.InStep related (instantiate type written) (instantiate type written') := by
  refine .bind ?_ fun _ => (fillElements_inStep hreports type h htype).bind fun _ => .pure _
  induction h with
  | nil => exact .pure _
  | @cons field field' fields fields' hfield _ ih =>
    obtain ⟨first, convert⟩ := field
    obtain ⟨second, convert'⟩ := field'
    obtain ⟨rfl, -⟩ := hfield
    refine .bind ?_ fun _ => ih
    dsimp only
    split
    · exact reportFault_inStep hreports _ _ _
    · exact .pure _

end

section

variable {related : Memo → Memo → Prop} {sources others : TypeSources}
  {lookup lookup' : TypeLookup} {wanted : String → Prop}

lemma AnnotationUse.typeName_mem_typeNames (use : AnnotationUse) :
    use.typeName ∈ use.typeNames := by
  obtain ⟨typeName, values, place⟩ := use
  exact List.mem_cons_self

/-- A name means the same in both runs, and what it means is found alike where it is wanted. -/
structure NameInStep (related : Memo → Memo → Prop) (sources others : TypeSources)
    (lookup lookup' : TypeLookup) (wanted : String → Prop) (package name : String) : Prop where
  fullName : others.fullName package name = sources.fullName package name
  found : wanted (sources.fullName package name) →
    FoundAlike related lookup lookup' wanted (sources.fullName package name)

lemma convertSimple_inStep (henums : others.program.enumValue = sources.program.enumValue)
    (package : String) {value : WrittenValue} {type : ElementType}
    (htype : type.Within wanted)
    (ha : ∀ items item, value = .array items → type = .array item → False)
    (hn : ∀ use, value = .nested use → False) :
    Resolving.InStep related (convertValue sources lookup package value type).run
      (convertValue others lookup' package value type).run := by
  rw [convertValue_of_simple _ _ _ ha hn, convertValue_of_simple _ _ _ ha hn]
  refine promote_inStep (fun type _ => ?_) htype
  rw [simpleValue_congr henums]
  exact .pure _

mutual

lemma convertValue_inStep (hreports : CarriesReports related)
    (henums : others.program.enumValue = sources.program.enumValue) (package : String) :
    (value : WrittenValue) →
    (∀ name ∈ value.typeNames,
      NameInStep related sources others lookup lookup' wanted package name) →
      ∀ type : ElementType, type.Within wanted →
        Resolving.InStep related (convertValue sources lookup package value type).run
          (convertValue others lookup' package value type).run
  | .array items, h, type, htype => by
    cases type with
    | array item =>
      rw [convertValue, convertValue]
      exact .bindExcept (convertItems_inStep hreports henums package items h item htype)
        fun _ => .pure _
    | primitive | string | classLiteral | enum | annotationType =>
      exact convertSimple_inStep henums package htype (by simp) (by simp)
  | .nested use, h, type, htype => by
    rw [convertValue, convertValue]
    refine promote_inStep (fun type htype => ?_) htype
    cases type with
    | annotationType expected =>
      simp only [(h _ use.typeName_mem_typeNames).fullName]
      split
      · rename_i heq
        have hwanted : wanted (sources.fullName package use.typeName) := htype _ (heq ▸ rfl)
        exact .bindExcept (.lift (applyUse_inStep hreports henums package use h hwanted))
          fun _ => .pure _
      · exact .pure _
    | primitive | string | classLiteral | enum | array => exact .pure _
  | .bool _, _, type, htype | .int _, _, type, htype | .float _, _, type, htype
  | .char _, _, type, htype | .string _, _, type, htype | .name _, _, type, htype
  | .classLiteral _, _, type, htype =>
    convertSimple_inStep henums package htype (by simp) (by simp)

lemma convertItems_inStep (hreports : CarriesReports related)
    (henums : others.program.enumValue = sources.program.enumValue) (package : String) :
    (values : List WrittenValue) →
    (∀ name ∈ WrittenValue.allTypeNames values,
      NameInStep related sources others lookup lookup' wanted package name) →
      ∀ type : ElementType, type.Within wanted →
        Resolving.InStep related (convertItems sources lookup package values type).run
          (convertItems others lookup' package values type).run
  | [], _, type, _ => by
    rw [convertItems, convertItems]
    exact .pure _
  | value :: values, h, type, htype => by
    rw [convertItems, convertItems]
    obtain ⟨hvalue, hvalues⟩ := List.forall_mem_append.1 h
    exact .bindExcept (convertValue_inStep hreports henums package value hvalue type htype)
      fun _ => .bindExcept (convertItems_inStep hreports henums package values hvalues type htype)
        fun _ => .pure _

lemma convertFields_inStep (hreports : CarriesReports related)
    (henums : others.program.enumValue = sources.program.enumValue) (package : String) :
    (fields : List (String × WrittenValue)) →
    (∀ name ∈ AnnotationUse.fieldTypeNames fields,
      NameInStep related sources others lookup lookup' wanted package name) →
      FieldsInStep related wanted (convertFields sources lookup package fields)
        (convertFields others lookup' package fields)
  | [], _ => by
    rw [convertFields, convertFields]
    exact .nil
  | (_, value) :: fields, h => by
    rw [convertFields, convertFields]
    obtain ⟨hvalue, hfields⟩ := List.forall_mem_append.1 h
    exact .cons ⟨rfl, convertValue_inStep hreports henums package value hvalue⟩
      (convertFields_inStep hreports henums package fields hfields)

/-- Annotations of a type that is found alike are in step. -/
lemma applyUse_inStep (hreports : CarriesReports related)
    (henums : others.program.enumValue = sources.program.enumValue) (package : String) :
    (use : AnnotationUse) →
    (∀ name ∈ use.typeNames,
      NameInStep related sources others lookup lookup' wanted package name) →
      wanted (sources.fullName package use.typeName) →
        Resolving.InStep related (applyUse sources lookup package use)
          (applyUse others lookup' package use)
  | ⟨typeName, values, _⟩, h, hwanted => by
    unfold applyUse
    obtain ⟨hname, hvalues⟩ := List.forall_mem_cons.1 h
    obtain ⟨found, hwithin, hfound⟩ := hname.found hwanted
    simp only [hname.fullName]
    intro memo memo' hm
    obtain ⟨hfirst, hsecond, hm⟩ := hfound memo memo' hm
    rw [Resolving.run_bind, Resolving.run_bind, hfirst, hsecond]
    cases found with
    | some type =>
      exact instantiate_inStep hreports (hwithin type rfl)
        (convertFields_inStep hreports henums package values hvalues) _ _ hm
    | none => exact ⟨rfl, hm⟩

end

end

end ExternalAnnotations
