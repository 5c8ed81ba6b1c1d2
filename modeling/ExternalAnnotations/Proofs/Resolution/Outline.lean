import ExternalAnnotations.Proofs.Resolution.Ensuring

/-!
# What no memo changes

An outline leaves out what some annotations say that stand in others. With the right ones left out
the outline of an annotation type is the same whatever was looked up before: of an annotation that
is left out it has the name, and that is the name under which its type is looked up.
-/

namespace ExternalAnnotations

mutual

/-- The value without what those annotations in it say that are hidden by an enclosing one. -/
def AnnotationValue.outlined (hides : String → String → Bool) (enclosing : List String) :
    AnnotationValue → AnnotationValue
  | .nested inner =>
    .nested (if enclosing.any (hides · inner.typeName) then .bare inner.typeName
      else inner.outlined hides enclosing)
  | .array items => .array (AnnotationValue.allOutlined hides enclosing items)
  | value => value

/-- The annotation without what those annotations in it say that are hidden by it or by an
enclosing one. -/
def AnnotationInstance.outlined (hides : String → String → Bool) (enclosing : List String) :
    AnnotationInstance → AnnotationInstance
  | ⟨typeName, values, retention⟩ =>
    ⟨typeName, AnnotationInstance.fieldsOutlined hides (typeName :: enclosing) values, retention⟩

def AnnotationValue.allOutlined (hides : String → String → Bool) (enclosing : List String) :
    List AnnotationValue → List AnnotationValue
  | [] => []
  | value :: values =>
    value.outlined hides enclosing :: AnnotationValue.allOutlined hides enclosing values

def AnnotationInstance.fieldsOutlined (hides : String → String → Bool) (enclosing : List String) :
    List (String × AnnotationValue) → List (String × AnnotationValue)
  | [] => []
  | (name, value) :: fields =>
    (name, value.outlined hides enclosing) ::
      AnnotationInstance.fieldsOutlined hides enclosing fields

end

def AnnotationElement.outlined (hides : String → String → Bool) (enclosing : List String)
    (element : AnnotationElement) : AnnotationElement :=
  { element with default := element.default.map (·.outlined hides enclosing) }

/-- The annotation type without what those annotations in its defaults say that are hidden by it or
by one another. -/
def AnnotationType.outlined (hides : String → String → Bool) (type : AnnotationType) :
    AnnotationType :=
  { type with elements := type.elements.map (·.outlined hides [type.name]) }

section

variable {hides : String → String → Bool}

lemma typeName_outlined (hides : String → String → Bool) (enclosing : List String)
    (inner : AnnotationInstance) : (inner.outlined hides enclosing).typeName = inner.typeName := by
  obtain ⟨typeName, values, retention⟩ := inner
  rfl

lemma outlined_of_hidden {enclosing : List String} {inner : AnnotationInstance}
    (h : enclosing.any (hides · inner.typeName) = true) :
    (AnnotationValue.nested inner).outlined hides enclosing = .nested (.bare inner.typeName) := by
  rw [AnnotationValue.outlined, if_pos h]

lemma outlined_of_visible {enclosing : List String} {inner : AnnotationInstance}
    (h : ¬enclosing.any (hides · inner.typeName) = true) :
    (AnnotationValue.nested inner).outlined hides enclosing =
      .nested (inner.outlined hides enclosing) := by
  rw [AnnotationValue.outlined, if_neg h]

lemma any_hides_of_subset {enclosing outer : List String} (h : enclosing ⊆ outer)
    {typeName : String}
    (hh : enclosing.any (hides · typeName) = true) : outer.any (hides · typeName) = true := by
  obtain ⟨name, hmem, hhides⟩ := List.any_eq_true.1 hh
  exact List.any_eq_true.2 ⟨name, h hmem, hhides⟩

mutual

lemma outlined_outlined {enclosing outer : List String} (h : enclosing ⊆ outer) :
    (value : AnnotationValue) →
      (value.outlined hides enclosing).outlined hides outer = value.outlined hides outer
  | .nested inner => by
    by_cases hi : enclosing.any (hides · inner.typeName) = true
    · have ho := any_hides_of_subset h hi
      rw [outlined_of_hidden hi, outlined_of_hidden ho, outlined_of_hidden (by exact ho)]
      rfl
    · rw [outlined_of_visible hi, AnnotationValue.outlined, AnnotationValue.outlined,
        typeName_outlined, outlined_outlined_instance h inner]
  | .array items => by
    simp only [AnnotationValue.outlined, allOutlined_allOutlined h items]
  | .boolean _ | .byte _ | .char _ | .short _ | .int _ | .long _ | .float _ | .double _ | .string _
  | .classLiteral _ | .enum _ _ => rfl

lemma outlined_outlined_instance {enclosing outer : List String} (h : enclosing ⊆ outer) :
    (inner : AnnotationInstance) →
      (inner.outlined hides enclosing).outlined hides outer = inner.outlined hides outer
  | ⟨typeName, values, retention⟩ => by
    simp only [AnnotationInstance.outlined,
      fieldsOutlined_fieldsOutlined (List.cons_subset_cons typeName h) values]

lemma allOutlined_allOutlined {enclosing outer : List String} (h : enclosing ⊆ outer) :
    (values : List AnnotationValue) →
      AnnotationValue.allOutlined hides outer (AnnotationValue.allOutlined hides enclosing values) =
      AnnotationValue.allOutlined hides outer values
  | [] => rfl
  | value :: values => by
    simp only [AnnotationValue.allOutlined, outlined_outlined h value,
      allOutlined_allOutlined h values]

lemma fieldsOutlined_fieldsOutlined {enclosing outer : List String} (h : enclosing ⊆ outer) :
    (fields : List (String × AnnotationValue)) →
      AnnotationInstance.fieldsOutlined hides outer
          (AnnotationInstance.fieldsOutlined hides enclosing fields) =
        AnnotationInstance.fieldsOutlined hides outer fields
  | [] => rfl
  | (name, value) :: fields => by
    simp only [AnnotationInstance.fieldsOutlined, outlined_outlined h value,
      fieldsOutlined_fieldsOutlined h fields]

end

end

/-! ### Two runs side by side -/

/-- From memos of two kinds, two pieces of work give results that are related, and they leave memos
of these kinds. -/
def Resolving.Related {α β : Type} (kind kind' : Memo → Prop) (r : α → β → Prop)
    (work : Resolving α) (other : Resolving β) : Prop :=
  ∀ memo memo', kind memo → kind' memo' →
    r (work.run memo).1 (other.run memo').1 ∧ kind (work.run memo).2 ∧ kind' (other.run memo').2

/-- Both conversions give related values, or both fail in the same way. -/
inductive SameResult {α β : Type} (r : α → β → Prop) :
    Except ElementFault α → Except ElementFault β → Prop
  | ok {a : α} {b : β} (h : r a b) : SameResult r (.ok a) (.ok b)
  | error (fault : ElementFault) : SameResult r (.error fault) (.error fault)

/-- Conversions are compared with their faults. -/
def Converting.Related {α β : Type} (kind kind' : Memo → Prop) (r : α → β → Prop)
    (work : Converting α) (other : Converting β) : Prop :=
  Resolving.Related kind kind' (SameResult r) work.run other.run

namespace Resolving.Related

variable {α β γ δ : Type} {kind kind' : Memo → Prop} {r : α → β → Prop} {after : γ → δ → Prop}
  {work : Resolving α} {other : Resolving β} {next : α → Resolving γ} {next' : β → Resolving δ}

lemma pure {a : α} {b : β} (h : r a b) :
    Related kind kind' r (Pure.pure a) (Pure.pure b) := fun _ _ hk hk' => ⟨h, hk, hk'⟩

lemma bind (h : Related kind kind' r work other)
    (hn : ∀ a b, r a b → Related kind kind' after (next a) (next' b)) :
    Related kind kind' after (work >>= next) (other >>= next') := by
  intro memo memo' hk hk'
  obtain ⟨hrel, hk, hk'⟩ := h memo memo' hk hk'
  exact hn _ _ hrel _ _ hk hk'

lemma mono (h : Related kind kind' r work other) {r' : α → β → Prop}
    (hr : ∀ a b, r a b → r' a b) : Related kind kind' r' work other := by
  intro memo memo' hk hk'
  obtain ⟨hrel, hkept⟩ := h memo memo' hk hk'
  exact ⟨hr _ _ hrel, hkept⟩

lemma of_ensures {post : α → Prop} {post' : β → Prop} (h : Ensures kind work post)
    (h' : Ensures kind' other post') (hrel : ∀ a b, post a → post' b → r a b) :
    Related kind kind' r work other := by
  intro memo memo' hk hk'
  obtain ⟨hpost, hk⟩ := h memo hk
  obtain ⟨hpost', hk'⟩ := h' memo' hk'
  exact ⟨hrel _ _ hpost hpost', hk, hk'⟩

lemma mapM {ι : Type} {f : ι → Resolving α} {g : ι → Resolving β} {items : List ι}
    (h : ∀ item ∈ items, Related kind kind' r (f item) (g item)) :
    Related kind kind' (List.Forall₂ r) (items.mapM f) (items.mapM g) := by
  induction items with
  | nil => exact pure .nil
  | cons item items ih =>
    obtain ⟨hfirst, h⟩ := List.forall_mem_cons.1 h
    rw [List.mapM_cons, List.mapM_cons]
    exact hfirst.bind fun a b hab => (ih h).bind fun as bs habs => pure (.cons hab habs)

end Resolving.Related

namespace Converting.Related

variable {α β γ δ : Type} {kind kind' : Memo → Prop} {r : α → β → Prop} {after : γ → δ → Prop}
  {work : Converting α} {other : Converting β} {next : α → Converting γ}
  {next' : β → Converting δ}

lemma pure {a : α} {b : β} (h : r a b) :
    Related kind kind' r (Pure.pure a) (Pure.pure b) := Resolving.Related.pure (.ok h)

lemma throw {fault : ElementFault} :
    Related kind kind' r (throw fault : Converting α) (throw fault : Converting β) :=
  Resolving.Related.pure (.error fault)

lemma lift {work : Resolving α} {other : Resolving β}
    (h : Resolving.Related kind kind' r work other) :
    Related kind kind' r (liftM work : Converting α) (liftM other : Converting β) :=
  h.bind fun _ _ hab => .pure (.ok hab)

lemma bind (h : Related kind kind' r work other)
    (hn : ∀ a b, r a b → Related kind kind' after (next a) (next' b)) :
    Related kind kind' after (work >>= next) (other >>= next') := by
  unfold Related
  rw [ExceptT.run_bind, ExceptT.run_bind]
  refine Resolving.Related.bind h fun result result' hresult => ?_
  cases hresult with
  | ok hab => exact hn _ _ hab
  | error fault => exact .pure (.error fault)

end Converting.Related

/-! ### The same outline -/

/-- Two values say the same but for what is hidden. -/
def SameOutline (hides : String → String → Bool) (enclosing : List String)
    (value value' : AnnotationValue) : Prop :=
  value.outlined hides enclosing = value'.outlined hides enclosing

namespace SameOutline

variable {hides : String → String → Bool} {enclosing : List String}

lemma array {items items' : List AnnotationValue}
    (h : AnnotationValue.allOutlined hides enclosing items =
      AnnotationValue.allOutlined hides enclosing items') :
    SameOutline hides enclosing (.array items) (.array items') := by
  simp [SameOutline, AnnotationValue.outlined, h]

lemma hidden {inner inner' : AnnotationInstance} (hname : inner.typeName = inner'.typeName)
    (hh : enclosing.any (hides · inner.typeName) = true) :
    SameOutline hides enclosing (.nested inner) (.nested inner') := by
  have hh' : enclosing.any (hides · inner'.typeName) = true := hname ▸ hh
  rw [SameOutline, outlined_of_hidden hh, outlined_of_hidden hh', hname]

lemma nested {inner inner' : AnnotationInstance}
    (h : inner.outlined hides enclosing = inner'.outlined hides enclosing) :
    SameOutline hides enclosing (.nested inner) (.nested inner') := by
  have hname : inner.typeName = inner'.typeName := by
    rw [← typeName_outlined hides enclosing, h, typeName_outlined]
  simp only [SameOutline, AnnotationValue.outlined, hname, h]

end SameOutline

lemma outlined_elements_of_subset {hides : String → String → Bool} {enclosing outer : List String}
    (hs : enclosing ⊆ outer) {elements elements' : List AnnotationElement}
    (h : elements.map (·.outlined hides enclosing) = elements'.map (·.outlined hides enclosing)) :
    elements.map (·.outlined hides outer) = elements'.map (·.outlined hides outer) := by
  have hmore : ∀ elements : List AnnotationElement,
      (elements.map (·.outlined hides enclosing)).map (·.outlined hides outer) =
        elements.map (·.outlined hides outer) := by
    intro elements
    rw [List.map_map]
    refine List.map_congr_left fun element _ => ?_
    simp only [Function.comp_apply, AnnotationElement.outlined, Option.map_map, Function.comp_def,
      outlined_outlined hs]
  rw [← hmore elements, h, hmore]

lemma outlined_congr {hides : String → String → Bool} {enclosing : List String}
    {elements elements' : List AnnotationElement}
    (h : List.Forall₂ (fun element element' =>
      element.outlined hides enclosing = element'.outlined hides enclosing) elements elements') :
    elements.map (·.outlined hides enclosing) = elements'.map (·.outlined hides enclosing) := by
  rw [← List.forall₂_eq_eq_eq, List.forall₂_map_left_iff, List.forall₂_map_right_iff]
  exact h

namespace TypeSources

variable (sources : TypeSources)

/-- The name of the annotation type that a full name stands for. -/
def foundName (name : String) : String :=
  ((sources.annotationClass? name).map (·.binaryName)).getD name

/-- What an annotation is called does not depend on what is known of its type. -/
def nameInvariant : ConversionInvariant sources where
  ofValue := fun _ _ _ _ => True
  ofInstance := fun package use inner =>
    inner.typeName = sources.foundName (sources.fullName package use.typeName)
  ofFound := fun name found => (found.map (·.name)).getD name = sources.foundName name
  simple := fun _ => trivial
  lone := fun _ => trivial
  array := fun _ => trivial
  nested := fun _ => trivial
  bare := fun h => h
  filled := fun h _ => h

/-- Two lookups find types of the same name, and if it is not hidden they have the same outline. The
targets do not matter. -/
structure LookupsRelated (hides : String → String → Bool) (kind kind' : Memo → Prop)
    (lookup lookup' : TypeLookup) (enclosing : List String) (name : String) : Prop where
  first : Resolving.Ensures kind (lookup name) (sources.nameInvariant.ofFound name)
  second : Resolving.Ensures kind' (lookup' name) (sources.nameInvariant.ofFound name)
  same : ¬enclosing.any (hides · name) = true → Resolving.Related kind kind'
    (fun found found' => found.map (·.withoutTargets.outlined hides) =
      found'.map (·.withoutTargets.outlined hides)) (lookup name) (lookup' name)

variable {sources} {hides : String → String → Bool} {kind kind' : Memo → Prop}
  {lookup lookup' : TypeLookup}

lemma LookupsRelated.mono {enclosing outer : List String} {name : String}
    (h : sources.LookupsRelated hides kind kind' lookup lookup' enclosing name)
    (hs : enclosing ⊆ outer) :
    sources.LookupsRelated hides kind kind' lookup lookup' outer name :=
  ⟨h.first, h.second, fun hv => h.same fun hh => hv (any_hides_of_subset hs hh)⟩

/-! ### Values and annotations -/

lemma promote_related {enclosing : List String}
    {convert convert' : ElementType → Converting AnnotationValue}
    (h : ∀ type, Converting.Related kind kind' (SameOutline hides enclosing) (convert type)
      (convert' type)) (type : ElementType) :
    Converting.Related kind kind' (SameOutline hides enclosing) (promote convert type)
      (promote convert' type) := by
  induction type with
  | array item ih =>
    rw [promote, promote]
    exact ih.bind fun _ _ hvalue => .pure (.array (congrArg (fun value => [value]) hvalue))
  | primitive | string | classLiteral | enum | annotationType => exact h _

/-- How values are converted, for the same elements. -/
def FieldsRelated (hides : String → String → Bool) (kind kind' : Memo → Prop)
    (enclosing : List String) :
    List (String × (ElementType → Converting AnnotationValue)) →
      List (String × (ElementType → Converting AnnotationValue)) → Prop :=
  List.Forall₂ fun field field' => field.1 = field'.1 ∧
    ∀ type, Converting.Related kind kind' (SameOutline hides enclosing) (field.2 type)
      (field'.2 type)

lemma FieldsRelated.find {enclosing : List String}
    {written written' : List (String × (ElementType → Converting AnnotationValue))}
    (h : FieldsRelated hides kind kind' enclosing written written') (name : String) :
    Option.Rel (fun convert convert' => ∀ type,
      Converting.Related kind kind' (SameOutline hides enclosing) (convert type) (convert' type))
      (written.lookup name) (written'.lookup name) :=
  lookup_of_forall₂ h

section

variable (hkind : IgnoresReports kind) (hkind' : IgnoresReports kind')
include hkind hkind'

lemma reportFault_related (typeName element : String) (fault : ElementFault) :
    Resolving.Related kind kind' (fun _ _ => True) (reportFault typeName element fault)
      (reportFault typeName element fault) :=
  .of_ensures (reportFault_ensures hkind _ _ _) (reportFault_ensures hkind' _ _ _)
    fun _ _ _ _ => trivial

lemma fillElements_related {enclosing : List String} {type type' : AnnotationType}
    (hname : type.name = type'.name)
    {written written' : List (String × (ElementType → Converting AnnotationValue))}
    (hwritten : FieldsRelated hides kind kind' enclosing written written')
    {elements elements' : List AnnotationElement}
    (helements : elements.map (·.outlined hides enclosing) =
      elements'.map (·.outlined hides enclosing)) :
    Resolving.Related kind kind'
      (fun values values' => AnnotationInstance.fieldsOutlined hides enclosing values =
        AnnotationInstance.fieldsOutlined hides enclosing values')
      (fillElements type written elements) (fillElements type' written' elements') := by
  induction elements generalizing elements' with
  | nil =>
    obtain rfl := List.map_eq_nil_iff.1 helements.symm
    exact .pure rfl
  | cons element elements ih =>
    obtain ⟨element', elements', rfl, helement, hothers⟩ :=
      List.map_eq_cons_iff.1 helements.symm
    obtain ⟨name, elementType, default⟩ := element
    obtain ⟨name', elementType', default'⟩ := element'
    obtain ⟨rfl, rfl, hdefault⟩ := (AnnotationElement.mk.injEq ..).mp helement
    have hvalue : Resolving.Related kind kind'
        (fun found found' => found.map (·.outlined hides enclosing) =
          found'.map (·.outlined hides enclosing))
        (AnnotationElement.value type.name written ⟨name', elementType', default⟩)
        (AnnotationElement.value type'.name written' ⟨name', elementType', default'⟩) := by
      have hfield := hwritten.find name'
      unfold AnnotationElement.value
      dsimp only
      generalize written.lookup name' = convert, written'.lookup name' = convert' at hfield ⊢
      cases hfield with
      | none => exact .pure hdefault.symm
      | some hconvert =>
        refine Resolving.Related.bind (hconvert elementType') fun result result' hresult => ?_
        cases hresult with
        | @ok value value' hvalue => exact .pure (congrArg some hvalue)
        | error fault =>
          rw [hname]
          exact (reportFault_related hkind hkind' _ _ _).bind fun _ _ _ => .pure rfl
    rw [fillElements_cons, fillElements_cons]
    refine hvalue.bind fun found found' hfound =>
      (ih hothers.symm).bind fun values values' hvalues => .pure ?_
    cases found <;> cases found' <;> simp_all [AnnotationInstance.fieldsOutlined]

lemma instantiate_related {enclosing : List String} {type type' : AnnotationType}
    (htype : type.withoutTargets.outlined hides = type'.withoutTargets.outlined hides)
    {written written' : List (String × (ElementType → Converting AnnotationValue))}
    (hwritten : FieldsRelated hides kind kind' (type.name :: enclosing) written written') :
    Resolving.Related kind kind'
      (fun inner inner' => inner.outlined hides enclosing = inner'.outlined hides enclosing)
      (instantiate type written) (instantiate type' written') := by
  have hreports : ∀ {kind : Memo → Prop} (type : AnnotationType)
      (written : List (String × (ElementType → Converting AnnotationValue))),
      IgnoresReports kind → Resolving.Ensures kind (written.forM fun field =>
        if (type.element? field.1).isNone then reportFault type.name field.1 .noSuchElement
        else pure ()) fun _ => True := by
    intro kind type written hkind
    refine .forM fun field => ?_
    split
    · exact reportFault_ensures hkind _ _ _
    · exact .pure trivial
  obtain ⟨hname, hretention, -, helements⟩ := (AnnotationType.mk.injEq ..).mp htype
  change type.name = type'.name at hname
  change type.retention = type'.retention at hretention
  change type.elements.map (·.outlined hides [type.name]) =
    type'.elements.map (·.outlined hides [type'.name]) at helements
  rw [← hname] at helements
  refine Resolving.Related.bind (r := fun _ _ => True)
    (.of_ensures (hreports _ written hkind) (hreports _ written' hkind') fun _ _ _ _ => trivial)
    fun _ _ _ => ?_
  refine (fillElements_related hkind hkind' hname hwritten
    (outlined_elements_of_subset (by simp) helements)).bind fun values values' hvalues => .pure ?_
  simp only [AnnotationInstance.outlined, ← hname, hretention, hvalues]

end

lemma convertSimple_related (package : String) {enclosing : List String} {value : WrittenValue}
    {type : ElementType}
    (ha : ∀ items item, value = .array items → type = .array item → False)
    (hn : ∀ use, value = .nested use → False) :
    Converting.Related kind kind' (SameOutline hides enclosing)
      (convertValue sources lookup package value type)
      (convertValue sources lookup' package value type) := by
  rw [convertValue_of_simple _ _ _ ha hn, convertValue_of_simple _ _ _ ha hn]
  refine promote_related (fun type => Resolving.Related.pure ?_) type
  cases simpleValue sources.program value type with
  | ok value => exact .ok rfl
  | error fault => exact .error fault

/-- What was reported shows in neither of two kinds of memos, and only names are hidden under which
the types of annotations are looked up. -/
structure Comparable (sources : TypeSources) (hides : String → String → Bool)
    (kind kind' : Memo → Prop) : Prop where
  first : IgnoresReports kind
  second : IgnoresReports kind'
  found : ∀ {first second}, hides first second = true → sources.foundName second = second

mutual

lemma convertValue_related (hc : sources.Comparable hides kind kind')
    (package : String) {enclosing : List String} : (value : WrittenValue) →
    (∀ name ∈ value.typeNames, sources.LookupsRelated hides kind kind' lookup lookup' enclosing
      (sources.fullName package name)) → (type : ElementType) →
      Converting.Related kind kind' (SameOutline hides enclosing)
        (convertValue sources lookup package value type)
        (convertValue sources lookup' package value type)
  | .array items, h, type => by
    cases type with
    | array item =>
      rw [convertValue, convertValue]
      exact (convertItems_related hc package items h item).bind fun _ _ h => .pure (.array h)
    | primitive | string | classLiteral | enum | annotationType =>
      exact convertSimple_related package (by simp) (by simp)
  | .nested use, h, type => by
    rw [convertValue, convertValue]
    refine promote_related (fun type => ?_) type
    cases type with
    | annotationType expected =>
      dsimp only
      split
      · suffices h : Resolving.Related kind kind' (fun inner inner' =>
            SameOutline hides enclosing (.nested inner) (.nested inner'))
            (applyUse sources lookup package use) (applyUse sources lookup' package use) from
          .bind (.lift h) fun _ _ h => .pure h
        by_cases hh : enclosing.any
          (hides · (sources.foundName (sources.fullName package use.typeName))) = true
        · -- The annotations may say different things, but they are called the same.
          refine .of_ensures (sources.nameInvariant.applyUse_ensures hc.first package use
              fun name hname => (h name hname).first)
            (sources.nameInvariant.applyUse_ensures hc.second package use
              fun name hname => (h name hname).second) fun inner inner' hname hname' => ?_
          change inner.typeName = _ at hname
          exact .hidden (hname.trans hname'.symm) (hname.symm ▸ hh)
        · have hv : ¬enclosing.any (hides · (sources.fullName package use.typeName)) = true := by
            intro hn
            obtain ⟨name, hmem, hname⟩ := List.any_eq_true.1 hn
            exact hh (List.any_eq_true.2 ⟨name, hmem, (hc.found hname).symm ▸ hname⟩)
          exact (applyUse_related hc package use h hv).mono fun _ _ => .nested
      · exact .throw
    | primitive | string | classLiteral | enum | array => exact .throw
  | .bool _, _, type | .int _, _, type | .float _, _, type | .char _, _, type
  | .string _, _, type | .name _, _, type | .classLiteral _, _, type =>
    convertSimple_related package (by simp) (by simp)

lemma convertItems_related (hc : sources.Comparable hides kind kind')
    (package : String) {enclosing : List String} : (values : List WrittenValue) →
    (∀ name ∈ WrittenValue.allTypeNames values, sources.LookupsRelated hides kind kind' lookup
      lookup' enclosing (sources.fullName package name)) → (type : ElementType) →
      Converting.Related kind kind'
        (fun items items' => AnnotationValue.allOutlined hides enclosing items =
          AnnotationValue.allOutlined hides enclosing items')
        (convertItems sources lookup package values type)
        (convertItems sources lookup' package values type)
  | [], _, type => by
    rw [convertItems, convertItems]
    exact .pure rfl
  | value :: values, h, type => by
    rw [convertItems, convertItems]
    obtain ⟨hvalue, hvalues⟩ := List.forall_mem_append.1 h
    exact (convertValue_related hc package value hvalue type).bind fun _ _ hfirst =>
      (convertItems_related hc package values hvalues type).bind fun _ _ hitems =>
        .pure (congrArg₂ List.cons hfirst hitems)

lemma convertFields_related (hc : sources.Comparable hides kind kind')
    (package : String) {enclosing : List String} : (fields : List (String × WrittenValue)) →
    (∀ name ∈ AnnotationUse.fieldTypeNames fields, sources.LookupsRelated hides kind kind' lookup
      lookup' enclosing (sources.fullName package name)) →
      FieldsRelated hides kind kind' enclosing (convertFields sources lookup package fields)
        (convertFields sources lookup' package fields)
  | [], _ => by
    rw [convertFields, convertFields]
    exact .nil
  | (_, value) :: fields, h => by
    rw [convertFields, convertFields]
    obtain ⟨hvalue, hfields⟩ := List.forall_mem_append.1 h
    exact .cons ⟨rfl, convertValue_related hc package value hvalue⟩
      (convertFields_related hc package fields hfields)

lemma applyUse_related (hc : sources.Comparable hides kind kind')
    (package : String) {enclosing : List String} : (use : AnnotationUse) →
    (∀ name ∈ use.typeNames, sources.LookupsRelated hides kind kind' lookup lookup' enclosing
      (sources.fullName package name)) →
    ¬enclosing.any (hides · (sources.fullName package use.typeName)) = true →
      Resolving.Related kind kind'
        (fun inner inner' => inner.outlined hides enclosing = inner'.outlined hides enclosing)
        (applyUse sources lookup package use) (applyUse sources lookup' package use)
  | ⟨typeName, values, _⟩, h, hv => by
    unfold applyUse
    obtain ⟨hname, hvalues⟩ := List.forall_mem_cons.1 h
    refine (hname.same hv).bind fun found found' hfound => ?_
    cases found with
    | none =>
      cases found' with
      | none => exact .pure rfl
      | some type' => contradiction
    | some type =>
      cases found' with
      | none => contradiction
      | some type' =>
        exact instantiate_related hc.first hc.second (Option.some.inj hfound)
          (convertFields_related hc package values fun name hmem =>
            (hvalues name hmem).mono (List.subset_cons_self _ _))

end

/-! ### Declarations -/

section

variable (hc : sources.Comparable hides kind kind')
include hc

lemma declaredElement_related (typeName : String) (element : ElementDeclaration)
    (h : ∀ name ∈ element.default.elim [] (·.typeNames), sources.LookupsRelated hides kind kind'
      lookup lookup' [typeName] (sources.fullName (packageOf typeName) name)) :
    Resolving.Related kind kind'
      (fun found found' => found.outlined hides [typeName] = found'.outlined hides [typeName])
      (sources.declaredElement lookup typeName element)
      (sources.declaredElement lookup' typeName element) := by
  rw [declaredElement, declaredElement]
  cases hd : element.default with
  | none => exact .pure rfl
  | some written =>
    rw [hd] at h
    refine Resolving.Related.bind (convertValue_related hc _ written h _)
      fun result result' hresult => ?_
    cases hresult with
    | ok hvalue =>
      exact .pure (congrArg (fun value => AnnotationElement.mk _ _ (some value)) hvalue)
    | error fault =>
      exact (reportFault_related hc.first hc.second _ _ _).bind fun _ _ _ => .pure rfl

/-- A declaration gives types with the same outline if the names in its defaults do, but for those
that it hides. -/
lemma declaredType_related (declaration : Declaration)
    (h : ∀ name ∈ sources.defaultNames declaration, sources.LookupsRelated hides kind kind' lookup
      lookup' [declaration.name] name) :
    Resolving.Related kind kind' (fun type type' => type.outlined hides = type'.outlined hides)
      (sources.declaredType lookup declaration) (sources.declaredType lookup' declaration) := by
  rw [declaredType, declaredType]
  refine .bind (.mapM fun element hmem => declaredElement_related hc
    declaration.name element fun name hname => h _ ?_) fun _ _ h => .pure ?_
  · exact List.mem_flatMap.2 ⟨element, hmem, List.mem_map_of_mem hname⟩
  · exact congrArg (AnnotationType.mk _ _ _) (outlined_congr h)

end

end TypeSources

end ExternalAnnotations
