import ExternalAnnotations.Proofs.Resolution.Lookup

/-!
# What conversion keeps up

`Resolving.Ensures` is about the result of work and the memo that it leaves. A property of values
that holds of everything a value can be made of, a `ConversionInvariant`, holds of all that written
values are converted to, if it holds of what is looked up for the names in them.
-/

namespace ExternalAnnotations

/-- From every memo of a kind, work gives a result with a property, and it leaves a memo of the
kind. -/
def Resolving.Ensures {α : Type} (kind : Memo → Prop) (work : Resolving α) (post : α → Prop) :
    Prop :=
  ∀ memo, kind memo → post (work.run memo).1 ∧ kind (work.run memo).2

/-- The property is asked for only of what is converted without a fault. -/
def Converting.Ensures {α : Type} (kind : Memo → Prop) (work : Converting α) (post : α → Prop) :
    Prop :=
  Resolving.Ensures kind work.run fun result => ∀ a, result = .ok a → post a

namespace Resolving.Ensures

variable {α β : Type} {kind : Memo → Prop} {work : Resolving α} {next : α → Resolving β}
  {post other : α → Prop} {after : β → Prop}

lemma pure {a : α} (h : post a) : Ensures kind (Pure.pure a) post := fun _ hk => ⟨h, hk⟩

lemma mono (h : Ensures kind work post) (hp : ∀ a, post a → other a) : Ensures kind work other :=
  fun memo hk => ⟨hp _ (h memo hk).1, (h memo hk).2⟩

lemma bind (h : Ensures kind work post) (hn : ∀ a, post a → Ensures kind (next a) after) :
    Ensures kind (work >>= next) after := by
  intro memo hk
  obtain ⟨hpost, hk⟩ := h memo hk
  exact hn _ hpost _ hk

lemma mapM {f : α → Resolving β} {items : List α} {each : α → β → Prop}
    (h : ∀ a ∈ items, Ensures kind (f a) (each a)) :
    Ensures kind (items.mapM f) (List.Forall₂ each items) := by
  induction items with
  | nil => exact pure .nil
  | cons a items ih =>
    obtain ⟨hfirst, h⟩ := List.forall_mem_cons.1 h
    rw [List.mapM_cons]
    exact hfirst.bind fun b hb => (ih h).bind fun bs hbs => pure (.cons hb hbs)

lemma and {kind' : Memo → Prop} (h : Ensures kind work post) (h' : Ensures kind' work other) :
    Ensures (fun memo => kind memo ∧ kind' memo) work fun a => post a ∧ other a := by
  intro memo hk
  obtain ⟨hpost, hkind⟩ := h memo hk.1
  obtain ⟨hother, hkind'⟩ := h' memo hk.2
  exact ⟨⟨hpost, hother⟩, hkind, hkind'⟩

lemma forM {f : α → Resolving PUnit} {items : List α} (h : ∀ a, Ensures kind (f a) fun _ => True) :
    Ensures kind (items.forM f) fun _ => True := by
  induction items with
  | nil => exact pure trivial
  | cons a items ih => exact (h a).bind fun _ _ => ih

end Resolving.Ensures

namespace Converting.Ensures

variable {α β : Type} {kind : Memo → Prop} {work : Converting α} {next : α → Converting β}
  {post : α → Prop} {after : β → Prop}

lemma pure {a : α} (h : post a) : Ensures kind (Pure.pure a) post :=
  Resolving.Ensures.pure fun _ heq => Except.ok.inj heq ▸ h

lemma throw {fault : ElementFault} : Ensures kind (throw fault : Converting α) post :=
  Resolving.Ensures.pure nofun

lemma lift {work : Resolving α} (h : Resolving.Ensures kind work post) :
    Ensures kind (liftM work : Converting α) post :=
  h.bind fun _ ha => .pure fun _ heq => Except.ok.inj heq ▸ ha

lemma bind (h : Ensures kind work post) (hn : ∀ a, post a → Ensures kind (next a) after) :
    Ensures kind (work >>= next) after := by
  unfold Ensures
  rw [ExceptT.run_bind]
  refine Resolving.Ensures.bind h fun result hresult => ?_
  cases result with
  | ok a => exact hn a (hresult a rfl)
  | error fault => exact .pure nofun

end Converting.Ensures

lemma reportFault_ensures {kind : Memo → Prop} (hkind : IgnoresReports kind)
    (typeName element : String) (fault : ElementFault) :
    Resolving.Ensures kind (reportFault typeName element fault) fun _ => True :=
  fun memo hk => ⟨trivial, hkind memo _ hk⟩

lemma mem_of_lookup {α : Type} {items : List (String × α)} {name : String} {a : α}
    (h : items.lookup name = some a) : (name, a) ∈ items := by
  induction items with
  | nil => contradiction
  | cons item items ih =>
    rw [List.lookup_cons] at h
    split at h
    · rename_i hname
      obtain rfl := Option.some.inj h
      exact eq_of_beq hname ▸ List.mem_cons_self
    · exact List.mem_cons_of_mem _ (ih h)

/-! ### Invariants of conversion -/

/-- Some elements have values, in their order, with a property of each element with its value. -/
inductive Fills (ofElement : AnnotationElement → AnnotationValue → Prop) :
    List AnnotationElement → List (String × AnnotationValue) → Prop
  | nil : Fills ofElement [] []
  | skip (element : AnnotationElement) {elements : List AnnotationElement}
      {values : List (String × AnnotationValue)} (h : Fills ofElement elements values) :
      Fills ofElement (element :: elements) values
  | take {element : AnnotationElement} {elements : List AnnotationElement}
      {value : AnnotationValue} {values : List (String × AnnotationValue)}
      (hvalue : ofElement element value) (h : Fills ofElement elements values) :
      Fills ofElement (element :: elements) ((element.name, value) :: values)

/-- The value of an element is its default if nothing was written for it, and else what the value
that was written first for it became. -/
def AnnotationElement.Gets (written : List (String × WrittenValue))
    (becomes : WrittenValue → ElementType → AnnotationValue → Prop) (element : AnnotationElement)
    (value : AnnotationValue) : Prop :=
  match written.lookup element.name with
  | none => element.default = some value
  | some first => becomes first element.type value

/-- Properties of values, annotations and annotation types that follow from one another along the
conversion of what was written in a package. -/
structure ConversionInvariant (sources : TypeSources) where
  /-- What holds of the value of an element, by what was written for it. -/
  ofValue : String → WrittenValue → ElementType → AnnotationValue → Prop
  /-- What holds of an annotation, by the one that was written. -/
  ofInstance : String → AnnotationUse → AnnotationInstance → Prop
  /-- What holds of that which is found for a full name. -/
  ofFound : String → Option AnnotationType → Prop
  simple : ∀ {package written type value}, simpleValue sources.program written type = .ok value →
    ofValue package written type value
  lone : ∀ {package written item value}, ofValue package written item value →
    ofValue package written (.array item) (.array [value])
  array : ∀ {package items item values},
    List.Forall₂ (fun written value => ofValue package written item value) items values →
      ofValue package (.array items) (.array item) (.array values)
  nested : ∀ {package use inner}, ofInstance package use inner → ofValue package (.nested use)
    (.annotationType (sources.fullName package use.typeName)) (.nested inner)
  bare : ∀ {package use}, ofFound (sources.fullName package use.typeName) none →
    ofInstance package use (.bare (sources.fullName package use.typeName))
  filled : ∀ {package use type values},
    ofFound (sources.fullName package use.typeName) (some type) →
      Fills (·.Gets use.values (ofValue package)) type.elements values →
        ofInstance package use ⟨type.name, values, type.retention⟩

namespace ConversionInvariant

variable {sources : TypeSources} (invariant : ConversionInvariant sources) {kind : Memo → Prop}
  {lookup : TypeLookup}

/-- For each of the names, as it is meant in a package, what is found has the property. -/
def Finds (package : String) (kind : Memo → Prop) (lookup : TypeLookup) (names : List String) :
    Prop :=
  ∀ name ∈ names, Resolving.Ensures kind (lookup (sources.fullName package name))
    (invariant.ofFound (sources.fullName package name))

/-- What was written for each element is converted to values with the property. -/
def Converts (package : String) (kind : Memo → Prop) (values : List (String × WrittenValue))
    (written : List (String × (ElementType → Converting AnnotationValue))) : Prop :=
  List.Forall₂ (fun field converter => field.1 = converter.1 ∧ ∀ type,
    Converting.Ensures kind (converter.2 type) (invariant.ofValue package field.2 type))
    values written

lemma finds_of_defaultNames {declaration : Declaration} {element : ElementDeclaration}
    (h : ∀ name ∈ sources.defaultNames declaration,
      Resolving.Ensures kind (lookup name) (invariant.ofFound name))
    (hmem : element ∈ declaration.elements) :
    invariant.Finds (packageOf declaration.name) kind lookup
      (element.default.elim [] (·.typeNames)) :=
  fun _ hname => h _ (List.mem_flatMap.2 ⟨element, hmem, List.mem_map_of_mem hname⟩)

lemma promote_ensures {package : String} {written : WrittenValue}
    {convert : ElementType → Converting AnnotationValue}
    (h : ∀ type, Converting.Ensures kind (convert type) (invariant.ofValue package written type))
    (type : ElementType) :
    Converting.Ensures kind (promote convert type) (invariant.ofValue package written type) := by
  induction type with
  | array item ih =>
    rw [promote]
    exact ih.bind fun value hvalue => .pure (invariant.lone hvalue)
  | primitive | string | classLiteral | enum | annotationType => exact h _

lemma convertSimple_ensures (package : String) {value : WrittenValue} {type : ElementType}
    (ha : ∀ items item, value = .array items → type = .array item → False)
    (hn : ∀ use, value = .nested use → False) :
    Converting.Ensures kind (convertValue sources lookup package value type)
      (invariant.ofValue package value type) := by
  rw [convertValue_of_simple _ _ _ ha hn]
  exact invariant.promote_ensures (fun _ => Resolving.Ensures.pure fun _ => invariant.simple) type

lemma Converts.find {package : String} {values : List (String × WrittenValue)}
    {written : List (String × (ElementType → Converting AnnotationValue))}
    (h : invariant.Converts package kind values written) (name : String) :
    Option.Rel (fun value convert => ∀ type,
      Converting.Ensures kind (convert type) (invariant.ofValue package value type))
      (values.lookup name) (written.lookup name) :=
  lookup_of_forall₂ h

section

variable (hkind : IgnoresReports kind)
include hkind

lemma fillElements_ensures (package : String) (type : AnnotationType)
    {values : List (String × WrittenValue)}
    {written : List (String × (ElementType → Converting AnnotationValue))}
    (hwritten : invariant.Converts package kind values written)
    (elements : List AnnotationElement) :
    Resolving.Ensures kind (fillElements type written elements)
      (Fills (·.Gets values (invariant.ofValue package)) elements) := by
  induction elements with
  | nil => exact .pure .nil
  | cons element elements ih =>
    have hvalue : Resolving.Ensures kind (element.value type.name written) fun found =>
        ∀ value, found = some value → element.Gets values (invariant.ofValue package) value := by
      have hconvert := hwritten.find invariant element.name
      unfold AnnotationElement.value AnnotationElement.Gets
      generalize values.lookup element.name = first, written.lookup element.name = convert
        at hconvert ⊢
      cases hconvert with
      | none => exact .pure fun _ => id
      | some hconvert =>
        refine Resolving.Ensures.bind (hconvert element.type) fun result hresult => ?_
        cases result with
        | ok value => exact .pure fun _ heq => hresult _ (Option.some.inj heq ▸ rfl)
        | error fault =>
          refine (reportFault_ensures hkind _ _ _).bind fun _ _ => .pure ?_
          intro value hvalue
          contradiction
    rw [fillElements_cons]
    refine hvalue.bind fun found hfound => ih.bind fun values hvalues => .pure ?_
    cases found with
    | none => exact .skip element hvalues
    | some value => exact .take (hfound value rfl) hvalues

lemma instantiate_ensures (package : String) (use : AnnotationUse) {type : AnnotationType}
    (htype : invariant.ofFound (sources.fullName package use.typeName) (some type))
    {written : List (String × (ElementType → Converting AnnotationValue))}
    (hwritten : invariant.Converts package kind use.values written) :
    Resolving.Ensures kind (instantiate type written) (invariant.ofInstance package use) := by
  refine .bind (.forM fun field => ?_) fun _ _ =>
    (invariant.fillElements_ensures hkind package type hwritten type.elements).bind
      fun values hvalues => .pure (invariant.filled htype hvalues)
  dsimp only
  split
  · exact reportFault_ensures hkind _ _ _
  · exact .pure trivial

end

mutual

lemma convertValue_ensures (hkind : IgnoresReports kind) (package : String) :
    (value : WrittenValue) →
    invariant.Finds package kind lookup value.typeNames → (type : ElementType) →
      Converting.Ensures kind (convertValue sources lookup package value type)
        (invariant.ofValue package value type)
  | .array items, h, type => by
    cases type with
    | array item =>
      rw [convertValue]
      exact (convertItems_ensures hkind package items h item).bind fun _ h =>
        .pure (invariant.array h)
    | primitive | string | classLiteral | enum | annotationType =>
      exact invariant.convertSimple_ensures package (by simp) (by simp)
  | .nested use, h, type => by
    rw [convertValue]
    refine invariant.promote_ensures (fun type => ?_) type
    cases type with
    | annotationType expected =>
      dsimp only
      split
      · rename_i heq
        subst heq
        exact .bind (.lift (applyUse_ensures hkind package use h)) fun _ h =>
          .pure (invariant.nested h)
      · exact .throw
    | primitive | string | classLiteral | enum | array => exact .throw
  | .bool _, _, type | .int _, _, type | .float _, _, type | .char _, _, type | .string _, _, type
  | .name _, _, type | .classLiteral _, _, type =>
    invariant.convertSimple_ensures package (by simp) (by simp)

lemma convertItems_ensures (hkind : IgnoresReports kind) (package : String) :
    (values : List WrittenValue) →
    invariant.Finds package kind lookup (WrittenValue.allTypeNames values) → (type : ElementType) →
      Converting.Ensures kind (convertItems sources lookup package values type)
        (List.Forall₂ (fun written value => invariant.ofValue package written type value) values)
  | [], _, type => by
    rw [convertItems]
    exact .pure .nil
  | value :: values, h, type => by
    rw [convertItems]
    obtain ⟨hvalue, hvalues⟩ := List.forall_mem_append.1 h
    exact (convertValue_ensures hkind package value hvalue type).bind fun first hfirst =>
      (convertItems_ensures hkind package values hvalues type).bind fun items hitems =>
        .pure (.cons hfirst hitems)

lemma convertFields_convert (hkind : IgnoresReports kind) (package : String) :
    (fields : List (String × WrittenValue)) →
    invariant.Finds package kind lookup (AnnotationUse.fieldTypeNames fields) →
      invariant.Converts package kind fields (convertFields sources lookup package fields)
  | [], _ => by
    rw [convertFields]
    exact .nil
  | (_, value) :: fields, h => by
    rw [convertFields]
    obtain ⟨hvalue, hfields⟩ := List.forall_mem_append.1 h
    exact .cons ⟨rfl, convertValue_ensures hkind package value hvalue⟩
      (convertFields_convert hkind package fields hfields)

lemma applyUse_ensures (hkind : IgnoresReports kind) (package : String) : (use : AnnotationUse) →
    invariant.Finds package kind lookup use.typeNames →
      Resolving.Ensures kind (applyUse sources lookup package use)
        (invariant.ofInstance package use)
  | ⟨typeName, values, _⟩, h => by
    unfold applyUse
    obtain ⟨hname, hvalues⟩ := List.forall_mem_cons.1 h
    refine hname.bind fun found hfound => ?_
    cases found with
    | none => exact .pure (invariant.bare hfound)
    | some type =>
      exact invariant.instantiate_ensures hkind package _ hfound
        (convertFields_convert hkind package values hvalues)

end

section

variable (hkind : IgnoresReports kind)
include hkind

lemma declaredElement_ensures (typeName : String) (element : ElementDeclaration)
    (h : invariant.Finds (packageOf typeName) kind lookup
      (element.default.elim [] (·.typeNames))) :
    Resolving.Ensures kind (sources.declaredElement lookup typeName element) fun found =>
      found.name = element.name ∧ ∀ value, found.default = some value → ∃ written,
        element.default = some written ∧
          invariant.ofValue (packageOf typeName) written found.type value := by
  rw [TypeSources.declaredElement]
  cases hd : element.default with
  | none =>
    refine Resolving.Ensures.pure ⟨rfl, fun value hvalue => ?_⟩
    contradiction
  | some written =>
    rw [hd] at h
    refine Resolving.Ensures.bind (invariant.convertValue_ensures hkind _ written h _)
      fun result hresult => ?_
    cases result with
    | ok value =>
      exact .pure ⟨rfl, fun _ heq => ⟨written, rfl, hresult _ (Option.some.inj heq ▸ rfl)⟩⟩
    | error fault =>
      refine (reportFault_ensures hkind _ _ _).bind fun _ _ => .pure ⟨rfl, fun value hvalue => ?_⟩
      contradiction

/-- A default of an element has the property, by what the declaration gives for such an element. -/
def OfDefault (declaration : Declaration) (element : AnnotationElement) : Prop :=
  ∀ value, element.default = some value → ∃ declared ∈ declaration.elements,
    declared.name = element.name ∧ ∃ written, declared.default = some written ∧
      invariant.ofValue (packageOf declaration.name) written element.type value

lemma declaredType_ensures (declaration : Declaration)
    (h : ∀ name ∈ sources.defaultNames declaration,
      Resolving.Ensures kind (lookup name) (invariant.ofFound name)) :
    Resolving.Ensures kind (sources.declaredType lookup declaration)
      fun type => ∀ element ∈ type.elements, invariant.OfDefault declaration element := by
  rw [TypeSources.declaredType]
  refine .bind (.mapM fun declared hmem => invariant.declaredElement_ensures hkind _ declared
    (invariant.finds_of_defaultNames h hmem)) fun elements helements => .pure ?_
  refine forall_mem_of_forall₂ helements ?_
  rintro declared hmem element ⟨hname, hdefault⟩ value hvalue
  obtain ⟨written, hwritten, hof⟩ := hdefault value hvalue
  exact ⟨declared, hmem, hname.symm, written, hwritten, hof⟩

end

end ConversionInvariant

end ExternalAnnotations
