import ExternalAnnotations.Proofs.Resolution.Filling

/-!
# Resolving ends

Here annotations are resolved with a set of marks in place of a pool of available declarations: a
name is marked before its declaration is worked on, the mark is taken away after it, and a marked
name is not found. Nothing in these definitions says that they come to an end, and a run that does
not has no result. There is always one, whatever is known and marked at first, and with no marks it
is that of `TypeSources.resolve`.
-/

namespace ExternalAnnotations

/-- What is known, and the names whose declarations are being worked on. -/
structure Marked where
  memo : Memo
  marks : List String

/-- Work that may not come to an end, in which case it has no result. -/
abbrev Unbounded := StateT Marked Option

/-- Does work that looks up nothing. -/
def Resolving.keepingMarks {α : Type} (work : Resolving α) : Unbounded α := fun marked =>
  some ((work.run marked.memo).1, { marked with memo := (work.run marked.memo).2 })

/-- The sources of types, for resolving with marks. -/
abbrev TypeSources.Marking := TypeSources

namespace TypeSources.Marking

mutual

/-- The annotation that is meant by one written in a package. -/
def resolve (sources : Marking) (package : String) (use : AnnotationUse) :
    Unbounded AnnotationInstance := do
  let name := sources.fullName package use.typeName
  match ← sources |>.lookup name with
  | some type => sources |>.instantiate package use.values type
  | none => return .bare name
partial_fixpoint

/-- Looks up the annotation type of a full name. The name is marked meanwhile. -/
def lookup (sources : Marking) (name : String) : Unbounded (Option AnnotationType) := do
  match (← get).memo.find? name with
  | some found => return found
  | none =>
    if name ∈ (← get).marks then return none
    else
      modify fun marked => { marked with marks := name :: marked.marks }
      let found ← sources |>.search name
      modify fun marked => { marked with marks := without marked.marks name }
      (conclude name found).keepingMarks
partial_fixpoint

/-- Finds an annotation type that is not known. -/
def search (sources : Marking) (name : String) : Unbounded (Option AnnotationType) :=
  match sources.annotationClass? name with
  | some c => return some (.ofClass sources.program c)
  | none =>
    match sources.index.declaration? name with
    | some declaration => do return some (← sources |>.declaredType declaration)
    | none => return AnnotationType.builtin? name
partial_fixpoint

/-- The annotation type that a declaration of the index declares. -/
def declaredType (sources : Marking) (declaration : Declaration) : Unbounded AnnotationType := do
  let elements ← declaration.elements.mapM fun element =>
    sources |>.declaredElement declaration.name element
  return ⟨declaration.name, sources.declaredRetention declaration,
    sources.declaredTargets declaration, elements⟩
partial_fixpoint

/-- An element of a declared annotation type. -/
def declaredElement (sources : Marking) (typeName : String) (element : ElementDeclaration) :
    Unbounded AnnotationElement :=
  let package := packageOf typeName
  let type := sources.fullType package element.type
  match element.default with
  | none => return ⟨element.name, type, none⟩
  | some written => do
    let value ← sources |>.convert package written type
    return ⟨element.name, type, ← (acceptValue typeName element.name value).keepingMarks⟩
partial_fixpoint

/-- The annotation of a type with the values that are written in a package. -/
def instantiate (sources : Marking) (package : String) (written : List (String × WrittenValue))
    (type : AnnotationType) : Unbounded AnnotationInstance := do
  written.forM fun (name, _) =>
    if (type.element? name).isNone then (reportFault type.name name .noSuchElement).keepingMarks
    else pure ()
  let values ← type.elements.mapM fun element =>
    sources |>.elementValue package written type.name element
  return ⟨type.name, values.flatten, type.retention⟩
partial_fixpoint

/-- What the annotation of a type has for one of its elements. -/
def elementValue (sources : Marking) (package : String) (written : List (String × WrittenValue))
    (typeName : String) (element : AnnotationElement) :
    Unbounded (List (String × AnnotationValue)) :=
  match written.lookup element.name with
  | none => return (element.default.map (element.name, ·)).toList
  | some value => do
    let value ← sources |>.convert package value element.type
    let value ← (acceptValue typeName element.name value).keepingMarks
    return (value.map (element.name, ·)).toList
partial_fixpoint

/-- The value of an element for a value written in a package. -/
def convert (sources : Marking) (package : String) (value : WrittenValue) (type : ElementType) :
    Unbounded (Except ElementFault AnnotationValue) :=
  match type, value with
  | .array item, .array items => do
    return (← sources |>.convertItems package items item).map .array
  | .array item, value => do
    return (← sources |>.convert package value item).map fun value => .array [value]
  | .annotationType expected, .nested use =>
    let found := sources.fullName package use.typeName
    if found = expected then do return .ok (.nested (← sources |>.resolve package use))
    else return .error (.otherType expected found)
  | type, value => return simpleValue sources.program value type
partial_fixpoint

/-- The values of the items of an array, up to the first that does not fit. -/
def convertItems (sources : Marking) (package : String) (values : List WrittenValue)
    (type : ElementType) : Unbounded (Except ElementFault (List AnnotationValue)) :=
  match values with
  | [] => return .ok []
  | value :: values => do
    match ← sources |>.convert package value type with
    | .error fault => return .error fault
    | .ok first => return (← sources |>.convertItems package values type).map (first :: ·)
partial_fixpoint

end

end TypeSources.Marking

/-! ### Marked work and plain work -/

/-- With some names marked, work comes to an end as plain work does. The marks are as before, what
was known still is, and nothing more is known of marked names. -/
def Unbounded.Follows {α : Type} (marks : List String) (work : Unbounded α)
    (plain : Resolving α) : Prop :=
  ∀ memo, work.run ⟨memo, marks⟩ = some ((plain.run memo).1, ⟨(plain.run memo).2, marks⟩) ∧
    memo.Within (plain.run memo).2 ∧
    ∀ name ∈ marks, (plain.run memo).2.find? name = memo.find? name

namespace Unbounded.Follows

variable {α β : Type} {marks : List String}

lemma pure (a : α) : Follows marks (Pure.pure a) (Pure.pure a) :=
  fun _ => ⟨rfl, fun _ _ hf => hf, fun _ _ => rfl⟩

lemma bind {work : Unbounded α} {plain : Resolving α} {next : α → Unbounded β}
    {next' : α → Resolving β} (h : Follows marks work plain)
    (hn : ∀ a, Follows marks (next a) (next' a)) :
    Follows marks (work >>= next) (plain >>= next') := by
  intro memo
  obtain ⟨hrun, hwithin, hmarks⟩ := h memo
  obtain ⟨hrun', hwithin', hmarks'⟩ := hn (plain.run memo).1 (plain.run memo).2
  rw [Resolving.run_bind]
  refine ⟨?_, fun name found hf => hwithin' name found (hwithin name found hf), fun name hm => ?_⟩
  · rw [StateT.run_bind, hrun]
    exact hrun'
  · rw [hmarks' name hm, hmarks name hm]

lemma report (typeName element : String) (fault : ElementFault) :
    Follows marks (reportFault typeName element fault).keepingMarks
      (reportFault typeName element fault) :=
  fun _ => ⟨rfl, fun _ _ hf => hf, fun _ _ => rfl⟩

lemma accept (typeName element : String) (result : Except ElementFault AnnotationValue) :
    Follows marks (acceptValue typeName element result).keepingMarks
      (acceptValue typeName element result) := by
  cases result with
  | ok value => exact pure _
  | error fault => exact (report _ _ fault).bind fun _ => pure _

lemma mapM {f : α → Unbounded β} {g : α → Resolving β} (h : ∀ a, Follows marks (f a) (g a))
    (items : List α) : Follows marks (items.mapM f) (items.mapM g) := by
  induction items with
  | nil => exact pure []
  | cons a items ih =>
    rw [List.mapM_cons, List.mapM_cons]
    exact (h a).bind fun b => ih.bind fun bs => pure (b :: bs)

end Unbounded.Follows

namespace TypeSources.Marking

open Unbounded (Follows)

variable {sources : TypeSources} {lookup : TypeLookup} {marks : List String}

/-! ### Conversion -/

lemma promote_follows (package : String) {value : WrittenValue}
    (hvalue : ∀ items, value ≠ .array items) {f : ElementType → Converting AnnotationValue}
    (h : ∀ type, (∀ item, type ≠ .array item) →
      Follows marks (convert sources package value type) (f type).run) (type : ElementType) :
    Follows marks (convert sources package value type) (promote f type).run := by
  induction type with
  | array item ih =>
    rw [convert, promote, ExceptT.run_bind]
    · refine ih.bind fun result => ?_
      cases result <;> exact .pure _
    · exact hvalue
  | primitive | string | classLiteral | enum | annotationType =>
    apply h
    intro item hitem
    contradiction

lemma convert_of_simple (package : String) {value : WrittenValue} {type : ElementType}
    (htype : ∀ item, type ≠ .array item)
    (hvalue : ∀ expected use, type = .annotationType expected → value = .nested use → False) :
    convert sources package value type = pure (simpleValue sources.program value type) := by
  rw [convert]
  · exact htype
  · exact fun item _ h _ => htype item h
  · exact hvalue

lemma simpleValue_nested (program : Program) (use : AnnotationUse) (type : ElementType) :
    simpleValue program (.nested use) type = .error (.mismatch type (.nested use)) := by
  cases type with
  | primitive p => cases p <;> rfl
  | string | classLiteral | enum | annotationType | array => rfl

lemma convertSimple_follows (package : String) {value : WrittenValue} {type : ElementType}
    (ha : ∀ items item, value = .array items → type = .array item → False)
    (hn : ∀ use, value ≠ .nested use) :
    Follows marks (convert sources package value type)
      (convertValue sources lookup package value type).run := by
  rw [convertValue_of_simple _ _ _ ha hn]
  by_cases harray : ∃ item, type = .array item
  · obtain ⟨item, rfl⟩ := harray
    refine promote_follows package (fun items h => ha items item h rfl) (fun type htype => ?_) _
    rw [convert_of_simple package htype fun _ use _ => hn use]
    exact .pure _
  · have htype : ∀ item, type ≠ .array item := fun item h => harray ⟨item, h⟩
    rw [convert_of_simple package htype fun _ use _ => hn use, promote]
    · exact .pure _
    · exact htype

section

variable (package : String) {written : List (String × WrittenValue)}
  (h : ∀ field ∈ written, ∀ type, Follows marks (convert sources package field.2 type)
    (convertValue sources lookup package field.2 type).run)
include h

lemma elementValue_follows (typeName : String) (element : AnnotationElement) :
    Follows marks (elementValue sources package written typeName element) (do
      let value ← element.value typeName (convertFields sources lookup package written)
      return (value.map (element.name, ·)).toList) := by
  rw [elementValue, AnnotationElement.value, lookup_convertFields]
  cases hwritten : written.lookup element.name with
  | none => exact .pure _
  | some value =>
    simp only [Option.map_some, bind_assoc]
    exact (h _ (mem_of_lookup hwritten) element.type).bind fun result =>
      (Follows.accept _ _ result).bind fun _ => .pure _

lemma fillElements_follows (type : AnnotationType) (elements : List AnnotationElement) :
    Follows marks
      (do return (← elements.mapM fun element =>
        elementValue sources package written type.name element).flatten)
      (fillElements type (convertFields sources lookup package written) elements) := by
  induction elements with
  | nil => exact .pure []
  | cons element elements ih =>
    have hbind := (elementValue_follows package h type.name element).bind fun value =>
      ih.bind fun others => .pure (value ++ others)
    rw [List.mapM_cons, fillElements_cons]
    simp only [bind_assoc, pure_bind, List.flatten_cons] at hbind ⊢
    exact hbind

lemma instantiate_follows (type : AnnotationType) :
    Follows marks (Marking.instantiate sources package written type)
      (ExternalAnnotations.instantiate type (convertFields sources lookup package written)) := by
  have hstrangers : Follows marks
      (written.forM fun field =>
        if (type.element? field.1).isNone then
          (reportFault type.name field.1 .noSuchElement).keepingMarks
        else pure ())
      ((convertFields sources lookup package written).forM fun field =>
        if (type.element? field.1).isNone then reportFault type.name field.1 .noSuchElement
        else pure ()) := by
    clear h
    induction written with
    | nil =>
      rw [convertFields]
      exact .pure ()
    | cons field written ih =>
      rw [convertFields]
      refine Follows.bind ?_ fun _ => ih
      dsimp only
      split
      · exact .report _ _ _
      · exact .pure ()
  have hfill := (fillElements_follows package h type type.elements).bind fun values =>
    .pure (⟨type.name, values, type.retention⟩ : AnnotationInstance)
  rw [Marking.instantiate, ExternalAnnotations.instantiate]
  refine hstrangers.bind fun _ => ?_
  simp only [bind_assoc, pure_bind] at hfill
  exact hfill

end

mutual

lemma convert_follows
    (hlookup : ∀ name, Follows marks (Marking.lookup sources name) (lookup name))
    (package : String) : (value : WrittenValue) → (type : ElementType) →
    Follows marks (convert sources package value type)
      (convertValue sources lookup package value type).run
  | .array items, type => by
    cases type with
    | array item =>
      rw [convert, convertValue, ExceptT.run_bind]
      refine (convertItems_follows hlookup package items item).bind fun result => ?_
      cases result <;> exact .pure _
    | primitive | string | classLiteral | enum | annotationType =>
      exact convertSimple_follows package nofun nofun
  | .nested use, type => by
    rw [convertValue]
    refine promote_follows package (by simp) (fun type htype => ?_) type
    cases type with
    | annotationType expected =>
      rw [convert]
      dsimp only
      split
      · exact (resolve_follows hlookup package use).bind fun _ => .pure _
      · exact .pure _
    | array item => exact absurd rfl (htype item)
    | primitive | string | classLiteral | enum =>
      rw [convert_of_simple package htype (by simp), simpleValue_nested]
      exact .pure _
  | .bool _, _ | .int _, _ | .float _, _ | .char _, _ | .string _, _ | .name _, _
  | .classLiteral _, _ => convertSimple_follows package nofun nofun

lemma convertItems_follows
    (hlookup : ∀ name, Follows marks (Marking.lookup sources name) (lookup name))
    (package : String) : (values : List WrittenValue) → (type : ElementType) →
    Follows marks (convertItems sources package values type)
      (ExternalAnnotations.convertItems sources lookup package values type).run
  | [], _ => by
    rw [convertItems, ExternalAnnotations.convertItems]
    exact .pure _
  | value :: values, type => by
    rw [convertItems, ExternalAnnotations.convertItems, ExceptT.run_bind]
    refine (convert_follows hlookup package value type).bind fun result => ?_
    cases result with
    | error fault => exact .pure _
    | ok first =>
      dsimp only
      rw [ExceptT.run_bind]
      refine (convertItems_follows hlookup package values type).bind fun result => ?_
      cases result <;> exact .pure _

lemma convertFields_follow
    (hlookup : ∀ name, Follows marks (Marking.lookup sources name) (lookup name))
    (package : String) : (written : List (String × WrittenValue)) →
    ∀ field ∈ written, ∀ type, Follows marks (convert sources package field.2 type)
      (convertValue sources lookup package field.2 type).run
  | [], _, hfield, _ => absurd hfield List.not_mem_nil
  | (_, value) :: written, field, hfield, type => by
    rcases List.mem_cons.1 hfield with rfl | hfield
    · exact convert_follows hlookup package value type
    · exact convertFields_follow hlookup package written field hfield type

lemma resolve_follows
    (hlookup : ∀ name, Follows marks (Marking.lookup sources name) (lookup name))
    (package : String) : (use : AnnotationUse) →
    Follows marks (Marking.resolve sources package use) (applyUse sources lookup package use)
  | ⟨typeName, values, _⟩ => by
    rw [Marking.resolve, applyUse]
    refine (hlookup _).bind fun found => ?_
    cases found with
    | none => exact .pure _
    | some type =>
      exact instantiate_follows package (convertFields_follow hlookup package values) type

end

section

variable (hlookup : ∀ name, Follows marks (Marking.lookup sources name) (lookup name))
include hlookup

lemma declaredElement_follows (typeName : String) (element : ElementDeclaration) :
    Follows marks (Marking.declaredElement sources typeName element)
      (TypeSources.declaredElement sources lookup typeName element) := by
  rw [Marking.declaredElement, TypeSources.declaredElement]
  cases element.default with
  | none => exact .pure _
  | some written =>
    refine (convert_follows hlookup _ written _).bind fun result => ?_
    have haccept : Follows marks _ _ := (Follows.accept typeName element.name result).bind
      fun value => .pure (⟨element.name,
        sources.fullType (packageOf typeName) element.type, value⟩ : AnnotationElement)
    cases result <;> exact haccept

lemma declaredType_follows (declaration : Declaration) :
    Follows marks (Marking.declaredType sources declaration)
      (TypeSources.declaredType sources lookup declaration) := by
  rw [Marking.declaredType, TypeSources.declaredType]
  exact (Follows.mapM (declaredElement_follows hlookup declaration.name) _).bind fun _ => .pure _

end

/-! ### Looking up -/

/-- Looks up a name, given how it is found if it is neither known nor marked. -/
def settle (marks : List String) (name : String) (search : Resolving (Option AnnotationType)) :
    Resolving (Option AnnotationType) := do
  match (← get).find? name with
  | some found => return found
  | none => if name ∈ marks then return none else conclude name (← search)

/-- Finds an annotation type that is not known, given how others are looked up. -/
def seek (sources : TypeSources) (lookup : TypeLookup) (name : String) :
    Resolving (Option AnnotationType) :=
  match sources.annotationClass? name with
  | some c => return some (.ofClass sources.program c)
  | none =>
    match sources.index.declaration? name with
    | some declaration => do return some (← sources.declaredType lookup declaration)
    | none => return AnnotationType.builtin? name

lemma run_conclude_fst (name : String) (found : Option AnnotationType) (memo : Memo) :
    ((conclude name found).run memo).1 = found := by
  cases found <;> rfl

lemma find?_conclude_self (name : String) (found : Option AnnotationType) (memo : Memo) :
    ((conclude name found).run memo).2.find? name = some found := by
  cases found <;> exact Memo.find?_remember_self _ _ _

lemma find?_conclude_of_ne {name other : String} (hne : other ≠ name)
    (found : Option AnnotationType) (memo : Memo) :
    ((conclude name found).run memo).2.find? other = memo.find? other := by
  cases found <;> exact Memo.find?_remember_of_ne _ hne _

section

variable {name : String} {search : Resolving (Option AnnotationType)} {memo : Memo}

lemma run_settle_of_known {found : Option AnnotationType} (hf : memo.find? name = some found) :
    (settle marks name search).run memo = (found, memo) := by
  rw [settle, Resolving.run_bind, Resolving.run_get]
  simp only [hf]
  rfl

lemma run_settle_of_marked (hf : memo.find? name = none) (hmarked : name ∈ marks) :
    (settle marks name search).run memo = (none, memo) := by
  rw [settle, Resolving.run_bind, Resolving.run_get]
  simp only [hf, if_pos hmarked]
  rfl

lemma run_settle_of_new (hf : memo.find? name = none) (hmarked : name ∉ marks) :
    (settle marks name search).run memo =
      (conclude name (search.run memo).1).run (search.run memo).2 := by
  rw [settle, Resolving.run_bind, Resolving.run_get]
  simp only [hf, if_neg hmarked]
  rfl

lemma find?_settle (hmarked : name ∉ marks) :
    ((settle marks name search).run memo).2.find? name =
      some ((settle marks name search).run memo).1 := by
  cases hf : memo.find? name with
  | some found =>
    rw [run_settle_of_known hf]
    exact hf
  | none => rw [run_settle_of_new hf hmarked, find?_conclude_self, run_conclude_fst]

lemma settle_follows
    (h : name ∉ marks → Follows (name :: marks) (Marking.search sources name) search) :
    Follows marks (Marking.lookup sources name) (settle marks name search) := by
  intro memo
  rw [Marking.lookup]
  simp only [StateT.run_bind, StateT.run_get, pure_bind]
  cases hf : memo.find? name with
  | some found =>
    rw [run_settle_of_known hf]
    exact ⟨rfl, fun _ _ hf => hf, fun _ _ => rfl⟩
  | none =>
    by_cases hmarked : name ∈ marks
    · rw [run_settle_of_marked hf hmarked]
      refine ⟨?_, fun _ _ hf => hf, fun _ _ => rfl⟩
      simp only [StateT.run_bind, StateT.run_get, pure_bind, if_pos hmarked]
      rfl
    · rw [run_settle_of_new hf hmarked]
      obtain ⟨hrun, hwithin, hmarks⟩ := h hmarked memo
      have hnew := (hmarks name List.mem_cons_self).trans hf
      have hback : without (name :: marks) name = marks := by
        rw [without, List.filter_cons_of_neg (by simp), List.filter_eq_self]
        intro other hother
        simpa using ne_of_mem_of_not_mem hother hmarked
      refine ⟨?_, ?_, ?_⟩
      · simp only [StateT.run_bind, StateT.run_get, StateT.run_modify, pure_bind, if_neg hmarked,
          hrun, Option.bind_eq_bind, Option.bind_some, hback]
        rfl
      · exact fun other found hother =>
          (Memo.growsTo_conclude hnew _).within other found (hwithin other found hother)
      · intro other hother
        rw [find?_conclude_of_ne (ne_of_mem_of_not_mem hother hmarked)]
        exact hmarks other (List.mem_cons_of_mem _ hother)

end

lemma search_follows {name : String}
    (hlookup : (sources.declared? name).isSome →
      ∀ other, Follows marks (Marking.lookup sources other) (lookup other)) :
    Follows marks (Marking.search sources name) (seek sources lookup name) := by
  rw [Marking.search, seek]
  cases hc : sources.annotationClass? name with
  | some c => exact .pure _
  | none =>
    cases hd : sources.index.declaration? name with
    | none => exact .pure _
    | some declaration =>
      have hdeclared : sources.declared? name = some declaration :=
        declared?_eq_some_iff.2 ⟨hc, hd⟩
      exact (declaredType_follows (hlookup (by simp [hdeclared])) declaration).bind fun _ => .pure _

/-- The names that are declared and not marked. -/
def unmarked (sources : TypeSources) (marks : List String) : List String :=
  sources.allDeclared.filter (· ∉ marks)

lemma without_unmarked (sources : TypeSources) (marks : List String) (name : String) :
    without (unmarked sources marks) name = unmarked sources (name :: marks) := by
  simp [without, unmarked, List.filter_filter, not_or]

lemma settle_eq_lookupAmong {name : String}
    (hmarks : ∀ other ∈ marks, (sources.declared? other).isSome)
    (hlookup : (sources.declared? name).isSome → name ∉ marks →
      lookup = sources.lookupAmong (unmarked sources (name :: marks))) :
    settle marks name (seek sources lookup name) =
      sources.lookupAmong (unmarked sources marks) name := by
  funext memo
  change (settle marks name (seek sources lookup name)).run memo =
    (sources.lookupAmong (unmarked sources marks) name).run memo
  cases hf : memo.find? name with
  | some found => rw [run_settle_of_known hf, run_lookupAmong_of_known hf]
  | none =>
    by_cases hmarked : name ∈ marks
    · rw [run_settle_of_marked hf hmarked,
        run_lookupAmong_of_unavailable hf (hmarks name hmarked) (by simp [unmarked, hmarked])]
    · rw [run_settle_of_new hf hmarked, seek]
      cases hc : sources.annotationClass? name with
      | some c =>
        rw [run_lookupAmong_of_class hf hc]
        rfl
      | none =>
        cases hd : sources.index.declaration? name with
        | none =>
          rw [run_lookupAmong_of_missing hf hc hd]
          rfl
        | some declaration =>
          have hdeclared : sources.declared? name = some declaration :=
            declared?_eq_some_iff.2 ⟨hc, hd⟩
          have hsome : (sources.declared? name).isSome := by simp [hdeclared]
          have havailable : name ∈ unmarked sources marks := by
            simpa [unmarked, hmarked] using mem_allDeclared hsome
          rw [run_lookupAmong_of_declared hf hdeclared havailable, without_unmarked,
            hlookup hsome hmarked]
          rfl

/-- Looking up comes to an end whatever is marked: each declaration that is worked on is one fewer
that is not marked. -/
lemma exists_follows (sources : TypeSources) (marks : List String) :
    ∃ lookup : TypeLookup,
      (∀ name, Follows marks (Marking.lookup sources name) (lookup name)) ∧
      (∀ name, name ∉ marks → ∀ memo,
        ((lookup name).run memo).2.find? name = some ((lookup name).run memo).1) ∧
      ((∀ name ∈ marks, (sources.declared? name).isSome) →
        lookup = sources.lookupAmong (unmarked sources marks)) := by
  induction hn : (unmarked sources marks).length using Nat.strong_induction_on
    generalizing marks with
  | _ n ih =>
    have hinner : ∀ name, ∃ lookup : TypeLookup,
        (name ∉ marks → (sources.declared? name).isSome →
          ∀ other, Follows (name :: marks) (Marking.lookup sources other) (lookup other)) ∧
        ((∀ other ∈ marks, (sources.declared? other).isSome) →
          (sources.declared? name).isSome → name ∉ marks →
            lookup = sources.lookupAmong (unmarked sources (name :: marks))) := by
      intro name
      by_cases hnew : name ∉ marks ∧ (sources.declared? name).isSome
      · obtain ⟨hmarked, hdeclared⟩ := hnew
        have havailable : name ∈ unmarked sources marks := by
          simpa [unmarked, hmarked] using mem_allDeclared hdeclared
        have hlt := length_without_lt havailable
        rw [without_unmarked] at hlt
        obtain ⟨lookup, hfollows, -, heq⟩ := ih _ (hn ▸ hlt) (name :: marks) rfl
        refine ⟨lookup, fun _ _ => hfollows, fun hmarks _ _ => heq ?_⟩
        exact List.forall_mem_cons.2 ⟨hdeclared, hmarks⟩
      · exact ⟨fun _ => pure none, fun hmarked hd => absurd ⟨hmarked, hd⟩ hnew,
          fun _ hd hmarked => absurd ⟨hmarked, hd⟩ hnew⟩
    choose inner hfollows heq using hinner
    refine ⟨fun name => settle marks name (seek sources (inner name) name), fun name => ?_,
      fun name hmarked memo => find?_settle hmarked, fun hmarks => funext fun name => ?_⟩
    · exact settle_follows fun hmarked => search_follows (hfollows name hmarked)
    · exact settle_eq_lookupAmong hmarks (heq name hmarks)

/-- The declarations that are available are those that are not marked. -/
lemma lookupAmong_follows (hmarks : ∀ other ∈ marks, (sources.declared? other).isSome)
    (name : String) :
    Follows marks (Marking.lookup sources name)
      (sources.lookupAmong (unmarked sources marks) name) := by
  obtain ⟨lookup, hfollows, -, heq⟩ := exists_follows sources marks
  rw [← heq hmarks]
  exact hfollows name

lemma within_resolve
    (hlookup : ∀ name, Follows marks (Marking.lookup sources name) (lookup name))
    (package : String) (use : AnnotationUse) (memo : Memo) :
    ((lookup (sources.fullName package use.typeName)).run memo).2.Within
      ((applyUse sources lookup package use).run memo).2 := by
  obtain ⟨typeName, values, _⟩ := use
  rw [applyUse, Resolving.run_bind]
  cases ((lookup (sources.fullName package typeName)).run memo).1 with
  | none => exact fun _ _ hf => hf
  | some type =>
    exact (instantiate_follows package (convertFields_follow hlookup package values) type _).2.1

end TypeSources.Marking

/-! ### Every run ends -/

/-- Work comes to an end with the marks as they were, what was known is still known as it was, and
of the result and what is known now something holds. -/
def Unbounded.Ends {α : Type} (work : Unbounded α) (marked : Marked) (post : α → Memo → Prop) :
    Prop :=
  ∃ a later, work.run marked = some (a, ⟨later, marked.marks⟩) ∧ marked.memo.Within later ∧
    post a later

lemma Unbounded.Follows.ends {α : Type} {work : Unbounded α} {plain : Resolving α}
    {marked : Marked} (h : Follows marked.marks work plain) {post : α → Memo → Prop}
    (hpost : post (plain.run marked.memo).1 (plain.run marked.memo).2) : work.Ends marked post := by
  obtain ⟨hrun, hwithin, -⟩ := h marked.memo
  exact ⟨_, _, hrun, hwithin, hpost⟩

namespace TypeSources

open Marking Unbounded

/-- **Resolving ends.** Whatever the sources are, and whatever is known and marked at first,
annotations are resolved and their types looked up in finitely many steps, also where declarations
use themselves or each other in their defaults. The marks are as before, nothing that was known is
forgotten or changed, and what was asked for is known, unless it was marked. Looking up while only
declared names are marked is what `TypeSources.lookupAmong` does while the others are available, and
resolving with no marks is what `TypeSources.resolve` does. -/
theorem resolving_ends (sources : TypeSources) (marked : Marked) :
    (∀ package use, (Marking.resolve sources package use).Ends marked fun _ later =>
      sources.fullName package use.typeName ∈ marked.marks ∨
        (later.find? (sources.fullName package use.typeName)).isSome) ∧
    (∀ name, (Marking.lookup sources name).Ends marked fun found later =>
      name ∈ marked.marks ∨ later.find? name = some found) ∧
    (∀ declaration, (Marking.declaredType sources declaration).Ends marked fun _ _ => True) ∧
    (∀ package written type,
      (Marking.instantiate sources package written type).Ends marked fun _ _ => True) ∧
    (∀ package value type,
      (Marking.convert sources package value type).Ends marked fun _ _ => True) ∧
    ((∀ other ∈ marked.marks, (sources.declared? other).isSome) → ∀ name,
      let plain := sources.lookupAmong (unmarked sources marked.marks) name
      (Marking.lookup sources name).run marked =
        some ((plain.run marked.memo).1, ⟨(plain.run marked.memo).2, marked.marks⟩)) ∧
    ∀ memo package use, (Marking.resolve sources package use).run ⟨memo, []⟩ =
      some (((sources.resolve package use).run memo).1,
        ⟨((sources.resolve package use).run memo).2, []⟩) := by
  obtain ⟨lookup, hfollows, hknown, -⟩ := exists_follows sources marked.marks
  refine ⟨fun package use => ?_, fun name => ?_, fun declaration => ?_, ?_, ?_,
    fun hmarks name => (lookupAmong_follows hmarks name marked.memo).1, ?_⟩
  · refine (resolve_follows hfollows package use).ends (or_iff_not_imp_left.2 fun hmarked => ?_)
    exact Option.isSome_of_eq_some (within_resolve hfollows package use marked.memo _ _
      (hknown _ hmarked marked.memo))
  · refine (hfollows name).ends (or_iff_not_imp_left.2 fun hmarked => ?_)
    exact hknown name hmarked marked.memo
  · exact (declaredType_follows hfollows declaration).ends trivial
  · intro package written type
    exact (instantiate_follows package (convertFields_follow hfollows package written) type).ends
      trivial
  · intro package value type
    exact (convert_follows hfollows package value type).ends trivial
  · intro memo package use
    have hall : unmarked sources [] = sources.allDeclared := by simp [unmarked]
    have hlookup : ∀ name, Follows [] (Marking.lookup sources name) (sources.lookupType name) := by
      intro name
      have hfollows : Follows [] (Marking.lookup sources name)
          (sources.lookupAmong (unmarked sources []) name) :=
            lookupAmong_follows (by simp) name
      rwa [hall] at hfollows
    exact (resolve_follows hlookup package use memo).1

/-- A declaration of `p.X` that uses itself in its default. -/
def selfReferring : TypeSources where
  program := {}
  index := .of []
    [⟨"p.X", [], [⟨"x", .annotationType "X", some (.nested ⟨"X", [], .start⟩)⟩], .start⟩]

/-- While `p.X` is marked it is not found, and with no marks it is there once in its own default. -/
theorem resolving_ends_selfReferring :
    let marked : Marked := ⟨{}, ["p.X"]⟩
    let use : AnnotationUse := ⟨"X", [], .start⟩
    let plain := selfReferring.lookupAmong (unmarked selfReferring ["p.X"]) "p.X"
    ((∀ other ∈ marked.marks, (selfReferring.declared? other).isSome) ∧
      (Marking.lookup selfReferring "p.X").run marked =
        some ((plain.run {}).1, ⟨(plain.run {}).2, ["p.X"]⟩)) ∧
      (plain.run {}).1.isNone ∧
      (Marking.resolve selfReferring "p" use).Ends marked (fun _ later =>
        selfReferring.fullName "p" "X" ∈ marked.marks ∨
          (later.find? (selfReferring.fullName "p" "X")).isSome) ∧
      ((selfReferring.resolve "p" use).run {}).1.text = "@p.X(x=@p.X)" := by
  intro marked use plain
  obtain ⟨hresolve, -, -, -, -, hlookup, -⟩ := resolving_ends selfReferring marked
  have hmarks : ∀ other ∈ marked.marks, (selfReferring.declared? other).isSome := by decide +kernel
  exact ⟨⟨hmarks, hlookup hmarks "p.X"⟩, by decide +kernel, hresolve "p" use, by decide +kernel⟩

end TypeSources

end ExternalAnnotations
