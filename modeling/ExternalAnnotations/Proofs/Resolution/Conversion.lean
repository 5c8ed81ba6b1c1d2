import ExternalAnnotations.Resolution.Basic
import Mathlib.Tactic

/-!
# Conversion with any lookup

Apart from looking up names, conversion only reports faults and does one thing after the other. A
relation between pieces of work that these steps keep is a `WorkRelation`. It holds of what two
lookups make of a written value if it holds of the lookups, in sources where names mean the same.
-/

namespace ExternalAnnotations

namespace Resolving

lemma run_pure {α : Type} (a : α) (memo : Memo) : (pure a : Resolving α).run memo = (a, memo) := rfl

lemma run_get (memo : Memo) : (get : Resolving Memo).run memo = (memo, memo) := rfl

lemma run_bind {α β : Type} (work : Resolving α) (next : α → Resolving β) (memo : Memo) :
    (work >>= next).run memo = (next (work.run memo).1).run (work.run memo).2 := rfl

end Resolving

/-- The value that something converted to, if it did. What does not fit is reported. -/
def acceptValue (typeName element : String) :
    Except ElementFault AnnotationValue → Resolving (Option AnnotationValue)
  | .ok value => return some value
  | .error fault => do
    reportFault typeName element fault
    return none

/-- What an element gets: the first value that is written for it if that fits, and its default if
none is written. -/
def AnnotationElement.value (typeName : String)
    (written : List (String × (ElementType → Converting AnnotationValue)))
    (element : AnnotationElement) : Resolving (Option AnnotationValue) :=
  match written.lookup element.name with
  | none => return element.default
  | some convert => do acceptValue typeName element.name (← (convert element.type).run)

lemma fillElements_cons (type : AnnotationType)
    (written : List (String × (ElementType → Converting AnnotationValue)))
    (element : AnnotationElement) (elements : List AnnotationElement) :
    fillElements type written (element :: elements) = do
      let value ← element.value type.name written
      let others ← fillElements type written elements
      return (value.map (element.name, ·)).toList ++ others := by
  rw [fillElements, AnnotationElement.value]
  cases written.lookup element.name with
  | none => cases element.default <;> rfl
  | some convert =>
    dsimp only
    rw [bind_assoc]
    congr 1
    funext result
    cases result <;> rfl

/-- The annotation type without what it may be put on, which its annotations do not show. -/
def AnnotationType.withoutTargets (type : AnnotationType) : AnnotationType :=
  { type with targets := [] }

namespace TypeSources

/-- In two sources names mean the same, and the annotation classes that they lead to have the same
elements. -/
structure SameNames (sources others : TypeSources) : Prop where
  index : others.index = sources.index
  fullName : others.fullName = sources.fullName
  enumValue : others.program.enumValue = sources.program.enumValue
  annotationClass : ∀ name,
    (others.annotationClass? name).map
        (fun c => (AnnotationType.ofClass others.program c).elements) =
      (sources.annotationClass? name).map
        fun c => (AnnotationType.ofClass sources.program c).elements

lemma SameNames.refl (sources : TypeSources) : sources.SameNames sources :=
  ⟨rfl, rfl, rfl, fun _ => rfl⟩

lemma SameNames.isSome_annotationClass? {sources others : TypeSources}
    (h : sources.SameNames others) (name : String) :
    (others.annotationClass? name).isSome = (sources.annotationClass? name).isSome := by
  have hsome := congrArg Option.isSome (h.annotationClass name)
  rwa [Option.isSome_map, Option.isSome_map] at hsome

end TypeSources

mutual

/-- The names of the annotations in a written value. -/
def WrittenValue.typeNames : WrittenValue → List String
  | .array items => WrittenValue.allTypeNames items
  | .nested use => use.typeNames
  | _ => []

def WrittenValue.allTypeNames : List WrittenValue → List String
  | [] => []
  | value :: values => value.typeNames ++ WrittenValue.allTypeNames values

/-- The names of an annotation as it is written and of those in it. -/
def AnnotationUse.typeNames : AnnotationUse → List String
  | ⟨typeName, values, _⟩ => typeName :: AnnotationUse.fieldTypeNames values

def AnnotationUse.fieldTypeNames : List (String × WrittenValue) → List String
  | [] => []
  | (_, value) :: fields => value.typeNames ++ AnnotationUse.fieldTypeNames fields

end

lemma lookup_of_forall₂ {α β : Type} {r : α → β → Prop} {items : List (String × α)}
    {others : List (String × β)} {name : String}
    (h : List.Forall₂ (fun item other => item.1 = other.1 ∧ r item.2 other.2) items others) :
    Option.Rel r (items.lookup name) (others.lookup name) := by
  induction h with
  | nil => exact .none
  | @cons item other items others hitem _ ih =>
    obtain ⟨first, a⟩ := item
    obtain ⟨second, b⟩ := other
    obtain ⟨rfl, hr⟩ := hitem
    simp only [List.lookup_cons]
    cases name == first with
    | true => exact .some hr
    | false => exact ih

lemma forall_mem_of_forall₂ {α β : Type} {relation : α → β → Prop} {property : β → Prop}
    {items : List α} {results : List β} (h : List.Forall₂ relation items results)
    (hp : ∀ a ∈ items, ∀ b, relation a b → property b) : ∀ b ∈ results, property b := by
  induction h with
  | nil =>
    intro b hmem
    contradiction
  | cons hab _ ih =>
    obtain ⟨ha, hp⟩ := List.forall_mem_cons.1 hp
    exact List.forall_mem_cons.2 ⟨ha _ hab, ih hp⟩

lemma map_of_forall₂ {α β γ : Type} {relation : α → β → Prop} {items : List α} {results : List β}
    {f : α → γ} {g : β → γ} (h : List.Forall₂ relation items results)
    (hfg : ∀ a ∈ items, ∀ b, relation a b → g b = f a) : results.map g = items.map f := by
  induction h with
  | nil => rfl
  | cons hab _ ih =>
    obtain ⟨ha, hfg⟩ := List.forall_mem_cons.1 hfg
    rw [List.map_cons, List.map_cons, ha _ hab, ih hfg]

lemma simpleValue_congr {program other : Program} (h : other.enumValue = program.enumValue)
    (value : WrittenValue) (type : ElementType) :
    simpleValue other value type = simpleValue program value type := by
  unfold simpleValue
  rw [h]

lemma convertValue_of_simple (sources : TypeSources) (lookup : TypeLookup) (package : String)
    {value : WrittenValue} {type : ElementType}
    (ha : ∀ items item, value = .array items → type = .array item → False)
    (hn : ∀ use, value = .nested use → False) :
    convertValue sources lookup package value type =
      promote (fun type => ExceptT.mk (pure (simpleValue sources.program value type))) type := by
  rw [convertValue]
  · exact hn
  · exact ha

lemma fillElements_withoutTargets (type : AnnotationType)
    (written : List (String × (ElementType → Converting AnnotationValue)))
    (elements : List AnnotationElement) :
    fillElements type.withoutTargets written elements = fillElements type written elements := by
  induction elements with
  | nil => rfl
  | cons element elements ih =>
    rw [fillElements, fillElements, ih]
    rfl

lemma instantiate_withoutTargets (type : AnnotationType)
    (written : List (String × (ElementType → Converting AnnotationValue))) :
    instantiate type.withoutTargets written = instantiate type written := by
  rw [instantiate, instantiate, fillElements_withoutTargets]
  rfl

/-- A relation between pieces of work that the steps of conversion keep. -/
structure WorkRelation where
  holds : ∀ {α : Type}, Resolving α → Resolving α → Prop
  pure : ∀ {α : Type} (a : α), holds (Pure.pure a) (Pure.pure a)
  bind : ∀ {α β : Type} {work other : Resolving α} {next next' : α → Resolving β},
    holds work other → (∀ a, holds (next a) (next' a)) → holds (work >>= next) (other >>= next')
  report : ∀ (typeName element : String) (fault : ElementFault),
    holds (reportFault typeName element fault) (reportFault typeName element fault)

namespace WorkRelation

variable (relation : WorkRelation)

section

variable {α β : Type}

lemma mapM {f g : α → Resolving β} {items : List α}
    (h : ∀ a ∈ items, relation.holds (f a) (g a)) :
    relation.holds (items.mapM f) (items.mapM g) := by
  induction items with
  | nil => exact relation.pure []
  | cons a items ih =>
    obtain ⟨hfirst, h⟩ := List.forall_mem_cons.1 h
    rw [List.mapM_cons, List.mapM_cons]
    exact relation.bind hfirst fun b => relation.bind (ih h) fun bs => relation.pure (b :: bs)

lemma bindExcept {ε : Type} {work other : ExceptT ε Resolving α}
    {next next' : α → ExceptT ε Resolving β} (h : relation.holds work.run other.run)
    (hn : ∀ a, relation.holds (next a).run (next' a).run) :
    relation.holds (work >>= next).run (other >>= next').run := by
  rw [ExceptT.run_bind, ExceptT.run_bind]
  apply relation.bind h
  intro result
  cases result with
  | ok a => exact hn a
  | error fault => exact relation.pure _

lemma lift {ε : Type} {work other : Resolving α} (h : relation.holds work other) :
    relation.holds (liftM work : ExceptT ε Resolving α).run
      (liftM other : ExceptT ε Resolving α).run :=
  relation.bind h fun a => relation.pure (Except.ok (ε := ε) a)

end

/-- How values are converted, for the same elements. -/
def Fields : List (String × (ElementType → Converting AnnotationValue)) →
    List (String × (ElementType → Converting AnnotationValue)) → Prop :=
  List.Forall₂ fun field field' => field.1 = field'.1 ∧
    ∀ type, relation.holds (field.2 type).run (field'.2 type).run

section

variable {written written' : List (String × (ElementType → Converting AnnotationValue))}
  (type : AnnotationType) (h : relation.Fields written written')
include h

lemma fillElements_holds (elements : List AnnotationElement) :
    relation.holds (fillElements type written elements) (fillElements type written' elements) := by
  induction elements with
  | nil => exact relation.pure []
  | cons element elements ih =>
    have hfield : Option.Rel (fun convert convert' => ∀ type,
        relation.holds (ExceptT.run (convert type)) (ExceptT.run (convert' type)))
          (written.lookup element.name) (written'.lookup element.name) := lookup_of_forall₂ h
    have hvalue : relation.holds (element.value type.name written)
        (element.value type.name written') := by
      unfold AnnotationElement.value
      generalize written.lookup element.name = convert, written'.lookup element.name = convert'
        at hfield ⊢
      cases hfield with
      | none => exact relation.pure element.default
      | some hconvert =>
        apply relation.bind (hconvert element.type)
        intro result
        cases result with
        | ok value => exact relation.pure (some value)
        | error fault =>
          exact relation.bind (relation.report _ _ fault) fun _ => relation.pure none
    rw [fillElements_cons, fillElements_cons]
    apply relation.bind hvalue
    intro value
    exact relation.bind ih fun _ => relation.pure _

lemma instantiate_holds :
    relation.holds (instantiate type written) (instantiate type written') := by
  refine relation.bind ?_ fun _ =>
    relation.bind (relation.fillElements_holds type h type.elements) fun _ => relation.pure _
  induction h with
  | nil => exact relation.pure _
  | @cons field field' fields fields' hfield _ ih =>
    obtain ⟨first, convert⟩ := field
    obtain ⟨second, convert'⟩ := field'
    obtain ⟨rfl, -⟩ := hfield
    refine relation.bind ?_ fun _ => ih
    dsimp only
    split
    · exact relation.report _ _ _
    · exact relation.pure _

end

lemma promote_holds {convert convert' : ElementType → Converting AnnotationValue}
    (h : ∀ type, relation.holds (convert type).run (convert' type).run) (type : ElementType) :
    relation.holds (promote convert type).run (promote convert' type).run := by
  induction type with
  | array item ih =>
    rw [promote, promote]
    exact relation.bindExcept ih fun _ => relation.pure _
  | primitive | string | classLiteral | enum | annotationType => exact h _

/-- The lookups of a name are related, where the targets of what is found do not count. -/
def LooksUp (lookup lookup' : TypeLookup) (name : String) : Prop :=
  relation.holds (do return (← lookup name).map (·.withoutTargets))
    (do return (← lookup' name).map (·.withoutTargets))

variable {relation} in
lemma LooksUp.of_holds {lookup lookup' : TypeLookup} {name : String}
    (h : relation.holds (lookup name) (lookup' name)) : relation.LooksUp lookup lookup' name :=
  relation.bind h fun _ => relation.pure _

variable {relation} in
lemma LooksUp.bind {α : Type} {lookup lookup' : TypeLookup} {name : String}
    (h : relation.LooksUp lookup lookup' name) {next next' : Option AnnotationType → Resolving α}
    (hn : ∀ found, relation.holds (next found) (next' found))
    (hnext : ∀ found, next (found.map (·.withoutTargets)) = next found)
    (hnext' : ∀ found, next' (found.map (·.withoutTargets)) = next' found) :
    relation.holds (lookup name >>= next) (lookup' name >>= next') := by
  have hbound := relation.bind h hn
  simp only [bind_assoc, pure_bind, hnext, hnext'] at hbound
  exact hbound

section

variable {sources others : TypeSources} {lookup lookup' : TypeLookup}

/-- The lookups of some names, as they are meant in a package, are related. -/
def Lookups (sources : TypeSources) (lookup lookup' : TypeLookup) (package : String)
    (names : List String) : Prop :=
  ∀ name ∈ names, relation.LooksUp lookup lookup' (sources.fullName package name)

lemma convertSimple_holds (hs : sources.SameNames others) (package : String)
    {value : WrittenValue} {type : ElementType}
    (ha : ∀ items item, value = .array items → type = .array item → False)
    (hn : ∀ use, value = .nested use → False) :
    relation.holds (convertValue others lookup package value type).run
      (convertValue sources lookup' package value type).run := by
  rw [convertValue_of_simple _ _ _ ha hn, convertValue_of_simple _ _ _ ha hn]
  apply relation.promote_holds
  intro type
  rw [simpleValue_congr hs.enumValue]
  exact relation.pure _

mutual

lemma convertValue_holds (hs : sources.SameNames others) (package : String) :
    (value : WrittenValue) →
    relation.Lookups sources lookup lookup' package value.typeNames → (type : ElementType) →
      relation.holds (convertValue others lookup package value type).run
        (convertValue sources lookup' package value type).run
  | .array items, h, type => by
    cases type with
    | array item =>
      rw [convertValue, convertValue]
      exact relation.bindExcept (convertItems_holds hs package items h item)
        fun _ => relation.pure _
    | primitive | string | classLiteral | enum | annotationType =>
      exact relation.convertSimple_holds hs package (by simp) (by simp)
  | .nested use, h, type => by
    rw [convertValue, convertValue]
    refine relation.promote_holds (fun type => ?_) type
    cases type with
    | annotationType expected =>
      simp only [hs.fullName]
      split
      · exact relation.bindExcept (relation.lift (applyUse_holds hs package use h))
          fun _ => relation.pure _
      · exact relation.pure _
    | primitive | string | classLiteral | enum | array => exact relation.pure _
  | .bool _, _, _ | .int _, _, _ | .float _, _, _ | .char _, _, _ | .string _, _, _
  | .name _, _, _ | .classLiteral _, _, _ =>
    relation.convertSimple_holds hs package (by simp) (by simp)

lemma convertItems_holds (hs : sources.SameNames others) (package : String) :
    (values : List WrittenValue) →
    relation.Lookups sources lookup lookup' package (WrittenValue.allTypeNames values) →
      (type : ElementType) →
        relation.holds (convertItems others lookup package values type).run
          (convertItems sources lookup' package values type).run
  | [], _, type => by
    rw [convertItems, convertItems]
    exact relation.pure _
  | value :: values, h, type => by
    rw [convertItems, convertItems]
    obtain ⟨hvalue, hvalues⟩ := List.forall_mem_append.1 h
    exact relation.bindExcept (convertValue_holds hs package value hvalue type) fun _ =>
      relation.bindExcept (convertItems_holds hs package values hvalues type)
        fun _ => relation.pure _

lemma convertFields_hold (hs : sources.SameNames others) (package : String) :
    (fields : List (String × WrittenValue)) →
    relation.Lookups sources lookup lookup' package (AnnotationUse.fieldTypeNames fields) →
      relation.Fields (convertFields others lookup package fields)
        (convertFields sources lookup' package fields)
  | [], _ => by
    rw [convertFields, convertFields]
    exact .nil
  | (_, value) :: fields, h => by
    rw [convertFields, convertFields]
    obtain ⟨hvalue, hfields⟩ := List.forall_mem_append.1 h
    exact .cons ⟨rfl, convertValue_holds hs package value hvalue⟩
      (convertFields_hold hs package fields hfields)

lemma applyUse_holds (hs : sources.SameNames others) (package : String) : (use : AnnotationUse) →
    relation.Lookups sources lookup lookup' package use.typeNames →
      relation.holds (applyUse others lookup package use)
        (applyUse sources lookup' package use)
  | ⟨typeName, values, _⟩, h => by
    unfold applyUse
    obtain ⟨hname, hvalues⟩ := List.forall_mem_cons.1 h
    simp only [hs.fullName]
    refine hname.bind (fun found => ?_) (fun found => ?_) fun found => ?_
    · cases found with
      | none => exact relation.pure _
      | some type =>
        exact relation.instantiate_holds type (convertFields_hold hs package values hvalues)
    · cases found with
      | none => rfl
      | some type => exact instantiate_withoutTargets type _
    · cases found with
      | none => rfl
      | some type => exact instantiate_withoutTargets type _

end

end

end WorkRelation

end ExternalAnnotations
