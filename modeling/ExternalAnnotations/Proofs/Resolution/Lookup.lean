import ExternalAnnotations.Proofs.Index.Answers
import ExternalAnnotations.Proofs.Resolution.Conversion

/-!
# Looking up in any order

`TypeSources.typeAmong` finds an annotation type without a memo. What it finds depends only on which
declarations are available among those that a name leads to. A lookup with a memo takes the same
steps, and what is made of the declarations that it finds depends on what it finds for the names in
their defaults, and on nothing else of the sources than their names.
-/

namespace ExternalAnnotations

namespace TypeSources

variable (sources : TypeSources)

/-- The declaration that a name is looked up in. A class of the program goes before it. -/
def declared? (name : String) : Option Declaration :=
  if (sources.annotationClass? name).isSome then none else sources.index.declaration? name

/-- The names of the annotation types in the defaults of a declaration. -/
def defaultNames (declaration : Declaration) : List String :=
  declaration.elements.flatMap fun element =>
    (element.default.elim [] (·.typeNames)).map (sources.fullName (packageOf declaration.name))

/-- A name is declared and the other one is in the defaults of its declaration. -/
def Uses (name other : String) : Prop :=
  ∃ declaration, sources.declared? name = some declaration ∧
    other ∈ sources.defaultNames declaration

/-- A name is in the defaults of a declaration, or in those of one that is used there. -/
def Reaches : String → String → Prop := Relation.ReflTransGen sources.Uses

/-- The annotation type of a name but for its targets, given the declarations available. -/
def typeAmong (sources : TypeSources) (available : List String) (name : String) :
    Option AnnotationType :=
  match sources.annotationClass? name with
  | some c => some (AnnotationType.ofClass sources.program c).withoutTargets
  | none =>
    match sources.index.declaration? name with
    | none => (AnnotationType.builtin? name).map (·.withoutTargets)
    | some declaration =>
      if listed : name ∈ available then
        have := length_without_lt listed
        let type := (sources.declaredType (fun name' =>
          pure (sources.typeAmong (without available name) name')) declaration).run {}
        some type.1.withoutTargets
      else none
termination_by available.length

/-- The names of all declarations. -/
def allDeclared : List String := sources.index.declarations.map (·.name)

end TypeSources

/-! ### Declarations -/

namespace TypeSources

variable {sources others : TypeSources}

section

variable (hs : sources.SameNames others)
include hs

lemma SameNames.fullType (package : String) (type : ElementType) :
    others.fullType package type = sources.fullType package type := by
  induction type with
  | array item ih => rw [TypeSources.fullType, TypeSources.fullType, ih]
  | annotationType name => rw [TypeSources.fullType, TypeSources.fullType, hs.fullName]
  | primitive | string | classLiteral | enum => rfl

lemma SameNames.metaConstants? (declaration : Declaration) (typeName : String) :
    others.metaConstants? declaration typeName = sources.metaConstants? declaration typeName := by
  simp only [TypeSources.metaConstants?, hs.fullName]

lemma SameNames.declaredRetention (declaration : Declaration) :
    others.declaredRetention declaration = sources.declaredRetention declaration := by
  rw [TypeSources.declaredRetention, TypeSources.declaredRetention, hs.metaConstants?]

lemma SameNames.declaredTargets (declaration : Declaration) :
    others.declaredTargets declaration = sources.declaredTargets declaration := by
  rw [TypeSources.declaredTargets, TypeSources.declaredTargets, hs.metaConstants?]

lemma SameNames.declared? (name : String) : others.declared? name = sources.declared? name := by
  rw [TypeSources.declared?, TypeSources.declared?, hs.isSome_annotationClass?, hs.index]

end

end TypeSources

section

variable (relation : WorkRelation) {sources others : TypeSources} (hs : sources.SameNames others)
  {lookup lookup' : TypeLookup}
include hs

lemma WorkRelation.declaredElement_holds (typeName : String) (element : ElementDeclaration)
    (h : relation.Lookups sources lookup lookup' (packageOf typeName)
      (element.default.elim [] (·.typeNames))) :
    relation.holds (others.declaredElement lookup typeName element)
      (sources.declaredElement lookup' typeName element) := by
  rw [TypeSources.declaredElement, TypeSources.declaredElement, hs.fullType]
  cases hd : element.default with
  | none => exact relation.pure _
  | some written =>
    rw [hd] at h
    apply relation.bind (relation.convertValue_holds hs _ written h _)
    intro result
    cases result with
    | ok value => exact relation.pure _
    | error fault =>
      exact relation.bind (relation.report _ _ fault) fun _ => relation.pure _

lemma WorkRelation.declaredType_holds (declaration : Declaration)
    (h : ∀ name ∈ sources.defaultNames declaration, relation.LooksUp lookup lookup' name) :
    relation.holds (others.declaredType lookup declaration)
      (sources.declaredType lookup' declaration) := by
  rw [TypeSources.declaredType, TypeSources.declaredType, hs.declaredRetention, hs.declaredTargets]
  refine relation.bind (relation.mapM fun element hmem => ?_) fun _ => relation.pure _
  apply relation.declaredElement_holds hs
  intro name hname
  exact h _ (List.mem_flatMap.2 ⟨element, hmem, List.mem_map_of_mem hname⟩)

end

/-- Equality is kept by all the steps of conversion. -/
def WorkRelation.equality : WorkRelation where
  holds := Eq
  pure := fun _ => rfl
  bind := by
    intro α β work other next next' h hn
    rw [h, funext hn]
  report := fun _ _ _ => rfl

lemma looksUp_equality (lookup : TypeLookup) (name : String) :
    WorkRelation.equality.LooksUp lookup lookup name := Eq.refl _

namespace TypeSources

variable {sources others : TypeSources} (hs : sources.SameNames others) (lookup : TypeLookup)
include hs

lemma SameNames.applyUse (package : String) (use : AnnotationUse) :
    applyUse others lookup package use = applyUse sources lookup package use :=
  WorkRelation.equality.applyUse_holds hs package use fun _ _ => looksUp_equality lookup _

lemma SameNames.declaredType (declaration : Declaration) :
    others.declaredType lookup declaration = sources.declaredType lookup declaration :=
  WorkRelation.equality.declaredType_holds hs declaration fun _ _ => looksUp_equality lookup _

end TypeSources

/-! ### Work that does not look at its memo -/

/-- From every memo of a kind, the first work gives what the second gives from any memo, and it
leaves a memo of the kind. -/
def Resolving.Matches {α : Type} (kind : Memo → Prop) (work other : Resolving α) : Prop :=
  ∀ memo, kind memo → (∀ memo', (work.run memo).1 = (other.run memo').1) ∧ kind (work.run memo).2

/-- The kind of a memo does not depend on what was reported. -/
def IgnoresReports (kind : Memo → Prop) : Prop :=
  ∀ memo diagnostic, kind memo → kind (memo.report diagnostic)

namespace Resolving.Matches

variable {α β : Type} {kind : Memo → Prop}

lemma pure (a : α) : Matches kind (Pure.pure a) (Pure.pure a) :=
  fun _ h => ⟨fun _ => rfl, h⟩

lemma bind {work other : Resolving α} {next next' : α → Resolving β}
    (h : Matches kind work other) (hn : ∀ a, Matches kind (next a) (next' a)) :
    Matches kind (work >>= next) (other >>= next') := by
  intro memo hk
  obtain ⟨hvalue, hk⟩ := h memo hk
  obtain ⟨hresult, hk⟩ := hn (work.run memo).1 (work.run memo).2 hk
  refine ⟨fun memo' => ?_, hk⟩
  have hother := hresult (other.run memo').2
  rw [hvalue memo'] at hother
  exact (congrArg (fun a => ((next a).run (work.run memo).2).1) (hvalue memo')).trans hother

end Resolving.Matches

/-- To match, as a relation that conversion keeps. -/
def WorkRelation.matching {kind : Memo → Prop} (hkind : IgnoresReports kind) : WorkRelation where
  holds := Resolving.Matches kind
  pure := .pure
  bind := .bind
  report := fun _ _ _ memo h => ⟨fun _ => rfl, hkind memo _ h⟩

/-- What looking up a name gives, but for the targets, does not depend on the memo. -/
def LookupMatches (kind : Memo → Prop) (lookup : TypeLookup)
    (known : String → Option AnnotationType) (name : String) : Prop :=
  Resolving.Matches kind (do return (← lookup name).map (·.withoutTargets)) (pure (known name))

lemma LookupMatches.intro {kind : Memo → Prop} {lookup : TypeLookup}
    {known : String → Option AnnotationType} {name : String}
    (h : ∀ memo, kind memo → ((lookup name).run memo).1.map (·.withoutTargets) = known name ∧
      kind ((lookup name).run memo).2) : LookupMatches kind lookup known name :=
  fun memo hk => ⟨fun _ => (h memo hk).1, (h memo hk).2⟩

section

variable {kind : Memo → Prop} (hkind : IgnoresReports kind) {sources others : TypeSources}
  (hs : sources.SameNames others) {lookup : TypeLookup} {known : String → Option AnnotationType}

lemma LookupMatches.looksUp {name : String} (h : LookupMatches kind lookup known name) :
    (WorkRelation.matching hkind).LooksUp lookup (fun name => pure (known name)) name := by
  intro memo hk
  obtain ⟨hfound, hk'⟩ := h memo hk
  refine ⟨fun memo' => (hfound memo').trans ?_, hk'⟩
  have hknown : ((lookup name).run memo).1.map (·.withoutTargets) = known name := hfound memo'
  change known name = (known name).map (·.withoutTargets)
  rw [← hknown, Option.map_map]
  rfl

include hkind hs

lemma applyUse_matches (package : String) (use : AnnotationUse)
    (h : ∀ name ∈ use.typeNames, LookupMatches kind lookup known (sources.fullName package name)) :
    Resolving.Matches kind (applyUse others lookup package use)
      (applyUse sources (fun name => pure (known name)) package use) :=
  (WorkRelation.matching hkind).applyUse_holds hs package use
    fun name hname => (h name hname).looksUp hkind

lemma TypeSources.declaredType_matches (declaration : Declaration)
    (h : ∀ name ∈ sources.defaultNames declaration, LookupMatches kind lookup known name) :
    Resolving.Matches kind
      (do return (← others.declaredType lookup declaration).withoutTargets)
      (do return (← sources.declaredType (fun name => pure (known name))
        declaration).withoutTargets) :=
  ((WorkRelation.matching hkind).declaredType_holds hs declaration
    fun name hname => (h name hname).looksUp hkind).bind fun _ => .pure _

end

/-! ### The pure lookup -/

namespace TypeSources

variable {sources : TypeSources}

lemma typeAmong_of_class {c : Class} {name : String} (h : sources.annotationClass? name = some c)
    (available : List String) : sources.typeAmong available name =
      some (AnnotationType.ofClass sources.program c).withoutTargets := by
  rw [typeAmong, h]

lemma typeAmong_of_missing {name : String} (h : sources.annotationClass? name = none)
    (hd : sources.index.declaration? name = none) (available : List String) :
    sources.typeAmong available name =
      (AnnotationType.builtin? name).map (·.withoutTargets) := by
  rw [typeAmong, h]
  simp only [hd]

lemma declared?_eq_some_iff {name : String} {declaration : Declaration} :
    sources.declared? name = some declaration ↔
      sources.annotationClass? name = none ∧
        sources.index.declaration? name = some declaration := by
  unfold declared?
  cases sources.annotationClass? name <;> simp

lemma typeAmong_of_declared {name : String} {declaration : Declaration}
    (h : sources.declared? name = some declaration) (available : List String) :
    sources.typeAmong available name =
      if name ∈ available then
        some ((sources.declaredType
          (fun other => pure (sources.typeAmong (without available name) other))
          declaration).run {}).1.withoutTargets
      else none := by
  obtain ⟨hc, hd⟩ := declared?_eq_some_iff.1 h
  rw [typeAmong, hc]
  simp only [hd]
  split <;> rfl

lemma typeAmong_of_undeclared {name : String} (h : sources.declared? name = none)
    (available others : List String) :
    sources.typeAmong available name = sources.typeAmong others name := by
  cases hc : sources.annotationClass? name with
  | some c => rw [typeAmong_of_class hc, typeAmong_of_class hc]
  | none =>
    have hd : sources.index.declaration? name = none := by simpa [declared?, hc] using h
    rw [typeAmong_of_missing hc hd, typeAmong_of_missing hc hd]

lemma map_withoutTargets_typeAmong (available : List String) (name : String) :
    (sources.typeAmong available name).map (·.withoutTargets) =
      sources.typeAmong available name := by
  rw [typeAmong]
  split
  · rfl
  · split
    · rw [Option.map_map]
      rfl
    · split <;> rfl

/-- What is found depends only on which of the declarations that are reached are available. -/
lemma typeAmong_congr {available others : List String} {name : String}
    (h : ∀ reached, sources.Reaches name reached → (sources.declared? reached).isSome →
      (reached ∈ available ↔ reached ∈ others)) :
    sources.typeAmong available name = sources.typeAmong others name := by
  -- The declaration is not available while its defaults are looked up.
  induction hn : available.length using Nat.strong_induction_on
    generalizing available others name with
  | _ n ih =>
    cases hd : sources.declared? name with
    | none => exact typeAmong_of_undeclared hd _ _
    | some declaration =>
      rw [typeAmong_of_declared hd, typeAmong_of_declared hd]
      have hiff := h name .refl (by simp [hd])
      by_cases ha : name ∈ available
      · rw [if_pos ha, if_pos (hiff.1 ha)]
        have hused : ∀ used ∈ sources.defaultNames declaration, LookupMatches (fun _ => True)
            (fun other => pure (sources.typeAmong (without available name) other))
            (sources.typeAmong (without others name)) used := by
          intro used hu memo hk
          refine ⟨fun memo' => (map_withoutTargets_typeAmong _ _).trans ?_, hk⟩
          refine ih _ (hn ▸ length_without_lt ha) (fun reached hr hsome => ?_) rfl
          have hr : sources.Reaches name reached := .head ⟨declaration, hd, hu⟩ hr
          simp [without, h reached hr hsome]
        have hm := declaredType_matches (fun _ _ _ => trivial) (SameNames.refl sources)
          declaration hused
        exact congrArg some ((hm {} trivial).1 {})
      · rw [if_neg ha, if_neg (fun ho => ha (hiff.2 ho))]

end TypeSources

/-! ### Lookups with a memo -/

/-- All that a memo knows has a property, and the declarations in it are available. -/
structure Memo.Keeps (sources : TypeSources) (holds : String → Option AnnotationType → Prop)
    (available : List String) (memo : Memo) : Prop where
  known : ∀ name found, memo.find? name = some found → holds name found
  available : ∀ name found, memo.find? name = some found → (sources.declared? name).isSome →
    name ∈ available

namespace Memo.Keeps

variable {sources : TypeSources} {holds : String → Option AnnotationType → Prop}
  {available : List String} {memo : Memo}

lemma of_known_eq {other : Memo} (h : memo.Keeps sources holds available)
    (ho : other.known = memo.known) : other.Keeps sources holds available := by
  have hf : other.find? = memo.find? := by
    funext name
    rw [find?, find?, ho]
  exact ⟨fun name found => hf ▸ h.known name found, fun name found => hf ▸ h.available name found⟩

lemma ignoresReports : IgnoresReports (Keeps sources holds available) :=
  fun _ _ h => h.of_known_eq rfl

lemma remember (h : memo.Keeps sources holds available) {name : String}
    {found : Option AnnotationType} (hf : holds name found)
    (ha : (sources.declared? name).isSome → name ∈ available) :
    (memo.remember name found).Keeps sources holds available := by
  have hother : ∀ other found', (memo.remember name found).find? other = some found' →
      (other = name ∧ found' = found) ∨ memo.find? other = some found' := by
    intro other found' ho
    simp only [find?, Memo.remember, List.lookup_cons] at ho
    by_cases he : other = name
    · simp only [he, beq_self_eq_true, Option.some.injEq] at ho
      exact .inl ⟨he, ho.symm⟩
    · rw [beq_eq_false_iff_ne.2 he] at ho
      exact .inr ho
  constructor
  · intro other found' ho
    rcases hother other found' ho with ⟨rfl, rfl⟩ | ho
    · exact hf
    · exact h.known other found' ho
  · intro other found' ho hd
    rcases hother other found' ho with ⟨rfl, rfl⟩ | ho
    · exact ha hd
    · exact h.available other found' ho hd

lemma without (h : memo.Keeps sources holds available) {name : String}
    (hf : memo.find? name = none) : memo.Keeps sources holds (without available name) := by
  refine ⟨h.known, fun other found ho hd => ?_⟩
  have hne : other ≠ name := by
    rintro rfl
    rw [hf] at ho
    contradiction
  simpa [ExternalAnnotations.without, hne] using h.available other found ho hd

lemma mono (h : memo.Keeps sources holds available) {others : List String}
    (ho : ∀ name ∈ available, name ∈ others) : memo.Keeps sources holds others :=
  ⟨h.known, fun name found hf hd => ho name (h.available name found hf hd)⟩

lemma conclude (h : memo.Keeps sources holds available) {name : String}
    {found : Option AnnotationType} (hf : holds name found)
    (ha : (sources.declared? name).isSome → name ∈ available) :
    ((conclude name found).run memo).1 = found ∧
      ((ExternalAnnotations.conclude name found).run memo).2.Keeps sources holds available := by
  cases found with
  | none => exact ⟨rfl, (ignoresReports memo _ h).remember hf ha⟩
  | some type => exact ⟨rfl, h.remember hf ha⟩

end Memo.Keeps

namespace TypeSources

variable {sources : TypeSources}

lemma mem_allDeclared {name : String} (h : (sources.declared? name).isSome) :
    name ∈ sources.allDeclared := by
  obtain ⟨declaration, hd⟩ := Option.isSome_iff_exists.1 h
  obtain ⟨hmem, hname⟩ := Index.of_declaration? (declared?_eq_some_iff.1 hd).2
  exact List.mem_map.2 ⟨declaration, hmem, hname⟩

lemma name_of_declared {name : String} {declaration : Declaration}
    (h : sources.declared? name = some declaration) : declaration.name = name :=
  (Index.of_declaration? (declared?_eq_some_iff.1 h).2).2

/-- A name whose declarations are all available is found as if no declaration were worked on. -/
lemma typeAmong_eq_all {available : List String} {name : String}
    (h : ∀ reached, sources.Reaches name reached → (sources.declared? reached).isSome →
      reached ∈ available) :
    sources.typeAmong available name = sources.typeAmong sources.allDeclared name :=
  typeAmong_congr fun reached hr hd => ⟨fun _ => mem_allDeclared hd, fun _ => h reached hr hd⟩

section

variable {available : List String} {name : String} {memo : Memo}

lemma run_lookupAmong_of_known {found : Option AnnotationType}
    (hf : memo.find? name = some found) :
    (sources.lookupAmong available name).run memo = (found, memo) := by
  rw [lookupAmong, Resolving.run_bind, Resolving.run_get]
  simp only [hf]
  rfl

variable (hf : memo.find? name = none)
include hf

lemma run_lookupAmong_of_class {c : Class} (hc : sources.annotationClass? name = some c) :
    (sources.lookupAmong available name).run memo =
      (conclude name (some (.ofClass sources.program c))).run memo := by
  rw [lookupAmong, Resolving.run_bind, Resolving.run_get]
  simp only [hf, hc]

lemma run_lookupAmong_of_missing (hc : sources.annotationClass? name = none)
    (hd : sources.index.declaration? name = none) :
    (sources.lookupAmong available name).run memo =
      (conclude name (AnnotationType.builtin? name)).run memo := by
  rw [lookupAmong, Resolving.run_bind, Resolving.run_get]
  simp only [hf, hc, hd]

lemma run_lookupAmong_of_declared {declaration : Declaration}
    (hd : sources.declared? name = some declaration) (ha : name ∈ available) :
    (sources.lookupAmong available name).run memo =
      (do conclude name (some (← sources.declaredType
        (sources.lookupAmong (without available name)) declaration))).run memo := by
  obtain ⟨hc, hd⟩ := declared?_eq_some_iff.1 hd
  rw [lookupAmong, Resolving.run_bind, Resolving.run_get]
  simp only [hf, hc, hd, ha, dif_pos]

lemma run_lookupAmong_of_unavailable (hd : (sources.declared? name).isSome)
    (ha : name ∉ available) : (sources.lookupAmong available name).run memo = (none, memo) := by
  obtain ⟨declaration, hd⟩ := Option.isSome_iff_exists.1 hd
  obtain ⟨hc, hd⟩ := declared?_eq_some_iff.1 hd
  rw [lookupAmong, Resolving.run_bind, Resolving.run_get]
  simp only [hf, hc, hd, ha, dif_neg, not_false_eq_true]
  rfl

end

/-- What an annotation written in a package means, whatever was looked up before. -/
def meant (sources : TypeSources) (package : String) (use : AnnotationUse) : AnnotationInstance :=
  ((applyUse sources (fun name =>
    pure (sources.typeAmong sources.allDeclared name)) package use).run {}).1

end TypeSources

end ExternalAnnotations
