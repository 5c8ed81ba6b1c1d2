import ExternalAnnotations.Proofs.Resolution.Outline

/-!
# Queries

A memo may come from any queries that went before. What is found for a name need not be the same
whatever they were, but a `LookupInvariant` holds of it in every case. One such invariant is that
the outline of what is found depends on the name only.
-/

namespace ExternalAnnotations

namespace TypeSources

variable (sources : TypeSources)

/-- The memos that queries lead to from one that knows nothing. What was reported may be taken away
in between. -/
inductive Queried : Memo → Prop
  | start (diagnostics : List Diagnostic) : Queried { known := [], diagnostics }
  | lookupType {memo : Memo} (h : Queried memo) (name : String) :
      Queried ((sources.lookupType name).run memo).2
  | resolve {memo : Memo} (h : Queried memo) (package : String) (use : AnnotationUse) :
      Queried ((sources.resolve package use).run memo).2
  | instantiate {memo : Memo} (h : Queried memo) (package : String) (type : AnnotationType)
      (values : List (String × WrittenValue)) :
      Queried
        ((instantiate type (convertFields sources sources.lookupType package values)).run memo).2
  | drain {memo : Memo} (h : Queried memo) (diagnostics : List Diagnostic) :
      Queried { memo with diagnostics }

/-- What is found for a name after queries that led to a memo. -/
def found (memo : Memo) (name : String) : Option AnnotationType :=
  ((sources.lookupType name).run memo).1

/-- No declaration that goes by the name is being worked on. -/
def Available (available : List String) (name : String) : Prop :=
  (sources.declared? name).isSome → name ∈ available

/-- All declarations that are being worked on use a name, directly or through others. -/
def Asked (available : List String) (name : String) : Prop :=
  ∀ other, (sources.declared? other).isSome → other ∉ available → sources.Reaches other name

/-- What is found for an available name has a property. Nothing is found for any other. -/
def Answers (holds : String → Option AnnotationType → Prop) (available : List String)
    (name : String) (found : Option AnnotationType) : Prop :=
  (sources.Available available name → holds name found) ∧
    (¬sources.Available available name → found = none)

variable {sources} {available : List String} {name : String}

lemma Answers.none_or {holds : String → Option AnnotationType → Prop}
    {found : Option AnnotationType} (h : sources.Answers holds available name found) :
    found = none ∨ holds name found := by
  by_cases ha : sources.Available available name
  · exact .inr (h.1 ha)
  · exact .inl (h.2 ha)

lemma asked_allDeclared (name : String) : sources.Asked sources.allDeclared name :=
  fun _ hd hna => absurd (mem_allDeclared hd) hna

lemma Asked.without (h : sources.Asked available name) {declaration : Declaration}
    (hd : sources.declared? name = some declaration) {used : String}
    (hu : used ∈ sources.defaultNames declaration) :
    sources.Asked (without available name) used := by
  intro other ho hna
  have huses : sources.Uses name used := ⟨declaration, hd, hu⟩
  by_cases he : other = name
  · exact he ▸ .single huses
  · have hna : other ∉ available := fun hmem =>
      hna (by simp [ExternalAnnotations.without, hmem, he])
    exact (h other ho hna).tail huses

end TypeSources

/-! ### What every lookup keeps up -/

/-- A property of what is found for names. A declaration has it if those that it uses have it, as
far as they are found while it is worked on. -/
structure LookupInvariant (sources : TypeSources) where
  holds : String → Option AnnotationType → Prop
  ofClass : ∀ {name c}, sources.annotationClass? name = some c →
    holds name (some (.ofClass sources.program c))
  missing : ∀ {name}, sources.annotationClass? name = none →
    sources.index.declaration? name = none → holds name (AnnotationType.builtin? name)
  declared : ∀ {available name declaration kind lookup}, sources.Asked available name →
    sources.declared? name = some declaration → name ∈ available → IgnoresReports kind →
      (∀ used ∈ sources.defaultNames declaration, Resolving.Ensures kind (lookup used)
        (sources.Answers holds (without available name) used)) →
        Resolving.Ensures kind (sources.declaredType lookup declaration) fun type =>
          holds name (some type)

namespace LookupInvariant

variable {sources : TypeSources} (invariant : LookupInvariant sources)

lemma conclude_ensures {available : List String} {name : String}
    (ha : sources.Available available name) {found : Option AnnotationType}
    (hf : invariant.holds name found) :
    Resolving.Ensures (Memo.Keeps sources invariant.holds available) (conclude name found)
      (sources.Answers invariant.holds available name) := by
  intro memo hk
  obtain ⟨hresult, hk⟩ := hk.conclude hf ha
  rw [hresult]
  exact ⟨⟨fun _ => hf, fun hna => absurd ha hna⟩, hk⟩

section

variable {others : TypeSources} (hs : sources.SameNames others)
  (hclass : ∀ {name c}, others.annotationClass? name = some c →
    invariant.holds name (some (.ofClass others.program c)))
include hs hclass

/-- Whatever a memo with the property knows, what is looked up has the property too. This is so in
all sources with the same names, if their annotation classes have it. -/
lemma lookupAmong_ensures {available : List String} {name : String}
    (hasked : sources.Asked available name) :
    Resolving.Ensures (Memo.Keeps sources invariant.holds available)
      (others.lookupAmong available name) (sources.Answers invariant.holds available name) := by
  -- Each declaration that is worked on is one fewer that is available.
  induction hn : available.length using Nat.strong_induction_on generalizing available name with
  | _ n ih =>
    intro memo hk
    cases hf : memo.find? name with
    | some found =>
      rw [TypeSources.run_lookupAmong_of_known hf]
      exact ⟨⟨fun _ => hk.known name found hf,
        fun hna => absurd (hk.available name found hf) hna⟩, hk⟩
    | none =>
      have hdeclared := hs.declared? name
      cases hd : sources.declared? name with
      | none =>
        have ha : sources.Available available name := by simp [TypeSources.Available, hd]
        cases hc : others.annotationClass? name with
        | some c =>
          rw [TypeSources.run_lookupAmong_of_class hf hc]
          exact invariant.conclude_ensures ha (hclass hc) memo hk
        | none =>
          have hc' : sources.annotationClass? name = none := by
            have hsome := hs.isSome_annotationClass? name
            rw [hc] at hsome
            simpa using hsome
          have hd : sources.index.declaration? name = none := by
            simpa [TypeSources.declared?, hc'] using hd
          rw [TypeSources.run_lookupAmong_of_missing hf hc (hs.index ▸ hd)]
          exact invariant.conclude_ensures ha (invariant.missing hc' hd) memo hk
      | some declaration =>
        rw [hd] at hdeclared
        by_cases ha : name ∈ available
        · have hlt := length_without_lt ha
          obtain ⟨htype, hk⟩ := invariant.declared hasked hd ha Memo.Keeps.ignoresReports
            (fun used hu => ih _ (hn ▸ hlt) (hasked.without hd hu) rfl)
            memo (hk.without hf)
          rw [TypeSources.run_lookupAmong_of_declared hf hdeclared ha, hs.declaredType]
          exact invariant.conclude_ensures (fun _ => ha) htype _
            (hk.mono fun other ho => (List.mem_filter.1 ho).1)
        · have hna : ¬sources.Available available name := fun h => ha (h (by simp [hd]))
          rw [TypeSources.run_lookupAmong_of_unavailable hf (by simp [hdeclared]) ha]
          exact ⟨⟨fun h => absurd h hna, fun _ => rfl⟩, hk⟩

lemma lookup_ensures (name : String) :
    Resolving.Ensures (Memo.Keeps sources invariant.holds sources.allDeclared)
      (others.lookupType name) (invariant.holds name) := by
  rw [TypeSources.lookupType, hs.index]
  exact (invariant.lookupAmong_ensures hs hclass (TypeSources.asked_allDeclared name)).mono
    fun _ h => h.1 TypeSources.mem_allDeclared

end

lemma lookupType_ensures (name : String) :
    Resolving.Ensures (Memo.Keeps sources invariant.holds sources.allDeclared)
      (sources.lookupType name) (invariant.holds name) :=
  invariant.lookup_ensures (.refl sources) invariant.ofClass name

end LookupInvariant

/-- The invariant that holds of everything. -/
def ConversionInvariant.trivial (sources : TypeSources) : ConversionInvariant sources where
  ofValue := fun _ _ _ _ => True
  ofInstance := fun _ _ _ => True
  ofFound := fun _ _ => True
  simple := fun _ => True.intro
  lone := fun _ => True.intro
  array := fun _ => True.intro
  nested := fun _ => True.intro
  bare := fun _ => True.intro
  filled := fun _ _ => True.intro

namespace TypeSources

variable {sources : TypeSources}

lemma Queried.keeps (invariant : LookupInvariant sources) {memo : Memo}
    (h : sources.Queried memo) :
    memo.Keeps sources invariant.holds sources.allDeclared := by
  have hlookup : ∀ name, Resolving.Ensures
      (Memo.Keeps sources invariant.holds sources.allDeclared) (sources.lookupType name)
      ((ConversionInvariant.trivial sources).ofFound name) :=
    fun name => (invariant.lookupType_ensures name).mono fun _ _ => trivial
  induction h with
  | start diagnostics => exact ⟨nofun, nofun⟩
  | lookupType _ name ih => exact (hlookup name _ ih).2
  | resolve _ package use ih =>
    exact ((ConversionInvariant.trivial sources).applyUse_ensures
      Memo.Keeps.ignoresReports package use (fun name _ => hlookup _) _ ih).2
  | instantiate _ package type values ih =>
    let anything := ConversionInvariant.trivial sources
    have hfields := anything.convertFields_convert Memo.Keeps.ignoresReports package values
      fun name _ => hlookup _
    exact (anything.instantiate_ensures Memo.Keeps.ignoresReports package
      ⟨type.name, values, .start⟩ trivial hfields _ ih).2
  | drain _ diagnostics ih => exact ih.of_known_eq rfl

lemma Queried.holds_found (invariant : LookupInvariant sources) {memo : Memo}
    (h : sources.Queried memo) (name : String) : invariant.holds name (sources.found memo name) :=
  (invariant.lookupType_ensures name memo (h.keeps invariant)).1

end TypeSources

/-! ### The outline of what is found -/

namespace TypeSources

variable (sources : TypeSources)

/-- Two different declarations use each other. -/
def Entangled (first second : String) : Prop :=
  first ≠ second ∧ sources.Reaches first second ∧ sources.Reaches second first

open Classical in
/-- An annotation type hides what annotations say whose type is entangled with it. -/
noncomputable def entangles (first second : String) : Bool :=
  decide (sources.Entangled first second)

/-- What is found for a name when nothing but the declaration of another name is worked on. -/
def lookupWithin (name : String) : TypeLookup := fun used =>
  pure (sources.typeAmong (without sources.allDeclared name) used)

/-- The outline of the annotation type of a name. -/
noncomputable def outline? (name : String) : Option AnnotationType :=
  match sources.annotationClass? name with
  | some c => some ((AnnotationType.ofClass sources.program c).outlined sources.entangles)
  | none =>
    match sources.index.declaration? name with
    | some declaration =>
      some (((sources.declaredType (sources.lookupWithin name) declaration).run {}).1.outlined
        sources.entangles)
    | none => (AnnotationType.builtin? name).map (·.outlined sources.entangles)

variable {sources} {name : String}

lemma outline?_of_class {c : Class} (h : sources.annotationClass? name = some c) :
    sources.outline? name =
      some ((AnnotationType.ofClass sources.program c).outlined sources.entangles) := by
  rw [outline?, h]

lemma outline?_of_missing (hc : sources.annotationClass? name = none)
    (hd : sources.index.declaration? name = none) : sources.outline? name =
      (AnnotationType.builtin? name).map (·.outlined sources.entangles) := by
  rw [outline?, hc]
  simp only [hd]

lemma outline?_of_declared {declaration : Declaration}
    (h : sources.declared? name = some declaration) : sources.outline? name =
      some (((sources.declaredType (sources.lookupWithin name) declaration).run {}).1.outlined
        sources.entangles) := by
  obtain ⟨hc, hd⟩ := declared?_eq_some_iff.1 h
  rw [outline?, hc]
  simp only [hd]

lemma outline?_eq (name : String) :
    (sources.outline? name).map (·.withoutTargets) =
      (sources.typeAmong sources.allDeclared name).map
        (·.withoutTargets.outlined sources.entangles) := by
  cases hc : sources.annotationClass? name with
  | some c =>
    rw [outline?_of_class hc, typeAmong_of_class hc]
    rfl
  | none =>
    cases hd : sources.index.declaration? name with
    | some declaration =>
      have hd : sources.declared? name = some declaration := declared?_eq_some_iff.2 ⟨hc, hd⟩
      rw [outline?_of_declared hd, typeAmong_of_declared hd,
        if_pos (mem_allDeclared (by simp [hd]))]
      rfl
    | none =>
      rw [outline?_of_missing hc hd, typeAmong_of_missing hc hd, Option.map_map, Option.map_map]
      rfl

lemma foundName_of_declared (h : (sources.declared? name).isSome) :
    sources.foundName name = name := by
  obtain ⟨declaration, hd⟩ := Option.isSome_iff_exists.1 h
  rw [foundName, (declared?_eq_some_iff.1 hd).1]
  rfl

lemma name_outline? :
    ((sources.outline? name).map (·.name)).getD name = sources.foundName name := by
  cases hc : sources.annotationClass? name with
  | some c =>
    rw [outline?_of_class hc, foundName, hc]
    rfl
  | none =>
    rw [foundName, hc]
    cases hd : sources.index.declaration? name with
    | some declaration =>
      have hd : sources.declared? name = some declaration := declared?_eq_some_iff.2 ⟨hc, hd⟩
      rw [outline?_of_declared hd]
      exact name_of_declared hd
    | none =>
      rw [outline?_of_missing hc hd]
      cases hb : AnnotationType.builtin? name with
      | none => rfl
      | some type =>
        have hname := List.find?_some hb
        exact eq_of_beq hname

lemma nameInvariant_of_outline {found : Option AnnotationType}
    (h : found.map (·.outlined sources.entangles) = sources.outline? name) :
    sources.nameInvariant.ofFound name found := by
  change (found.map (·.name)).getD name = sources.foundName name
  rw [← name_outline?, ← h, Option.map_map]
  rfl

/-- What is found for a name is called as the name says. -/
def nameLookup (sources : TypeSources) : LookupInvariant sources where
  holds := sources.nameInvariant.ofFound
  ofClass := fun hc => nameInvariant_of_outline (outline?_of_class hc).symm
  missing := fun hc hd => nameInvariant_of_outline (outline?_of_missing hc hd).symm
  declared := by
    intro available name declaration kind lookup hasked hd ha hkind hlookup memo hk
    have hkept := (ConversionInvariant.trivial sources).declaredType_ensures hkind declaration
      fun used hu => (hlookup used hu).mono fun _ _ => trivial
    have hname : sources.foundName name = name := foundName_of_declared (by simp [hd])
    exact ⟨(name_of_declared hd).trans hname.symm, (hkept memo hk).2⟩

lemma nameInvariant_typeAmong (available : List String) (name : String) :
    sources.nameInvariant.ofFound name (sources.typeAmong available name) := by
  cases hd : sources.declared? name with
  | none =>
    rw [typeAmong_of_undeclared hd available sources.allDeclared]
    have hnames : ((sources.outline? name).map (·.withoutTargets)).map (·.name) = _ :=
      congrArg (Option.map (·.name)) (outline?_eq name)
    rw [Option.map_map, Option.map_map] at hnames
    change ((sources.typeAmong sources.allDeclared name).map (·.name)).getD name = _
    rw [← name_outline?]
    exact congrArg (Option.getD · name) hnames.symm
  | some declaration =>
    rw [typeAmong_of_declared hd]
    have hname : sources.foundName name = name := foundName_of_declared (by simp [hd])
    split
    · exact (name_of_declared hd).trans hname.symm
    · exact hname.symm

lemma entangles_eq_true {first second : String} :
    sources.entangles first second = true ↔ sources.Entangled first second := by
  classical exact decide_eq_true_iff

lemma foundName_of_entangles {first second : String}
    (h : sources.entangles first second = true) : sources.foundName second = second := by
  obtain ⟨hne, -, hback⟩ := entangles_eq_true.1 h
  rcases Relation.ReflTransGen.cases_head hback with heq | ⟨_, ⟨declaration, hd, -⟩, -⟩
  · exact absurd heq.symm hne
  · exact foundName_of_declared (by simp [hd])

/-- Of what a declaration uses, a lookup finds what it would find if nothing else were worked on, as
far as the outline of the declaration shows it. -/
lemma lookupsRelated_within {available : List String} {used : String} {declaration : Declaration}
    {kind : Memo → Prop} {lookup : TypeLookup} (hasked : sources.Asked available name)
    (hd : sources.declared? name = some declaration)
    (hu : used ∈ sources.defaultNames declaration)
    (hlookup : Resolving.Ensures kind (lookup used) (sources.Answers (fun name found =>
      found.map (·.outlined sources.entangles) = sources.outline? name)
        (without available name) used)) :
    sources.LookupsRelated sources.entangles kind (fun _ => True) lookup
      (sources.lookupWithin name) [declaration.name] used where
  first := by
    refine hlookup.mono fun found hfound => ?_
    by_cases ha : sources.Available (without available name) used
    · exact nameInvariant_of_outline (hfound.1 ha)
    · rw [hfound.2 ha]
      exact (foundName_of_declared (Classical.not_imp.1 ha).1).symm
  second := .pure (nameInvariant_typeAmong _ _)
  same := by
    intro hv
    have hv : ¬sources.Entangled name used := by
      simpa [name_of_declared hd, entangles_eq_true] using hv
    have huses : sources.Uses name used := ⟨declaration, hd, hu⟩
    refine .of_ensures hlookup (.pure rfl) ?_
    rintro found found' ⟨hfound, hnone⟩ rfl
    by_cases he : used = name
    · -- In its own defaults a declaration is not available in either case.
      subst he
      have hna : ∀ available, used ∉ without available used := by simp [without]
      rw [hnone fun h => hna _ (h (by simp [hd])), typeAmong_of_declared hd, if_neg (hna _)]
    · have hback : ¬sources.Reaches used name := fun hr => hv ⟨Ne.symm he, .single huses, hr⟩
      have ha : sources.Available (without available name) used := by
        intro hsome
        by_contra hna
        exact hback (hasked used hsome fun hmem => hna (by simp [without, hmem, he]))
      have hall : sources.typeAmong (without sources.allDeclared name) used =
          sources.typeAmong sources.allDeclared used := by
        refine typeAmong_congr fun reached hr _ => ?_
        have hne : reached ≠ name := fun heq => hback (heq ▸ hr)
        simp [without, hne]
      rw [hall, ← outline?_eq, ← hfound ha, Option.map_map]
      rfl

/-- The outline of what is found depends on the name only. -/
noncomputable def outlineInvariant (sources : TypeSources) : LookupInvariant sources where
  holds := fun name found => found.map (·.outlined sources.entangles) = sources.outline? name
  ofClass := fun hc => (outline?_of_class hc).symm
  missing := fun hc hd => (outline?_of_missing hc hd).symm
  declared := by
    intro available name declaration kind lookup hasked hd ha hkind hlookup memo hk
    obtain ⟨htype, hk, -⟩ := declaredType_related
      ⟨hkind, fun _ _ _ => trivial, foundName_of_entangles⟩ declaration
      (fun used hu => lookupsRelated_within hasked hd hu (hlookup used hu)) memo {} hk trivial
    exact ⟨(congrArg some htype).trans (outline?_of_declared hd).symm, hk⟩

variable {memo memo' : Memo}

lemma Queried.outlined_found (h : sources.Queried memo) (name : String) :
    (sources.found memo name).map (·.outlined sources.entangles) = sources.outline? name :=
  h.holds_found sources.outlineInvariant name

lemma Queried.outlined_resolve (h : sources.Queried memo) (h' : sources.Queried memo')
    (package : String) (use : AnnotationUse) :
    ((sources.resolve package use).run memo).1.outlined sources.entangles [] =
      ((sources.resolve package use).run memo').1.outlined sources.entangles [] := by
  let kept := Memo.Keeps sources sources.outlineInvariant.holds sources.allDeclared
  have hlookup : ∀ name, sources.LookupsRelated sources.entangles kept kept sources.lookupType
      sources.lookupType [] name := by
    intro name
    have hfound := sources.outlineInvariant.lookupType_ensures name
    have hnamed := hfound.mono fun _ => nameInvariant_of_outline
    refine ⟨hnamed, hnamed, fun _ => .of_ensures hfound hfound fun found found' h h' => ?_⟩
    have hsame := congrArg (Option.map AnnotationType.withoutTargets) (h.trans h'.symm)
    rwa [Option.map_map, Option.map_map] at hsame
  exact (applyUse_related
    ⟨Memo.Keeps.ignoresReports, Memo.Keeps.ignoresReports, foundName_of_entangles⟩ package use
      (fun _ _ => hlookup _) (by simp) memo memo'
    (h.keeps _) (h'.keeps _)).1

end TypeSources

end ExternalAnnotations
