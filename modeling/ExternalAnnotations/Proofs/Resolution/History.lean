import ExternalAnnotations.Proofs.Resolution.Queries

/-!
# What earlier queries leave alone

A declaration that is being worked on is not available to its own defaults, and what is made of
another declaration in the meantime is kept. So if two declarations use each other, the one that is
looked up first goes deeper. Where that cannot happen, earlier queries do not show at all, and where
it can they show only in what the annotations in defaults say.
-/

namespace ExternalAnnotations

namespace TypeSources

variable (sources : TypeSources)

/-- No declarations that are reached from a name are entangled. -/
def Untangled (name : String) : Prop :=
  ∀ first second, sources.Reaches name first → ¬sources.Entangled first second

variable {sources} {name : String}

lemma Untangled.of_reaches (h : sources.Untangled name) {other : String}
    (hr : sources.Reaches name other) : sources.Untangled other :=
  fun first second hfirst => h first second (hr.trans hfirst)

lemma Untangled.typeAmong_eq (h : sources.Untangled name) {available : List String}
    (hasked : sources.Asked available name) (ha : sources.Available available name) :
    sources.typeAmong available name = sources.typeAmong sources.allDeclared name := by
  refine typeAmong_eq_all fun reached hr hd => ?_
  by_contra hna
  have hne : name ≠ reached := by
    rintro rfl
    exact hna (ha hd)
  exact h name reached .refl ⟨hne, hr, hasked reached hd hna⟩

section

variable (sources) (calm : String → Prop) (hcalm : ∀ {name}, calm name → sources.Untangled name)
  (hreached : ∀ {name other}, calm name → sources.Reaches name other → calm other)

/-- The pure lookup says what is found for a calm name. -/
def FoundCalm (name : String) (found : Option AnnotationType) : Prop :=
  calm name → found.map (·.withoutTargets) = sources.typeAmong sources.allDeclared name

include hcalm hreached

variable {sources calm} in
/-- What a calm declaration uses is found as if nothing else were worked on. -/
lemma lookupMatches_of_calm (h : calm name) {available : List String} {used : String}
    {declaration : Declaration} {kind : Memo → Prop} {lookup : TypeLookup}
    (hasked : sources.Asked available name) (hd : sources.declared? name = some declaration)
    (hu : used ∈ sources.defaultNames declaration)
    (hlookup : Resolving.Ensures kind (lookup used)
      (sources.Answers (sources.FoundCalm calm) (without available name) used)) :
    LookupMatches kind lookup (sources.typeAmong (without available name)) used := by
  refine .intro fun memo hk => ?_
  obtain ⟨⟨hfound, hnone⟩, hk⟩ := hlookup memo hk
  refine ⟨?_, hk⟩
  by_cases ha : sources.Available (without available name) used
  · have hused := hreached h (.single ⟨declaration, hd, hu⟩)
    rw [hfound ha hused, (hcalm hused).typeAmong_eq (hasked.without hd hu) ha]
  · obtain ⟨hsome, hna⟩ := Classical.not_imp.1 ha
    obtain ⟨declaration', hd'⟩ := Option.isSome_iff_exists.1 hsome
    rw [hnone ha, typeAmong_of_declared hd', if_neg hna]
    rfl

/-- Where calm names lead only to calm ones, and to no entangled declarations, the pure lookup says
what is found for them. -/
def calmInvariant : LookupInvariant sources where
  holds := sources.FoundCalm calm
  ofClass := fun hc _ => (typeAmong_of_class hc _).symm
  missing := fun hc hd _ => (typeAmong_of_missing hc hd _).symm
  declared := by
    intro available name declaration kind lookup hasked hd ha hkind hlookup
    by_cases hname : calm name
    · intro memo hk
      obtain ⟨htype, hk⟩ := declaredType_matches hkind (SameNames.refl sources) declaration
        (fun used hu => lookupMatches_of_calm hcalm hreached hname hasked hd hu (hlookup used hu))
        memo hk
      have hfound := typeAmong_of_declared hd available
      rw [if_pos ha] at hfound
      refine ⟨fun _ => ?_, hk⟩
      rw [← (hcalm hname).typeAmong_eq hasked fun _ => ha, hfound]
      exact congrArg some (htype {})
    · -- Nothing is said of this name, but what is found on the way has to be right.
      have hkept := (ConversionInvariant.trivial sources).declaredType_ensures hkind declaration
        fun used hu => (hlookup used hu).mono fun _ _ => trivial
      exact hkept.mono fun _ _ h => absurd h hname

end

section

variable {calm : String → Prop} {others : TypeSources}

lemma resolve_matches_of_calm (hs : sources.SameNames others) {kind : Memo → Prop}
    (hkind : IgnoresReports kind)
    (hlookup : ∀ name, Resolving.Ensures kind (others.lookupType name)
        (sources.FoundCalm calm name))
    (package : String) (use : AnnotationUse)
    (huse : ∀ name ∈ use.typeNames, calm (sources.fullName package name)) :
    Resolving.Matches kind (others.resolve package use) (pure (sources.meant package use)) := by
  have hnames : ∀ name ∈ use.typeNames, LookupMatches kind others.lookupType
      (sources.typeAmong sources.allDeclared) (sources.fullName package name) := by
    refine fun name hname => .intro fun memo hk => ?_
    obtain ⟨hfound, hk⟩ := hlookup _ memo hk
    exact ⟨hfound (huse name hname), hk⟩
  have hmatches := applyUse_matches hkind hs package use hnames
  exact fun memo hk => ⟨fun _ => (hmatches memo hk).1 {}, (hmatches memo hk).2⟩

end

/-- Where nothing is entangled the pure lookup says what is found. -/
def historyInvariant (sources : TypeSources) : LookupInvariant sources :=
  sources.calmInvariant sources.Untangled id fun h hr => h.of_reaches hr

lemma eq_of_outlined {hides : String → String → Bool} {found found' : Option AnnotationType}
    (ho : found.map (·.outlined hides) = found'.map (·.outlined hides))
    (ht : found.map (·.withoutTargets) = found'.map (·.withoutTargets)) : found = found' := by
  cases found with
  | none =>
    cases found' with
    | none => rfl
    | some type' => contradiction
  | some type =>
    cases found' with
    | none => contradiction
    | some type' =>
      obtain ⟨-, -, htargets, -⟩ := (AnnotationType.mk.injEq ..).mp (Option.some.inj ho)
      obtain ⟨hname, hretention, -, helements⟩ :=
        (AnnotationType.mk.injEq ..).mp (Option.some.inj ht)
      obtain ⟨name, retention, targets, elements⟩ := type
      obtain ⟨name', retention', targets', elements'⟩ := type'
      simp_all

variable {memo memo' : Memo}

lemma Queried.found_eq (h : sources.Queried memo) (h' : sources.Queried memo')
    (hname : sources.Untangled name) : sources.found memo name = sources.found memo' name := by
  have houtline := (h.outlined_found name).trans (h'.outlined_found name).symm
  exact eq_of_outlined houtline <| (h.holds_found sources.historyInvariant name hname).trans
    (h'.holds_found sources.historyInvariant name hname).symm

lemma Queried.resolve_eq (h : sources.Queried memo) (h' : sources.Queried memo') (package : String)
    (use : AnnotationUse)
    (huse : ∀ name ∈ use.typeNames, sources.Untangled (sources.fullName package name)) :
    ((sources.resolve package use).run memo).1 = ((sources.resolve package use).run memo').1 := by
  have hmatches := resolve_matches_of_calm (SameNames.refl sources) Memo.Keeps.ignoresReports
    sources.historyInvariant.lookupType_ensures package use huse
  exact ((hmatches memo (h.keeps _)).1 {}).trans ((hmatches memo' (h'.keeps _)).1 {}).symm

/-- After any queries, what is found for a name and what an annotation means are the same as at the
start but for what annotations say that are hidden by entangled ones, and where nothing is entangled
they are the same. -/
theorem found_after_queries (h : sources.Queried memo) :
    (∀ name,
      (sources.found memo name).map (·.outlined sources.entangles) =
          (sources.found {} name).map (·.outlined sources.entangles) ∧
        (sources.Untangled name → sources.found memo name = sources.found {} name)) ∧
      ∀ package use,
        let meant := fun memo => ((sources.resolve package use).run memo).1
        (meant memo).outlined sources.entangles [] = (meant {}).outlined sources.entangles [] ∧
          ((∀ name ∈ use.typeNames, sources.Untangled (sources.fullName package name)) →
            meant memo = meant {}) := by
  have hstart : sources.Queried {} := .start []
  refine ⟨fun name => ⟨?_, h.found_eq hstart⟩, fun package use =>
    ⟨h.outlined_resolve hstart package use, h.resolve_eq hstart package use⟩⟩
  exact (h.outlined_found name).trans (hstart.outlined_found name).symm

/-! ### Where the queries matter -/

/-- A declaration in the package `p` with an annotation as its only default. -/
def usingOnly (name used : String) : Declaration :=
  ⟨"p." ++ name, [], [⟨soleElement, .annotationType used, some (.nested ⟨used, [], .start⟩)⟩],
    .start⟩

/-- Declarations of `p.X` and `p.Y` that use each other, and one of `p.Z` that uses itself. -/
def entangled : TypeSources where
  program := {}
  index := .of [] [usingOnly "X" "Y", usingOnly "Y" "X", usingOnly "Z" "Z"]

/-- Of two declarations that use each other the one that is looked up first goes deeper. -/
theorem found_depends_on_queries :
    let memo := ((entangled.lookupType "p.X").run {}).2
    let meant := fun memo => ((entangled.resolve "p" ⟨"Y", [], .start⟩).run memo).1
    entangled.Queried memo ∧ entangled.found memo "p.Y" ≠ entangled.found {} "p.Y" ∧
      (meant {}).text = "@p.Y(value=@p.X(value=@p.Y))" ∧
      (meant memo).text = "@p.Y(value=@p.X)" := by
  intro memo meant
  refine ⟨.lookupType (.start []) "p.X", fun h => ?_, by decide +kernel, by decide +kernel⟩
  have hdefaults : ∀ found : Option AnnotationType, found = entangled.found {} "p.Y" →
      (found.elim [] fun type => type.elements.map fun element => element.default.map (·.text)) =
        [some "@p.X(value=@p.Y)"] := by
    rintro found rfl
    decide +kernel
  exact absurd (hdefaults _ h) (by decide +kernel)

lemma untangled_entangled : entangled.Untangled "p.Z" := by
  have huses : ∀ other, entangled.Uses "p.Z" other → other = "p.Z" := by
    rintro other ⟨declaration, hd, hother⟩
    have hname := name_of_declared hd
    have hmem := (Index.of_declaration? (declared?_eq_some_iff.1 hd).2).1
    simp only [entangled, Index.of, List.mem_cons, List.not_mem_nil, or_false] at hmem
    rcases hmem with rfl | rfl | rfl
    · exact absurd hname (by decide)
    · exact absurd hname (by decide)
    · have hnames : ∀ used ∈ entangled.defaultNames (usingOnly "Z" "Z"), used = "p.Z" := by
        decide +kernel
      exact hnames other hother
  have hreaches : ∀ other, entangled.Reaches "p.Z" other → other = "p.Z" := by
    intro other h
    induction h with
    | refl => rfl
    | tail _ hlast ih => exact huses _ (ih ▸ hlast)
  rintro first second hfirst ⟨hne, hsecond, -⟩
  obtain rfl := hreaches first hfirst
  exact hne (hreaches second hsecond).symm

theorem found_after_queries_entangled :
    let memo := ((entangled.lookupType "p.X").run {}).2
    let meant := fun memo => ((entangled.resolve "p" ⟨"Z", [], .start⟩).run memo).1
    entangled.found memo "p.Z" = entangled.found {} "p.Z" ∧ meant memo = meant {} ∧
      (entangled.found memo "p.Y").map (·.outlined entangled.entangles) =
        (entangled.found {} "p.Y").map (·.outlined entangled.entangles) := by
  intro memo meant
  have h : entangled.Queried memo := .lookupType (.start []) "p.X"
  obtain ⟨hfound, hmeant⟩ := found_after_queries h
  refine ⟨(hfound "p.Z").2 untangled_entangled, (hmeant "p" _).2 fun name hname => ?_,
    (hfound "p.Y").1⟩
  have hfull : ∀ name ∈ ["Z"], entangled.fullName "p" name = "p.Z" := by decide +kernel
  rw [hfull name hname]
  exact untangled_entangled

end TypeSources

end ExternalAnnotations
