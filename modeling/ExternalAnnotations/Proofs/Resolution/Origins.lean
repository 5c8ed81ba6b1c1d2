import ExternalAnnotations.Proofs.Program.Search
import ExternalAnnotations.Proofs.Resolution.Declared

/-!
# Annotation types of the program and of the index

An annotation type can be a class of the program, or the index alone can declare it. If both say the
same, the annotation type is the same, with whatever was looked up before. Annotations of it also
say the same, unless its elements lead back to it: an annotation class of the program takes any
class that it does not know as an annotation type for an enum.
-/

namespace ExternalAnnotations

open Relation

/-! ### Memos in both settings -/

/-- Two memos know what is expected of them, and the same was reported since they were others. -/
structure InSync (expects expects' : String → Option AnnotationType → Prop)
    (before before' : List Diagnostic) (memo memo' : Memo) : Prop where
  first : memo.Knows expects
  second : memo'.Knows expects'
  reports : ∃ reported, memo.diagnostics = before ++ reported ∧
    memo'.diagnostics = before' ++ reported

namespace InSync

variable {expects expects' : String → Option AnnotationType → Prop}
  {before before' : List Diagnostic}

lemma carriesReports : CarriesReports (InSync expects expects' before before') := by
  rintro memo memo' diagnostic ⟨hfirst, hsecond, reported, hreported, hreported'⟩
  refine ⟨hfirst, hsecond, reported ++ [diagnostic], ?_, ?_⟩
  · rw [Memo.report, hreported, List.append_assoc]
  · rw [Memo.report, hreported', List.append_assoc]

lemma foundAlike {lookup lookup' : TypeLookup} {name : String} {found : Option AnnotationType}
    (h : FindsQuietly expects lookup name found) (h' : FindsQuietly expects' lookup' name found)
    {wanted : String → Prop}
    (hwithin : ∀ type ∈ found, ∀ element ∈ type.elements, element.type.Within wanted) :
    FoundAlike (InSync expects expects' before before') lookup lookup' wanted name := by
  refine ⟨found, hwithin, fun memo memo' hm => ?_⟩
  obtain ⟨hfound, hfirst, hsilent⟩ := h memo hm.first
  obtain ⟨hfound', hsecond, hsilent'⟩ := h' memo' hm.second
  exact ⟨hfound, hfound', hfirst, hsecond, by rw [hsilent, hsilent']; exact hm.reports⟩

end InSync

namespace TypeSources

variable {sources : TypeSources}

lemma ClassFound.iff {name : String} {found : Option AnnotationType}
    (h : sources.ClassFound name found) (expected : Option AnnotationType) :
    sources.ClassFound name expected ↔ expected = found := by
  refine ⟨?_, fun heq => heq ▸ h⟩
  rintro ⟨c, hc, rfl⟩
  obtain ⟨c', hc', rfl⟩ := h
  rw [Option.some.inj (hc.symm.trans hc')]

lemma exists_classFound {name : String} (h : sources.program.isAnnotationType name = true) :
    ∃ type, sources.ClassFound name (some type) := by
  obtain ⟨c, hc, hentered⟩ := Program.exists_of_isAnnotationType h
  exact ⟨_, c, annotationClass?_eq_some_iff.2 ⟨hc, hentered⟩, rfl⟩

lemma ClassFound.within {name : String} {type : AnnotationType}
    (h : sources.ClassFound name (some type)) :
    ∀ element ∈ type.elements, element.type.Within (sources.program.isAnnotationType · = true) := by
  obtain ⟨c, -, htype⟩ := h
  obtain rfl := Option.some.inj htype
  intro element helement name hname
  exact (AnnotationType.exists_of_annotationType? helement hname).1

/-- For the name of an annotation class its type is found. -/
def classInvariant (sources : TypeSources) : LookupInvariant sources where
  holds := fun name found => ∀ expected, sources.ClassFound name expected → found = expected
  ofClass := fun hc expected h => ((ClassFound.iff ⟨_, hc, rfl⟩ expected).1 h).symm
  missing := by
    rintro name hc - expected ⟨c, hc', -⟩
    rw [hc] at hc'
    contradiction
  declared := by
    intro available name declaration kind lookup hasked hd ha hkind hlookup
    have hkept := (ConversionInvariant.trivial sources).declaredType_ensures hkind declaration
      fun used hu => (hlookup used hu).mono fun _ _ => trivial
    refine hkept.mono fun _ _ expected => ?_
    rintro ⟨c, hc, -⟩
    rw [(declared?_eq_some_iff.1 hd).1] at hc
    contradiction

lemma Queried.knows_of_holds {memo : Memo} {invariant : LookupInvariant sources}
    {expects : String → Option AnnotationType → Prop} (h : sources.Queried memo)
    (hholds : ∀ {name found}, invariant.holds name found →
      ∀ expected, expects name expected → found = expected) : memo.Knows expects :=
  fun name expected hexpected found hfound =>
    hholds ((h.keeps invariant).known name found hfound) expected hexpected

end TypeSources

namespace DeclaredInstead

variable {sources others : TypeSources} {declaration : Declaration} {c : Class}

/-- What is found for annotation classes where the declaration is in the index, and for the
declaration itself. -/
def Expected (others : TypeSources) (declaration : Declaration) (own : Option AnnotationType)
    (name : String) (found : Option AnnotationType) : Prop :=
  others.ClassFound name found ∨ name = declaration.name ∧ found = own

variable {own : Option AnnotationType} (h : DeclaredInstead sources others declaration c)
include h

lemma not_classFound {found : Option AnnotationType} :
    ¬others.ClassFound declaration.name found := by
  rintro ⟨c', hc', -⟩
  rw [h.annotationClass?_eq_none] at hc'
  contradiction

lemma expected_name (found : Option AnnotationType) :
    Expected others declaration own declaration.name found ↔ found = own := by
  simp [Expected, h.not_classFound]

lemma expected_of_classFound {name : String} {found : Option AnnotationType}
    (hclass : others.ClassFound name found) (expected : Option AnnotationType) :
    Expected others declaration own name expected ↔ expected = found := by
  have hne : name ≠ declaration.name := fun heq => h.not_classFound (heq ▸ hclass)
  simp [Expected, hne, hclass.iff]

lemma findsQuietly_meanwhile {available : List String} (ha : declaration.name ∉ available) :
    FindsQuietly (Expected others declaration none) (others.lookupAmong available)
      declaration.name none := by
  intro memo hk
  cases hf : memo.find? declaration.name with
  | some found =>
    rw [TypeSources.run_lookupAmong_of_known hf]
    exact ⟨hk _ _ ((h.expected_name _).2 rfl) found hf, hk, rfl⟩
  | none =>
    rw [TypeSources.run_lookupAmong_of_unavailable hf (by simp [h.declared?]) ha]
    exact ⟨rfl, hk, rfl⟩

lemma exists_expected_meanwhile {name : String}
    (hname : sources.program.isAnnotationType name = true) :
    ∃ found, Expected others declaration none name found ∧
      (∀ type ∈ found, ∀ element ∈ type.elements,
        element.type.Within (sources.program.isAnnotationType · = true)) ∧
      ∀ available, declaration.name ∉ available →
        FindsQuietly (Expected others declaration none) (others.lookupAmong available) name
          found := by
  by_cases hown : name = declaration.name
  · subst hown
    exact ⟨none, .inr ⟨rfl, rfl⟩, nofun, fun _ => h.findsQuietly_meanwhile⟩
  · rw [h.programs.isAnnotationType hown] at hname
    obtain ⟨type, hclass⟩ := TypeSources.exists_classFound hname
    refine ⟨some type, .inl hclass, ?_, fun available _ =>
      hclass.findsQuietly (h.expected_of_classFound hclass) available⟩
    rintro _ ⟨⟩ element helement inner hinner
    have hknown := hclass.within element helement inner hinner
    have hne : inner ≠ declaration.name := by
      rintro rfl
      simp [Program.isAnnotationType, h.unknown] at hknown
    exact (h.programs.isAnnotationType hne).trans hknown

/-- While other classes are found, the declaration gives the type of the class. -/
lemma declaredType_of_answers {available : List String} (ha : declaration.name ∉ available)
    {kind : Memo → Prop} {lookup : TypeLookup} (hkind : IgnoresReports kind)
    (hlookup : ∀ used ∈ others.defaultNames declaration, Resolving.Ensures kind (lookup used)
      (others.Answers (fun name found => ∀ expected,
        Expected others declaration own name expected → found = expected) available used)) :
    Resolving.Ensures kind (others.declaredType lookup declaration)
      fun type => type = .ofClass sources.program c := by
  have hreports : CarriesReports fun memo memo' =>
      memo.Knows (Expected others declaration none) ∧ kind memo' :=
    fun _ _ _ hm => ⟨hm.1, hkind _ _ hm.2⟩
  refine h.declaredType_ensures hreports (fun _ hk => ⟨nofun, hk⟩) (fun used hused hentered => ?_)
    fun _ _ _ _ _ hm => hm.2
  obtain ⟨found, hexpected, hwithin, hquiet⟩ := h.exists_expected_meanwhile hentered
  refine ⟨found, hwithin, fun memo memo' hm => ?_⟩
  obtain ⟨hfound, hk, -⟩ := hquiet _ (notMem_without _ _) memo hm.1
  obtain ⟨hanswers, hk'⟩ := hlookup used hused memo' hm.2
  refine ⟨hfound, ?_, hk, hk'⟩
  rcases hexpected with hclass | ⟨rfl, rfl⟩
  · have havailable : others.Available available used := by
      obtain ⟨c', hc', -⟩ := hclass
      simp [TypeSources.Available, TypeSources.declared?, hc']
    exact hanswers.1 havailable found (.inl hclass)
  · exact hanswers.2 fun havailable => ha (havailable (by simp [h.declared?]))

/-- Whatever was looked up before, the declared type is found for its name. -/
def invariant : LookupInvariant others where
  holds := fun name found => ∀ expected,
    Expected others declaration (some (.ofClass sources.program c)) name expected → found = expected
  ofClass := fun hc expected hexpected =>
    ((h.expected_of_classFound ⟨_, hc, rfl⟩ expected).1 hexpected).symm
  missing := by
    rintro name hc hd expected (⟨c', hc', -⟩ | ⟨rfl, -⟩)
    · rw [hc] at hc'
      contradiction
    · rw [h.declared] at hd
      contradiction
  declared := by
    intro available name declaration' kind lookup hasked hd ha hkind hlookup
    by_cases hname : name = declaration.name
    · subst hname
      obtain rfl := Option.some.inj (h.declared?.symm.trans hd)
      refine (h.declaredType_of_answers (notMem_without _ _) hkind hlookup).mono ?_
      rintro _ rfl expected hexpected
      exact ((h.expected_name expected).1 hexpected).symm
    · -- Other declarations do not matter.
      have hkept := (ConversionInvariant.trivial others).declaredType_ensures hkind declaration'
        fun used hu => (hlookup used hu).mono fun _ _ => trivial
      refine hkept.mono fun _ _ expected => ?_
      rintro (⟨c', hc', -⟩ | ⟨heq, -⟩)
      · rw [(TypeSources.declared?_eq_some_iff.1 hd).1] at hc'
        contradiction
      · exact absurd heq hname

lemma declaredType_silent (hunreported : others.DefaultsUnreported declaration)
    {available : List String} (ha : declaration.name ∉ available) (diagnostics : List Diagnostic) :
    Resolving.Ensures
      (fun memo => memo.Knows (Expected others declaration none) ∧ memo.diagnostics = diagnostics)
      (others.declaredType (others.lookupAmong available) declaration)
      fun type => type = .ofClass sources.program c := by
  have hreports : CarriesReports (InSync (Expected others declaration none)
      (Expected others declaration none) [] diagnostics) := InSync.carriesReports
  refine h.declaredType_ensures hreports ?_ (fun used hused hentered => ?_) ?_
  · rintro memo ⟨hk, rfl⟩
    exact ⟨nofun, hk, [], rfl, (List.append_nil _).symm⟩
  · obtain ⟨found, -, hwithin, hquiet⟩ := h.exists_expected_meanwhile hentered
    exact InSync.foundAlike (hquiet _ (notMem_without _ _)) (hquiet _ ha) hwithin
  · rintro element helement written hwritten memo ⟨-, hk, reported, hreported, hreported'⟩
    obtain rfl : reported = [] :=
      hreported.symm.trans (hunreported element helement written hwritten)
    exact ⟨hk, hreported'.trans (List.append_nil _)⟩

lemma knows_remember {memo : Memo} (hk : memo.Knows (Expected others declaration none)) :
    (memo.remember declaration.name own).Knows (Expected others declaration own) := by
  have hclasses : (memo.remember declaration.name own).Knows others.ClassFound :=
    Memo.Knows.remember (fun name expected hclass => hk name expected (.inl hclass))
      fun _ hclass => absurd hclass h.not_classFound
  rintro name expected (hclass | ⟨rfl, rfl⟩) found hfound
  · exact hclasses name expected hclass found hfound
  · simpa [Memo.find?, Memo.remember] using hfound.symm

lemma findsQuietly_declared (hunreported : others.DefaultsUnreported declaration) :
    FindsQuietly (Expected others declaration (some (.ofClass sources.program c)))
      others.lookupType declaration.name (some (.ofClass sources.program c)) := by
  intro memo hk
  have hlookup : others.lookupType declaration.name =
      others.lookupAmong others.allDeclared declaration.name := rfl
  rw [hlookup]
  cases hf : memo.find? declaration.name with
  | some found =>
    rw [TypeSources.run_lookupAmong_of_known hf]
    exact ⟨hk _ _ ((h.expected_name _).2 rfl) found hf, hk, rfl⟩
  | none =>
    have havailable : declaration.name ∈ others.allDeclared :=
      TypeSources.mem_allDeclared (by simp [h.declared?])
    have hmeanwhile : memo.Knows (Expected others declaration none) := by
      rintro name expected (hclass | ⟨rfl, -⟩) found hfound
      · exact hk name expected (.inl hclass) found hfound
      · rw [hf] at hfound
        contradiction
    rw [TypeSources.run_lookupAmong_of_declared hf h.declared? havailable]
    obtain ⟨htype, ⟨hclasses, hsilent⟩⟩ := h.declaredType_silent hunreported
      (notMem_without others.allDeclared declaration.name) memo.diagnostics memo ⟨hmeanwhile, rfl⟩
    have hconclude : ∀ (type : AnnotationType) (memo : Memo),
        (conclude declaration.name (some type)).run memo =
          (some type, memo.remember declaration.name (some type)) := fun _ _ => rfl
    rw [Resolving.run_bind, htype, hconclude]
    exact ⟨rfl, h.knows_remember hclasses, hsilent⟩

/-! ### Annotations of the type -/

lemma classFound : sources.ClassFound declaration.name (some (.ofClass sources.program c)) :=
  ⟨c, h.entered, rfl⟩

/-- An annotation class that does not lead to the one that is only declared has the same type. -/
lemma exists_classFound (hcycle : ¬TransGen sources.program.HasElementOf declaration.name
    declaration.name) {name : String}
    (hname : TransGen sources.program.HasElementOf declaration.name name)
    (hentered : sources.program.isAnnotationType name = true) :
    ∃ type, sources.ClassFound name (some type) ∧ others.ClassFound name (some type) ∧
      ∀ element ∈ type.elements, element.type.Within fun inner =>
        TransGen sources.program.HasElementOf declaration.name inner ∧
          sources.program.isAnnotationType inner = true := by
  have hne : ∀ {name}, TransGen sources.program.HasElementOf declaration.name name →
      name ≠ declaration.name := by
    rintro name hname rfl
    exact hcycle hname
  obtain ⟨d, hd, hkind⟩ := Program.exists_of_isAnnotationType hentered
  have hinner : ∀ method ∈ d.methods, method.isElement = true → ∀ inner,
      method.result.type.innermost.1 = .named inner →
        TransGen sources.program.HasElementOf declaration.name inner :=
    fun method hmethod helement inner hinner =>
      hname.tail ⟨d, hd, hkind, method, hmethod, helement, hinner⟩
  have hrel := h.programs name (hne hname)
  rw [hd] at hrel
  obtain ⟨d', hd', hsame⟩ : ∃ d', others.program.find? name = some d' ∧ d.SameInside d' := by
    generalize others.program.find? name = found at hrel
    cases hrel with
    | some hsame => exact ⟨_, rfl, hsame⟩
  have htype : AnnotationType.ofClass sources.program d =
      AnnotationType.ofClass others.program d' :=
    AnnotationType.ofClass_eq hsame fun method hmethod helement inner hmethodInner =>
      h.programs.isAnnotationType (hne (hinner method hmethod helement inner hmethodInner))
  have hkind' : d'.isAnnotationType = true := by
    rw [Class.isAnnotationType, ← hsame.kind]
    exact hkind
  refine ⟨.ofClass sources.program d, ⟨d, ?_, rfl⟩, ⟨d', ?_, congrArg some htype⟩, ?_⟩
  · exact TypeSources.annotationClass?_eq_some_iff.2 ⟨hd, hkind⟩
  · exact TypeSources.annotationClass?_eq_some_iff.2 ⟨hd', hkind'⟩
  · intro element helement inner hinnerName
    obtain ⟨hknown, method, hmethod, hisElement, hmethodInner⟩ :=
      AnnotationType.exists_of_annotationType? helement hinnerName
    exact ⟨hinner method hmethod hisElement inner hmethodInner, hknown⟩

/-- The annotation types on which annotations of the type depend. -/
def OnTheWay (sources : TypeSources) (declaration : Declaration) (name : String) : Prop :=
  name = declaration.name ∨ TransGen sources.program.HasElementOf declaration.name name ∧
    sources.program.isAnnotationType name = true

lemma exists_found_of_onTheWay
    (hcycle : ¬TransGen sources.program.HasElementOf declaration.name declaration.name)
    {name : String} (hname : OnTheWay sources declaration name) :
    ∃ type, sources.ClassFound name (some type) ∧
      Expected others declaration (some (.ofClass sources.program c)) name (some type) ∧
        ∀ element ∈ type.elements, element.type.Within (OnTheWay sources declaration) := by
  rcases hname with rfl | ⟨hname, hentered⟩
  · refine ⟨.ofClass sources.program c, h.classFound, (h.expected_name _).2 rfl,
      fun element helement inner hinner => .inr ?_⟩
    obtain ⟨hknown, method, hmethod, hisElement, hmethodInner⟩ :=
      AnnotationType.exists_of_annotationType? helement hinner
    obtain ⟨hfind, hkind⟩ := h.find?_entered
    exact ⟨.single ⟨c, hfind, hkind, method, hmethod, hisElement, hmethodInner⟩, hknown⟩
  · obtain ⟨type, hclass, hclass', hwithin⟩ := h.exists_classFound hcycle hname hentered
    exact ⟨type, hclass, .inl hclass', fun element helement inner hinner =>
      .inr (hwithin element helement inner hinner)⟩

/-- What both memos have is what is looked up for the class, and for the declaration. -/
def Kept (h : DeclaredInstead sources others declaration c) (memo memo' : Memo) : Prop :=
  memo.Keeps sources sources.classInvariant.holds sources.allDeclared ∧
    memo'.Keeps others h.invariant.holds others.allDeclared

lemma foundAlike_kept
    (hcycle : ¬TransGen sources.program.HasElementOf declaration.name declaration.name)
    {name : String} (hname : OnTheWay sources declaration name) :
    FoundAlike h.Kept sources.lookupType others.lookupType (OnTheWay sources declaration) name := by
  obtain ⟨type, hclass, hexpected, hwithin⟩ := h.exists_found_of_onTheWay hcycle hname
  refine ⟨some type, ?_, fun memo memo' hm => ?_⟩
  · rintro _ ⟨⟩
    exact hwithin
  · obtain ⟨hfound, hkept⟩ := sources.classInvariant.lookupType_ensures name memo hm.1
    obtain ⟨hfound', hkept'⟩ := h.invariant.lookupType_ensures name memo' hm.2
    exact ⟨hfound _ hclass, hfound' _ hexpected, hkept, hkept'⟩

lemma foundAlike_inSync (hunreported : others.DefaultsUnreported declaration)
    (hcycle : ¬TransGen sources.program.HasElementOf declaration.name declaration.name)
    {before before' : List Diagnostic} {name : String}
    (hname : OnTheWay sources declaration name) :
    FoundAlike (InSync sources.ClassFound
        (Expected others declaration (some (.ofClass sources.program c))) before before')
      sources.lookupType others.lookupType (OnTheWay sources declaration) name := by
  obtain ⟨type, hclass, hexpected, hwithin⟩ := h.exists_found_of_onTheWay hcycle hname
  have hquiet : FindsQuietly (Expected others declaration (some (.ofClass sources.program c)))
      others.lookupType name (some type) := by
    rcases hexpected with hclass' | ⟨rfl, heq⟩
    · exact hclass'.findsQuietly (h.expected_of_classFound hclass') others.allDeclared
    · exact heq ▸ h.findsQuietly_declared hunreported
  refine InSync.foundAlike (hclass.findsQuietly hclass.iff sources.allDeclared) hquiet ?_
  rintro _ ⟨⟩
  exact hwithin

/-- **Annotation types of either origin.** If an annotation type is entered as a class in one
setting and only the index declares it in the other, with elements, defaults and meta-annotations
that say the same, it is the same annotation type, whatever was looked up before. If its elements do
not lead back to it, an annotation of it also means the same in both settings, where the names in
the annotation do, and the same is reported if nothing is where the defaults are read. Names with a
package always mean the same. -/
theorem same_of_declared {memo memo' : Memo} (hq : sources.Queried memo)
    (hq' : others.Queried memo') :
    (sources.found memo declaration.name = some (.ofClass sources.program c) ∧
      others.found memo' declaration.name = some (.ofClass sources.program c)) ∧
    (¬TransGen sources.program.HasElementOf declaration.name declaration.name →
      ∀ (package : String) (use : AnnotationUse),
        sources.fullName package use.typeName = declaration.name →
        (∀ name ∈ use.typeNames, others.fullName package name = sources.fullName package name) →
          let resolved := (sources.resolve package use).run memo
          let resolved' := (others.resolve package use).run memo'
          resolved.1 = resolved'.1 ∧ (others.DefaultsUnreported declaration → ∃ reported,
            resolved.2.diagnostics = memo.diagnostics ++ reported ∧
              resolved'.2.diagnostics = memo'.diagnostics ++ reported)) := by
  refine ⟨⟨?_, ?_⟩, fun hcycle package use htypeName hnames => ⟨?_, fun hunreported => ?_⟩⟩
  · exact hq.holds_found sources.classInvariant _ _ h.classFound
  · exact hq'.holds_found h.invariant _ _ ((h.expected_name _).2 rfl)
  · have hreports : CarriesReports h.Kept := fun _ _ _ hm =>
      ⟨Memo.Keeps.ignoresReports _ _ hm.1, Memo.Keeps.ignoresReports _ _ hm.2⟩
    exact (applyUse_inStep hreports h.enumValue package use
      (fun name hname => ⟨hnames name hname, h.foundAlike_kept hcycle⟩) (.inl htypeName) memo memo'
      ⟨hq.keeps _, hq'.keeps _⟩).1
  · have hsync : InSync sources.ClassFound
        (Expected others declaration (some (.ofClass sources.program c)))
        memo.diagnostics memo'.diagnostics memo memo' := {
      first := hq.knows_of_holds fun hholds => (hholds : sources.classInvariant.holds _ _)
      second := hq'.knows_of_holds fun hholds => (hholds : h.invariant.holds _ _)
      reports := ⟨[], (List.append_nil _).symm, (List.append_nil _).symm⟩ }
    exact (applyUse_inStep InSync.carriesReports h.enumValue package use
      (fun name hname => ⟨hnames name hname, h.foundAlike_inSync hunreported hcycle⟩)
      (.inl htypeName) memo memo' hsync).2.reports

/-! ### One class entered or declared -/

omit h in
lemma of_addFile {program : Program} {index index' : Index} {package : String}
    {path : Option String}
    {draft : ClassDraft} (hclosed : program.Closed) (hkind : draft.kind = .annotationType)
    (hnested : draft.nested = [])
    (hseparator : nestedSeparator ∉ (qualify package draft.simpleName).toList)
    (hnew : program.find? (qualify package draft.simpleName) = none)
    (hname : declaration.name = qualify package draft.simpleName)
    (hdeclared : index'.declaration? declaration.name = some declaration) :
    let sources : TypeSources := ⟨program.addFile package path [draft], index⟩
    let others : TypeSources := ⟨program, index'⟩
    SameMeta (others.Converts declaration · (.enum "java.lang.annotation.RetentionPolicy") ·)
      (others.metaUses declaration retentionName)
      (draft.annotations.filter (·.typeName == retentionName)) →
    SameMeta (others.Converts declaration · (.array (.enum "java.lang.annotation.ElementType")) ·)
      (others.metaUses declaration targetName)
      (draft.annotations.filter (·.typeName == targetName)) →
    List.Forall₂ (SameElement sources others declaration) declaration.elements
      (draft.methods.filter (·.isElement)) →
    DeclaredInstead sources others declaration (program.enteredAlone package draft) := by
  intro sources others hretention htarget helements
  refine ⟨?_, ?_, hdeclared, ?_, hname, hretention, htarget, helements⟩
  · rw [hname, TypeSources.annotationClass?_eq_some_iff]
    exact ⟨Program.find?_addFile_alone path hnested hseparator, beq_iff_eq.2 hkind⟩
  · exact hname ▸ hnew
  · intro name hne
    rw [hname] at hne
    rw [Program.find?_addFile_of_ne path hnested hseparator hclosed hnew hne]
    cases program.find? name with
    | none => exact .none
    | some c => exact .some ⟨rfl, rfl, rfl, rfl, rfl⟩

omit h in
lemma mem_of_hasElementOf {program : Program} {outer inner : String}
    (h : program.HasElementOf outer inner) :
    .named inner ∈ ((program.find? outer).elim [] (·.methods)).map (·.result.type.innermost.1) := by
  obtain ⟨d, hd, -, method, hmethod, -, hinner⟩ := h
  rw [hd]
  exact List.mem_map.2 ⟨method, hmethod, hinner⟩

end DeclaredInstead

/-- A program with an annotation class `p.Tag` and an enum `p.Level`. -/
def tagging : Program :=
  Program.addFile {} "p" none
    [{ ClassDraft.ofName "Tag" .annotationType with
        methods := [{ Method.ofName soleElement with result := .plain (.primitive .int) }] },
      { ClassDraft.ofName "Level" .enum with fields := [.ofName "LOW" (.named "p.Level")] }]

/-- An annotation class that uses both. -/
def markDraft : ClassDraft :=
  { ClassDraft.ofName "Mark" .annotationType with
    annotations := [⟨retentionName,
      [(soleElement, .enum "java.lang.annotation.RetentionPolicy" "RUNTIME")], .runtime⟩]
    methods := [
      { Method.ofName "tags" with
        result := .plain (.array (.named "p.Tag")), default := some (.array []) },
      { Method.ofName "level" with
        result := .plain (.named "p.Level"), default := some (.enum "p.Level" "LOW") }] }

/-- The same annotation type as it is declared in an index. -/
def markDeclaration : Declaration where
  name := "p.Mark"
  annotations := [⟨"Retention", [(soleElement, .name "RUNTIME")], .start⟩]
  elements := [⟨"tags", .array (.annotationType "p.Tag"), some (.array [])⟩,
    ⟨"level", .enum "p.Level", some (.name "Level.LOW")⟩]
  place := .start

def markEntered : TypeSources := ⟨tagging.addFile "p" none [markDraft], {}⟩

def markDeclared : TypeSources := ⟨tagging, .of [] [markDeclaration]⟩

lemma find?_eq_none {program : Program} {name : String} (h : program.lookup? name = none) :
    program.find? name = none := by
  rw [Program.find?, h]
  rfl

lemma declaredInstead_mark : DeclaredInstead markEntered markDeclared markDeclaration
    (tagging.enteredAlone "p" markDraft) := by
  have hclosed : tagging.Closed := (Program.Reached.addFile "p" none _ .empty).ordered.toClosed
  refine .of_addFile hclosed rfl rfl (by decide)
    (find?_eq_none (by decide +kernel)) rfl rfl ?_ ?_ ?_
  · have huses : markDeclared.metaUses markDeclaration retentionName =
        markDeclaration.annotations := rfl
    have hinners : markDraft.annotations.filter (·.typeName == retentionName) =
        markDraft.annotations := rfl
    exact huses ▸ hinners ▸ .once (.some rfl)
  · have huses : markDeclared.metaUses markDeclaration targetName = [] := rfl
    have hinners : markDraft.annotations.filter (·.typeName == targetName) = [] := rfl
    exact huses ▸ hinners ▸ .absent
  · refine .cons ⟨rfl, rfl, ?_, .some rfl⟩ (.cons ⟨rfl, rfl, ?_, .some rfl⟩ .nil)
    · exact ⟨⟨by decide +kernel, by decide, by decide⟩, by decide +kernel⟩
    · exact ⟨⟨by decide +kernel, by decide, by decide⟩, by decide +kernel⟩

lemma defaultsUnreported_mark : markDeclared.DefaultsUnreported markDeclaration := by
  intro element helement written hwritten
  rcases List.mem_pair.1 helement with rfl | rfl <;> obtain rfl := Option.some.inj hwritten
  · rfl
  · rfl

lemma not_hasElementOf_mark : ¬TransGen markEntered.program.HasElementOf "p.Mark" "p.Mark" := by
  have hnext : ∀ outer ∈ ["p.Mark", "p.Tag", "p.Level"],
      ∀ type ∈ ((markEntered.program.find? outer).elim [] (·.methods)).map
          (·.result.type.innermost.1),
        type ∈ [ErasedType.named "p.Tag", .named "p.Level", .primitive .int] := by
    decide +kernel
  have hstep : ∀ {outer inner}, outer ∈ ["p.Mark", "p.Tag", "p.Level"] →
      markEntered.program.HasElementOf outer inner → inner ∈ ["p.Tag", "p.Level"] := by
    intro outer inner houter hinner
    simpa using hnext outer houter _ (DeclaredInstead.mem_of_hasElementOf hinner)
  have hleads : ∀ name, TransGen markEntered.program.HasElementOf "p.Mark" name →
      name ∈ ["p.Tag", "p.Level"] := by
    intro name hname
    induction hname with
    | single hfirst => exact hstep List.mem_cons_self hfirst
    | tail _ hlast ih => exact hstep (List.mem_cons_of_mem _ ih) hlast
  exact fun hcycle => absurd (hleads _ hcycle) (by decide)

theorem DeclaredInstead.same_of_declared_mark :
    let use : AnnotationUse :=
      ⟨"p.Mark", [("tags", .nested ⟨"Tag", [(soleElement, .int 3)], .start⟩)], .start⟩
    let resolved := (markEntered.resolve "p" use).run {}
    let resolved' := (markDeclared.resolve "p" use).run {}
    markEntered.found {} "p.Mark" = markDeclared.found {} "p.Mark" ∧
      (∃ reported, resolved.2.diagnostics = ({} : Memo).diagnostics ++ reported ∧
        resolved'.2.diagnostics = ({} : Memo).diagnostics ++ reported) ∧
          resolved.1 = resolved'.1 ∧ resolved'.2.diagnostics = [] ∧
            resolved'.1.text = "@p.Mark(tags=\x7b@p.Tag(value=3)\x7d, level=p.Level.LOW)" := by
  intro use resolved resolved'
  obtain ⟨⟨hfound, hfound'⟩, hresolved⟩ :=
    same_of_declared declaredInstead_mark (.start []) (.start [])
  obtain ⟨hsame, hreported⟩ := hresolved not_hasElementOf_mark "p" use (by decide +kernel)
    (by decide +kernel)
  refine ⟨hfound.trans hfound'.symm, hreported defaultsUnreported_mark, hsame, ?_, ?_⟩
  · decide +kernel
  · decide +kernel

/-! ### Elements that lead back -/

/-- An annotation class whose only element is an annotation. -/
def linkDraft (name element used : String) : ClassDraft :=
  { ClassDraft.ofName name .annotationType with
    methods := [{ Method.ofName element with result := .plain (.named used) }] }

/-- A program with an annotation class `p.Link` that uses `p.Loop`, which is no class of it. -/
def linked : Program := Program.addFile {} "p" none [linkDraft "Link" "back" "p.Loop"]

/-- The declaration of `p.Loop` in an index, which uses `p.Link`. -/
def loopDeclaration : Declaration where
  name := "p.Loop"
  annotations := []
  elements := [⟨"link", .annotationType "p.Link", none⟩]
  place := .start

def loopEntered : TypeSources :=
  ⟨linked.addFile "p" none [linkDraft "Loop" "link" "p.Link"], {}⟩

def loopDeclared : TypeSources := ⟨linked, .of [] [loopDeclaration]⟩

lemma declaredInstead_loop : DeclaredInstead loopEntered loopDeclared loopDeclaration
    (linked.enteredAlone "p" (linkDraft "Loop" "link" "p.Link")) := by
  have hclosed : linked.Closed := (Program.Reached.addFile "p" none _ .empty).ordered.toClosed
  refine .of_addFile hclosed rfl rfl (by decide) (find?_eq_none (by decide +kernel)) rfl rfl
    .absent .absent (.cons ⟨rfl, rfl, ?_, .none⟩ .nil)
  exact ⟨⟨by decide +kernel, by decide, by decide⟩, by decide +kernel⟩

/-- Where the class is not entered, the class that it leads to takes it for an enum. -/
theorem DeclaredInstead.meant_depends_on_origin :
    let use : AnnotationUse := ⟨"p.Loop",
      [("link", .nested ⟨"p.Link", [("back", .nested ⟨"p.Loop", [], .start⟩)], .start⟩)], .start⟩
    let resolved := (loopEntered.resolve "q" use).run {}
    let resolved' := (loopDeclared.resolve "q" use).run {}
    DeclaredInstead loopEntered loopDeclared loopDeclaration
        (linked.enteredAlone "p" (linkDraft "Loop" "link" "p.Link")) ∧
      (∀ name ∈ use.typeNames, isQualified name = true) ∧
        (resolved.1.text = "@p.Loop(link=@p.Link(back=@p.Loop))" ∧ resolved.2.diagnostics = []) ∧
          resolved'.1.text = "@p.Loop(link=@p.Link)" ∧ resolved'.2.diagnostics.map (·.text) = [
            "invalid value for element 'back' of @p.Link: expected enum p.Loop, found @p.Loop"] := by
  exact ⟨declaredInstead_loop, by decide +kernel, ⟨by decide +kernel, by decide +kernel⟩,
    by decide +kernel, by decide +kernel⟩

end ExternalAnnotations
