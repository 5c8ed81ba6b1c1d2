import ExternalAnnotations.Proofs.Resolution.Growth
import ExternalAnnotations.Proofs.Resolution.Typing

/-!
# Names without an annotation type

Whatever is resolved comes out as if it were resolved with a table of all that is known in the end,
where it does not matter what the table says of names that nobody asked for. So of every annotation,
at any depth, either the type is known, or it is known that its name has none. The exception are
declarations that use themselves: while one is worked on, its own name and those of declarations
that wait for it have no answer.
-/

namespace ExternalAnnotations

/-! ### How values come about -/

def AnnotationValue.isSimple : AnnotationValue → Bool
  | nested _ | array _ => false
  | _ => true

/-- What was found for a name is kept in a memo. -/
def Memo.Has (memo : Memo) (name : String) (found : Option AnnotationType) : Prop :=
  memo.find? name = some found

namespace TypeSources

/-- What a value written in a package became, given what was found for the names of annotation
types. An annotation whose type was not found has only its name. Any other has the values that were
written for its elements, and for elements for which nothing was written the defaults of its
type. -/
inductive Synthesized (sources : TypeSources) (found : String → Option AnnotationType → Prop)
    (package : String) : WrittenValue → AnnotationValue → Prop
  | simple {written : WrittenValue} {value : AnnotationValue} (h : value.isSimple) :
      Synthesized sources found package written value
  | lone {written : WrittenValue} {value : AnnotationValue}
      (h : Synthesized sources found package written value) :
      Synthesized sources found package written (.array [value])
  | nil : Synthesized sources found package (.array []) (.array [])
  | cons {written : WrittenValue} {value : AnnotationValue} {items : List WrittenValue}
      {values : List AnnotationValue} (h : Synthesized sources found package written value)
      (hitems : Synthesized sources found package (.array items) (.array values)) :
      Synthesized sources found package (.array (written :: items)) (.array (value :: values))
  | bare {use : AnnotationUse} (h : found (sources.fullName package use.typeName) none) :
      Synthesized sources found package (.nested use)
        (.nested (.bare (sources.fullName package use.typeName)))
  | filled {use : AnnotationUse} {type : AnnotationType} {values : List (String × AnnotationValue)}
      (h : found (sources.fullName package use.typeName) (some type))
      (hwritten : ∀ field ∈ values, ∀ written, use.values.lookup field.1 = some written →
        Synthesized sources found package written field.2)
      (hdefault : ∀ field ∈ values, use.values.lookup field.1 = none →
        ∃ element ∈ type.elements, element.name = field.1 ∧ element.default = some field.2) :
      Synthesized sources found package (.nested use)
        (.nested ⟨type.name, values, type.retention⟩)

/-- The defaults of an annotation type are what those in its declaration became. -/
def DefaultsSynthesized (sources : TypeSources) (found : String → Option AnnotationType → Prop)
    (declaration : Declaration) (type : AnnotationType) : Prop :=
  ∀ element ∈ type.elements, ∀ value, element.default = some value →
    ∃ declared ∈ declaration.elements, declared.name = element.name ∧
      ∃ written, declared.default = some written ∧
        sources.Synthesized found (packageOf declaration.name) written value

/-- What is found for a name that is used in the defaults of a declaration. It is what a memo has,
or nothing if the declaration of the name leads back to the one that is being worked on. -/
def FoundWithin (sources : TypeSources) (memo : Memo) (declaration name : String)
    (found : Option AnnotationType) : Prop :=
  memo.Has name found ∨ found = none ∧ sources.Reaches name declaration

end TypeSources

mutual

/-- The names of the types of the annotations in a value. -/
def AnnotationValue.typeNames : AnnotationValue → List String
  | .nested inner => inner.typeNames
  | .array items => AnnotationValue.allTypeNames items
  | _ => []

def AnnotationInstance.typeNames : AnnotationInstance → List String
  | ⟨typeName, values, _⟩ => typeName :: AnnotationInstance.fieldTypeNames values

def AnnotationValue.allTypeNames : List AnnotationValue → List String
  | [] => []
  | value :: values => value.typeNames ++ AnnotationValue.allTypeNames values

def AnnotationInstance.fieldTypeNames : List (String × AnnotationValue) → List String
  | [] => []
  | (_, value) :: fields => value.typeNames ++ AnnotationInstance.fieldTypeNames fields

end

lemma mem_fieldTypeNames {fields : List (String × AnnotationValue)}
    {field : String × AnnotationValue}
    (hmem : field ∈ fields) {name : String} (hname : name ∈ field.2.typeNames) :
    name ∈ AnnotationInstance.fieldTypeNames fields := by
  induction fields with
  | nil => contradiction
  | cons first fields ih =>
    obtain ⟨element, value⟩ := first
    rw [AnnotationInstance.fieldTypeNames]
    rcases List.mem_cons.1 hmem with rfl | hmem
    · exact List.mem_append_left _ hname
    · exact List.mem_append_right _ (ih hmem)

lemma exists_fresh (names : List String) : ∃ name, name ∉ names := by
  obtain ⟨name, hname⟩ := Infinite.exists_notMem_finset names.toFinset
  exact ⟨name, fun hmem => hname (List.mem_toFinset.2 hmem)⟩

namespace TypeSources

variable {sources : TypeSources} {found other : String → Option AnnotationType → Prop}
  {package : String} {written : WrittenValue} {value : AnnotationValue}

/-- What was found does not matter as far as its name is not that of any annotation in the value. -/
lemma Synthesized.of_fresh (h : sources.Synthesized found package written value) {fresh : String}
    (hfresh : fresh ∉ value.typeNames)
    (ho : ∀ name type, found name type → other name type ∨ type.map (·.name) = some fresh) :
    sources.Synthesized other package written value := by
  induction h with
  | simple h => exact .simple h
  | lone _ ih =>
    exact .lone (ih (by
      simpa [AnnotationValue.typeNames, AnnotationValue.allTypeNames] using hfresh))
  | nil => exact .nil
  | cons _ _ ih ihitems =>
    simp only [AnnotationValue.typeNames, AnnotationValue.allTypeNames, List.mem_append, not_or]
      at hfresh ihitems
    exact .cons (ih hfresh.1) (ihitems hfresh.2)
  | bare h => exact .bare ((ho _ _ h).resolve_right (Option.some_ne_none _).symm)
  | @filled use type values h _ hdefault ih =>
    simp only [AnnotationValue.typeNames, AnnotationInstance.typeNames, List.mem_cons, not_or]
      at hfresh
    refine .filled ((ho _ _ h).resolve_right fun heq => ?_)
      (fun field hmem written hw => ?_) hdefault
    · exact hfresh.1 (Option.some.inj heq).symm
    · exact ih field hmem written hw fun hname => hfresh.2 (mem_fieldTypeNames hmem hname)

lemma Synthesized.mono (h : sources.Synthesized found package written value)
    (ho : ∀ name type, found name type → other name type) :
    sources.Synthesized other package written value := by
  obtain ⟨fresh, hfresh⟩ := exists_fresh value.typeNames
  exact h.of_fresh hfresh fun name type hfound => .inl (ho name type hfound)

lemma DefaultsSynthesized.mono {declaration : Declaration} {type : AnnotationType}
    (h : sources.DefaultsSynthesized found declaration type)
    (ho : ∀ name type, found name type → other name type) :
    sources.DefaultsSynthesized other declaration type := by
  intro element hmem value hvalue
  obtain ⟨declared, hdeclared, hname, written, hwritten, hsynthesized⟩ :=
    h element hmem value hvalue
  exact ⟨declared, hdeclared, hname, written, hwritten, hsynthesized.mono ho⟩

lemma FoundWithin.of_within {memo later : Memo} (hw : memo.Within later) {declaration name : String}
    {type : Option AnnotationType} (h : sources.FoundWithin memo declaration name type) :
    sources.FoundWithin later declaration name type :=
  h.imp_left (hw name type)

lemma isSimple_of_simpleValue {program : Program} {type : ElementType}
    (h : simpleValue program written type = .ok value) : value.isSimple := by
  have hconforms : Conforms (fun _ => none) type value := conforms_of_simpleValue h
  cases hconforms with
  | array => contradiction
  | nested => contradiction
  | _ => rfl

lemma exists_of_mem_fills {ofElement : AnnotationElement → AnnotationValue → Prop}
    {elements : List AnnotationElement} {values : List (String × AnnotationValue)}
    (h : Fills ofElement elements values) : ∀ field ∈ values,
      ∃ element ∈ elements, element.name = field.1 ∧ ofElement element field.2 := by
  induction h with
  | nil =>
    intro field hmem
    contradiction
  | skip element _ ih =>
    intro field hmem
    obtain ⟨element, hin, hfield⟩ := ih field hmem
    exact ⟨element, List.mem_cons_of_mem _ hin, hfield⟩
  | @take element elements value values hvalue _ ih =>
    refine List.forall_mem_cons.2 ⟨⟨element, List.mem_cons_self, rfl, hvalue⟩, fun field hmem => ?_⟩
    obtain ⟨element, hin, hfield⟩ := ih field hmem
    exact ⟨element, List.mem_cons_of_mem _ hin, hfield⟩

/-- How values come about, as an invariant of conversion. -/
def synthesizing (sources : TypeSources) (found : String → Option AnnotationType → Prop) :
    ConversionInvariant sources where
  ofValue := fun package written _ value => sources.Synthesized found package written value
  ofInstance := fun package use inner =>
    sources.Synthesized found package (.nested use) (.nested inner)
  ofFound := found
  simple := fun h => .simple (isSimple_of_simpleValue h)
  lone := .lone
  array := by
    intro package items item values h
    induction h with
    | nil => exact .nil
    | cons hvalue _ ih => exact .cons hvalue ih
  nested := id
  bare := .bare
  filled := by
    intro package use type values hfound hvalues
    have helements := exists_of_mem_fills hvalues
    refine .filled hfound (fun field hmem written hw => ?_) fun field hmem hnone => ?_
    · obtain ⟨element, -, hname, hgets⟩ := helements field hmem
      rwa [AnnotationElement.Gets, hname, hw] at hgets
    · obtain ⟨element, hin, hname, hgets⟩ := helements field hmem
      rw [AnnotationElement.Gets, hname, hnone] at hgets
      exact ⟨element, hin, hname, hgets⟩

end TypeSources

/-! ### Answers from a table -/

/-- A table says what a memo knows, and that pending declarations have no annotation type. -/
structure Memo.Fits (memo : Memo) (pending : List String)
    (table : String → Option AnnotationType) : Prop where
  known : ∀ name found, name ∉ pending → memo.find? name = some found → table name = found
  pending : ∀ name ∈ pending, table name = none

lemma Memo.Fits.of_within {memo later : Memo} {pending : List String}
    {table : String → Option AnnotationType} (h : later.Fits pending table)
    (hw : memo.Within later) : memo.Fits pending table :=
  ⟨fun name found hname hf => h.known name found hname (hw name found hf), h.pending⟩

def answering (table : String → Option AnnotationType) : TypeLookup := fun name => pure (table name)

/-- Whatever the memo, work gives a result. -/
def Resolving.Gives {α : Type} (work : Resolving α) (a : α) : Prop :=
  ∀ memo, (work.run memo).1 = a

namespace Resolving.Gives

variable {α β : Type} {work : Resolving α} {a : α}

lemma pure (a : α) : Gives (Pure.pure a) a := fun _ => rfl

lemma bind {next : α → Resolving β} {b : β} (h : Gives work a) (hn : Gives (next a) b) :
    Gives (work >>= next) b := by
  intro memo
  obtain rfl := h memo
  exact hn (work.run memo).2

lemma of_ensures {post : α → Prop} (h : Gives work a)
    (he : Resolving.Ensures (fun _ => True) work post) : post a :=
  h {} ▸ (he {} trivial).1

end Resolving.Gives

/-- An annotation type with a name that is that of no annotation. -/
def AnnotationType.outsider (name : String) : AnnotationType := ⟨name, .source, [], []⟩

/-- The table of a memo has an outsider for names that are not known. -/
def Memo.table (memo : Memo) (pending : List String) (outsider name : String) :
    Option AnnotationType :=
  if name ∈ pending then none else (memo.find? name).getD (some (.outsider outsider))

lemma Memo.fits_table (memo : Memo) (pending : List String) (outsider : String) :
    memo.Fits pending (memo.table pending outsider) := by
  constructor
  · intro name found hname hf
    rw [table, if_neg hname, hf]
    rfl
  · intro name hname
    rw [table, if_pos hname]

namespace TypeSources

section

variable {sources : TypeSources} {memo : Memo} {outsider : String}
  {found : String → Option AnnotationType → Prop}

/-- What is found, or an outsider. -/
def OrOutsider (found : String → Option AnnotationType → Prop) (outsider name : String)
    (type : Option AnnotationType) : Prop :=
  found name type ∨ type = some (.outsider outsider)

lemma answering_ensures {pending : List String} {name : String}
    (hknown : ∀ type, memo.Has name type → found name type)
    (hpending : name ∈ pending → found name none) :
    Resolving.Ensures (fun _ => True) (answering (memo.table pending outsider) name)
      (OrOutsider found outsider name) := by
  apply Resolving.Ensures.pure
  by_cases hmem : name ∈ pending
  · rw [Memo.table, if_pos hmem]
    exact .inl (hpending hmem)
  · rw [Memo.table, if_neg hmem]
    cases hf : memo.find? name with
    | none => exact .inr rfl
    | some type => exact .inl (hknown type hf)

lemma Synthesized.answered {package : String} {written : WrittenValue} {value : AnnotationValue}
    (h : sources.Synthesized (OrOutsider found outsider) package written value)
    (hfresh : outsider ∉ value.typeNames) : sources.Synthesized found package written value :=
  h.of_fresh hfresh fun _ _ hfound => hfound.imp_right (congrArg (Option.map AnnotationType.name))

lemma defaultsSynthesized_of_gives {declaration : Declaration} {pending : List String}
    (hpending : ∀ name ∈ pending, sources.Reaches name declaration.name) {type : AnnotationType}
    (hmade : ∀ table, memo.Fits pending table →
      (sources.declaredType (answering table) declaration).Gives type) :
    sources.DefaultsSynthesized (sources.FoundWithin memo declaration.name) declaration type := by
  intro element hmem value hvalue
  obtain ⟨outsider, houtsider⟩ := exists_fresh value.typeNames
  have hdefaults := (hmade _ (memo.fits_table pending outsider)).of_ensures
    ((sources.synthesizing (OrOutsider (sources.FoundWithin memo declaration.name)
      outsider)).declaredType_ensures (fun _ _ => id) declaration fun name _ =>
        answering_ensures (fun _ => .inl) fun hmem => .inr ⟨rfl, hpending name hmem⟩)
  obtain ⟨declared, hin, hname, written, hwritten, h⟩ := hdefaults element hmem value hvalue
  exact ⟨declared, hin, hname, written, hwritten, Synthesized.answered h houtsider⟩

lemma synthesized_of_gives (package : String) (use : AnnotationUse) {inner : AnnotationInstance}
    (hmade : ∀ table, memo.Fits [] table →
      (applyUse sources (answering table) package use).Gives inner) :
    sources.Synthesized memo.Has package (.nested use) (.nested inner) := by
  obtain ⟨outsider, houtsider⟩ := exists_fresh (AnnotationValue.nested inner).typeNames
  have h := (hmade _ (memo.fits_table [] outsider)).of_ensures
    ((sources.synthesizing (OrOutsider memo.Has outsider)).applyUse_ensures (fun _ _ => id) package
      use fun name _ => answering_ensures (fun _ => id) fun hmem => absurd hmem List.not_mem_nil)
  exact Synthesized.answered h houtsider

end

/-! ### Lookups -/

section

variable {sources : TypeSources}

/-- The declarations that are being worked on. -/
def pending (sources : TypeSources) (available : List String) : List String :=
  sources.allDeclared.filter fun name => (sources.declared? name).isSome ∧ name ∉ available

lemma mem_pending_iff {available : List String} {name : String} :
    name ∈ sources.pending available ↔ ¬sources.Available available name := by
  simp only [pending, List.mem_filter, decide_eq_true_eq, Available, Classical.not_imp]
  exact ⟨fun h => h.2, fun h => ⟨mem_allDeclared h.1, h⟩⟩

lemma pending_allDeclared : sources.pending sources.allDeclared = [] :=
  List.eq_nil_iff_forall_not_mem.2 fun _ hmem => mem_pending_iff.1 hmem mem_allDeclared

end

end TypeSources

/-- What a memo knows are available names, and the defaults of declared types come from what it
knows. -/
structure Memo.Accounted (sources : TypeSources) (available : List String) (memo : Memo) :
    Prop where
  available : ∀ name found, memo.find? name = some found → sources.Available available name
  defaults : ∀ name declaration type, sources.declared? name = some declaration →
    memo.find? name = some (some type) →
      sources.DefaultsSynthesized (sources.FoundWithin memo name) declaration type

namespace Memo.Accounted

variable {sources : TypeSources} {available : List String} {memo : Memo}

lemma of_known_eq {other : Memo} (h : memo.Accounted sources available)
    (hknown : other.known = memo.known) : other.Accounted sources available := by
  have hf : other.find? = memo.find? := by
    funext name
    rw [find?, find?, hknown]
  constructor
  · intro name found hfound
    exact h.available name found (hf ▸ hfound)
  · intro name declaration type hd hfound
    have hwithin : memo.Within other := fun name found hfound => by rwa [hf]
    exact (h.defaults name declaration type hd (hf ▸ hfound)).mono fun _ _ => .of_within hwithin

lemma without (h : memo.Accounted sources available) {name : String}
    (hf : memo.find? name = none) :
    memo.Accounted sources (without available name) := by
  refine ⟨fun other found ho hd => ?_, h.defaults⟩
  have hne : other ≠ name := by
    rintro rfl
    rw [hf] at ho
    contradiction
  simpa [ExternalAnnotations.without, hne] using h.available other found ho hd

lemma mono (h : memo.Accounted sources available) {others : List String}
    (ho : ∀ name ∈ available, name ∈ others) : memo.Accounted sources others :=
  ⟨fun name found hf hd => ho name (h.available name found hf hd), h.defaults⟩

lemma conclude (h : memo.Accounted sources available) {name : String}
    (hf : memo.find? name = none) {found : Option AnnotationType}
    (ha : sources.Available available name)
    (hdefaults : ∀ declaration type, sources.declared? name = some declaration →
      found = some type →
        sources.DefaultsSynthesized (sources.FoundWithin memo name) declaration type) :
    ((conclude name found).run memo).2.find? name = some found ∧
      ((ExternalAnnotations.conclude name found).run memo).2.Accounted sources available := by
  have hgrows := Memo.growsTo_conclude hf found
  have hfind : ∀ other, ((ExternalAnnotations.conclude name found).run memo).2.find? other =
      if other = name then some found else memo.find? other := by
    intro other
    by_cases hother : other = name
    · subst hother
      rw [if_pos rfl]
      cases found <;> exact find?_remember_self _ _ _
    · rw [if_neg hother]
      cases found <;> exact find?_remember_of_ne _ hother _
  refine ⟨by rw [hfind, if_pos rfl], ?_, ?_⟩
  · intro other found' hfound
    rw [hfind] at hfound
    by_cases hother : other = name
    · exact hother ▸ ha
    · rw [if_neg hother] at hfound
      exact h.available other found' hfound
  · intro other declaration type hd hfound
    refine TypeSources.DefaultsSynthesized.mono ?_ fun _ _ => .of_within hgrows.within
    rw [hfind] at hfound
    by_cases hother : other = name
    · subst hother
      rw [if_pos rfl] at hfound
      exact hdefaults declaration type hd (Option.some.inj hfound)
    · rw [if_neg hother] at hfound
      exact h.defaults other declaration type hd hfound

end Memo.Accounted

namespace TypeSources

/-- Work gives what other work gives with a table, if the table fits the memo that is left. -/
def tabled (sources : TypeSources) (available : List String)
    (table : String → Option AnnotationType) : WorkRelation where
  holds := fun work other => Resolving.Leads (Memo.Accounted sources available) work fun later a =>
    later.Fits (sources.pending available) table → other.Gives a
  pure := fun a => .pure fun _ _ => .pure a
  bind := fun h hn => h.bind hn fun _ _ _ _ hgrows hfirst hsecond hfits =>
    (hfirst (hfits.of_within hgrows.within)).bind (hsecond hfits)
  report := fun typeName element fault memo hk =>
    ⟨memo.growsTo_report typeName element fault, hk.of_known_eq rfl, fun _ _ => rfl⟩

variable {sources others : TypeSources}

lemma gives_of_known {available : List String} {name : String} {memo : Memo}
    {found : Option AnnotationType} (ha : sources.Available available name)
    (hf : memo.find? name = some found) {table : String → Option AnnotationType}
    (hfits : memo.Fits (sources.pending available) table) : (answering table name).Gives found :=
  fun _ => hfits.known name found (fun hmem => mem_pending_iff.1 hmem ha) hf

lemma tabled_conclude {available : List String} {name : String} {memo : Memo}
    (hk : memo.Accounted sources available) (hf : memo.find? name = none)
    (ha : sources.Available available name) {found : Option AnnotationType}
    (hdefaults : ∀ declaration type, sources.declared? name = some declaration →
      found = some type →
        sources.DefaultsSynthesized (sources.FoundWithin memo name) declaration type)
    (table : String → Option AnnotationType) :
    let concluded := (conclude name found).run memo
    memo.GrowsTo concluded.2 ∧ concluded.2.Accounted sources available ∧
      (concluded.2.Fits (sources.pending available) table →
        (answering table name).Gives concluded.1) := by
  intro concluded
  have hresult : concluded.1 = found := by cases found <;> rfl
  obtain ⟨hfound, hk⟩ := hk.conclude hf ha hdefaults
  rw [hresult]
  exact ⟨Memo.growsTo_conclude hf found, hk, gives_of_known ha hfound⟩

lemma defaults_declared {available : List String} {name : String}
    (hasked : sources.Asked available name) {declaration : Declaration}
    (hd : sources.declared? name = some declaration) {work : Resolving AnnotationType}
    (hwork : ∀ table, (sources.tabled (without available name) table).holds work
      (sources.declaredType (answering table) declaration))
    {memo : Memo} (hk : memo.Accounted sources available) (hf : memo.find? name = none) :
    let worked := work.run memo
    memo.GrowsTo worked.2 ∧ worked.2.Accounted sources available ∧ worked.2.find? name = none ∧
      sources.DefaultsSynthesized (sources.FoundWithin worked.2 name) declaration worked.1 := by
  intro worked
  obtain ⟨hgrows, hkept, -⟩ := hwork (fun _ => none) memo (hk.without hf)
  have hnew : worked.2.find? name = none := by
    by_contra hknown
    obtain ⟨found, hfound⟩ := Option.ne_none_iff_exists'.1 hknown
    have hmem := hkept.available name found hfound (by simp [hd])
    simp [without] at hmem
  -- the declarations that wait are this one and those that have asked for it
  have hleads : ∀ other ∈ sources.pending (without available name),
      sources.Reaches other name := by
    intro other hother
    obtain ⟨hdeclared, hna⟩ := Classical.not_imp.1 (mem_pending_iff.1 hother)
    by_cases hne : other = name
    · exact hne ▸ .refl
    · exact hasked other hdeclared fun hmem => hna (by simp [without, hmem, hne])
  refine ⟨hgrows, hkept.mono fun other ho => (List.mem_filter.1 ho).1, hnew, ?_⟩
  obtain rfl := name_of_declared hd
  exact defaultsSynthesized_of_gives hleads fun table => (hwork table memo (hk.without hf)).2.2

section

variable (hs : sources.SameNames others)
include hs

/-- What is looked up is what a table says that fits. -/
lemma tabled_lookupAmong {available : List String} {name : String}
    (hasked : sources.Asked available name) (table : String → Option AnnotationType) :
    (sources.tabled available table).holds (others.lookupAmong available name)
      (answering table name) := by
  -- Each declaration that is worked on is one fewer that is available.
  induction hn : available.length using Nat.strong_induction_on generalizing available name table
    with
  | _ n ih =>
    intro memo hk
    cases hf : memo.find? name with
    | some found =>
      rw [run_lookupAmong_of_known hf]
      exact ⟨.refl memo, hk, gives_of_known (hk.available name found hf) hf⟩
    | none =>
      have hdeclared := hs.declared? name
      cases hd : sources.declared? name with
      | none =>
        have ha : sources.Available available name := by simp [Available, hd]
        have hundeclared : ∀ {found : Option AnnotationType} (declaration : Declaration)
            (type : AnnotationType), sources.declared? name = some declaration →
              found = some type →
                sources.DefaultsSynthesized (sources.FoundWithin memo name) declaration type := by
          intro found declaration type hdeclared
          rw [hd] at hdeclared
          contradiction
        cases hc : others.annotationClass? name with
        | some c =>
          rw [run_lookupAmong_of_class hf hc]
          exact tabled_conclude hk hf ha hundeclared table
        | none =>
          have hd' : others.index.declaration? name = none := by
            rw [hd, declared?, hc] at hdeclared
            exact hdeclared
          rw [run_lookupAmong_of_missing hf hc hd']
          exact tabled_conclude hk hf ha hundeclared table
      | some declaration =>
        rw [hd] at hdeclared
        by_cases ha : name ∈ available
        · have htype : ∀ table, (sources.tabled (without available name) table).holds
              (others.declaredType (others.lookupAmong (without available name)) declaration)
              (sources.declaredType (answering table) declaration) := fun table =>
            WorkRelation.declaredType_holds _ hs declaration fun used hu =>
              .of_holds (ih _ (hn ▸ length_without_lt ha) (hasked.without hd hu) table rfl)
          obtain ⟨hgrows, hk, hnew, hdefaults⟩ := defaults_declared hasked hd htype hk hf
          have hconcluded := tabled_conclude hk hnew (fun _ => ha) (fun _ type hd' heq => by
            obtain rfl := Option.some.inj (hd.symm.trans hd')
            exact Option.some.inj heq ▸ hdefaults) table
          rw [run_lookupAmong_of_declared hf hdeclared ha]
          exact ⟨hgrows.trans hconcluded.1, hconcluded.2⟩
        · have hpending : name ∈ sources.pending available :=
            mem_pending_iff.2 fun h => ha (h (by simp [hd]))
          rw [run_lookupAmong_of_unavailable hf (by simp [hdeclared]) ha]
          exact ⟨.refl memo, hk, fun hfits _ => hfits.pending name hpending⟩

lemma leads_resolve (package : String) (use : AnnotationUse) :
    Resolving.Leads (Memo.Accounted sources sources.allDeclared) (others.resolve package use)
      fun later inner =>
        sources.Synthesized later.Has package (.nested use) (.nested inner) := by
  have hall : others.lookupType = others.lookupAmong sources.allDeclared := by
    funext name
    rw [lookupType, allDeclared, hs.index]
  have htabled : ∀ table, (sources.tabled sources.allDeclared table).holds
      (others.resolve package use) (applyUse sources (answering table) package use) := by
    intro table
    rw [resolve, hall]
    exact WorkRelation.applyUse_holds _ hs package use fun name _ =>
      .of_holds (tabled_lookupAmong hs (asked_allDeclared _) table)
  intro memo hk
  obtain ⟨hgrows, hk', -⟩ := htabled (fun _ => none) memo hk
  refine ⟨hgrows, hk', synthesized_of_gives package use fun table hfits => ?_⟩
  rw [← @pending_allDeclared sources] at hfits
  exact (htabled table memo hk).2.2 hfits

end

end TypeSources

end ExternalAnnotations
