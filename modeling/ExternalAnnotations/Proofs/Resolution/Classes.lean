import ExternalAnnotations.Proofs.Resolution.InStep

/-!
# Annotation classes in programs that differ in one name

What is known of an annotation class depends on the program only through the classes of its element
types. So two programs that know the same classes, but for one name, have the same annotation types
where no element is of a type of that name.
-/

namespace ExternalAnnotations

/-- Whether a method of an annotation class declares an element. -/
def Method.isElement (method : Method) : Bool := !method.isConstructor && !method.isStatic

/-- Two classes are the same as far as annotations look at them. -/
structure Class.SameInside (c d : Class) : Prop where
  binaryName : c.binaryName = d.binaryName
  kind : c.kind = d.kind
  annotations : c.annotations = d.annotations
  methods : c.methods = d.methods
  fields : c.fields = d.fields

namespace Program

/-- Two programs know the same classes, but perhaps for one name. -/
def SameApartFrom (name : String) (program other : Program) : Prop :=
  ∀ name', name' ≠ name → Option.Rel Class.SameInside (program.find? name') (other.find? name')

/-- An annotation class has an element of a class, or of arrays of it. -/
def HasElementOf (program : Program) (outer inner : String) : Prop :=
  ∃ c, program.find? outer = some c ∧ c.isAnnotationType = true ∧
    ∃ method ∈ c.methods, method.isElement = true ∧ method.result.type.innermost.1 = .named inner

lemma exists_of_isAnnotationType {program : Program} {name : String}
    (h : program.isAnnotationType name = true) :
    ∃ c, program.find? name = some c ∧ c.isAnnotationType = true :=
  (Option.any_eq_true _ _).1 h

namespace SameApartFrom

variable {name : String} {program other : Program} (h : program.SameApartFrom name other)
include h

lemma isAnnotationType {name' : String} (hne : name' ≠ name) :
    program.isAnnotationType name' = other.isAnnotationType name' := by
  have hrel := h name' hne
  rw [Program.isAnnotationType, Program.isAnnotationType]
  generalize program.find? name' = found, other.find? name' = found' at hrel ⊢
  cases hrel with
  | none => rfl
  | some hsame => exact congrArg (· == ClassKind.annotationType) hsame.kind

lemma enumNamed? (hname : (program.find? name).all (·.kind != .enum))
    (hname' : (other.find? name).all (·.kind != .enum)) (typeName : String) :
    Option.Rel Class.SameInside (program.enumNamed? typeName) (other.enumNamed? typeName) := by
  rw [Program.enumNamed?, Program.enumNamed?]
  induction binaryReadings typeName with
  | nil => exact .none
  | cons reading readings ih =>
    have hnone : ∀ {found : Option Class}, found.all (·.kind != .enum) →
        found.filter (·.kind == .enum) = none := by
      intro found hfound
      cases found with
      | none => rfl
      | some c => simp_all [Option.filter]
    rw [List.findSome?_cons, List.findSome?_cons]
    by_cases hreading : reading = name
    · rw [hreading, hnone hname, hnone hname']
      exact ih
    · have hrel := h reading hreading
      generalize program.find? reading = found, other.find? reading = found' at hrel ⊢
      cases hrel with
      | none => exact ih
      | @some c d hsame =>
        by_cases henum : d.kind = .enum
        · have hc : (some c).filter (·.kind == .enum) = some c := by
            simp [Option.filter, hsame.kind, henum]
          have hd : (some d).filter (·.kind == .enum) = some d := by simp [Option.filter, henum]
          rw [hc, hd]
          exact .some hsame
        · have hc : (some c).filter (·.kind == .enum) = none := by
            simp [Option.filter, hsame.kind, henum]
          have hd : (some d).filter (·.kind == .enum) = none := by simp [Option.filter, henum]
          rw [hc, hd]
          exact ih

lemma enumValue (hname : (program.find? name).all (·.kind != .enum))
    (hname' : (other.find? name).all (·.kind != .enum)) : other.enumValue = program.enumValue := by
  funext typeName written
  have hrel := h.enumNamed? hname hname' typeName
  unfold Program.enumValue
  generalize program.enumNamed? typeName = found, other.enumNamed? typeName = found' at hrel ⊢
  cases hrel with
  | none => rfl
  | some hsame =>
    simp only [Option.any_some, Class.field?, hsame.fields]
    rfl

end SameApartFrom

end Program

/-! ### The elements of an annotation class -/

namespace ElementType

lemma ofErasedType?_congr {p q : String → Bool} {type : ErasedType}
    (h : ∀ name, type.innermost.1 = .named name → p name = q name) :
    ofErasedType? p type = ofErasedType? q type := by
  induction type with
  | void | primitive => rfl
  | named name => rw [ofErasedType?, ofErasedType?, h name rfl]
  | array item ih => rw [ofErasedType?, ofErasedType?, ih h]

lemma of_annotationType?_eq_some {p : String → Bool} {type : ErasedType} {element : ElementType}
    {name : String} (h : ofErasedType? p type = some element)
    (hname : element.annotationType? = some name) :
    type.innermost.1 = .named name ∧ p name = true := by
  induction type generalizing element with
  | void => contradiction
  | primitive p =>
    obtain rfl := Option.some.inj h
    contradiction
  | named name' =>
    rw [ofErasedType?] at h
    obtain rfl := Option.some.inj h
    split at hname
    · contradiction
    · split at hname
      · contradiction
      · split at hname
        · rename_i hp
          obtain rfl := Option.some.inj hname
          exact ⟨rfl, hp⟩
        · contradiction
  | array item ih =>
    rw [ofErasedType?] at h
    obtain ⟨inner, hinner, rfl⟩ := Option.map_eq_some_iff.1 h
    exact ih hinner hname

end ElementType

namespace AnnotationType

lemma elementOf?_of_isElement {program : Program} {method : Method} (h : method.isElement = true) :
    elementOf? program method =
      (ElementType.ofErasedType? program.isAnnotationType method.result.type).map
        (⟨method.name, ·, method.default⟩) := by
  unfold Method.isElement at h
  rw [elementOf?, if_neg]
  simpa using h

lemma elementOf?_of_not_isElement {program : Program} {method : Method}
    (h : ¬method.isElement = true) : elementOf? program method = none := by
  rw [elementOf?, if_pos]
  cases hconstructor : method.isConstructor <;> simp_all [Method.isElement]

lemma elements_ofClass (program : Program) (c : Class) : (ofClass program c).elements =
    (c.methods.filter (·.isElement)).filterMap (elementOf? program) := by
  rw [List.filterMap_filter, ofClass]
  refine List.filterMap_congr fun method _ => ?_
  split
  · rfl
  · exact elementOf?_of_not_isElement ‹_›

lemma exists_of_annotationType? {program : Program} {c : Class} {element : AnnotationElement}
    {name : String} (h : element ∈ (ofClass program c).elements)
    (hname : element.type.annotationType? = some name) : program.isAnnotationType name = true ∧
      ∃ method ∈ c.methods, method.isElement = true ∧
        method.result.type.innermost.1 = .named name := by
  rw [elements_ofClass] at h
  obtain ⟨method, hmethod, helement⟩ := List.mem_filterMap.1 h
  obtain ⟨hmethod, hisElement⟩ := List.mem_filter.1 hmethod
  rw [elementOf?_of_isElement hisElement] at helement
  obtain ⟨type, htype, rfl⟩ := Option.map_eq_some_iff.1 helement
  obtain ⟨hinner, hknown⟩ := ElementType.of_annotationType?_eq_some htype hname
  exact ⟨hknown, method, hmethod, hisElement, hinner⟩

lemma ofClass_eq {program other : Program} {c d : Class} (hsame : c.SameInside d)
    (h : ∀ method ∈ c.methods, method.isElement = true →
      ∀ name, method.result.type.innermost.1 = .named name →
        program.isAnnotationType name = other.isAnnotationType name) :
    ofClass program c = ofClass other d := by
  have helements : (ofClass program c).elements = (ofClass other d).elements := by
    rw [elements_ofClass, elements_ofClass, ← hsame.methods]
    refine List.filterMap_congr fun method hmethod => ?_
    obtain ⟨hmethod, hisElement⟩ := List.mem_filter.1 hmethod
    rw [elementOf?_of_isElement hisElement, elementOf?_of_isElement hisElement,
      ElementType.ofErasedType?_congr (h method hmethod hisElement)]
  rw [ofClass, ofClass] at helements ⊢
  rw [hsame.binaryName, hsame.annotations, AnnotationType.mk.injEq]
  exact ⟨rfl, rfl, rfl, helements⟩

end AnnotationType

/-! ### Memos that know some types -/

/-- What a memo has for certain names is what is expected. -/
def Memo.Knows (expects : String → Option AnnotationType → Prop) (memo : Memo) : Prop :=
  ∀ name expected, expects name expected → ∀ found, memo.find? name = some found → found = expected

lemma Memo.Knows.remember {expects : String → Option AnnotationType → Prop} {memo : Memo}
    (h : memo.Knows expects) {name : String} {new : Option AnnotationType}
    (hname : ∀ expected, expects name expected → expected = new) :
    (memo.remember name new).Knows expects := by
  intro name' expected hexpected found hfound
  simp only [find?, Memo.remember, List.lookup_cons] at hfound
  by_cases heq : name' = name
  · subst heq
    simp only [beq_self_eq_true, Option.some.injEq] at hfound
    rw [← hfound, hname expected hexpected]
  · rw [beq_eq_false_iff_ne.2 heq] at hfound
    exact h name' expected hexpected found hfound

/-- From memos that know what is expected, looking up a name finds one thing and reports nothing. -/
def FindsQuietly (expects : String → Option AnnotationType → Prop) (lookup : TypeLookup)
    (name : String) (found : Option AnnotationType) : Prop :=
  ∀ memo : Memo, memo.Knows expects → ((lookup name).run memo).1 = found ∧
    ((lookup name).run memo).2.Knows expects ∧
      ((lookup name).run memo).2.diagnostics = memo.diagnostics

namespace TypeSources

variable {sources : TypeSources}

/-- What is found for the name of an annotation class. -/
def ClassFound (sources : TypeSources) (name : String) (found : Option AnnotationType) : Prop :=
  ∃ c, sources.annotationClass? name = some c ∧ found = some (.ofClass sources.program c)

lemma annotationClass?_eq_some_iff {name : String} {c : Class} :
    sources.annotationClass? name = some c ↔
      sources.program.find? name = some c ∧ c.isAnnotationType = true := by
  rw [annotationClass?, Option.filter_eq_some_iff]

lemma ClassFound.findsQuietly {expects : String → Option AnnotationType → Prop} {name : String}
    {found : Option AnnotationType} (h : sources.ClassFound name found)
    (hname : ∀ expected, expects name expected ↔ expected = found) (available : List String) :
    FindsQuietly expects (sources.lookupAmong available) name found := by
  intro memo hk
  obtain ⟨c, hc, rfl⟩ := h
  cases hf : memo.find? name with
  | some known =>
    rw [run_lookupAmong_of_known hf]
    exact ⟨hk name _ ((hname _).2 rfl) known hf, hk, rfl⟩
  | none =>
    rw [run_lookupAmong_of_class hf hc]
    exact ⟨rfl, hk.remember fun expected => (hname expected).1, rfl⟩

end TypeSources

end ExternalAnnotations
