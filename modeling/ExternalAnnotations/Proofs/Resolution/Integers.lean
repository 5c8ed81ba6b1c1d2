import ExternalAnnotations.Proofs.Index.Numerals
import ExternalAnnotations.Proofs.Resolution.Filling

/-!
# Integers from their spelling to their value

An integer that was read for a lexeme is converted where a value of an integer type is expected. It
keeps its number through every step, or it is left out because it does not fit.
-/

namespace ExternalAnnotations

/-! ### Converting an integer -/

/-- The number of bits of an integer type. -/
def Primitive.width? : Primitive → Option Nat
  | .byte => some 8
  | .short => some 16
  | .int => some 32
  | .long => some 64
  | _ => none

/-- The type and the number of a value of an integer type. -/
def AnnotationValue.integer? : AnnotationValue → Option (Primitive × Int)
  | .byte n => some (.byte, n.toInt)
  | .short n => some (.short, n.toInt)
  | .int n => some (.int, n.toInt)
  | .long n => some (.long, n.toInt)
  | _ => none

/-- What an integer that was read for a number comes to where a value of an integer type is
expected: the value of that type with the same number, or a fault if there is none. -/
inductive IntegerConversion (p : Primitive) (width : Nat) (n : Int64) (v : Int) :
    Except ElementFault AnnotationValue → Prop
  | fits {value : AnnotationValue} (hrange : InWidth width v)
      (hvalue : value.integer? = some (p, v)) : IntegerConversion p width n v (.ok value)
  | unfit (hrange : ¬ InWidth width v) :
      IntegerConversion p width n v (.error (.mismatch (.primitive p) (.int n)))

lemma narrow?_of_range {α : Type} {ofInt : Int → α} {toInt : α → Int} {n : Int64} {width : Nat}
    (hinside : ∀ v, InWidth width v → toInt (ofInt v) = v)
    (hbounds : ∀ a, InWidth width (toInt a)) :
    InWidth width n.toInt ∧ (∃ a, narrow? ofInt toInt n = some a ∧ toInt a = n.toInt) ∨
      ¬ InWidth width n.toInt ∧ narrow? ofInt toInt n = none := by
  by_cases h : InWidth width n.toInt
  · exact .inl ⟨h, _, if_pos (hinside _ h), hinside _ h⟩
  · refine .inr ⟨h, if_neg fun heq => h ?_⟩
    rw [← heq]
    exact hbounds _

lemma IntegerConversion.of_narrow {p : Primitive} {α : Type} {ofInt : Int → α} {toInt : α → Int}
    {width : Nat} {wrap : α → AnnotationValue} {n : Int64}
    (hvalue : primitiveValue? p (.int n) = (narrow? ofInt toInt n).map wrap)
    (hwrap : ∀ a, (wrap a).integer? = some (p, toInt a))
    (hinside : ∀ v, InWidth width v → toInt (ofInt v) = v) (hbounds : ∀ a, InWidth width (toInt a))
    (program : Program) :
    IntegerConversion p width n n.toInt (simpleValue program (.int n) (.primitive p)) := by
  rw [simpleValue, hvalue]
  rcases narrow?_of_range (n := n) hinside hbounds with ⟨hrange, a, ha, heq⟩ | ⟨hrange, hnone⟩
  · rw [ha]
    exact .fits hrange ((hwrap a).trans (congrArg (fun v => some (p, v)) heq))
  · rw [hnone]
    exact .unfit hrange

lemma integerConversion_simpleValue {p : Primitive} {width : Nat} (hwidth : p.width? = some width)
    (program : Program) (n : Int64) :
    IntegerConversion p width n n.toInt (simpleValue program (.int n) (.primitive p)) := by
  cases p with
  | byte =>
    obtain rfl := Option.some.inj hwidth
    exact .of_narrow rfl (fun _ => rfl) (fun v h => Int8.toInt_ofInt_of_le h.1 h.2)
      (fun a => ⟨a.le_toInt, a.toInt_lt⟩) program
  | short =>
    obtain rfl := Option.some.inj hwidth
    exact .of_narrow rfl (fun _ => rfl) (fun v h => Int16.toInt_ofInt_of_le h.1 h.2)
      (fun a => ⟨a.le_toInt, a.toInt_lt⟩) program
  | int =>
    obtain rfl := Option.some.inj hwidth
    exact .of_narrow rfl (fun _ => rfl) (fun v h => Int32.toInt_ofInt_of_le h.1 h.2)
      (fun a => ⟨a.le_toInt, a.toInt_lt⟩) program
  | long =>
    obtain rfl := Option.some.inj hwidth
    exact .fits ⟨n.le_toInt, n.toInt_lt⟩ rfl
  | boolean | char | float | double => contradiction

lemma run_convertValue_int (sources : TypeSources) (lookup : TypeLookup) (package : String)
    (p : Primitive) (n : Int64) (memo : Memo) :
    (convertValue sources lookup package (.int n) (.primitive p)).run.run memo =
      (simpleValue sources.program (.int n) (.primitive p), memo) := by
  rw [convertValue_of_simple]
  · rfl
  · intro items item hvalue
    contradiction
  · intro use hvalue
    contradiction

/-- What becomes of a value that is written for an element of a type: the element has it, or its
fault is reported and the element, if no other has its name, has no value. -/
def AnnotationType.Settles (type : AnnotationType) (name : String) (memo later : Memo)
    (values : List (String × AnnotationValue)) : Except ElementFault AnnotationValue → Prop
  | .ok value => (name, value) ∈ values
  | .error fault =>
    (∃ reported, later.diagnostics = memo.diagnostics ++ reported ∧
      .invalidElement type.name name fault ∈ reported) ∧
      ((type.elements.map (·.name)).Nodup → ∀ value, (name, value) ∉ values)

lemma settles_instantiate (sources : TypeSources) (available : List String) (package : String)
    (type : AnnotationType) (fields : List (String × WrittenValue)) (memo : Memo)
    {element : AnnotationElement} (hmem : element ∈ type.elements) {value : WrittenValue}
    (hvalue : fields.lookup element.name = some value)
    {result : Except ElementFault AnnotationValue}
    (hresult : ∀ memo, ((convertValue sources (sources.lookupAmong available) package value
      element.type).run.run memo).1 = result) :
    let run := (instantiate type
      (convertFields sources (sources.lookupAmong available) package fields)).run memo
    type.Settles element.name memo run.2 run.1.values result := by
  intro run
  obtain ⟨faults, reported, hfilling, hreported, hsub⟩ :=
    filling_instantiate sources package type fields available memo
  have hwritten := lookup_convertFields sources (sources.lookupAmong available) package
    element.name fields
  rw [hvalue] at hwritten
  obtain ⟨middle, ⟨converted, hok, hin⟩ | ⟨fault, herror, hin⟩⟩ := hfilling.of_written hmem hwritten
  · obtain rfl := (hresult middle).symm.trans hok
    exact hin
  · obtain rfl := (hresult middle).symm.trans herror
    refine ⟨⟨reported, hreported, hsub.subset ?_⟩,
      fun hnodup => hfilling.not_value_of_fault hnodup hin⟩
    exact List.mem_map.2 ⟨_, List.mem_append_right _ hin, rfl⟩

/-- What becomes of the default of a declared element: the element has it, or its fault is reported
and the element has no default. -/
def settledDefault (typeName name : String) (type : ElementType) (memo : Memo) :
    Except ElementFault AnnotationValue → AnnotationElement × Memo
  | .ok value => (⟨name, type, some value⟩, memo)
  | .error fault => (⟨name, type, none⟩, memo.report (.invalidElement typeName name fault))

lemma run_declaredElement_int (sources : TypeSources) (lookup : TypeLookup) (typeName : String)
    {declared : ElementDeclaration} {p : Primitive} {n : Int64}
    (htype : declared.type = .primitive p) (hdefault : declared.default = some (.int n))
    (memo : Memo) :
    (sources.declaredElement lookup typeName declared).run memo =
      settledDefault typeName declared.name (.primitive p) memo
        (simpleValue sources.program (.int n) (.primitive p)) := by
  have hrun := run_convertValue_int sources lookup (packageOf typeName) p n memo
  rw [TypeSources.declaredElement, htype, hdefault]
  dsimp only [TypeSources.fullType]
  rw [Resolving.run_bind, hrun]
  cases simpleValue sources.program (.int n) (.primitive p) <;> rfl

/-- **Integers are exact.** A lexeme of the integer patterns spells one number. Reading it gives
this number if 64 bits hold it, and otherwise nothing, which makes it an invalid literal. What was
read comes to the value of an integer type with the same number if that type has one, and otherwise
to a fault, be it written for an element or declared as its default. -/
theorem integers_exact {kind : TokenKind} {lexeme : List Char}
    (hkind : kind = .decimalInteger ∨ kind = .hexInteger) (hlexeme : lexeme ∈ pattern kind) :
    ∃ v : Int, (∀ v', IntegerSpelling kind lexeme v' ↔ v' = v) ∧
      (∀ n, Literal.integer? lexeme = some n ↔ n.toInt = v) ∧
      (Literal.integer? lexeme = none ↔ ¬ InWidth 64 v) ∧
      (∀ (token : Token) (cursor : Cursor) (rest : List Token) (room : Nat),
        cursor.rest = token :: rest → token.kind = kind → token.lexeme = String.ofList lexeme →
        Reader.value (room + 1) cursor =
          Reader.integerResult token cursor (Literal.integer? lexeme)) ∧
      ∀ (n : Int64) (p : Primitive) (width : Nat), n.toInt = v → p.width? = some width →
        ∃ result, IntegerConversion p width n v result ∧
          (∀ sources lookup package memo,
            (convertValue sources lookup package (.int n) (.primitive p)).run.run memo =
              (result, memo)) ∧
          (∀ (sources : TypeSources) available package (type : AnnotationType) fields memo,
            ∀ element ∈ type.elements, element.type = .primitive p →
              fields.lookup element.name = some (.int n) →
              let run := (instantiate type
                (convertFields sources (sources.lookupAmong available) package fields)).run memo
              type.Settles element.name memo run.2 run.1.values result) ∧
          ∀ (sources : TypeSources) lookup typeName (declared : ElementDeclaration) memo,
            declared.type = .primitive p → declared.default = some (.int n) →
            (sources.declaredElement lookup typeName declared).run memo =
              settledDefault typeName declared.name (.primitive p) memo result := by
  obtain ⟨v, hv⟩ := IntegerSpelling.exists_unique hkind hlexeme
  have hread : Literal.integer? lexeme = Literal.int64? v := by
    rw [Literal.integer?_eq, Literal.number_of_spelling ((hv v).2 rfl)]
  refine ⟨v, hv, fun n => ?_, ?_, ?_, ?_⟩
  · rw [hread]
    exact Literal.int64?_eq_some_iff
  · rw [hread]
    exact Literal.int64?_eq_none_iff
  · rintro token cursor rest room hcursor rfl hspelled
    rw [Reader.value_of_integer hcursor hkind, hspelled, String.toList_ofList]
  · rintro n p width rfl hwidth
    refine ⟨simpleValue {} (.int n) (.primitive p), integerConversion_simpleValue hwidth {} n,
      fun sources lookup package memo => run_convertValue_int sources lookup package p n memo, ?_,
      fun sources lookup typeName declared memo htype hdefault =>
        run_declaredElement_int sources lookup typeName htype hdefault memo⟩
    intro sources available package type fields memo element hmem htype hvalue
    refine settles_instantiate sources available package type fields memo hmem hvalue fun memo => ?_
    rw [htype, run_convertValue_int]
    rfl

/-- The least number of a byte, in capital letters and as a long integer. -/
theorem integers_exact_hexByte :
    "-0X80L".toList ∈ pattern .hexInteger ∧
      IntegerSpelling .hexInteger "-0X80L".toList (-128) ∧
      Literal.integer? "-0X80L".toList = some (-128) ∧
      (∃ value : AnnotationValue, value.integer? = some (.byte, -128) ∧
        ∀ sources lookup package memo,
          (convertValue sources lookup package (.int (-128)) (.primitive .byte)).run.run memo =
            (.ok value, memo)) := by
  have hspelling : IntegerSpelling .hexInteger "-0X80L".toList (-128) :=
    @IntegerSpelling.hex true 'X' ['8', '0'] ['L'] (.inr rfl)
      ⟨by decide, List.all_eq_true.1 (by decide)⟩ (by decide)
  have hpattern := hspelling.mem_pattern
  obtain ⟨v, hv, hread, -, -, hconvert⟩ := integers_exact (.inr rfl) hpattern
  obtain rfl := (hv _).1 hspelling
  obtain ⟨result, hresult, hrun, -⟩ := hconvert (-128) .byte 8 (by decide) rfl
  refine ⟨hpattern, hspelling, (hread _).2 (by decide), ?_⟩
  cases hresult with
  | fits hrange hvalue => exact ⟨_, hvalue, hrun⟩
  | unfit hrange => exact absurd ⟨by decide, by decide⟩ hrange

end ExternalAnnotations
