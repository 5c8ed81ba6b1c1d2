import ExternalAnnotations.Proofs.Index.Taking

/-!
# The readers of an index

Every reader of the format is related to itself, and takes tokens of its nonterminal. For values a
relation says what it keeps of a value with so much room: a `ValueRelation`.
-/

namespace ExternalAnnotations

open Production
open scoped Computability

/-- A value with no values in it. -/
def WrittenValue.isPlain : WrittenValue → Bool
  | .array _ | .nested _ => false
  | .bool _ | .int _ | .float _ | .char _ | .string _ | .name _ | .classLiteral _ => true

lemma Literal.isPlain_of_value {token : Token} {value : WrittenValue}
    (h : Literal.value token = .ok value) : value.isPlain = true := by
  unfold Literal.value at h
  split at h
  · rw [← Except.ok.inj h]
    rfl
  · rw [← Except.ok.inj h]
    rfl
  · cases hdecode : Literal.decodeEscapes (Literal.inside token.lexeme) with
    | error fault =>
      rw [hdecode] at h
      contradiction
    | ok text =>
      rw [hdecode] at h
      rw [← Except.ok.inj h]
      rfl
  · cases hdecode : Literal.decodeEscapes (Literal.inside token.lexeme) with
    | error fault =>
      rw [hdecode] at h
      contradiction
    | ok text =>
      simp only [hdecode, bind, Except.bind] at h
      split at h
      · rw [← Except.ok.inj h]
        rfl
      · contradiction
  · rw [← Except.ok.inj h]
    rfl
  · split at h
    · rw [← Except.ok.inj h]
      rfl
    · contradiction

namespace ReaderRelation

variable {tail : List Token} (r : ReaderRelation tail) {cursor other : Cursor}

/-! ### Names and plain values -/

lemma name (expected : String) :
    r.Relates Production.name Eq (Reader.name expected) (Reader.name expected) :=
  (r.token (.inl rfl)).map fun _ _ h => (lexeme_of_unplaced h.same).symm

lemma elementName :
    r.Relates Dialect.accepted.elementName Eq Reader.elementName Reader.elementName := by
  refine ((r.token (.inr rfl)).map fun _ _ h => (lexeme_of_unplaced h.same).symm).mono ?_
  rintro _ ⟨token, hkind, rfl⟩
  refine ⟨token, ?_, rfl⟩
  simpa using hkind

lemma part (expected : String) : ∀ cursor other, r.Near cursor other →
    Reader.continuesName cursor = true →
    r.Gives (word .dot * Production.name) Eq cursor
      ((do Reader.forward; Reader.name expected : Reader String) cursor)
      ((do Reader.forward; Reader.name expected : Reader String) other) := by
  intro cursor other h hmore
  exact r.forward (r.name expected) h (Bool.and_eq_true_iff.1 hmore).1

lemma qualifiedName (expected : String) :
    r.Relates Production.qualifiedName Eq (Reader.qualifiedName expected)
      (Reader.qualifiedName expected) := by
  refine (r.name expected).bind fun first first' hfirst =>
    (r.manyWhile ?_ (r.part expected)).map fun others others' hothers => ?_
  · intro cursor other h
    exact (r.alike h).continuesName_eq r.opens
  · obtain rfl := hfirst
    rw [List.forall₂_eq_eq_eq] at hothers
    obtain rfl := hothers
    rfl

/-- The same value, which is a plain one. -/
def SamePlain (value other : WrittenValue) : Prop := value = other ∧ value.isPlain = true

lemma literal {token token' : Token} {rest : List Token} (h : r.Near cursor other)
    (hrest : cursor.rest = token :: rest) (hliteral : token.kind.isLiteral = true)
    (htoken : unplaced token' = unplaced token) (hplace : r.Place token.start token'.start) :
    r.Gives Production.literal SamePlain cursor (Reader.literal token cursor)
      (Reader.literal token' other) := by
  have hn : cursor.rest ≠ [] := hrest ▸ List.cons_ne_nil token rest
  have hvalue : Literal.value token' = Literal.value token := by
    unfold Literal.value
    rw [kind_of_unplaced htoken, lexeme_of_unplaced htoken]
  unfold Reader.literal
  rw [hvalue, lexeme_of_unplaced htoken]
  split
  · rename_i value hvalue
    exact .ok (.forward hrest ⟨hliteral, value, hvalue⟩) (r.near_forward h hn)
      ⟨rfl, Literal.isPlain_of_value hvalue⟩
  · refine .error (.refl cursor) ?_ (.forward cursor) (r.near_forward h hn)
      fun _ => r.invalidLiteral _ _ hplace
    rw [Cursor.place, hrest]
    rfl

lemma nameValue : r.Relates (Production.qualifiedName * opt (word .dot * word .classWord))
    SamePlain Reader.nameValue Reader.nameValue := by
  refine (r.qualifiedName _).bind fun dotted dotted' hdotted => .get fun cursor other h => ?_
  obtain rfl := hdotted
  rw [(r.alike h).endsClassLiteral_eq r.opens]
  split
  · rename_i hends
    obtain ⟨hdot, hsecond⟩ := Bool.and_eq_true_iff.1 hends
    have hn := Cursor.ne_nil_of_isAt hdot
    have hword : cursor.forward.isAt .classWord = true := by
      rw [Cursor.isAt, cursor.kind?_forward hn]
      exact hsecond
    have hpast : cursor.Past (word .dot * word .classWord) cursor.forward.forward :=
      (Cursor.Past.of_isAt hdot).trans (.of_isAt hword)
    have hnear := r.near_forward (r.near_forward h hn) (Cursor.ne_nil_of_isAt hword)
    exact .ok (hpast.mono le_sup_right) hnear ⟨rfl, rfl⟩
  · have hname : r.Relates 1 SamePlain (pure (.name dotted)) (pure (.name dotted)) :=
      .pure ⟨rfl, rfl⟩
    exact (hname h).mono le_sup_left

/-! ### Annotations and values -/

/-- The same field with related values. -/
def Field (value : WrittenValue → WrittenValue → Prop)
    (field other : String × WrittenValue) : Prop :=
  field.1 = other.1 ∧ value field.2 other.2

/-- The same annotation with related values and at related places. -/
structure Use (value : WrittenValue → WrittenValue → Prop) (use other : AnnotationUse) : Prop where
  typeName : use.typeName = other.typeName
  values : List.Forall₂ (Field value) use.values other.values
  place : r.Place use.place other.place

section

variable {nested : Language Token} {value : WrittenValue → WrittenValue → Prop}
  {argument argument' item item' : Reader WrittenValue}

lemma namedArgument (h : r.Relates nested value argument argument') :
    r.Relates (Dialect.accepted.elementName * word .equals * nested) (Field value)
      (Reader.namedArgument argument) (Reader.namedArgument argument') := by
  rw [mul_assoc]
  exact r.elementName.bind fun _ _ hname => (r.expect (by decide) _).bind fun _ _ _ =>
    h.map fun _ _ hvalue => ⟨hname, hvalue⟩

lemma soleArgument (h : r.Relates nested value argument argument') :
    r.Relates nested (List.Forall₂ (Field value)) (Reader.soleArgument argument)
      (Reader.soleArgument argument') :=
  h.map fun _ _ hvalue => .cons ⟨rfl, hvalue⟩ .nil

lemma arguments (h : r.Relates nested value argument argument') :
    r.Relates (opt (word .openParen *
        (nested + separated (Dialect.accepted.elementName * word .equals * nested) +
          Dialect.accepted.noArguments) * word .closeParen))
      (List.Forall₂ (Field value)) (Reader.arguments argument) (Reader.arguments argument') := by
  have hnone : r.Relates 1 (List.Forall₂ (Field value)) (pure []) (pure []) := .pure .nil
  have hle : word .closeParen * 1 +
      (nested + separated (Dialect.accepted.elementName * word .equals * nested)) *
        word .closeParen ≤
      (nested + separated (Dialect.accepted.elementName * word .equals * nested) +
        Dialect.accepted.noArguments) * word .closeParen := by
    rw [add_mul _ (Dialect.accepted.noArguments), add_comm, mul_one]
    exact add_le_add le_rfl (one_mul (word .closeParen)).ge
  rw [opt, add_comm, mul_assoc]
  refine r.eat (by decide) (.mono ?_ hle) hnone
  refine r.eat (by decide) hnone (.get fun cursor other hnear => ?_)
  rw [(r.alike hnear).startsNamedArguments_eq r.opens]
  split
  · exact (r.closedBy (r.commaSeparated (r.namedArgument h)) (by decide) _ hnear).mono
      (mul_le_mul' le_sup_right le_rfl)
  · exact (r.closedBy (r.soleArgument h) (by decide) _ hnear).mono
      (mul_le_mul' le_sup_left le_rfl)

lemma annotationOf (h : r.Relates nested value argument argument') :
    r.Relates (useOf .accepted nested) (r.Use value) (Reader.annotationOf argument)
      (Reader.annotationOf argument') := by
  rw [useOf, mul_assoc]
  exact (r.expect (by decide) _).bind fun _ _ hsign => (r.qualifiedName _).bind fun _ _ hname =>
    (r.arguments h).map fun _ _ hvalues => ⟨hname, hvalues, hsign.start⟩

lemma arrayItems (h : r.Relates nested value item item') :
    r.Relates (opt (separated nested) * word .closeBrace) (List.Forall₂ value)
      (Reader.arrayItems item) (Reader.arrayItems item') := by
  have hle : word .closeBrace * 1 + separated nested * word .closeBrace ≤
      opt (separated nested) * word .closeBrace := by
    rw [opt, add_mul, mul_one, one_mul]
  have hnone : r.Relates 1 (List.Forall₂ value) (pure []) (pure []) := .pure .nil
  exact (r.eat (by decide) hnone (r.closedBy (r.commaSeparated h) (by decide) _)).mono hle

end

/-! ### Headers -/

/-- The same thing, read from a block at a related place. -/
def Headed {α : Type} (opened other : α × Location) : Prop :=
  opened.1 = other.1 ∧ r.Place opened.2 other.2

/-- Reads what follows the keyword in the header of a package. -/
def packageName : Reader String := do
  let name ← if (← get).isAt .colon then pure "" else Reader.qualifiedName "package name"
  let _ ← Reader.expect .colon "':' after package name"
  return name

lemma packageName_relates :
    r.Relates (opt Production.qualifiedName * word .colon) Eq packageName packageName := by
  refine .get fun cursor other hnear => ?_
  rw [(r.alike hnear).isAt_eq r.opens (by decide)]
  split
  · have hname : r.Relates (opt Production.qualifiedName) Eq (pure "" : Reader String) (pure "") :=
      (Relates.pure rfl).mono le_sup_left
    exact r.closedBy hname (by decide) _ hnear
  · exact r.closedBy ((r.qualifiedName _).mono le_sup_right) (by decide) _ hnear

lemma packageHeader (h : r.Near cursor other) (hthere : tail = [] ∨ cursor.rest ≠ []) :
    r.Gives packageHead Eq cursor (Reader.packageHeader cursor) (Reader.packageHeader other) := by
  have hword : one (fun token => (token.kind == TokenKind.packageWord) = true) ≤
      word .packageWord := by
    rintro _ ⟨token, hkind, rfl⟩
    exact ⟨token, beq_iff_eq.1 hkind, rfl⟩
  rw [packageHead, mul_assoc]
  exact ((r.token_at h hthere).mono hword).bind fun _ _ _ => r.packageName_relates

lemma classHeader : r.Relates (word .classWord * Production.name * word .colon) r.Headed
    Reader.classHeader Reader.classHeader := by
  rw [mul_assoc]
  exact (r.expect (by decide) _).bind fun _ _ hkeyword => (r.name _).bind fun _ _ hname =>
    (r.expect (by decide) _).map fun _ _ _ => ⟨hname, hkeyword.start⟩

lemma fieldHeader : r.Relates (word .fieldWord * Production.name * word .colon) r.Headed
    Reader.fieldHeader Reader.fieldHeader := by
  rw [mul_assoc]
  exact (r.expect (by decide) _).bind fun _ _ hkeyword => (r.name _).bind fun _ _ hname =>
    (r.expect (by decide) _).map fun _ _ _ => ⟨congrArg Member.field hname, hkeyword.start⟩

lemma returnHeader : r.Relates (word .returnWord * word .colon) r.Place Reader.returnHeader
    Reader.returnHeader :=
  (r.expect (by decide) _).bind fun _ _ hkeyword =>
    (r.expect (by decide) _).map fun _ _ _ => hkeyword.start

lemma typeHeader : r.Relates (word .typeWord * word .colon) Eq Reader.typeHeader
    Reader.typeHeader :=
  (r.expect (by decide) _).bind fun _ _ _ => (r.expect (by decide) _).map fun _ _ _ => rfl

lemma position : r.Relates Production.position Eq Reader.position Reader.position := by
  intro cursor other h
  refine (r.expect (by decide) _ h).bind_from
    fun number number' middle middle' hnumber _ hpast hnear hsame => ?_
  obtain ⟨hkind, hrest⟩ := Reader.rest_of_token hnumber
  rw [lexeme_of_unplaced hsame.same]
  cases hposition : Literal.position number.lexeme.toList with
  | ok position =>
    refine .ok ⟨hpast.leadsTo, [number], ⟨number, ?_, rfl⟩, hrest⟩ hnear rfl
    exact ⟨beq_iff_eq.1 hkind, position, hposition⟩
  | error fault =>
    exact .error (.refl cursor) (Reader.place_of_token hnumber).symm hpast.leadsTo hnear
      fun _ => r.invalidLiteral _ _ hsame.start

lemma parameterHeader :
    r.Relates (word .parameterWord * word .hash * Production.position * word .colon) r.Headed
      Reader.parameterHeader Reader.parameterHeader := by
  rw [mul_assoc, mul_assoc]
  exact (r.expect (by decide) _).bind fun _ _ hkeyword => (r.expect (by decide) _).bind fun _ _ _ =>
    r.position.bind fun _ _ hposition => (r.expect (by decide) _).map fun _ _ _ =>
      ⟨hposition, hkeyword.start⟩

lemma descriptorParts {rest rest' : List Token} {last last' : Token}
    (h : r.Near ⟨some last, rest⟩ ⟨some last', rest'⟩) :
    r.Gives ⊤ (fun parts parts' => unplaced parts' = unplaced parts) ⟨some last, rest⟩
      (Reader.descriptorParts last rest) (Reader.descriptorParts last' rest') := by
  induction rest generalizing last last' rest' with
  | nil =>
    obtain rfl : rest' = tail := (r.alike h).rest_eq_tail rfl
    have hfail : r.Gives ⊤ (fun parts parts' : List Token => unplaced parts' = unplaced parts)
      ⟨some last, []⟩ (Reader.fail "':' after method descriptor" ⟨some last, []⟩)
      (Reader.fail "':' after method descriptor" ⟨some last', rest'⟩) := .fail _ h
    cases rest' with
    | nil => exact hfail
    | cons first tail =>
      simp only [Reader.descriptorParts, r.opens.first first rfl]
      exact .error (.refl _) rfl (.refl _) h fun htail => absurd htail (List.cons_ne_nil first tail)
  | cons token rest ih =>
    have hnear := r.near_forward h (List.cons_ne_nil token rest)
    have hforward : Cursor.Past ⊤ ⟨some last, token :: rest⟩ ⟨some token, rest⟩ :=
      ⟨.forward ⟨some last, token :: rest⟩, [token], trivial, rfl⟩
    cases r.alike h with
    | @ahead _ _ _ token' _ rest' hprevious htoken htouches =>
      have hoffset : (token'.start.offset ≠ last'.finish.offset) ↔
          (token.start.offset ≠ last.finish.offset) := by
        simpa [touches] using not_congr htouches
      simp only [Reader.descriptorParts, kind_of_unplaced htoken, hoffset]
      split
      · exact .ok ((Cursor.Past.refl _).mono le_top) h rfl
      · split
        · exact .fail _ h
        · have hparts := Gives.after hforward (ih hnear)
          generalize Reader.descriptorParts token rest = result,
            Reader.descriptorParts token' rest' = result' at hparts
          cases hparts with
          | ok hpast hnear hsame =>
            refine .ok (hpast.mono le_top) hnear ?_
            rw [unplaced_cons, unplaced_cons, hsame, htoken]
          | error hfault hplace hnext hnear herror => exact .error hfault hplace hnext hnear herror
          | cut htail herror => exact .cut htail herror

lemma descriptorText_eq {opening opening' : Token} {parts parts' : List Token}
    (ho : unplaced opening' = unplaced opening) (hp : unplaced parts' = unplaced parts) :
    String.join ((opening' :: parts').map (·.lexeme)) =
      String.join ((opening :: parts).map (·.lexeme)) := by
  rw [List.map_cons, List.map_cons, lexeme_of_unplaced ho, lexemes_of_unplaced hp]

lemma descriptor : r.Relates Production.descriptor Eq Reader.descriptor Reader.descriptor := by
  intro cursor other h
  refine (r.expect (by decide) _ h).bind_from
    fun opening opening' middle middle' hopening hopening' hpast hnear hsame => ?_
  obtain ⟨hkind, hrest⟩ := Reader.rest_of_token hopening
  have hparts : r.Gives ⊤ (fun parts parts' => unplaced parts' = unplaced parts) middle
      (Reader.descriptorParts opening middle.rest)
      (Reader.descriptorParts opening' middle'.rest) := by
    have hmiddle := Reader.cursor_of_token hopening
    have hmiddle' := Reader.cursor_of_token hopening'
    rw [hmiddle, hmiddle'] at hnear
    rw [hmiddle]
    exact r.descriptorParts hnear
  refine (hparts.after hpast).bind_from fun parts parts' last last' hread _ hpast hnear hsame' => ?_
  obtain ⟨hrest', hall, hchain⟩ := of_descriptorParts hread
  rw [descriptorText_eq hsame.same hsame']
  cases hdecode : MethodDescriptor.decode (String.join ((opening :: parts).map (·.lexeme))) with
  | ok descriptor =>
    refine .ok ⟨hpast.leadsTo, opening :: parts, ⟨⟨opening, parts, rfl, ?_, hall⟩, hchain,
      descriptor, hdecode⟩, ?_⟩ hnear rfl
    · exact beq_iff_eq.1 hkind
    · rw [hrest, hrest', List.cons_append]
  | error fault =>
    exact .error (.refl cursor) (Reader.place_of_token hopening).symm hpast.leadsTo hnear
      fun _ => r.invalidDescriptor _ hsame.start

lemma methodHeader : r.Relates
    (word .methodWord * (Production.name + word .specialName) * Production.descriptor * word .colon)
    r.Headed Reader.methodHeader Reader.methodHeader := by
  have hname : one (fun token => Reader.isMethodName token.kind = true) ≤
      Production.name + word .specialName := by
    rintro _ ⟨token, hkind, rfl⟩
    rw [Reader.isMethodName, Bool.or_eq_true, beq_iff_eq] at hkind
    exact hkind.symm.imp (⟨token, ·, rfl⟩) (⟨token, ·, rfl⟩)
  rw [mul_assoc, mul_assoc]
  refine (r.expect (by decide) _).bind fun _ _ hkeyword =>
    ((r.token (.inl rfl)).mono hname).bind fun _ _ hname => r.descriptor.bind fun _ _ hdescriptor =>
      (r.expect (by decide) _).map fun _ _ _ => ⟨?_, hkeyword.start⟩
  rw [lexeme_of_unplaced hname.same, hdescriptor]

/-! ### Element types -/

lemma innermostElementType :
    r.Relates (Dialect.accepted.typeName + word .enumWord * Production.qualifiedName +
      word .annotationFieldWord * Production.qualifiedName) Eq Reader.innermostElementType
      Reader.innermostElementType := by
  refine .get fun cursor other h => ?_
  have hfail : r.Gives (Dialect.accepted.typeName + word .enumWord * Production.qualifiedName +
      word .annotationFieldWord * Production.qualifiedName) Eq cursor
    ((Reader.fail "annotation element type" : Reader ElementType) cursor)
    (Reader.fail "annotation element type" other) := .fail _ h
  rcases (r.alike h).kind?_cases r.opens with he | ⟨hnil, he⟩
  · rw [he]
    cases hkind : cursor.kind? with
    | none => exact hfail
    | some kind =>
      have hn := Cursor.ne_nil_of_kind? hkind
      have hat : cursor.isAt kind = true := by
        rw [Cursor.isAt, hkind]
        exact beq_self_eq_true _
      cases kind
      case enumWord =>
        refine Gives.mono ?_ (le_sup_right.trans le_sup_left)
        exact r.forward ((r.qualifiedName _).map fun _ _ hname => congrArg ElementType.enum hname)
          h hat
      case annotationFieldWord =>
        refine Gives.mono ?_ le_sup_right
        exact r.forward ((r.qualifiedName _).map fun _ _ hname =>
          congrArg ElementType.annotationType hname) h hat
      case identifier =>
        refine (r.qualifiedName _ h).bind_from
          fun name name' middle middle' hname _ hpast hnear hsame => ?_
        obtain rfl := hsame
        obtain ⟨taken, htaken, hrest, hjoined⟩ := joinedNames_of_qualifiedName hname
        cases htype : Reader.namedElementType? name with
        | some type =>
          refine .ok ⟨hpast.leadsTo, taken, .inl (.inl ⟨htaken, ?_⟩), hrest⟩ hnear rfl
          rw [hjoined]
          exact mem_typeNames_of_namedElementType? htype
        | none =>
          exact .error (.refl cursor) rfl hpast.leadsTo hnear
            fun _ => r.unexpectedToken _ _ (r.near_place h hn)
      all_goals exact hfail
  · have hnone : cursor.kind? = none := by
      rw [Cursor.kind?, hnil]
      rfl
    rw [he, hnone]
    exact hfail

lemma dimension : ∀ cursor other, r.Near cursor other → cursor.isAt .openBracket = true →
    r.Gives (word .openBracket * word .closeBracket) Eq cursor (Reader.dimension cursor)
      (Reader.dimension other) := by
  have hclose : r.Relates (word .closeBracket) Eq (do let _ ← Reader.expect .closeBracket "']'")
      (do let _ ← Reader.expect .closeBracket "']'") :=
    (r.expect (by decide) _).map fun _ _ _ => rfl
  intro cursor other h hopen
  exact r.forward hclose h hopen

lemma elementType :
    r.Relates (Production.elementType .accepted) Eq Reader.elementType Reader.elementType := by
  refine r.innermostElementType.bind fun type type' htype =>
    (r.manyWhile ?_ r.dimension).map fun dimensions dimensions' hsame => ?_
  · intro cursor other h
    exact (r.alike h).isAt_eq r.opens (by decide)
  · rw [List.forall₂_eq_eq_eq] at hsame
    rw [htype, hsame]

end ReaderRelation

/-! ### Values in values -/

/-- What relates two readings, with a relation for values that were read with so much room. -/
structure ValueRelation (tail : List Token) extends ReaderRelation tail where
  Value : Nat → WrittenValue → WrittenValue → Prop
  tooDeep {cursor other : Cursor} : tail = [] → Near cursor other →
    Error (.tooDeep cursor.place) (.tooDeep other.place)
  plain {value : WrittenValue} (room : Nat) : value.isPlain = true → Value (room + 1) value value
  array {room : Nat} {items others : List WrittenValue} : List.Forall₂ (Value room) items others →
    Value (room + 1) (.array items) (.array others)
  nested {room : Nat} {use other : AnnotationUse} :
    toReaderRelation.Use (Value (room - 1)) use other →
      Value (room + 1) (.nested use) (.nested other)

namespace ValueRelation

open ReaderRelation

variable {tail : List Token} (r : ValueRelation tail) {cursor other : Cursor} {room : Nat}
  {item item' argument argument' : Reader WrittenValue}

lemma reads_tooDeep {l : Language Token} :
    r.Relates l (r.Value room) Reader.tooDeep Reader.tooDeep :=
  fun cursor _ h => .error (.refl cursor) rfl (.refl cursor) h fun htail => r.tooDeep htail h

lemma valueOf (hitem : r.Relates (Production.value .accepted) (r.Value room) item item')
    (hargument : r.Relates (Production.value .accepted) (r.Value (room - 1)) argument argument') :
    r.Relates (Production.value .accepted) (r.Value (room + 1)) (Reader.valueOf item argument)
      (Reader.valueOf item' argument') := by
  rw [← value_eq]
  intro cursor other h
  have hfail : r.Gives (Production.valueOf .accepted (Production.value .accepted))
    (r.Value (room + 1)) cursor ((Reader.fail "annotation value" : Reader WrittenValue) cursor)
    (Reader.fail "annotation value" other) := .fail _ h
  obtain ⟨previous, rest⟩ := cursor
  obtain ⟨previous', rest'⟩ := other
  cases rest with
  | nil =>
    obtain rfl : rest' = tail := (r.alike h).rest_eq_tail rfl
    cases rest' with
    | nil => exact hfail
    | cons first tail =>
      simp only [Reader.valueOf, r.opens.first first rfl]
      exact hfail
  | cons token rest =>
    have hplace := r.near_place h (List.cons_ne_nil token rest)
    have hat {kind : TokenKind} (hkind : token.kind = kind) :
        (Cursor.mk previous (token :: rest)).isAt kind = true := by
      rw [← hkind]
      exact beq_self_eq_true _
    have hplain (value value' : WrittenValue) (hsame : SamePlain value value') :
        r.Value (room + 1) value value' := by
      obtain ⟨rfl, hvalue⟩ := hsame
      exact r.plain room hvalue
    cases r.alike h with
    | ahead hprevious htoken =>
      simp only [Reader.valueOf, kind_of_unplaced htoken]
      split
      · rename_i hliteral
        have hread := (r.literal h rfl hliteral htoken hplace).imp hplain
        exact hread.mono (le_sup_left.trans (le_sup_left.trans le_sup_left))
      · split
        · rename_i hbrace
          have harray := r.forward ((r.arrayItems hitem).map fun _ _ hitems => r.array hitems) h
            (hat hbrace)
          rw [← mul_assoc] at harray
          exact harray.mono (le_sup_right.trans le_sup_left)
        · split
          · have hnested := (r.annotationOf hargument).map fun _ _ huse => r.nested huse
            exact (hnested h).mono le_sup_right
          · split
            · have hname := (r.nameValue h).imp hplain
              exact hname.mono ((le_sup_right.trans le_sup_left).trans le_sup_left)
            · exact hfail

lemma value (room : Nat) : r.Relates (Production.value .accepted) (r.Value room)
    (Reader.value room) (Reader.value room) := by
  induction room using Nat.strong_induction_on with
  | _ room ih =>
    match room with
    | 0 => exact r.reads_tooDeep
    | 1 =>
      have hitem : r.Relates (Production.value .accepted) (r.Value 0) Reader.tooDeep
        Reader.tooDeep := r.reads_tooDeep
      exact r.valueOf hitem r.reads_tooDeep
    | room + 2 => exact r.valueOf (ih _ (by omega)) (ih _ (by omega))

lemma annotationUse : r.Relates (Production.use .accepted) (r.Use (r.Value maxValueDepth))
    Reader.annotationUse Reader.annotationUse := r.annotationOf (r.value maxValueDepth)

lemma annotations : r.Relates (Production.uses .accepted)
    (List.Forall₂ (r.Use (r.Value maxValueDepth))) Reader.annotations Reader.annotations := by
  refine r.manyWhile ?_ ?_
  · intro cursor other h
    exact (r.alike h).isAt_eq r.opens (by decide)
  · intro cursor other h _
    exact r.annotationUse h

lemma opening {α : Type} {l : Language Token} {same : α → α → Prop} {header header' : Reader α}
    (h : r.Relates l same header header') :
    r.Relates (l * Production.uses .accepted)
      (fun opened other => same opened.1 other.1 ∧
        List.Forall₂ (r.Use (r.Value maxValueDepth)) opened.2 other.2)
      (Section.opening header) (Section.opening header') :=
  h.bind fun _ _ hheader => r.annotations.map fun _ _ huses => ⟨hheader, huses⟩

/-! ### Declarations -/

/-- The same element with related defaults. -/
structure Element (element other : ElementDeclaration) : Prop where
  name : element.name = other.name
  type : element.type = other.type
  default : Option.Rel (r.Value (maxValueDepth + 1)) element.default other.default

/-- The same annotation type with related annotations and defaults, at a related place. -/
structure Declared (declaration other : Declaration) : Prop where
  name : declaration.name = other.name
  annotations : List.Forall₂ (r.Use (r.Value maxValueDepth)) declaration.annotations
    other.annotations
  elements : List.Forall₂ r.Element declaration.elements other.elements
  place : r.Place declaration.place other.place

lemma elementDeclaration : r.Relates (Production.element .accepted) r.Element
    Reader.elementDeclaration Reader.elementDeclaration := by
  rw [element, mul_assoc]
  refine r.elementType.bind fun type type' htype => r.elementName.bind fun name name' hname => ?_
  obtain rfl := htype
  obtain rfl := hname
  rw [opt, add_comm]
  refine r.eat (by decide) ?_ (.pure ⟨rfl, rfl, .none⟩)
  have hdefault : r.Relates (Production.value .accepted)
      (Option.Rel (r.Value (maxValueDepth + 1)))
      (some <$> Reader.value (maxValueDepth + 1)) (some <$> Reader.value (maxValueDepth + 1)) :=
    (r.value _).map fun _ _ hvalue => .some hvalue
  exact hdefault.map fun _ _ hdefault => ⟨rfl, rfl, hdefault⟩

lemma declaration (package : String) : r.Relates (Production.declaration .accepted) r.Declared
    (Reader.declaration package) (Reader.declaration package) := by
  have helements : r.Relates (Production.element .accepted)∗ (List.Forall₂ r.Element)
      (Reader.manyWhile Reader.withinBlock Reader.elementDeclaration)
      (Reader.manyWhile Reader.withinBlock Reader.elementDeclaration) := by
    refine r.manyWhile ?_ ?_
    · intro cursor other h
      exact (r.alike h).withinBlock_eq r.opens
    · intro cursor other h _
      exact r.elementDeclaration h
  rw [Production.declaration, mul_assoc, mul_assoc, mul_assoc, mul_assoc]
  exact (r.expect (by decide) _).bind fun _ _ hkeyword => (r.expect (by decide) _).bind fun _ _ _ =>
    (r.name _).bind fun _ _ hname => (r.expect (by decide) _).bind fun _ _ _ =>
      r.annotations.bind fun _ _ huses => helements.map fun _ _ helements =>
        ⟨congrArg (qualify package) hname, huses, helements, hkeyword.start⟩

end ValueRelation

end ExternalAnnotations
