import ExternalAnnotations.Proofs.Index.Reading

/-!
# Reading values and annotations

Every spelling of a value that is not nested too deeply is read as that value, and every spelling
of an annotation as that annotation.
-/

namespace ExternalAnnotations

variable {terminals : List Terminal}

lemma WrittenValue.height_pos (value : WrittenValue) : 0 < value.height := by
  cases value <;> simp [height]

lemma WrittenValue.height_le_maxHeight {items : List WrittenValue} {item : WrittenValue}
    (h : item ∈ items) : item.height ≤ maxHeight items := by
  induction items with
  | nil => contradiction
  | cons value items ih =>
    rw [maxHeight]
    rcases List.mem_cons.1 h with rfl | h
    · exact le_max_left _ _
    · exact (ih h).trans (le_max_right _ _)

lemma AnnotationUse.height_lt_fieldsHeight {fields : List (String × WrittenValue)}
    {field : String × WrittenValue} (h : field ∈ fields) :
    field.2.height < fieldsHeight fields := by
  induction fields with
  | nil => contradiction
  | cons other fields ih =>
    rw [fieldsHeight]
    rcases List.mem_cons.1 h with rfl | h
    · exact lt_max_of_lt_left (Nat.lt_succ_self _)
    · exact lt_max_of_lt_right (ih h)

lemma Terminal.avoids_mono (terminal : Terminal) {kinds others : List TokenKind}
    (h : terminal.avoids kinds = true) (hsub : ∀ kind ∈ others, kind ∈ kinds) :
    terminal.avoids others = true := by
  obtain ⟨kind, lexeme, glued⟩ := terminal
  cases kind with
  | some kind =>
    simp only [avoids, Bool.not_eq_true', List.contains_eq_mem, decide_eq_false_iff_not] at h ⊢
    exact fun hmem => h (hsub kind hmem)
  | none =>
    simp only [avoids, List.all_eq_true] at h ⊢
    exact fun kind hmem => h kind (hsub kind hmem)

lemma ValueSpelling.exists_cons {value : WrittenValue} (h : ValueSpelling value terminals) :
    ∃ terminal others, terminals = terminal :: others ∧
      terminal.avoids [.closeParen, .closeBrace, .comma, .equals] = true := by
  cases h with
  | @literal _ kind lexeme h =>
    exact ⟨_, [], rfl, by cases h <;> rfl⟩
  | name q => exact ⟨_, _, rfl, rfl⟩
  | classLiteral q => exact ⟨_, _, rfl, rfl⟩
  | emptyArray => exact ⟨_, _, rfl, rfl⟩
  | array => exact ⟨_, _, rfl, rfl⟩
  | nested h => cases h <;> exact ⟨_, _, rfl, rfl⟩

lemma Cursor.Spells.secondKind?_ne {cursor last : Cursor} {first second : Terminal}
    (h : Spells (first :: second :: terminals) cursor last) {kind : TokenKind}
    (hs : second.avoids [kind] = true) : (cursor.secondKind? == some kind) = false := by
  cases h with
  | cons _ _ h =>
    cases h with
    | cons hfits => simpa [secondKind?] using hfits.kind_not_mem hs

lemma UseSpelling.exists_cons {use : AnnotationUse} (h : UseSpelling use terminals) :
    ∃ others, terminals = .word .atSign :: others := by
  cases h <;> exact ⟨_, rfl⟩

lemma ValueSpelling.avoids {value : WrittenValue} (h : ValueSpelling value terminals)
    {others : List Terminal} {cursor last : Cursor}
    (hspells : Cursor.Spells (terminals ++ others) cursor last) :
    cursor.Avoids [.closeParen, .closeBrace, .comma, .equals] := by
  obtain ⟨terminal, more, rfl, havoids⟩ := h.exists_cons
  exact hspells.avoids havoids

lemma ValueSpelling.exists_second {value : WrittenValue} (h : ValueSpelling value terminals) :
    ∃ first second others, terminals ++ [.word .closeParen] = first :: second :: others ∧
      second.avoids [.equals] = true := by
  have hq : ∀ (q : QualifiedName) last, last.avoids [.equals] = true → ∀ more,
      ∃ first second others, q.terminals ++ last :: more = first :: second :: others ∧
        second.avoids [.equals] = true := by
    intro q last hlast more
    obtain ⟨first, parts⟩ := q
    cases parts with
    | nil => exact ⟨_, last, more, rfl, hlast⟩
    | cons part parts => exact ⟨_, .word .dot, _, rfl, rfl⟩
  cases h with
  | literal h => exact ⟨_, _, [], rfl, rfl⟩
  | name q => exact hq q _ rfl _
  | classLiteral q =>
    rw [List.append_assoc]
    exact hq q _ rfl _
  | emptyArray => exact ⟨_, _, _, rfl, rfl⟩
  | array h =>
    cases h with
    | mk ha h =>
      obtain ⟨terminal, others, rfl, havoids⟩ := ha.exists_cons
      exact ⟨_, terminal, _, rfl, terminal.avoids_mono havoids (by decide)⟩
  | nested h => cases h <;> exact ⟨_, _, _, rfl, rfl⟩

lemma ValueSpelling.startsNamedArguments_eq {value : WrittenValue}
    (h : ValueSpelling value terminals) {cursor last : Cursor}
    (hspells : Cursor.Spells (terminals ++ [.word .closeParen]) cursor last) :
    Reader.startsNamedArguments cursor = false := by
  obtain ⟨first, second, others, heq, hsecond⟩ := h.exists_second
  rw [heq] at hspells
  rw [Reader.startsNamedArguments, hspells.secondKind?_ne hsecond, Bool.and_false]

namespace Reader

variable {item argument : Reader WrittenValue} {start : Cursor}

lemma valueOf_of_brace (h : start.isAt .openBrace = true) :
    valueOf item argument start =
      (do forward; return .array (← arrayItems item) : Reader WrittenValue) start := by
  obtain ⟨previous, rest⟩ := start
  obtain ⟨token, rest, rfl⟩ := List.exists_cons_of_ne_nil (Cursor.ne_nil_of_isAt h)
  have hkind : token.kind = .openBrace := by simpa [Cursor.isAt, Cursor.kind?] using h
  simp [valueOf, hkind, TokenKind.isLiteral]

lemma valueOf_of_sign (h : start.isAt .atSign = true) :
    valueOf item argument start =
      (do return .nested (← annotationOf argument) : Reader WrittenValue) start := by
  obtain ⟨previous, rest⟩ := start
  obtain ⟨token, rest, rfl⟩ := List.exists_cons_of_ne_nil (Cursor.ne_nil_of_isAt h)
  have hkind : token.kind = .atSign := by simpa [Cursor.isAt, Cursor.kind?] using h
  simp [valueOf, hkind, TokenKind.isLiteral]

/-- An item of an array has one level less room than the array, and an argument of an annotation has
two levels less than the annotation. -/
lemma value_succ (room : Nat) : value (room + 1) = valueOf (value room) (value (room - 1)) := by
  cases room <;> rfl

end Reader

namespace Reader.Reads

/-- The kinds that go on with a value: a dot with a name, a parenthesis with an annotation. -/
def valueKinds : List TokenKind := [.dot, .openParen]

/-- A reader reads every spelling of a value below a height. -/
def ReadsBelow (height : Nat) (reader : Reader WrittenValue) : Prop :=
  ∀ value terminals, value.height < height → ValueSpelling value terminals →
    Reads reader terminals (unplaced · = unplaced value) (Cursor.Avoids valueKinds)

section

variable {item argument : Reader WrittenValue}

lemma namedArgument {terminal : Terminal} (hname : terminal.namesElement = true)
    {value : WrittenValue}
    (h : Reads argument terminals (unplaced · = unplaced value) (Cursor.Avoids valueKinds)) :
    Reads (Reader.namedArgument argument) (terminal :: .word .equals :: terminals)
      (unplaced · = unplaced (terminal.lexeme, value)) (Cursor.Avoids valueKinds) := by
  refine (elementName hname).andThen fun _ hname => (expect .equals _).andThen fun _ _ =>
    h.map fun b hb => ?_
  change (_, unplaced b) = (_, unplaced value)
  rw [hname, hb]

lemma arguments_absent :
    Reads (Reader.arguments argument) [] (· = []) (Cursor.Avoids [.openParen]) :=
  (eat_absent .openParen).bind (fun opened ho => by
    rw [ho]
    exact pure rfl) fun middle last h hfollow => by
      cases h
      exact hfollow

lemma arguments_sole {value : WrittenValue} {height : Nat} (hheight : value.height < height)
    (harg : ReadsBelow height argument) (h : ValueSpelling value terminals) :
    Reads (Reader.arguments argument) (.word .openParen :: terminals ++ [.word .closeParen])
      (unplaced · = unplaced [(soleElement, value)]) Cursor.Anywhere := by
  refine (eat .openParen).andThen fun opened ho => ?_
  rw [ho]
  refine (eat_absent .closeParen).bind (fun closed hc => ?_) ?_
  · rw [hc]
    refine get fun cursor last hspells hfollow => ?_
    rw [h.startsNamedArguments_eq hspells]
    refine closedBy .closeParen _ ((harg value terminals hheight h).map fun b hb => ?_) ?_
      cursor last hspells hfollow
    · exact congrArg (fun value => [(soleElement, value)]) hb
    · exact fun cursor last h => h.avoids rfl
  · exact fun cursor last hspells _ => (h.avoids hspells).mono (by decide)

/-- An element name and the equals sign after it. -/
def StartsNamed (terminals : List Terminal) : Prop :=
  ∃ terminal others, terminals = terminal :: .word .equals :: others ∧ terminal.namesElement = true

lemma startsNamedArguments_of_spells (h : StartsNamed terminals) {others : List Terminal}
    {cursor last : Cursor} (hspells : Cursor.Spells (terminals ++ others) cursor last) :
    Reader.startsNamedArguments cursor = true ∧ cursor.Avoids [.closeParen] := by
  obtain ⟨terminal, more, rfl, hname⟩ := h
  cases hspells with
  | @cons _ _ _ token _ _ hfits _ hspells =>
    cases hspells with
    | cons hequals =>
      have hkinds : ∀ kind : TokenKind,
          (kind == .identifier || (kind.isKeyword && !kind.isLiteral)) = true →
            (kind == .identifier || kind.isKeyword) = true ∧ kind ≠ .closeParen := by
        intro kind
        cases kind <;> decide
      obtain ⟨hkind, hne⟩ := hkinds token.kind (hfits.isElementName hname)
      constructor
      · simp [Reader.startsNamedArguments, Cursor.kind?, Cursor.secondKind?, hequals.kind_eq, hkind]
      · simpa [Cursor.Avoids, Cursor.isAt, Cursor.kind?] using hne

lemma arguments_named {spelling : String × WrittenValue → List Terminal → Prop}
    {fields : List (String × WrittenValue)} (h : Separated spelling fields terminals)
    (hstart : StartsNamed terminals)
    (hfield : ∀ field ∈ fields, ∀ terminals, spelling field terminals →
      Reads (Reader.namedArgument argument) terminals (unplaced · = unplaced field)
        (Cursor.Avoids valueKinds)) :
    Reads (Reader.arguments argument) (.word .openParen :: terminals ++ [.word .closeParen])
      (unplaced · = unplaced fields) Cursor.Anywhere := by
  refine (eat .openParen).andThen fun opened ho => ?_
  rw [ho]
  refine (eat_absent .closeParen).bind (fun closed hc => ?_) ?_
  · rw [hc]
    refine get fun cursor last hspells hfollow => ?_
    rw [(startsNamedArguments_of_spells hstart hspells).1]
    exact closedBy .closeParen _ (commaSeparated (by decide) hfield h)
      (fun cursor last h => h.avoids rfl) cursor last hspells hfollow
  · exact fun cursor last hspells _ => (startsNamedArguments_of_spells hstart hspells).2

lemma annotationOf_name (q : QualifiedName) (place : Location) {others : List Terminal}
    {values : List (String × WrittenValue)}
    (hvalues : Reads (Reader.arguments argument) others (unplaced · = unplaced values)
      (Cursor.Avoids valueKinds))
    (hf : ∀ cursor last, Cursor.Spells others cursor last → last.Avoids valueKinds →
      cursor.Avoids [.dot]) :
    Reads (Reader.annotationOf argument) (.word .atSign :: q.terminals ++ others)
      (unplaced · = unplaced (AnnotationUse.mk q.text values place)) (Cursor.Avoids valueKinds) :=
  (expect .atSign _).andThen fun _ _ => (qualifiedName q _).bind
    (fun dotted hd => hvalues.map fun b hb => by rw [hd, unplaced_use, unplaced_use, hb])
    fun middle last hspells hfollow => continuesName_eq_false (hf middle last hspells hfollow)

lemma annotationOf_bare (q : QualifiedName) (place : Location) :
    Reads (Reader.annotationOf argument) (.word .atSign :: q.terminals)
      (unplaced · = unplaced (AnnotationUse.mk q.text [] place)) (Cursor.Avoids valueKinds) := by
  have hvalues : Reads (Reader.arguments argument) [] (unplaced · = unplaced [])
      (Cursor.Avoids valueKinds) :=
    arguments_absent.mono (fun _ h => congrArg unplaced h) fun _ h => h.mono (by decide)
  have hread := annotationOf_name q place hvalues fun cursor last hspells hf => by
    cases hspells
    exact hf.mono (by decide)
  rwa [List.append_nil] at hread

lemma annotationOf_arguments (q : QualifiedName) (place : Location)
    {values : List (String × WrittenValue)}
    (h : Reads (Reader.arguments argument) (.word .openParen :: terminals)
      (unplaced · = unplaced values) Cursor.Anywhere) :
    Reads (Reader.annotationOf argument)
      (.word .atSign :: q.terminals ++ .word .openParen :: terminals)
      (unplaced · = unplaced (AnnotationUse.mk q.text values place)) (Cursor.Avoids valueKinds) :=
  annotationOf_name q place (h.mono (fun _ h => h) fun _ _ => trivial)
    fun _ _ hspells _ => hspells.avoids rfl

lemma annotationOf {use : AnnotationUse} {height : Nat} (hheight : use.height ≤ height)
    (harg : ReadsBelow height argument) (h : UseSpelling use terminals) :
    Reads (Reader.annotationOf argument) terminals (unplaced · = unplaced use)
      (Cursor.Avoids valueKinds) := by
  cases h with
  | bare q place => exact annotationOf_bare q place
  | @sole q place value terminals h =>
    have hvalue : value.height < height := by
      rw [AnnotationUse.height, AnnotationUse.fieldsHeight] at hheight
      omega
    exact annotationOf_arguments q place (arguments_sole hvalue harg h)
  | @named q place fields terminals h =>
    have hstart : StartsNamed terminals := by
      cases h with
      | mk hfield =>
        cases hfield
        exact ⟨_, _, rfl, rfl⟩
    refine annotationOf_arguments q place (arguments_named h hstart fun field hmem _ hfield => ?_)
    cases hfield with
    | mk hvalue =>
      have hvalueHeight := AnnotationUse.height_lt_fieldsHeight hmem
      exact namedArgument rfl (harg _ _ (hvalueHeight.trans_le hheight) hvalue)

lemma arrayItems_empty :
    Reads (Reader.arrayItems item) [.word .closeBrace] (· = []) Cursor.Anywhere := by
  refine (eat .closeBrace).andThen (u := []) fun closed hc => ?_
  rw [hc]
  exact pure rfl

lemma arrayItems {spelling : WrittenValue → List Terminal → Prop} {items : List WrittenValue}
    (h : Separated spelling items terminals)
    (hstart : ∃ terminal others, terminals = terminal :: others ∧
      terminal.avoids [.closeBrace] = true)
    (hitem : ∀ value ∈ items, ∀ terminals, spelling value terminals →
      Reads item terminals (unplaced · = unplaced value) (Cursor.Avoids valueKinds)) :
    Reads (Reader.arrayItems item) (terminals ++ [.word .closeBrace]) (unplaced · = unplaced items)
      Cursor.Anywhere := by
  refine (eat_absent .closeBrace).bind (fun closed hc => ?_) ?_
  · rw [hc]
    exact closedBy .closeBrace _ (commaSeparated (by decide) hitem h)
      fun cursor last h => h.avoids rfl
  · intro cursor last hspells _
    obtain ⟨terminal, others, rfl, havoids⟩ := hstart
    exact hspells.avoids havoids

lemma nameValue (q : QualifiedName) :
    Reads Reader.nameValue q.terminals (· = .name q.text) (Cursor.Avoids [.dot]) := by
  intro cursor last hspells hfollow
  obtain ⟨dotted, hread, rfl⟩ := qualifiedName q "annotation value" cursor last hspells
    (continuesName_eq_false hfollow)
  have hends : endsClassLiteral last = false := by
    rw [endsClassLiteral, hfollow .dot (by simp), Bool.false_and]
  refine ⟨_, (bind_ok hread).trans ?_, rfl⟩
  change (if endsClassLiteral last = true then _ else _ : Reader WrittenValue) last = _
  rw [hends]
  rfl

lemma nameValue_class (q : QualifiedName) :
    Reads Reader.nameValue (q.terminals ++ [.word .dot, .word .classWord])
      (· = .classLiteral q.text) Cursor.Anywhere := by
  refine (qualifiedName q _).bind (fun dotted hd => ?_) ?_
  · intro cursor last hspells _
    cases hspells with
    | cons hdot _ hspells =>
      cases hspells with
      | cons hclass _ hspells =>
        cases hspells
        refine ⟨.classLiteral q.text, ?_, rfl⟩
        change (if endsClassLiteral _ = true then _ else _ : Reader WrittenValue) _ = _
        rw [if_pos (by simp [endsClassLiteral, Cursor.isAt, Cursor.kind?, Cursor.secondKind?,
          hdot.kind_eq, hclass.kind_eq]), hd]
        rfl
  · intro cursor last hspells _
    cases hspells with
    | cons hdot _ hspells =>
      cases hspells with
      | cons hclass =>
        simp [continuesName, Cursor.isAt, Cursor.kind?, Cursor.secondKind?, hdot.kind_eq,
          hclass.kind_eq, TokenKind.isName]

lemma valueOf_of_name {cursor last : Cursor} {text : String}
    (h : Cursor.Spells (.name text :: terminals) cursor last) :
    Reader.valueOf item argument cursor = Reader.nameValue cursor := by
  cases h with
  | @cons _ _ _ token _ _ hfits =>
    have hkind : ∀ kind : TokenKind, kind.isName = true →
        kind.isLiteral = false ∧ kind ≠ .openBrace ∧ kind ≠ .atSign := by
      intro kind
      cases kind <;> decide
    obtain ⟨hliteral, hbrace, hsign⟩ := hkind token.kind hfits.isName
    simp [Reader.valueOf, hliteral, hbrace, hsign, hfits.isName]

lemma valueOf_literal {value : WrittenValue} {kind : TokenKind} {lexeme : List Char}
    (h : LiteralSpelling value kind lexeme) :
    Reads (Reader.valueOf item argument) [.literal kind lexeme] (· = value) Cursor.Anywhere := by
  intro cursor last hspells _
  cases hspells with
  | @cons _ _ _ token _ _ hfits _ hspells =>
    cases hspells
    have hkind : token.kind = kind := hfits.2
    have hliteral : kind.isLiteral = true := by cases h <;> rfl
    refine ⟨value, ?_, rfl⟩
    simp only [Reader.valueOf, hkind, hliteral, if_true, Reader.literal,
      Literal.value_of_spelling h hkind hfits.1]
    rfl

lemma valueOf_name (q : QualifiedName) :
    Reads (Reader.valueOf item argument) q.terminals (· = .name q.text) (Cursor.Avoids [.dot]) := by
  intro cursor last hspells hfollow
  rw [valueOf_of_name hspells]
  exact nameValue q cursor last hspells hfollow

lemma valueOf_classLiteral (q : QualifiedName) :
    Reads (Reader.valueOf item argument) (q.terminals ++ [.word .dot, .word .classWord])
      (· = .classLiteral q.text) Cursor.Anywhere := by
  intro cursor last hspells hfollow
  rw [valueOf_of_name hspells]
  exact nameValue_class q cursor last hspells hfollow

lemma valueOf_array {items : List WrittenValue}
    (h : Reads (Reader.arrayItems item) terminals (unplaced · = unplaced items) Cursor.Anywhere) :
    Reads (Reader.valueOf item argument) (.word .openBrace :: terminals)
      (unplaced · = unplaced (WrittenValue.array items)) Cursor.Anywhere := by
  intro cursor last hspells hfollow
  rw [valueOf_of_brace (Cursor.isAt_of_spells hspells)]
  refine (forward .openBrace).andThen (fun _ _ => h.map fun b hb => ?_) cursor last hspells hfollow
  rw [unplaced_array, unplaced_array, hb]

lemma valueOf_nested {use : AnnotationUse} {follow : Cursor → Prop}
    (h : Reads (Reader.annotationOf argument) (.word .atSign :: terminals)
      (unplaced · = unplaced use) follow) :
    Reads (Reader.valueOf item argument) (.word .atSign :: terminals)
      (unplaced · = unplaced (WrittenValue.nested use)) follow := by
  intro cursor last hspells hfollow
  rw [valueOf_of_sign (Cursor.isAt_of_spells hspells)]
  refine h.map (fun b hb => ?_) cursor last hspells hfollow
  rw [unplaced_nested, unplaced_nested, hb]

lemma valueOf {value : WrittenValue} (hitem : ReadsBelow value.height item)
    (harg : ReadsBelow (value.height - 1) argument) (h : ValueSpelling value terminals) :
    Reads (Reader.valueOf item argument) terminals (unplaced · = unplaced value)
      (Cursor.Avoids valueKinds) := by
  cases h with
  | literal h => exact (valueOf_literal h).mono (fun _ => congrArg unplaced) fun _ _ => trivial
  | name q => exact (valueOf_name q).mono (fun _ => congrArg unplaced) fun _ h => h.mono (by decide)
  | classLiteral q =>
    exact (valueOf_classLiteral q).mono (fun _ => congrArg unplaced) fun _ _ => trivial
  | emptyArray =>
    exact (valueOf_array (arrayItems_empty.mono (fun _ => congrArg unplaced) fun _ => id)).mono
      (fun _ => id) fun _ _ => trivial
  | @array items terminals h =>
    have hstart : ∃ terminal others, terminals = terminal :: others ∧
        terminal.avoids [.closeBrace] = true := by
      cases h with
      | mk hvalue =>
        obtain ⟨terminal, others, rfl, havoids⟩ := hvalue.exists_cons
        exact ⟨terminal, _, rfl, terminal.avoids_mono havoids (by decide)⟩
    refine (valueOf_array (arrayItems h hstart fun w hmem ts hw => hitem w ts ?_ hw)).mono
      (fun _ => id) fun _ _ => trivial
    exact (WrittenValue.height_le_maxHeight hmem).trans_lt (Nat.lt_succ_self _)
  | nested h =>
    obtain ⟨others, rfl⟩ := h.exists_cons
    exact valueOf_nested (annotationOf le_rfl harg h)

lemma value (room : Nat) : ReadsBelow (room + 1) (Reader.value room) := by
  induction room using Nat.strong_induction_on with
  | _ room ih =>
    intro value terminals hheight h
    have hpos := value.height_pos
    match room with
    | 0 => omega
    | room + 1 =>
      rw [Reader.value_succ]
      exact valueOf (fun w ts hw hs => ih room (by omega) w ts (by omega) hs)
        (fun w ts hw hs => ih (room - 1) (by omega) w ts (by omega) hs) h

end

/-- The kinds that go on with annotations. -/
def useKinds : List TokenKind := [.dot, .openParen, .atSign]

lemma annotationUse {use : AnnotationUse} (hheight : use.height ≤ maxValueDepth + 1)
    (h : UseSpelling use terminals) :
    Reads Reader.annotationUse terminals (unplaced · = unplaced use) (Cursor.Avoids valueKinds) :=
  annotationOf hheight (value maxValueDepth) h

lemma annotations_of {spelling : AnnotationUse → List Terminal → Prop} {uses : List AnnotationUse}
    (h : Sequence [] spelling uses terminals)
    (hstart : ∀ use ∈ uses, ∀ terminals, spelling use terminals →
      ∃ others, terminals = .word .atSign :: others)
    (huse : ∀ use ∈ uses, ∀ terminals, spelling use terminals →
      Reads Reader.annotationUse terminals (unplaced · = unplaced use) (Cursor.Avoids valueKinds)) :
    Reads Reader.annotations terminals (unplaced · = unplaced uses) (Cursor.Avoids useKinds) := by
  refine manyWhile huse (fun use hmem terminals cursor last hspelling hspells => ?_) ?_ h
  · obtain ⟨others, rfl⟩ := hstart use hmem terminals hspelling
    exact ⟨Cursor.isAt_of_spells hspells, hspells.avoids rfl, hspells.length_lt⟩
  · exact fun cursor h => ⟨h .atSign (by decide), h.mono (by decide)⟩

lemma annotations {uses : List AnnotationUse} (h : UsesSpelling uses terminals) :
    Reads Reader.annotations terminals (unplaced · = unplaced uses) (Cursor.Avoids useKinds) :=
  annotations_of h (fun _ _ _ huse => huse.1.exists_cons) fun _ _ _ huse =>
    annotationUse huse.2 huse.1

end Reader.Reads

end ExternalAnnotations
