import ExternalAnnotations.Proofs.Index.ReadingValues

/-!
# Reading headers, elements and sections

Every spelling of a declaration, of a header and of a section of a method or field block is read
as what it spells.
-/

namespace ExternalAnnotations

variable {terminals : List Terminal}

/-! ### Places where a block may begin -/

namespace Cursor

lemma avoids_of_withinBlock {cursor : Cursor} (h : Reader.withinBlock cursor = false)
    {kinds : List TokenKind} (hkinds : kinds.all (!·.opensBlock) = true) : cursor.Avoids kinds := by
  intro kind hkind
  rw [Reader.withinBlock, Bool.and_eq_false_iff] at h
  have hkind := List.all_eq_true.1 hkinds kind hkind
  rcases h with h | h
  · have hnil : cursor.rest = [] := by simpa using h
    simp [isAt, kind?, hnil]
  · rw [Bool.not_eq_false', startsBlock, Bool.and_eq_true, Bool.and_eq_true] at h
    rw [isAt, beq_eq_false_iff_ne]
    intro he
    simp [he] at h
    simp [h.1.1] at hkind

lemma withinBlock_of_kind? {cursor : Cursor} {kind : TokenKind} (h : cursor.kind? = some kind)
    (hkind : kind.opensBlock = false) : Reader.withinBlock cursor = true := by
  have hne : cursor.rest.isEmpty = false := List.isEmpty_eq_false_iff.2 (ne_nil_of_kind? h)
  simp [Reader.withinBlock, hne, startsBlock, h, hkind]

lemma avoids_of_kind? {cursor : Cursor} {kind : TokenKind} (h : cursor.kind? = some kind)
    {kinds : List TokenKind} (hkind : kind ∉ kinds) : cursor.Avoids kinds := by
  intro other hother
  have hne : kind ≠ other := fun he => hkind (he ▸ hother)
  simpa [isAt, h] using hne

lemma Spells.kind? {cursor last : Cursor} {kind : TokenKind}
    (h : Spells (.word kind :: terminals) cursor last) : cursor.kind? = some kind := by
  cases h with
  | cons hfits => exact congrArg some hfits.kind_eq

lemma Spells.isAt {cursor last : Cursor} {kind : TokenKind}
    (h : Spells (.word kind :: terminals) cursor last) : cursor.isAt kind = true := by
  simp [Cursor.isAt, h.kind?]

lemma Spells.isAt_other {cursor last : Cursor} {kind other : TokenKind}
    (h : Spells (.word kind :: terminals) cursor last) (hne : kind ≠ other) :
    cursor.isAt other = false := by
  simpa [Cursor.isAt, h.kind?] using hne

end Cursor

namespace Reader.Reads

/-! ### Headers -/

lemma classHeader (text : String) :
    Reads Reader.classHeader [.word .classWord, .name text, .word .colon] (·.1 = text)
      Cursor.Anywhere :=
  (expect .classWord _).andThen fun _ _ => (name text _).andThen fun _ hn =>
    (expect .colon _).map fun _ _ => hn

lemma fieldHeader (text : String) :
    Reads Reader.fieldHeader [.word .fieldWord, .name text, .word .colon] (·.1 = .field text)
      Cursor.Anywhere :=
  (expect .fieldWord _).andThen fun _ _ => (name text _).andThen fun _ hn =>
    (expect .colon _).map fun _ _ => congrArg Member.field hn

lemma returnHeader :
    Reads Reader.returnHeader [.word .returnWord, .word .colon] (fun _ => True) Cursor.Anywhere :=
  (expect .returnWord _).andThen fun _ _ => (expect .colon _).map fun _ _ => trivial

lemma typeHeader :
    Reads Reader.typeHeader [.word .typeWord, .word .colon] (fun _ => True) Cursor.Anywhere :=
  (expect .typeWord _).andThen fun _ _ => (expect .colon _).map fun _ _ => trivial

lemma position {digits : List Char} (hdigits : IsRun Char.isDigit digits)
    (hlimit : Literal.ofDigits 10 digits ≤ Literal.maxPosition) :
    Reads Reader.position [.literal .decimalInteger digits] (· = Literal.ofDigits 10 digits)
      Cursor.Anywhere := by
  have hkind : ∀ token, (Terminal.literal .decimalInteger digits).Fits token →
      (token.kind == .decimalInteger) = true := fun _ h => beq_iff_eq.2 h.2
  refine (token hkind _).andThen (u := []) fun number hn => ?_
  · have hlexeme : number.lexeme.toList = digits := by
      rw [hn.1]
      exact String.toList_ofList
    rw [hlexeme, Literal.position_of_digits hdigits hlimit]
    exact pure rfl

lemma parameterHeader {digits : List Char} (hdigits : IsRun Char.isDigit digits)
    (hlimit : Literal.ofDigits 10 digits ≤ Literal.maxPosition) :
    Reads Reader.parameterHeader
      [.word .parameterWord, .word .hash, .literal .decimalInteger digits, .word .colon]
      (·.1 = Literal.ofDigits 10 digits) Cursor.Anywhere :=
  (expect .parameterWord _).andThen fun _ _ => (expect .hash _).andThen fun _ _ =>
    (position hdigits hlimit).andThen fun _ hp => (expect .colon _).map fun _ _ => hp

lemma packageHeader_named (q : QualifiedName) :
    Reads Reader.packageHeader (.word .packageWord :: q.terminals ++ [.word .colon]) (· = q.text)
      Cursor.Anywhere := by
  refine (expect .packageWord _).andThen (u := q.terminals ++ [.word .colon]) fun _ _ =>
    get fun cursor last hspells hfollow => ?_
  have hcolon : cursor.Avoids [.colon] := hspells.avoids rfl
  rw [hcolon .colon (by simp)]
  exact closedBy .colon _ (qualifiedName q _)
    (fun cursor last h => continuesName_eq_false (h.avoids rfl)) cursor last hspells hfollow

lemma packageHeader_unnamed :
    Reads Reader.packageHeader [.word .packageWord, .word .colon] (· = "") Cursor.Anywhere := by
  refine (expect .packageWord _).andThen (u := [.word .colon]) fun _ _ =>
    get fun cursor last hspells hfollow => ?_
  have hcolon : cursor.isAt .colon = true := Cursor.isAt_of_spells hspells
  rw [hcolon]
  exact (pure (a := "") (P := (· = "")) rfl).andThen
    (fun _ hn => (expect .colon _).map fun _ _ => hn)
    cursor last hspells hfollow

/-! ### Descriptors -/

lemma fitsDescriptor_of_part {terminal : Terminal} (h : DescriptorPart terminal) {token : Token}
    (hfits : terminal.Fits token) :
    terminal.glued = true ∧ token.kind ≠ .colon ∧ token.kind.fitsDescriptor = true := by
  cases h with
  | @sign kind h =>
    have hkind : token.kind = kind := hfits.2
    rw [hkind]
    fin_cases h <;> exact ⟨rfl, by decide, rfl⟩
  | name text =>
    have hall : ∀ kind : TokenKind, kind.isName = true →
        kind ≠ .colon ∧ kind.fitsDescriptor = true := by
      intro kind
      cases kind <;> decide
    have hname : (Terminal.name text).Fits token := hfits
    exact ⟨rfl, hall _ hname.isName⟩

lemma descriptorParts {last : Token} {rest : List Token} {final : Cursor}
    (hparts : ∀ terminal ∈ terminals, DescriptorPart terminal)
    (h : Cursor.Spells terminals ⟨some last, rest⟩ final) (hcolon : final.isAt .colon = true) :
    ∃ parts, Reader.descriptorParts last rest = .ok parts final ∧
      parts.map (·.lexeme) = terminals.map (·.lexeme) := by
  induction terminals generalizing last rest with
  | nil =>
    cases h
    cases rest with
    | nil => simp [Cursor.isAt, Cursor.kind?] at hcolon
    | cons token rest =>
      have hkind : token.kind = .colon := by simpa [Cursor.isAt, Cursor.kind?] using hcolon
      exact ⟨[], by simp [Reader.descriptorParts, hkind], rfl⟩
  | cons terminal terminals ih =>
    cases h with
    | @cons _ _ _ token rest _ hfits hglued h =>
      obtain ⟨parts, hread, hlexemes⟩ :=
        ih (fun terminal hmem => hparts terminal (List.mem_cons_of_mem _ hmem)) h
      obtain ⟨hjoined, hkind, hdescriptor⟩ :=
        fitsDescriptor_of_part (hparts terminal List.mem_cons_self) hfits
      obtain ⟨_, hlast, hoffset⟩ := hglued hjoined
      cases hlast
      refine ⟨token :: parts, ?_, by rw [List.map_cons, List.map_cons, hlexemes, hfits.1]⟩
      simp [Reader.descriptorParts, hkind, hdescriptor, hoffset, hread]

lemma descriptor {d : MethodDescriptor} (h : DescriptorSpelling d terminals) :
    Reads Reader.descriptor (.word .openParen :: terminals) (· = d) (·.isAt .colon = true) := by
  intro cursor last hspells hfollow
  cases hspells with
  | @cons _ _ previous token rest _ hfits _ hspells =>
    obtain ⟨parts, hread, hlexemes⟩ := descriptorParts h.1 hspells hfollow
    have hopening : Reader.expect .openParen "'(' starting method descriptor"
        ⟨previous, token :: rest⟩ = .ok token ⟨some token, rest⟩ := by
      simp [Reader.expect, Reader.token, hfits.kind_eq]
    have htext : String.join ((token :: parts).map (·.lexeme)) =
        String.join ("(" :: terminals.map (·.lexeme)) := by
      rw [List.map_cons, hlexemes, hfits.1]
      rfl
    refine ⟨d, (bind_ok hopening).trans ((bind_ok hread).trans ?_), rfl⟩
    rw [htext, h.2]
    rfl

lemma methodName {text : String} {terminal : Terminal} (h : MethodNameSpelling text terminal)
    (expected : String) :
    Reads (Reader.token Reader.isMethodName expected) [terminal] (·.lexeme = text)
      Cursor.Anywhere := by
  cases h with
  | plain =>
    exact (token (fun token h => by simp [Reader.isMethodName, h.isName]) expected).mono
      (fun _ h => h.1) fun _ h => h
  | special h =>
    refine (token (fun token h => ?_) expected).mono (fun _ h => h.1) fun _ h => h
    have hkind : token.kind = .specialName := h.2
    rw [hkind]
    rfl

lemma methodHeader {text : String} {nameTerminal : Terminal} {d : MethodDescriptor}
    (hname : MethodNameSpelling text nameTerminal) (h : DescriptorSpelling d terminals) :
    Reads Reader.methodHeader
      (.word .methodWord :: nameTerminal :: .word .openParen :: terminals ++ [.word .colon])
      (·.1 = .method text d) Cursor.Anywhere := by
  refine (expect .methodWord _).andThen fun _ _ => (methodName hname _).andThen fun token hn =>
    (descriptor h).bind (u := [.word .colon]) (fun d' hd => (expect .colon _).map fun _ _ => ?_) ?_
  · rw [hn, hd]
  · exact fun cursor last hspells _ => Cursor.isAt_of_spells hspells

/-! ### Elements -/

lemma kind_of_typeName {text : String} (htext : softWords.all (·.2 != text) = true) {token : Token}
    (h : (Terminal.name text).Fits token) : token.kind = .identifier := by
  rcases h.2 with hkind | hsoft
  · exact hkind
  · have hne := List.all_eq_true.1 htext _ hsoft
    rw [h.1] at hne
    exact absurd rfl (bne_iff_ne.1 hne)

lemma innermostElementType_of_name {text : String} {type : ElementType}
    (htext : softWords.all (·.2 != text) = true) (htype : namedElementType? text = some type) :
    Reads Reader.innermostElementType [.name text] (· = type) (Cursor.Avoids [.dot]) := by
  refine get fun cursor last hspells hfollow => ?_
  have hkind : cursor.kind? = some .identifier := by
    cases hspells with
    | cons hfits => exact congrArg some (kind_of_typeName htext hfits)
  rw [hkind]
  refine (qualifiedName ⟨text, []⟩ _).bind (u := []) (fun name hn => ?_) ?_
    cursor last hspells hfollow
  · obtain rfl : name = text := hn
    rw [htype]
    exact pure rfl
  · intro middle last hspells hfollow
    cases hspells
    exact continuesName_eq_false hfollow

lemma innermostElementType {type : ElementType} (h : InnermostTypeSpelling type terminals) :
    Reads Reader.innermostElementType terminals (· = type) (Cursor.Avoids [.dot]) := by
  cases h with
  | primitive p =>
    exact innermostElementType_of_name (by cases p <;> decide) (by cases p <;> decide)
  | string => exact innermostElementType_of_name (by decide) (by decide)
  | classLiteral => exact innermostElementType_of_name (by decide) (by decide)
  | enum q =>
    refine get fun cursor last hspells hfollow => ?_
    rw [hspells.kind?]
    exact (forward .enumWord).andThen (fun _ _ => (qualifiedName q _).map fun _ hn => by rw [hn])
      cursor last hspells (continuesName_eq_false hfollow)
  | annotationType q =>
    refine get fun cursor last hspells hfollow => ?_
    rw [hspells.kind?]
    exact (forward .annotationFieldWord).andThen
      (fun _ _ => (qualifiedName q _).map fun _ hn => by rw [hn]) cursor last hspells
      (continuesName_eq_false hfollow)

lemma sequence_brackets (dimensions : Nat) :
    Sequence [.word .openBracket] (fun _ terminals => terminals = [.word .closeBracket])
      (List.replicate dimensions ()) (brackets dimensions) := by
  induction dimensions with
  | zero => exact .nil
  | succ dimensions ih => exact @Sequence.cons Unit _ _ () _ [.word .closeBracket] _ rfl ih

lemma foldl_array (type : ElementType) (dimensions : Nat) :
    (List.replicate dimensions ()).foldl (fun type _ => .array type) type =
      ElementType.array^[dimensions] type := by
  induction dimensions generalizing type with
  | zero => rfl
  | succ dimensions ih => exact ih (.array type)

lemma elementType {type : ElementType} (h : ElementTypeSpelling type terminals) :
    Reads Reader.elementType terminals (· = type) (Cursor.Avoids [.dot, .openBracket]) := by
  cases h with
  | @mk type terminals h dimensions =>
    refine (innermostElementType h).bind (fun inner hi => ?_) ?_
    · refine (manyWhile (F := Cursor.Anywhere) (fun _ _ ts ht => ?_)
        (fun _ _ ts cursor last ht hspells => ?_)
        (fun cursor hg => ⟨hg .openBracket (by simp), trivial⟩)
        (sequence_brackets dimensions)).map fun units hu => ?_
      · obtain rfl := ht
        exact (forward .openBracket).andThen fun _ _ => (expect .closeBracket _).map fun _ _ => rfl
      · exact ⟨Cursor.isAt_of_spells hspells, trivial, hspells.length_lt⟩
      · rw [unplaced_units, unplaced_units] at hu
        rw [hu, hi, foldl_array]
    · intro middle last hspells hfollow
      cases dimensions with
      | zero =>
        cases hspells
        exact hfollow.mono (by decide)
      | succ dimensions => exact hspells.avoids rfl

lemma exists_cons_of_element {element : ElementDeclaration}
    (h : ElementSpelling element terminals) :
    ∃ terminal others, terminals = terminal :: others := by
  cases h <;> exact List.exists_cons_of_ne_nil (by simp)

/-- The kinds that go on with an element. -/
def elementKinds : List TokenKind := .equals :: valueKinds

lemma elementDeclaration {element : ElementDeclaration} (h : ElementSpelling element terminals) :
    Reads Reader.elementDeclaration terminals (unplaced · = unplaced element)
      (Cursor.Avoids elementKinds) := by
  cases h with
  | @plain type name terminals h =>
    refine (elementType h).bind (u := [.name name]) (fun type' ht =>
      (@elementName (.name name) rfl).andThen (u := []) fun name' hn =>
        (eat_absent .equals).bind (u := []) (fun given hg => ?_) ?_) ?_
    · rw [ht, hn, hg]
      exact pure rfl
    · intro middle last hspells hfollow
      cases hspells
      exact hfollow.mono (by decide)
    · exact fun middle last hspells _ => hspells.avoids rfl
  | @withDefault type name default terminals others h hvalue hheight =>
    refine (elementType h).bind (u := .name name :: .word .equals :: others) (fun type' ht =>
      (@elementName (.name name) rfl).andThen (u := .word .equals :: others) fun name' hn =>
        (eat .equals).andThen (u := others) fun given hg => ?_) ?_
    · rw [ht, hn, hg]
      have hread := value (maxValueDepth + 1) _ _ (Nat.lt_succ_of_le hheight) hvalue
      refine ((hread.mono (fun _ h => h) fun _ h => h.mono (by decide)).functorMap
        (Q := (unplaced · = unplaced (some default)))
          fun _ hd => congrArg some hd).map fun _ hd => ?_
      exact congrArg (ElementDeclaration.mk name type) hd
    · exact fun middle last hspells _ => hspells.avoids rfl

lemma kind?_of_innermost {type : ElementType} {others : List Terminal}
    (h : InnermostTypeSpelling type terminals) {cursor last : Cursor}
    (hspells : Cursor.Spells (terminals ++ others) cursor last) :
    ∃ kind ∈ [TokenKind.identifier, .enumWord, .annotationFieldWord], cursor.kind? = some kind := by
  have hname : ∀ {text}, softWords.all (·.2 != text) = true →
      Cursor.Spells (.name text :: others) cursor last → cursor.kind? = some .identifier := by
    intro text htext hspells
    cases hspells with
    | cons hfits => exact congrArg some (kind_of_typeName htext hfits)
  cases h with
  | primitive p => exact ⟨_, by decide, hname (by cases p <;> decide) hspells⟩
  | string => exact ⟨_, by decide, hname (by decide) hspells⟩
  | classLiteral => exact ⟨_, by decide, hname (by decide) hspells⟩
  | enum q => exact ⟨_, by decide, hspells.kind?⟩
  | annotationType q => exact ⟨_, by decide, hspells.kind?⟩

lemma kind?_of_element {element : ElementDeclaration} (h : ElementSpelling element terminals)
    {cursor last : Cursor} (hspells : Cursor.Spells terminals cursor last) :
    ∃ kind ∈ [TokenKind.identifier, .enumWord, .annotationFieldWord], cursor.kind? = some kind := by
  cases h with
  | plain htype =>
    cases htype with
    | mk h =>
      rw [List.append_assoc] at hspells
      exact kind?_of_innermost h hspells
  | withDefault htype =>
    cases htype with
    | mk h =>
      rw [List.append_assoc] at hspells
      exact kind?_of_innermost h hspells

lemma starts_element {element : ElementDeclaration} (h : ElementSpelling element terminals)
    {others : List Terminal} {cursor last : Cursor}
    (hspells : Cursor.Spells (terminals ++ others) cursor last) :
    Reader.withinBlock cursor = true ∧ cursor.Avoids (.atSign :: elementKinds) := by
  obtain ⟨middle, hspells, -⟩ := hspells.of_append
  obtain ⟨kind, hmem, hkind⟩ := kind?_of_element h hspells
  fin_cases hmem <;>
    exact ⟨Cursor.withinBlock_of_kind? hkind rfl, Cursor.avoids_of_kind? hkind (by decide)⟩

lemma declaration {block : AnnotationBlock} (h : block.Spelling terminals) (package : String) :
    Reads (Reader.declaration package) terminals (unplaced · = unplaced (block.declaration package))
      (Reader.withinBlock · = false) := by
  cases h with
  | @mk text uses elements terminals others huses helements =>
    -- What is left over says where elements begin, where they end and what follows the header.
    refine (expect .annotationWord _).andThen fun keyword _ => (expect .atSign _).andThen fun _ _ =>
      (name text _).andThen fun text' hn => (expect .colon _).andThen (u := terminals ++ others)
        fun _ _ => (annotations huses).bind
          (fun uses' hu => (manyWhile (fun element _ ts he => elementDeclaration he)
            (fun element _ ts cursor last he hspells => ?_) (fun cursor hg => ?_) helements).map
              fun elements' he => ?_)
          fun middle last hspells hfollow => ?_
    · rw [← List.append_nil ts] at hspells
      obtain ⟨hwithin, havoids⟩ := starts_element he hspells
      refine ⟨hwithin, havoids.mono (by decide), ?_⟩
      obtain ⟨terminal, more, heq⟩ := exists_cons_of_element he
      rw [show ts = terminal :: more from heq] at hspells
      exact hspells.length_lt
    · exact ⟨hg, Cursor.avoids_of_withinBlock hg (by decide)⟩
    · change Declaration.mk _ _ _ _ = Declaration.mk _ _ _ _
      rw [hn, hu, he]
      rfl
    · cases helements with
      | nil =>
        cases hspells
        exact Cursor.avoids_of_withinBlock hfollow (by decide)
      | cons he h => exact (starts_element he hspells).2.mono (by decide)

end Reader.Reads

end ExternalAnnotations
