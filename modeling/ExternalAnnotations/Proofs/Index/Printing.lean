import ExternalAnnotations.Proofs.Index.Completeness
import ExternalAnnotations.Proofs.Index.Ended
import ExternalAnnotations.Proofs.Index.Writing

/-!
# Printed annotations are read back

An annotation is printed without a space. What is printed writes terminals that are read as the
annotation, if its names are tokens, its texts need no escapes but those of one letter, and it has
no number with a point.
-/

namespace ExternalAnnotations

/-! ### What can be printed -/

mutual

/-- Whether a value is printed so that it can be read back. -/
def WrittenValue.isPrintable : WrittenValue → Bool
  | .bool _ | .int _ => true
  | .float _ => false
  | .char c => c != '\'' && c != '\\'
  | .string s => s.toList.all isShownShort
  | .name dotted | .classLiteral dotted => isDottedName dotted
  | .array items => WrittenValue.allPrintable items
  | .nested use => use.isPrintable

def WrittenValue.allPrintable : List WrittenValue → Bool
  | [] => true
  | value :: values => value.isPrintable && WrittenValue.allPrintable values

/-- Whether an annotation is printed so that it can be read back. -/
def AnnotationUse.isPrintable : AnnotationUse → Bool
  | ⟨typeName, fields, _⟩ => isDottedName typeName && AnnotationUse.fieldsPrintable fields

def AnnotationUse.fieldsPrintable : List (String × WrittenValue) → Bool
  | [] => true
  | (name, value) :: fields =>
    isElementName name && value.isPrintable && AnnotationUse.fieldsPrintable fields

end

/-! ### Reading back -/

open Reader.Reads (valueKinds)

/-- Terminals that are read as a value wherever there is room for it. -/
structure ValueReadsBack (value : WrittenValue) (terminals : List Terminal) : Prop where
  start : ∃ terminal others, terminals = terminal :: others ∧
    terminal.avoids [.closeBrace] = true
  reads : ∀ room, value.height ≤ room →
    Reader.Reads (Reader.value room) terminals (unplaced · = unplaced value)
      (Cursor.Avoids valueKinds)

/-- Terminals that are read as the value of an element wherever there is room for it. -/
structure FieldReadsBack (field : String × WrittenValue) (terminals : List Terminal) : Prop where
  start : Reader.Reads.StartsNamed terminals
  reads : ∀ room, field.2.height ≤ room →
    Reader.Reads (Reader.namedArgument (Reader.value room)) terminals
      (unplaced · = unplaced field) (Cursor.Avoids valueKinds)

/-- Terminals that are read as an annotation wherever there is room for its values. -/
structure UseReadsBack (use : AnnotationUse) (terminals : List Terminal) : Prop where
  start : ∃ others, terminals = .word .atSign :: others
  reads : ∀ room, use.height ≤ room + 1 →
    Reader.Reads (Reader.annotationOf (Reader.value room)) terminals (unplaced · = unplaced use)
      (Cursor.Avoids valueKinds)

namespace ValueReadsBack

variable {value : WrittenValue} {terminals : List Terminal}

lemma of_valueOf
    (hstart : ∃ terminal others, terminals = terminal :: others ∧
      terminal.avoids [.closeBrace] = true)
    (h : ∀ room, value.height ≤ room + 1 →
      Reader.Reads (Reader.valueOf (Reader.value room) (Reader.value (room - 1))) terminals
        (unplaced · = unplaced value) (Cursor.Avoids valueKinds)) :
    ValueReadsBack value terminals where
  start := hstart
  reads := by
    intro room hroom
    cases room with
    | zero => exact absurd value.height_pos (by omega)
    | succ room =>
      rw [Reader.value_succ]
      exact h room hroom

lemma literal {kind : TokenKind} {lexeme : List Char} (h : LiteralSpelling value kind lexeme) :
    ValueReadsBack value [.literal kind lexeme] :=
  .of_valueOf ⟨_, _, rfl, by cases h <;> rfl⟩ fun _ _ =>
    (Reader.Reads.valueOf_literal h).mono (fun _ => congrArg unplaced) fun _ _ => trivial

lemma name (q : QualifiedName) : ValueReadsBack (.name q.text) q.terminals :=
  .of_valueOf ⟨_, _, rfl, rfl⟩ fun _ _ =>
    (Reader.Reads.valueOf_name q).mono (fun _ => congrArg unplaced) fun _ h => h.mono (by decide)

lemma classLiteral (q : QualifiedName) : ValueReadsBack (.classLiteral q.text)
    (q.terminals ++ [.word .dot, .word .classWord]) :=
  .of_valueOf ⟨_, _, rfl, rfl⟩ fun _ _ =>
    (Reader.Reads.valueOf_classLiteral q).mono (fun _ => congrArg unplaced) fun _ _ => trivial

lemma emptyArray : ValueReadsBack (.array []) [.word .openBrace, .word .closeBrace] :=
  .of_valueOf ⟨_, _, rfl, rfl⟩ fun _ _ =>
    (Reader.Reads.valueOf_array (Reader.Reads.arrayItems_empty.mono
      (fun _ => congrArg unplaced) fun _ => id)).mono (fun _ => id) fun _ _ => trivial

lemma array {items : List WrittenValue} (h : Separated ValueReadsBack items terminals) :
    ValueReadsBack (.array items) (.word .openBrace :: terminals ++ [.word .closeBrace]) := by
  refine .of_valueOf ⟨_, _, rfl, rfl⟩ fun room hroom => ?_
  have hstart : ∃ terminal others, terminals = terminal :: others ∧
      terminal.avoids [.closeBrace] = true := by
    cases h with
    | mk hvalue =>
      obtain ⟨terminal, others, rfl, havoids⟩ := hvalue.start
      exact ⟨terminal, _, rfl, havoids⟩
  refine (Reader.Reads.valueOf_array (Reader.Reads.arrayItems h hstart fun item hmem _ hitem =>
    hitem.reads room ?_)).mono (fun _ => id) fun _ _ => trivial
  have hitem := WrittenValue.height_le_maxHeight hmem
  rw [WrittenValue.height] at hroom
  omega

lemma nested {use : AnnotationUse} (h : UseReadsBack use terminals) :
    ValueReadsBack (.nested use) terminals := by
  obtain ⟨others, rfl⟩ := h.start
  refine .of_valueOf ⟨_, _, rfl, rfl⟩ fun room hroom =>
    Reader.Reads.valueOf_nested (h.reads (room - 1) ?_)
  rw [WrittenValue.height] at hroom
  omega

end ValueReadsBack

lemma FieldReadsBack.of_value {terminal : Terminal} (hname : terminal.namesElement = true)
    {value : WrittenValue} {terminals : List Terminal} (h : ValueReadsBack value terminals) :
    FieldReadsBack (terminal.lexeme, value) (terminal :: .word .equals :: terminals) where
  start := ⟨_, _, rfl, hname⟩
  reads := fun room hroom => Reader.Reads.namedArgument hname (h.reads room hroom)

namespace UseReadsBack

variable {terminals : List Terminal}

lemma bare (q : QualifiedName) (place : Location) :
    UseReadsBack ⟨q.text, [], place⟩ (.word .atSign :: q.terminals) where
  start := ⟨_, rfl⟩
  reads := fun _ _ => Reader.Reads.annotationOf_bare q place

lemma named (q : QualifiedName) (place : Location) {fields : List (String × WrittenValue)}
    (h : Separated FieldReadsBack fields terminals) :
    UseReadsBack ⟨q.text, fields, place⟩
      (.word .atSign :: q.terminals ++ (.word .openParen :: terminals ++ [.word .closeParen])) where
  start := ⟨_, rfl⟩
  reads := by
    intro room hroom
    have hstart : Reader.Reads.StartsNamed terminals := by
      cases h with
      | mk hfield =>
        obtain ⟨terminal, others, rfl, hname⟩ := hfield.start
        exact ⟨terminal, _, rfl, hname⟩
    refine Reader.Reads.annotationOf_arguments q place
      (Reader.Reads.arguments_named h hstart fun field hmem _ hfield => hfield.reads room ?_)
    have hfield := AnnotationUse.height_lt_fieldsHeight hmem
    rw [AnnotationUse.height] at hroom
    omega

end UseReadsBack

/-! ### Printed values -/

lemma exists_terminals_field {name : String} {value : WrittenValue}
    (hname : isElementName name = true)
    (h : ∃ terminals, Writes value.render terminals (Ahead Lexer.valueEnds) ∧
      ValueReadsBack value terminals) :
    ∃ terminals, Writes (name.toList ++ '=' :: value.render) terminals (Ahead Lexer.valueEnds) ∧
      FieldReadsBack (name, value) terminals := by
  obtain ⟨terminals, hwrites, hreads⟩ := h
  obtain ⟨terminal, rfl, hname, hword⟩ := Writes.elementName hname
  have hequals : Writes ['='] [.word .equals] fun _ => True :=
    @Writes.sign (.equals, '=') (by decide)
  exact ⟨_, hword.append (hequals.append hwrites fun _ _ => trivial) fun rest _ =>
    .cons (by decide) _, .of_value hname hreads⟩

lemma exists_terminals_bool (b : Bool) : ∃ terminals,
    Writes (WrittenValue.bool b).render terminals (Ahead Lexer.valueEnds) ∧
      ValueReadsBack (.bool b) terminals := by
  have hends : ∀ {text terminals}, Writes text terminals (Ahead Lexer.wordEnds) →
      Writes text terminals (Ahead Lexer.valueEnds) :=
    fun h => h.mono fun _ hrest => hrest.mono (by decide)
  cases b with
  | true => exact ⟨_, hends (@Writes.keyword (.trueWord, "true") (by decide) rfl), .literal .true⟩
  | false =>
    exact ⟨_, hends (@Writes.keyword (.falseWord, "false") (by decide) rfl), .literal .false⟩

lemma exists_terminals_int (n : Int64) : ∃ terminals,
    Writes (WrittenValue.int n).render terminals (Ahead Lexer.valueEnds) ∧
      ValueReadsBack (.int n) terminals := by
  obtain ⟨negative, digits, hrun, htext, hvalue⟩ := exists_digits n.toInt
  have hspelling := @LiteralSpelling.decimal n negative digits [] hrun (.head _) hvalue
  rw [List.append_nil] at hspelling
  have hn : signText negative ++ digits ≠ [] := List.append_ne_nil_of_right_ne_nil _ hrun.ne_nil
  rw [WrittenValue.render, htext]
  exact ⟨_, .literal hn (fun _ hrest => Lexer.next_decimal hrun hrest) rfl, .literal hspelling⟩

lemma exists_terminals_char {c : Char} (h : (WrittenValue.char c).isPrintable = true) :
    ∃ terminals, Writes (WrittenValue.char c).render terminals (Ahead Lexer.valueEnds) ∧
      ValueReadsBack (.char c) terminals := by
  simp only [WrittenValue.isPrintable, Bool.and_eq_true, bne_iff_ne] at h
  exact ⟨_, .literal (List.cons_ne_nil _ _) (fun rest _ => Lexer.next_char h rest) rfl,
    .literal (.char (.plain h.1 h.2))⟩

lemma exists_terminals_string {s : String} (h : (WrittenValue.string s).isPrintable = true) :
    ∃ terminals, Writes (WrittenValue.string s).render terminals (Ahead Lexer.valueEnds) ∧
      ValueReadsBack (.string s) terminals := by
  have hspelling := textSpelling_escape (List.all_eq_true.1 h)
  have hstring := LiteralSpelling.string hspelling
  rw [String.ofList_toList] at hstring
  rw [WrittenValue.render, quoted, String.toList_ofList]
  exact ⟨_, .literal (List.cons_ne_nil _ _) (fun rest _ => Lexer.next_string hspelling rest) rfl,
    .literal hstring⟩

mutual

lemma exists_terminals_value : (value : WrittenValue) → value.isPrintable = true →
    ∃ terminals, Writes value.render terminals (Ahead Lexer.valueEnds) ∧
      ValueReadsBack value terminals
  | .bool b, _ => exists_terminals_bool b
  | .int n, _ => exists_terminals_int n
  | .float _, h => nomatch h
  | .char _, h => exists_terminals_char h
  | .string _, h => exists_terminals_string h
  | .name dotted, h => by
    obtain ⟨q, rfl, hwrites⟩ := exists_qualifiedName h
    exact ⟨_, hwrites.mono fun _ hrest => hrest.mono (by decide), .name q⟩
  | .classLiteral dotted, h => by
    obtain ⟨q, rfl, hwrites⟩ := exists_qualifiedName h
    exact ⟨_, hwrites.dotClass.mono fun _ hrest => hrest.mono (by decide), .classLiteral q⟩
  | .array [], _ => by
    have hbraces := (@Writes.sign (.openBrace, '\x7b') (by decide)).append
      (@Writes.sign (.closeBrace, '\x7d') (by decide)) fun _ _ => trivial
    exact ⟨_, hbraces.mono fun _ _ => trivial, .emptyArray⟩
  | .array (value :: values), h => by
    obtain ⟨hvalue, hvalues⟩ := Bool.and_eq_true_iff.1 h
    obtain ⟨terminals, hwrites, hreads⟩ := exists_terminals_value value hvalue
    obtain ⟨others, hwrites', hreads'⟩ := exists_terminals_values values hvalues
    have hbraces := Writes.between (.openBrace, '\x7b') (.closeBrace, '\x7d') (by decide)
      (by decide) (by decide) hwrites hwrites'
    exact ⟨_, hbraces.mono fun _ _ => trivial, .array (.mk hreads hreads')⟩
  | .nested use, h => by
    obtain ⟨terminals, hwrites, hreads⟩ := exists_terminals_use use h
    exact ⟨terminals, hwrites, .nested hreads⟩

lemma exists_terminals_values : (values : List WrittenValue) →
    WrittenValue.allPrintable values = true →
    ∃ terminals, Writes ((WrittenValue.renderAll values).flatMap (',' :: ·)) terminals
      (Ahead Lexer.valueEnds) ∧ Sequence [.word .comma] ValueReadsBack values terminals
  | [], _ => ⟨[], .nil, .nil⟩
  | value :: values, h => by
    obtain ⟨hvalue, hvalues⟩ := Bool.and_eq_true_iff.1 h
    obtain ⟨terminals, hwrites, hreads⟩ := exists_terminals_value value hvalue
    obtain ⟨others, hwrites', hreads'⟩ := exists_terminals_values values hvalues
    exact ⟨_, hwrites.comma hwrites', .cons hreads hreads'⟩

lemma exists_terminals_use : (use : AnnotationUse) → use.isPrintable = true →
    ∃ terminals, Writes use.render terminals (Ahead Lexer.valueEnds) ∧ UseReadsBack use terminals
  | ⟨typeName, [], place⟩, h => by
    obtain ⟨q, rfl, hwrites⟩ := exists_qualifiedName (Bool.and_eq_true_iff.1 h).1
    have hsign := (@Writes.sign (.atSign, '@') (by decide)).append hwrites fun _ _ => trivial
    have hrender : AnnotationUse.render ⟨q.text, [], place⟩ = ['@'] ++ q.text.toList := by
      simp [AnnotationUse.render]
    rw [hrender]
    exact ⟨_, hsign.mono fun _ hrest => hrest.mono (by decide), .bare q place⟩
  | ⟨typeName, (name, value) :: fields, place⟩, h => by
    obtain ⟨htype, hfields⟩ := Bool.and_eq_true_iff.1 h
    obtain ⟨hfield, hfields⟩ := Bool.and_eq_true_iff.1 hfields
    obtain ⟨hname, hvalue⟩ := Bool.and_eq_true_iff.1 hfield
    obtain ⟨q, rfl, htype⟩ := exists_qualifiedName htype
    obtain ⟨terminals, hwrites, hreads⟩ :=
      exists_terminals_field hname (exists_terminals_value value hvalue)
    obtain ⟨others, hwrites', hreads'⟩ := exists_terminals_fields fields hfields
    have hsign := (@Writes.sign (.atSign, '@') (by decide)).append htype fun _ _ => trivial
    have hparens := Writes.between (.openParen, '(') (.closeParen, ')') (by decide) (by decide)
      (by decide) hwrites hwrites'
    have huse := hsign.append hparens fun rest _ => .cons (by decide) _
    exact ⟨_, huse.mono fun _ _ => trivial, .named q place (.mk hreads hreads')⟩

lemma exists_terminals_fields : (fields : List (String × WrittenValue)) →
    AnnotationUse.fieldsPrintable fields = true →
    ∃ terminals, Writes ((AnnotationUse.renderFields fields).flatMap (',' :: ·)) terminals
      (Ahead Lexer.valueEnds) ∧ Sequence [.word .comma] FieldReadsBack fields terminals
  | [], _ => ⟨[], .nil, .nil⟩
  | (name, value) :: fields, h => by
    obtain ⟨hfield, hfields⟩ := Bool.and_eq_true_iff.1 h
    obtain ⟨hname, hvalue⟩ := Bool.and_eq_true_iff.1 hfield
    obtain ⟨terminals, hwrites, hreads⟩ :=
      exists_terminals_field hname (exists_terminals_value value hvalue)
    obtain ⟨others, hwrites', hreads'⟩ := exists_terminals_fields fields hfields
    exact ⟨_, hwrites.comma hwrites', .cons hreads hreads'⟩

end

/-! ### Annotations of a class -/

lemma Cursor.Spells.followed {terminals : List Terminal} {cursor last : Cursor}
    (h : Spells terminals cursor last) (more : List Token) :
    Spells terminals ⟨cursor.previous, cursor.rest ++ more⟩ ⟨last.previous, last.rest ++ more⟩ := by
  induction h with
  | nil => exact .nil _
  | cons hfits hglued _ ih => exact .cons hfits hglued ih

/-- The terminals of the header of a class. -/
def classHeader (name : String) : List Terminal := [.word .classWord, .name name, .word .colon]

/-- Packages, and at the end of the last one a class with nothing but annotations. -/
def withClass (blocks : List PackageBlock) (last : PackageBlock) (name : String)
    (uses : List AnnotationUse) : List PackageBlock :=
  blocks ++ [⟨last.name, last.items ++ [.ofClass ⟨name, uses, []⟩]⟩]

section

variable {blocks : List PackageBlock} {block : PackageBlock} {name : String}
  {uses : List AnnotationUse} {first second others : List Terminal}

lemma parseBlocks_withClass {cursor last : Cursor} (hblocks : FileSpelling blocks first)
    (hblock : block.Spelling second)
    (huses : Reader.Reads Reader.annotations others (unplaced · = unplaced uses)
      (Cursor.Avoids Reader.Reads.useKinds))
    (hspells : Cursor.Spells (first ++ (second ++ (classHeader name ++ others))) cursor last)
    (hready : cursor.Ready) (hlast : last.rest = []) (source : List Char) :
    (parseBlocks source .none cursor).diagnostics = [] ∧
      unplaced (parseBlocks source .none cursor).index =
        unplaced (Index.ofBlocks (withClass blocks block name uses)) := by
  obtain ⟨middle, hspells, hrest⟩ := hspells.of_append
  obtain ⟨header, hspells', hclass⟩ := hrest.of_append
  have hmiddle : middle.Ready :=
    hspells.ready (closed_sequence (fun _ _ h => h.closed) hblocks) fun _ => hready
  have hheader : header.Ready := hspells'.ready hblock.closed fun _ => hmiddle
  have hopens : Opens (classHeader name) := ⟨.classWord, .name name, _, rfl, rfl, rfl⟩
  obtain ⟨scopes, hparses⟩ := parses_blocks source hblocks hspells hready
    (Cursor.withinBlock_of_opens hmiddle hblock.opens hrest) .none
  obtain ⟨owner, hparses'⟩ := parses_block hblock hspells'
    (Cursor.withinBlock_of_opens hheader hopens hclass) scopes
  have havoids : last.Avoids Reader.Reads.useKinds := by
    intro kind _
    simp [Cursor.isAt, Cursor.kind?, hlast]
  have hall := (hparses.trans hparses').trans
    (parses_class name huses hclass havoids block.name owner)
  have hindex := hall.index
  have hdiagnostics := hall.diagnostics
  rw [parseBlocks_of_nil _ _ hlast] at hindex hdiagnostics
  have hsame : Index.ofBlocks blocks ++ block.index ++
      .of (Subject.entry ⟨qualify block.name name, block.name, none⟩ .declaration .start uses) [] =
        Index.ofBlocks (withClass blocks block name uses) := by
    refine Index.ext ?_ ?_
    · change (_ ++ _) ++ _ = _
      simp [Index.ofBlocks, Index.of, withClass, PackageBlock.index, PackageItem.index,
        ClassBlock.entries]
    · change (_ ++ _) ++ _ = _
      simp [Index.ofBlocks, Index.of, withClass, PackageBlock.index, PackageItem.index]
  exact ⟨hdiagnostics, (hindex.trans (Index.append_empty _)).trans (congrArg unplaced hsame)⟩

lemma annotations_of_readsBack {use : AnnotationUse} {terminals : List Terminal}
    (hheight : use.height ≤ maxValueDepth + 1) (huse : UseReadsBack use terminals) :
    Reader.Reads Reader.annotations terminals (unplaced · = unplaced [use])
      (Cursor.Avoids Reader.Reads.useKinds) := by
  have hsequence : Sequence [] UseReadsBack [use] ([] ++ terminals ++ []) := .cons huse .nil
  rw [List.nil_append, List.append_nil] at hsequence
  refine Reader.Reads.annotations_of hsequence (fun _ _ _ h => h.start) fun _ hmem _ hother => ?_
  obtain rfl := List.mem_singleton.1 hmem
  exact hother.reads maxValueDepth hheight

/-- The tokens of a header and, on the line after it, those of a printed annotation. -/
lemma spells_printed {header : String} {use : AnnotationUse} {last : Cursor}
    (hknown : ∀ token ∈ significantTokens header, token.kind ≠ .unknown)
    (hheader : Cursor.Spells first (.ofTokens (significantTokens header)) last)
    (hlast : last.rest = []) (hwrites : Writes use.render others (Ahead Lexer.valueEnds)) :
    ∃ last, last.rest = [] ∧ Cursor.Spells (first ++ others)
      (.ofTokens (significantTokens (header ++ "\n" ++ use.text))) last := by
  have hjoined : (header ++ "\n" ++ use.text).toList = header.toList ++ '\n' :: use.render := by
    have htext : use.text.toList = use.render := String.toList_ofList
    rw [String.toList_append, String.toList_append, List.append_assoc, htext]
    rfl
  obtain ⟨place, htokens⟩ : ∃ place, significantTokens (header ++ "\n" ++ use.text) =
      significantTokens header ++ Lexer.significantFrom place use.render := by
    rw [significantTokens, tokens, hjoined]
    exact ⟨_, Lexer.significantFrom_append _ _ hknown⟩
  obtain ⟨previous, _, hspells⟩ := hwrites last.previous place [] (by simp [Ahead])
  rw [List.append_nil, Lexer.significantFrom_nil] at hspells
  have hfollowed := hheader.followed (Lexer.significantFrom place use.render)
  rw [hlast] at hfollowed
  refine ⟨⟨previous, []⟩, rfl, ?_⟩
  rw [htokens]
  exact hfollowed.append hspells

/-- **Printed annotations are read back.** Printed behind the header of a class, an annotation is
parsed without a diagnostic, and what the index says of the class is just this annotation. -/
theorem parse_printed {header : String} {use : AnnotationUse} (hblocks : FileSpelling blocks first)
    (hblock : block.Spelling second)
    (hheader : SpelledBy none (first ++ second ++ classHeader name) (significantTokens header))
    (hprintable : use.isPrintable = true) (hheight : use.height ≤ maxValueDepth + 1) :
    (parse (header ++ "\n" ++ use.text)).diagnostics = [] ∧
      unplaced (parse (header ++ "\n" ++ use.text)).index =
        unplaced (Index.ofBlocks (withClass blocks block name [use])) := by
  obtain ⟨last, hlast, hspells⟩ :=
    spells_of_spelledBy hheader fun _ hmem => kind_of_isPlainName hmem
  change Cursor.Spells _ (.ofTokens _) _ at hspells
  have hready : ∀ tokens, (Cursor.ofTokens tokens).Ready := by simp [Cursor.Ready, Cursor.ofTokens]
  -- The header alone is parsed without a diagnostic, so all of its tokens are known.
  have hsilent : (parse header).diagnostics = [] :=
    (parseBlocks_withClass hblocks hblock (Reader.Reads.annotations .nil)
      (by simpa [List.append_assoc] using hspells) (hready _) hlast header.toList).1
  have hknown := (Production.blocks_le_ended (significantTokens_mem_blocks hsilent)).1
  obtain ⟨terminals, hwrites, hreads⟩ := exists_terminals_use use hprintable
  obtain ⟨last', hlast', hspells'⟩ := spells_printed hknown hspells hlast hwrites
  simp only [List.append_assoc] at hspells'
  exact parseBlocks_withClass hblocks hblock (annotations_of_readsBack hheight hreads) hspells'
    (hready _) hlast' _

end

/-- Keywords for names, escapes, a negative number, and nothing to keep the tokens apart. -/
def AnnotationUse.dense : AnnotationUse :=
  ⟨"a.type.Sum", [
    ("class", .int (-5)),
    ("annotation-field", .string "\"\\\n"),
    ("e", .name "method.RED"),
    ("array", .array [.char ',', .classLiteral "java.List", .nested ⟨"N", [], .start⟩,
      .nested ⟨"M", [("v", .array [])], .start⟩, .bool true])], .start⟩

theorem parse_printed_dense :
    AnnotationUse.dense.text = "@a.type.Sum(class=-5,annotation-field=\"\\\"\\\\\\n\"," ++
      "e=method.RED,array=\x7b',',java.List.class,@N,@M(v=\x7b\x7d),true\x7d)" ∧
    (parse ("package p.q: annotation @M: int v\nclass C: // annotated" ++ "\n" ++
      AnnotationUse.dense.text)).diagnostics = [] ∧
    unplaced (parse ("package p.q: annotation @M: int v\nclass C: // annotated" ++ "\n" ++
      AnnotationUse.dense.text)).index =
        unplaced (Index.ofBlocks (withClass []
          ⟨"p.q", [.ofDeclaration ⟨"M", [], [⟨"v", .primitive .int, none⟩]⟩]⟩ "C"
          [AnnotationUse.dense])) := by
  have hdeclaration : AnnotationBlock.Spelling ⟨"M", [], [⟨"v", .primitive .int, none⟩]⟩ _ :=
    .mk .nil (.cons (.plain (.mk (.primitive .int) 0)) .nil)
  have hblock : PackageBlock.Spelling
      ⟨"p.q", [.ofDeclaration ⟨"M", [], [⟨"v", .primitive .int, none⟩]⟩]⟩ _ :=
    .named ⟨"p", ["q"]⟩ (.cons (.ofDeclaration hdeclaration) .nil)
  refine ⟨by decide +kernel, parse_printed .nil hblock ?_ (by decide +kernel) (by decide)⟩
  decide +kernel

end ExternalAnnotations
