import ExternalAnnotations.Proofs.Index.Boundaries
import ExternalAnnotations.Proofs.Index.ReadingSections

/-!
# Every spelling is parsed

A text whose tokens spell an index by the grammar is parsed without a diagnostic into what the
index says.
-/

namespace ExternalAnnotations

variable {terminals : List Terminal} {cursor last : Cursor}

open Reader.Reads (useKinds)

/-! ### Single blocks -/

/-- From one place to another the parser says what an index says and reports nothing. -/
structure Parses (source : List Char) (scopes : Scopes) (cursor : Cursor) (index : Index)
    (scopes' : Scopes) (last : Cursor) : Prop where
  index : unplaced (parseBlocks source scopes cursor).index =
    unplaced index ++ unplaced (parseBlocks source scopes' last).index
  diagnostics : (parseBlocks source scopes cursor).diagnostics =
    (parseBlocks source scopes' last).diagnostics

variable {source : List Char}

namespace Parses

lemma refl (scopes : Scopes) (cursor : Cursor) : Parses source scopes cursor {} scopes cursor :=
  ⟨rfl, rfl⟩

lemma of_eq {scopes scopes' : Scopes} {index index' : Index}
    (h : Parses source scopes cursor index scopes' last) (heq : index = index') :
    Parses source scopes cursor index' scopes' last := heq ▸ h

lemma trans {scopes scopes' scopes'' : Scopes} {middle : Cursor} {index index' : Index}
    (h : Parses source scopes cursor index scopes' middle)
    (h' : Parses source scopes' middle index' scopes'' last) :
    Parses source scopes cursor (index ++ index') scopes'' last where
  index := by rw [h.index, h'.index, unplaced_index_append, Index.append_assoc]
  diagnostics := h.diagnostics.trans h'.diagnostics

lemma of_read {scopes : Scopes} {index : Index} {block : Block} (hn : cursor.rest ≠ [])
    (hread : Block.read scopes cursor = block) (hfailure : block.failure = none)
    (hcursor : block.cursor = last) (hindex : unplaced block.parsed.index = unplaced index)
    (hdiagnostics : block.parsed.diagnostics = []) :
    Parses source scopes cursor index block.scopes last := by
  have hresume : block.resume cursor = last := by
    rw [Block.resume, hfailure, Option.isNone_none, if_pos rfl, hcursor]
  have hround := parseBlocks_of_ne_nil source scopes hn
  rw [hread, hresume] at hround
  constructor
  · rw [hround]
    change unplaced (_ ++ _) = _
    rw [unplaced_index_append, Block.index_outcome, hindex]
  · rw [hround]
    change (block.parsed.diagnostics ++ (block.failure.elim {} _ : Parsed).diagnostics) ++ _ = _
    rw [hdiagnostics, hfailure]
    rfl

end Parses

lemma Cursor.Spells.rest_ne_nil {terminal : Terminal}
    (h : Spells (terminal :: terminals) cursor last) : cursor.rest ≠ [] := by
  cases h
  exact List.cons_ne_nil _ _

lemma parses_sections {scopes : Scopes} {sections : Section} {entries : List Entry}
    (hn : cursor.rest ≠ []) (hread : Block.read scopes cursor = Block.ofSections scopes sections)
    (h : sections.Gives entries last) :
    Parses source scopes cursor (.of entries []) scopes last := by
  refine .of_read hn hread h.failure h.cursor (congrArg (Index.of · []) ?_) rfl
  change unplaced sections.kept = _
  rw [Section.kept, h.failure, Option.isSome_none, if_neg Bool.false_ne_true, h.entries]
  rfl

lemma parses_member {member : MemberBlock} (h : member.Spelling terminals)
    (hspells : Cursor.Spells terminals cursor last) (hlast : Reader.withinBlock last = false)
    (package owner : String) :
    Parses source ⟨.known package, .known owner⟩ cursor (.of (member.entries owner package) [])
      ⟨.known package, .known owner⟩ last := by
  obtain ⟨kind, second, others, heq, -⟩ := h.opens
  have hn : cursor.rest ≠ [] := by
    rw [heq] at hspells
    exact hspells.rest_ne_nil
  cases member with
  | method name descriptor uses parts =>
    have hkind : cursor.kind? = some .methodWord := by
      cases h
      exact hspells.kind?
    refine parses_sections hn ?_ (Section.method_gives h hspells hlast owner package)
    rw [Block.read, hkind]
    rfl
  | field name uses typeUses =>
    have hkind : cursor.kind? = some .fieldWord := by
      cases h
      exact hspells.kind?
    refine parses_sections hn ?_ (Section.field_gives h hspells hlast owner package)
    rw [Block.read, hkind]
    rfl

lemma parses_declaration {block : AnnotationBlock} (h : block.Spelling terminals)
    (hspells : Cursor.Spells terminals cursor last) (hlast : Reader.withinBlock last = false)
    (package : String) (owner : Scope) :
    Parses source ⟨.known package, owner⟩ cursor (.of [] [block.declaration package])
      ⟨.known package, owner⟩ last := by
  obtain ⟨declaration, hread, hgives⟩ :=
    Reader.Reads.declaration h package cursor last hspells hlast
  replace hread : Reader.declaration (Scopes.packageName ⟨.known package, owner⟩) cursor =
      .ok declaration last := hread
  have hkind : cursor.kind? = some .annotationWord := by
    cases h
    exact hspells.kind?
  have hblock : Block.read ⟨.known package, owner⟩ cursor =
      { parsed := .ofDeclaration declaration
        cursor := last
        scopes := ⟨.known package, owner⟩ } := by
    rw [Block.read, hkind]
    change Block.declaration _ _ = _
    rw [Block.declaration, hread]
  exact .of_read (Cursor.ne_nil_of_kind? hkind) hblock rfl rfl
    (congrArg (Index.of [] [·]) hgives) rfl

lemma parses_class (name : String) {uses : List AnnotationUse}
    (h : Reader.Reads Reader.annotations terminals (unplaced · = unplaced uses)
      (Cursor.Avoids useKinds))
    (hspells :
      Cursor.Spells (.word .classWord :: .name name :: .word .colon :: terminals) cursor last)
    (hlast : last.Avoids useKinds) (package : String) (owner : Scope) :
    Parses source ⟨.known package, owner⟩ cursor
      (.of (Subject.entry ⟨qualify package name, package, none⟩ .declaration .start uses) [])
      ⟨.known package, .known (qualify package name)⟩ last := by
  replace hspells : Cursor.Spells ([.word .classWord, .name name, .word .colon] ++ terminals) cursor
      last := hspells
  obtain ⟨middle, hheader, huses⟩ := hspells.of_append
  obtain ⟨⟨name', place⟩, hread, hname⟩ :=
    Reader.Reads.classHeader name cursor middle hheader trivial
  obtain rfl : name' = name := hname
  obtain ⟨uses', hread', hgives⟩ := h middle last huses hlast
  have hblock : Block.read ⟨.known package, owner⟩ cursor =
      { parsed := .ofEntries
          (Subject.entry ⟨qualify package name', package, none⟩ .declaration place uses')
        cursor := last
        scopes := ⟨.known package, .known (qualify package name')⟩ } := by
    rw [Block.read, hspells.kind?]
    change Block.ofClass _ _ = _
    rw [Block.ofClass, hread]
    dsimp only
    rw [hread']
    rfl
  exact .of_read hspells.rest_ne_nil hblock rfl rfl
    (congrArg (Index.of · []) (Subject.unplaced_entry _ _ hgives)) rfl

lemma parses_package {name : String}
    (hheader : Reader.Reads Reader.packageHeader (.word .packageWord :: terminals) (· = name)
      Cursor.Anywhere)
    (hspells : Cursor.Spells (.word .packageWord :: terminals) cursor last) (scopes : Scopes) :
    Parses source scopes cursor {} ⟨.known name, .missing⟩ last := by
  obtain ⟨name', hread, rfl⟩ := hheader cursor last hspells trivial
  have hblock :
    Block.read scopes cursor = { cursor := last, scopes := ⟨.known name', .missing⟩ } := by
    rw [Block.read, hspells.kind?]
    change Block.package _ = _
    rw [Block.package, hread]
  exact .of_read hspells.rest_ne_nil hblock rfl rfl rfl rfl

/-! ### Nested blocks -/

lemma parses_members {members : List MemberBlock}
    (h : Sequence [] MemberBlock.Spelling members terminals)
    (hspells : Cursor.Spells terminals cursor last) (hready : cursor.Ready)
    (hlast : Reader.withinBlock last = false) (package owner : String) :
    Parses source ⟨.known package, .known owner⟩ cursor
      (.of (members.flatMap (·.entries owner package)) []) ⟨.known package, .known owner⟩ last := by
  induction h generalizing cursor with
  | nil =>
    cases hspells
    exact .refl _ _
  | cons hmember h ih =>
    obtain ⟨middle, hfirst, hsecond⟩ := hspells.of_append
    have hmiddle := hfirst.ready hmember.closed fun _ => hready
    have hends := Cursor.withinBlock_of_sequence (fun _ _ h => h.opens) h hsecond hmiddle hlast
    exact ((parses_member hmember hfirst hends package owner).trans (ih hsecond hmiddle)).of_eq
      (Index.ext rfl rfl)

lemma parses_item {item : PackageItem} (h : item.Spelling terminals)
    (hspells : Cursor.Spells terminals cursor last) (hlast : Reader.withinBlock last = false)
    (package : String) (owner : Scope) :
    ∃ owner', Parses source ⟨.known package, owner⟩ cursor (item.index package)
      ⟨.known package, owner'⟩ last := by
  cases h with
  | ofDeclaration h => exact ⟨owner, parses_declaration h hspells hlast package owner⟩
  | ofClass h =>
    cases h with
    | @mk name uses members terminals others huses hmembers =>
      obtain ⟨middle, hfirst, hsecond⟩ := hspells.of_append
      have hmiddle : middle.Ready :=
        hfirst.ready (closed_header [_, _] huses.closed)
          fun hnil => absurd hnil (List.cons_ne_nil _ _)
      have hends :=
        Cursor.withinBlock_of_sequence (fun _ _ h => h.opens) hmembers hsecond hmiddle hlast
      have huses := Reader.Reads.annotations huses
      have havoids : middle.Avoids useKinds := Cursor.avoids_of_withinBlock hends (by decide)
      exact ⟨_, (parses_class name huses hfirst havoids package owner).trans
        (parses_members hmembers hsecond hmiddle hlast package (qualify package name))
          |>.of_eq (Index.ext rfl rfl)⟩

lemma parses_items {items : List PackageItem} (h : Sequence [] PackageItem.Spelling items terminals)
    (hspells : Cursor.Spells terminals cursor last) (hready : cursor.Ready)
    (hlast : Reader.withinBlock last = false) (package : String) (owner : Scope) :
    ∃ owner', Parses source ⟨.known package, owner⟩ cursor (PackageBlock.mk package items).index
      ⟨.known package, owner'⟩ last := by
  induction h generalizing cursor owner with
  | nil =>
    cases hspells
    exact ⟨owner, .refl _ _⟩
  | cons hitem h ih =>
    obtain ⟨middle, hfirst, hsecond⟩ := hspells.of_append
    have hmiddle := hfirst.ready hitem.closed fun _ => hready
    have hends := Cursor.withinBlock_of_sequence (fun _ _ h => h.opens) h hsecond hmiddle hlast
    obtain ⟨owner', hfirst⟩ := parses_item hitem hfirst hends package owner
    obtain ⟨owner'', hsecond⟩ := ih hsecond hmiddle owner'
    exact ⟨owner'', (hfirst.trans hsecond).of_eq (Index.ext rfl rfl)⟩

lemma parses_block {block : PackageBlock} (h : block.Spelling terminals)
    (hspells : Cursor.Spells terminals cursor last) (hlast : Reader.withinBlock last = false)
    (scopes : Scopes) :
    ∃ owner, Parses source scopes cursor block.index ⟨.known block.name, owner⟩ last := by
  have hitems : ∀ {name items header others},
      Reader.Reads Reader.packageHeader (.word .packageWord :: header ++ [.word .colon]) (· = name)
        Cursor.Anywhere →
      Sequence [] PackageItem.Spelling items others →
      Cursor.Spells (.word .packageWord :: header ++ [.word .colon] ++ others) cursor last →
        ∃ owner, Parses source scopes cursor (PackageBlock.mk name items).index
          ⟨.known name, owner⟩ last := by
    intro name items header others hheader hitems hspells
    obtain ⟨middle, hfirst, hsecond⟩ := hspells.of_append
    have hmiddle : middle.Ready :=
      hfirst.ready (closed_concat _ rfl) fun hnil => absurd hnil (List.cons_ne_nil _ _)
    obtain ⟨owner, hrest⟩ := parses_items hitems hsecond hmiddle hlast name .missing
    exact ⟨owner, (parses_package hheader hfirst scopes).trans hrest⟩
  cases h with
  | unnamed h => exact @hitems _ _ [] _ Reader.Reads.packageHeader_unnamed h hspells
  | named q h => exact hitems (Reader.Reads.packageHeader_named q) h hspells

/-- Packages one after the other. -/
lemma parses_blocks (source : List Char) {blocks : List PackageBlock}
    (h : FileSpelling blocks terminals)
    (hspells : Cursor.Spells terminals cursor last) (hready : cursor.Ready)
    (hlast : Reader.withinBlock last = false) (scopes : Scopes) :
    ∃ scopes', Parses source scopes cursor (.ofBlocks blocks) scopes' last := by
  induction h generalizing cursor scopes with
  | nil =>
    cases hspells
    exact ⟨scopes, .refl _ _⟩
  | cons hblock h ih =>
    obtain ⟨middle, hfirst, hsecond⟩ := hspells.of_append
    have hmiddle := hfirst.ready hblock.closed fun _ => hready
    have hends := Cursor.withinBlock_of_sequence (fun _ _ h => h.opens) h hsecond hmiddle hlast
    obtain ⟨owner, hfirst⟩ := parses_block hblock hfirst hends scopes
    obtain ⟨scopes', hsecond⟩ := ih hsecond hmiddle ⟨.known _, owner⟩
    exact ⟨scopes', (hfirst.trans hsecond).of_eq (Index.ext rfl rfl)⟩

/-! ### Texts -/

lemma spells_of_spelledBy {previous : Option Token} {tokens : List Token}
    (h : SpelledBy previous terminals tokens)
    (hnames : ∀ token ∈ tokens, isPlainName token.lexeme = true →
      token.kind = .identifier ∨ (token.kind, token.lexeme) ∈ softWords) :
    ∃ last, last.rest = [] ∧ Cursor.Spells terminals ⟨previous, tokens⟩ last := by
  induction terminals generalizing previous tokens with
  | nil =>
    cases tokens with
    | nil => exact ⟨⟨previous, []⟩, rfl, .nil _⟩
    | cons => exact absurd h id
  | cons terminal terminals ih =>
    cases tokens with
    | nil => exact absurd h id
    | cons token tokens =>
      obtain ⟨⟨hlexeme, hkind⟩, hglued, h⟩ := h
      obtain ⟨last, hlast, hspells⟩ := ih h fun token hmem =>
        hnames token (List.mem_cons_of_mem _ hmem)
      refine ⟨last, hlast, .cons ⟨hlexeme, ?_⟩ hglued hspells⟩
      obtain ⟨kind, lexeme, glued⟩ := terminal
      cases kind with
      | some kind => exact beq_iff_eq.1 hkind
      | none =>
        obtain rfl : token.lexeme = lexeme := hlexeme
        exact hnames token List.mem_cons_self hkind

/-- **Completeness.** A text whose tokens spell blocks by the grammar is parsed without a
diagnostic, and what it says is exactly what the blocks say, in their order. -/
theorem parse_of_spelling {blocks : List PackageBlock} {source : String}
    (h : FileSpelling blocks terminals)
    (hsource : SpelledBy none terminals (significantTokens source)) :
    (parse source).diagnostics = [] ∧
      unplaced (parse source).index = unplaced (Index.ofBlocks blocks) := by
  obtain ⟨last, hlast, hspells⟩ := spells_of_spelledBy hsource fun _ hmem =>
    kind_of_isPlainName hmem
  have hends : Reader.withinBlock last = false := by rw [Reader.withinBlock, hlast]; rfl
  obtain ⟨scopes, hparses⟩ := parses_blocks source.toList h hspells (by simp [Cursor.Ready]) hends
    .none
  have hindex := hparses.index
  have hdiagnostics := hparses.diagnostics
  rw [parseBlocks_of_nil _ _ hlast] at hindex hdiagnostics
  exact ⟨hdiagnostics, hindex.trans (Index.append_empty _)⟩

/-- An index with keywords for names. -/
theorem parse_of_spelling_softNames :
    (parse ("package p: // keywords are names\nannotation @type: int[] method = \x7b7, 0x1fL\x7d\n" ++
        "class C$D: @A(B.class)\n  method field([ILa/type;)V: parameter #0: type: @p.method")).diagnostics =
      [] ∧
    unplaced (parse ("package p: // keywords are names\nannotation @type: int[] method = \x7b7, 0x1fL\x7d\n" ++
        "class C$D: @A(B.class)\n  method field([ILa/type;)V: parameter #0: type: @p.method")).index =
      unplaced (Index.ofBlocks [⟨"p", [
        .ofDeclaration ⟨"type", [],
          [⟨"method", .array (.primitive .int), some (.array [.int 7, .int 31])⟩]⟩,
        .ofClass ⟨"C$D", [⟨"A", [("value", .classLiteral "B")], .start⟩], [
          .method "field" ⟨[.array (.primitive .int), .named "a.type"], .void⟩ []
            [.parameter 0 [] [⟨"p.method", [], .start⟩]]]⟩]⟩]) := by
  have hseven : LiteralSpelling (.int 7) .decimalInteger ['7'] :=
    @LiteralSpelling.decimal 7 false ['7'] [] ⟨by simp, by simp⟩ (by decide) (by decide)
  have hhex : LiteralSpelling (.int 31) .hexInteger ['0', 'x', '1', 'f', 'L'] :=
    @LiteralSpelling.hex 31 false 'x' ['1', 'f'] ['L'] (.inl rfl)
      ⟨by simp, by simp [isHexDigit]⟩ (by decide) (by decide)
  have hdefault : ValueSpelling (.array [.int 7, .int 31]) _ :=
    .array (.mk (.literal hseven) (.cons (.literal hhex) .nil))
  have hdeclaration : AnnotationBlock.Spelling ⟨"type", [],
      [⟨"method", .array (.primitive .int), some (.array [.int 7, .int 31])⟩]⟩ _ :=
    .mk .nil (.cons (.withDefault (.mk (.primitive .int) 1) hdefault (by decide)) .nil)
  have hdescriptor : DescriptorSpelling ⟨[.array (.primitive .int), .named "a.type"], .void⟩
      ([.word .openBracket, .name "ILa", .word .slash, .name "type", .word .semicolon,
        .word .closeParen, .name "V"].map Terminal.joined) := by
    refine ⟨fun terminal hmem => ?_, by decide +kernel⟩
    fin_cases hmem <;> first | exact .name _ | exact .sign (by decide)
  have hparameter : MethodPart.Spelling (.parameter 0 [] [⟨"p.method", [], .start⟩]) _ :=
    @MethodPart.Spelling.parameter ['0'] _ _ _ _ ⟨by simp, by simp⟩ (by decide) .nil
      (.present (.cons ⟨.bare ⟨"p", ["method"]⟩ .start, by decide⟩ .nil))
  have hclass : ClassBlock.Spelling ⟨"C$D", [⟨"A", [("value", .classLiteral "B")], .start⟩], [
      .method "field" ⟨[.array (.primitive .int), .named "a.type"], .void⟩ []
        [.parameter 0 [] [⟨"p.method", [], .start⟩]]]⟩ _ :=
    .mk (.cons ⟨.sole ⟨"A", []⟩ .start (.classLiteral ⟨"B", []⟩), by decide⟩ .nil)
      (.cons (.method (.plain "field") hdescriptor .nil (.cons hparameter .nil)) .nil)
  have hpackage : PackageBlock.Spelling ⟨"p", [.ofDeclaration _, .ofClass _]⟩ _ :=
    .named ⟨"p", []⟩ (.cons (.ofDeclaration hdeclaration) (.cons (.ofClass hclass) .nil))
  exact parse_of_spelling (.cons hpackage .nil) (by decide +kernel)

end ExternalAnnotations
