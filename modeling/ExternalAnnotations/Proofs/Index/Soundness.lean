import ExternalAnnotations.Proofs.Index.AlikeBlocks

/-!
# Texts without diagnostics

What is parsed without a diagnostic is in the grammar that the parser accepts. The parser knows of
the blocks before the current one only which package and which class are open, so the induction is
over `Production.remaining`: what can follow when these are open.
-/

namespace ExternalAnnotations

open Production
open scoped Computability

/-- If nothing is wrong, what stands between the two cursors is in the language. -/
def Spans (l : Language Token) (cursor : Cursor) (failure : Option SyntaxError) (next : Cursor) :
    Prop :=
  failure = none → ∃ taken ∈ l, cursor.rest = taken ++ next.rest

namespace Spans

variable {l m : Language Token} {cursor middle next : Cursor} {failure : Option SyntaxError}

lemma of_past (h : cursor.Past l next) : Spans l cursor failure next := fun _ => h.taken

lemma trans (h : cursor.Past l middle) (hnext : Spans m middle failure next) :
    Spans (l * m) cursor failure next := by
  intro hfailure
  obtain ⟨taken, htaken, hrest⟩ := h.taken
  obtain ⟨taken', htaken', hrest'⟩ := hnext hfailure
  refine ⟨taken ++ taken', Language.append_mem_mul htaken htaken', ?_⟩
  rw [hrest, hrest', List.append_assoc]

lemma nil : Spans 1 cursor failure cursor := fun _ => ⟨[], rfl, rfl⟩

lemma mono (h : Spans l cursor failure next) (hl : l ≤ m) : Spans m cursor failure next := by
  intro hfailure
  obtain ⟨taken, htaken, hrest⟩ := h hfailure
  exact ⟨taken, hl htaken, hrest⟩

lemma of_some {error : SyntaxError} : Spans l cursor (some error) next := nofun

end Spans

/-! ### Sections -/

namespace Section

variable {cursor : Cursor}

lemma spans_type (subject : Subject) (placement : Placement) (place : Location)
    (held : List Entry) : Spans (opt (typeSection .accepted)) cursor
      (type subject placement place held cursor).failure
      (type subject placement place held cursor).cursor := by
  unfold type
  split
  · split
    · rename_i hread
      have hpast := (walking.opening walking.typeHeader).past hread
      exact (Spans.of_past hpast).mono le_sup_right
    · exact Spans.of_some
  · exact Spans.nil.mono le_sup_left

lemma spans_result (subject : Subject) : Spans (resultSection .accepted) cursor
    (result subject cursor).failure (result subject cursor).cursor := by
  unfold result
  split
  · rename_i hread
    exact .of_past ((walking.opening walking.returnHeader).past hread)
  · exact Spans.of_some

lemma spans_parameter (subject : Subject) : Spans (parameterSection .accepted) cursor
    (parameter subject cursor).failure (parameter subject cursor).cursor := by
  unfold parameter
  split
  · rename_i hread
    exact .trans ((walking.opening walking.parameterHeader).past hread) (spans_type _ _ _ _)
  · exact Spans.of_some

lemma spans_next (subject : Subject) :
    Spans (resultSection .accepted + parameterSection .accepted) cursor
      (next subject cursor).failure (next subject cursor).cursor := by
  unfold next
  split
  · exact (spans_result subject).mono le_sup_left
  · split
    · exact (spans_parameter subject).mono le_sup_right
    · exact Spans.of_some

lemma spans_following (subject : Subject) (held : List Entry) :
    Spans (resultSection .accepted + parameterSection .accepted)∗ cursor
      (following subject held cursor).failure (following subject held cursor).cursor := by
  induction hlength : cursor.rest.length using Nat.strong_induction_on generalizing cursor held with
  | _ length ih =>
  subst hlength
  have hone : Spans _ cursor (next subject cursor).failure (next subject cursor).cursor :=
    spans_next subject
  rw [following]
  dsimp only
  split
  · split
    · rename_i hgoes
      rw [Bool.and_eq_true, Option.isNone_iff_eq_none, decide_eq_true_eq] at hgoes
      intro hfailure
      obtain ⟨taken, htaken, hrest⟩ := hone hgoes.1
      obtain ⟨taken', htaken', hrest'⟩ := ih _ hgoes.2 (next subject cursor).held rfl hfailure
      have hstar : (resultSection .accepted + parameterSection .accepted) *
          (resultSection .accepted + parameterSection .accepted)∗ ≤
            (resultSection .accepted + parameterSection .accepted)∗ := mul_kstar_le_kstar
      refine ⟨taken ++ taken', hstar (Language.append_mem_mul htaken htaken'), ?_⟩
      rw [hrest, hrest', List.append_assoc]
      rfl
    · split
      · exact hone.mono le_kstar
      · exact hone.mono le_kstar
  · exact Spans.nil.mono one_le_kstar

lemma spans_method (owner package : String) : Spans (member .accepted) cursor
    (method owner package cursor).failure (method owner package cursor).cursor := by
  unfold method
  split
  · rename_i hread
    have hpast := (walking.opening walking.methodHeader).past hread
    exact (Spans.trans hpast (spans_following _ _)).mono le_sup_left
  · exact Spans.of_some

lemma spans_field (owner package : String) : Spans (member .accepted) cursor
    (field owner package cursor).failure (field owner package cursor).cursor := by
  unfold field
  split
  · rename_i hread
    dsimp only
    split
    · exact Spans.of_some
    · have hpast := (walking.opening walking.fieldHeader).past hread
      exact (Spans.trans hpast (spans_type _ _ _ _)).mono le_sup_right
  · exact Spans.of_some

end Section

namespace Production

/-! ### What can follow -/

variable (dialect : Dialect)

/-- What can stand directly in a class or, while no class is open, in a package. -/
def item (owner : Scope) : Language Token :=
  match owner with
  | .known _ => member dialect + declaration dialect
  | .missing | .malformed => declaration dialect

/-- Classes, each with its members and the declarations between them. -/
def classes : Language Token :=
  (classHead dialect * (member dialect + declaration dialect)∗)∗

/-- Packages, each with its declarations and classes. -/
def packages : Language Token :=
  (packageHead * ((declaration dialect)∗ * classes dialect))∗

/-- What can follow while the scope of a class is open. -/
def remaining (owner : Scope) : Language Token :=
  (item dialect owner)∗ * (classes dialect * packages dialect)

/-- Blocks one after the other. A member stands behind the header of a class in its package. -/
def blocks : Language Token := remaining dialect .missing

variable {dialect} {owner : Scope}

lemma nil_mem_remaining : [] ∈ remaining dialect owner := by
  have hrest : [] ∈ classes dialect * packages dialect :=
    Language.append_mem_mul (Language.nil_mem_kstar _) (Language.nil_mem_kstar _)
  exact Language.append_mem_mul (Language.nil_mem_kstar _) hrest

lemma packageHead_mul_le :
    packageHead * remaining dialect .missing ≤ remaining dialect owner :=
  calc packageHead * remaining dialect .missing
      = packageHead * ((declaration dialect)∗ * classes dialect) * packages dialect := by
        simp only [remaining, item, mul_assoc]
    _ ≤ packages dialect := mul_kstar_le_kstar
    _ ≤ classes dialect * packages dialect := le_mul_of_one_le_left' one_le_kstar
    _ ≤ remaining dialect owner := le_mul_of_one_le_left' one_le_kstar

lemma classHead_mul_le (name : String) :
    classHead dialect * remaining dialect (.known name) ≤ remaining dialect owner :=
  calc classHead dialect * remaining dialect (.known name)
      = classHead dialect * (member dialect + declaration dialect)∗ * classes dialect *
          packages dialect := by simp only [remaining, item, mul_assoc]
    _ ≤ classes dialect * packages dialect := mul_le_mul' mul_kstar_le_kstar le_rfl
    _ ≤ remaining dialect owner := le_mul_of_one_le_left' one_le_kstar

lemma mul_remaining_le {l : Language Token} (hl : l ≤ item dialect owner) :
    l * remaining dialect owner ≤ remaining dialect owner :=
  calc l * remaining dialect owner
      ≤ item dialect owner * remaining dialect owner := mul_le_mul' hl le_rfl
    _ = item dialect owner * (item dialect owner)∗ * (classes dialect * packages dialect) := by
        rw [remaining, mul_assoc]
    _ ≤ remaining dialect owner := mul_le_mul' mul_kstar_le_kstar le_rfl

lemma declaration_le_item : declaration dialect ≤ item dialect owner := by
  cases owner with
  | known name => exact le_sup_right
  | missing => exact le_rfl
  | malformed => exact le_rfl

end Production

/-! ### Blocks -/

/-- The header of every scope was read as it should. -/
structure Scopes.Sound (scopes : Scopes) : Prop where
  package : scopes.package ≠ .malformed
  owner : scopes.owner ≠ .malformed

namespace Block

variable {cursor : Cursor} {scopes : Scopes}

/-- A block without an error takes what can stand where it does, before what can follow then. -/
structure Stands (scopes : Scopes) (cursor : Cursor) (block : Block) : Prop where
  sound : block.scopes.Sound
  spans : ∃ l, Spans l cursor block.failure block.cursor ∧
    l * remaining .accepted block.scopes.owner ≤ remaining .accepted scopes.owner

lemma package_stands (h : (package cursor).failure = none) :
    Stands scopes cursor (package cursor) := by
  unfold package at h ⊢
  split at h
  · rename_i name next hread
    have hgives := walking.packageHeader (rfl : cursor = cursor) (.inl rfl)
    rw [hread] at hgives
    exact ⟨⟨nofun, nofun⟩, packageHead, .of_past hgives.past, packageHead_mul_le⟩
  · contradiction

lemma ofClass_stands (hscopes : scopes.Sound) (h : (ofClass scopes cursor).failure = none) :
    Stands scopes cursor (ofClass scopes cursor) := by
  unfold ofClass at h ⊢
  split at h
  · contradiction
  · rename_i name place next hheader
    dsimp only at h ⊢
    split at h
    · contradiction
    · rename_i annotations last hannotations
      have hspans : Spans (classHead .accepted) cursor none last :=
        .trans (walking.classHeader.past hheader) (.of_past (walking.annotations.past hannotations))
      exact ⟨⟨hscopes.package, nofun⟩, classHead .accepted, hspans, classHead_mul_le _⟩

lemma declaration_stands (hscopes : scopes.Sound)
    (h : (declaration scopes cursor).failure = none) :
    Stands scopes cursor (declaration scopes cursor) := by
  unfold declaration at h ⊢
  split at h
  · contradiction
  · rename_i declaration next hread
    have hspans : Spans (Production.declaration .accepted) cursor none next :=
      .of_past ((walking.declaration _).past hread)
    exact ⟨hscopes, _, hspans, mul_remaining_le declaration_le_item⟩

lemma member_stands {read : String → String → Cursor → Section} (hscopes : scopes.Sound)
    (hread : ∀ owner package, Spans (Production.member .accepted) cursor
      (read owner package cursor).failure (read owner package cursor).cursor)
    (h : (member read scopes cursor).failure = none) :
    Stands scopes cursor (member read scopes cursor) := by
  unfold member at h ⊢
  split
  · rename_i owner howner
    have hitem : Production.member .accepted ≤ item .accepted scopes.owner := by
      rw [howner]
      exact le_sup_left
    exact ⟨hscopes, _, hread owner _, mul_remaining_le hitem⟩
  · rename_i howner
    exact absurd howner hscopes.owner
  · rename_i howner
    rw [howner] at h
    contradiction

lemma read_stands (hscopes : scopes.Sound) (h : (read scopes cursor).failure = none) :
    Stands scopes cursor (read scopes cursor) := by
  rw [read] at h ⊢
  split at h
  · exact package_stands h
  · rw [if_neg hscopes.package] at h ⊢
    exact ofClass_stands hscopes h
  · rw [if_neg hscopes.package] at h ⊢
    exact declaration_stands hscopes h
  · exact member_stands hscopes (fun _ _ => Section.spans_method _ _) h
  · exact member_stands hscopes (fun _ _ => Section.spans_field _ _) h
  · contradiction

lemma failure_of_diagnostics {source : List Char} {block : Block}
    (h : (block.outcome source).diagnostics = []) : block.failure = none := by
  cases hfailure : block.failure with
  | none => rfl
  | some error =>
    have hmem : _ ∈ (block.outcome source).diagnostics := mem_diagnostics_outcome hfailure
    rw [h] at hmem
    contradiction

end Block

/-- Without a diagnostic every round takes a block that can stand where it does. -/
lemma mem_remaining_of_parseBlocks {source : List Char} {scopes : Scopes} {cursor : Cursor}
    (hscopes : scopes.Sound) (h : (parseBlocks source scopes cursor).diagnostics = []) :
    cursor.rest ∈ remaining .accepted scopes.owner := by
  induction hlength : cursor.rest.length using Nat.strong_induction_on
    generalizing scopes cursor with
  | _ length ih =>
  subst hlength
  by_cases hnil : cursor.rest = []
  · rw [hnil]
    exact nil_mem_remaining
  · rw [parseBlocks_of_ne_nil source scopes hnil] at h
    obtain ⟨hblock, hrest⟩ := List.append_eq_nil_iff.1 h
    have hfailure := Block.failure_of_diagnostics hblock
    have hstands := Block.read_stands hscopes hfailure
    have hresume :
        (Block.read scopes cursor).resume cursor = (Block.read scopes cursor).cursor := by
      rw [Block.resume, hfailure]
      rfl
    have hshorter := Block.length_resume_lt scopes hnil
    rw [hresume] at hrest hshorter
    obtain ⟨l, hspans, hle⟩ := hstands.spans
    obtain ⟨taken, htaken, hcursor⟩ := hspans hfailure
    rw [hcursor]
    exact hle (Language.append_mem_mul htaken (ih _ hshorter hstands.sound hrest rfl))

lemma significantTokens_mem_blocks {source : String} (h : (parse source).diagnostics = []) :
    significantTokens source ∈ blocks .accepted := by
  have hsound : Scopes.none.Sound := ⟨by decide, by decide⟩
  exact mem_remaining_of_parseBlocks hsound h

namespace Production

/-! ### Members behind declarations -/

lemma mem_kstar_of_isInfix {l m : Language Token} {tokens : List Token} (h : tokens ∈ l∗)
    (hpiece : ∀ piece ∈ l, piece <:+: tokens → piece ∈ m) : tokens ∈ m∗ := by
  obtain ⟨pieces, rfl, hpieces⟩ := Language.mem_kstar.1 h
  apply Language.join_mem_kstar
  intro piece hmem
  exact hpiece piece (hpieces piece hmem) (List.infix_of_mem_flatten hmem)

variable {dialect : Dialect} {tokens : List Token}

/-- No member is directly behind a declaration. -/
def MembersFirst (dialect : Dialect) (tokens : List Token) : Prop :=
  ∀ piece ∈ declaration dialect * member dialect, ¬ piece <:+: tokens

lemma MembersFirst.of_isInfix {part : List Token} (h : MembersFirst dialect tokens)
    (hpart : part <:+: tokens) : MembersFirst dialect part :=
  fun piece hpiece hwithin => h piece hpiece (hwithin.trans hpart)

lemma mem_of_membersFirst (h : tokens ∈ (member dialect + declaration dialect)∗)
    (hfirst : MembersFirst dialect tokens) :
    tokens ∈ (member dialect)∗ * (declaration dialect)∗ := by
  obtain ⟨pieces, rfl, hpieces⟩ := Language.mem_kstar.1 h
  clear h
  induction pieces with
  | nil => exact Language.append_mem_mul (Language.nil_mem_kstar _) (Language.nil_mem_kstar _)
  | cons piece pieces ih =>
    obtain ⟨hpiece, hpieces⟩ := List.forall_mem_cons.1 hpieces
    rw [List.flatten_cons] at hfirst ⊢
    obtain ⟨members, hmembers, declarations, hdeclarations, heq⟩ := Language.mem_mul.1
      (ih hpieces (hfirst.of_isInfix (List.suffix_append _ _).isInfix))
    rw [← heq] at hfirst ⊢
    rcases hpiece with hpiece | hpiece
    · have hstar : member dialect * (member dialect)∗ ≤ (member dialect)∗ := mul_kstar_le_kstar
      rw [← List.append_assoc]
      exact Language.append_mem_mul (hstar (Language.append_mem_mul hpiece hmembers)) hdeclarations
    · -- A member among the rest would be behind this declaration.
      rcases mem_kstar_cases.1 hmembers with rfl | hmembers
      · have hstar : declaration dialect * (declaration dialect)∗ ≤ (declaration dialect)∗ :=
          mul_kstar_le_kstar
        change [] ++ (piece ++ declarations) ∈ _
        exact Language.append_mem_mul (Language.nil_mem_kstar _)
          (hstar (Language.append_mem_mul hpiece hdeclarations))
      · obtain ⟨first, hmember, others, -, rfl⟩ := Language.mem_mul.1 hmembers
        have hadjacent : piece ++ first ∈ declaration dialect * member dialect :=
          Language.append_mem_mul hpiece hmember
        refine absurd ?_ (hfirst _ hadjacent)
        rw [List.append_assoc, ← List.append_assoc]
        exact (List.prefix_append _ _).isInfix

lemma mem_kstar_of_mem_classes (h : tokens ∈ classes dialect)
    (hfirst : MembersFirst dialect tokens) :
    tokens ∈ (classBlock dialect + declaration dialect)∗ := by
  have hclass : tokens ∈ (classBlock dialect * (declaration dialect)∗)∗ := by
    refine mem_kstar_of_isInfix h fun piece hpiece hwithin => ?_
    obtain ⟨head, hhead, content, hcontent, rfl⟩ := Language.mem_mul.1 hpiece
    have hmembers := mem_of_membersFirst hcontent
      (hfirst.of_isInfix ((List.suffix_append _ _).isInfix.trans hwithin))
    rw [classBlock, mul_assoc]
    exact Language.append_mem_mul hhead hmembers
  have hle : (classBlock dialect * (declaration dialect)∗)∗ ≤
      (classBlock dialect + declaration dialect)∗ := by
    have hpiece : classBlock dialect * (declaration dialect)∗ ≤
        (classBlock dialect + declaration dialect)∗ :=
      mul_kstar_le (le_kstar.trans' le_sup_left)
        ((mul_le_mul' le_rfl (le_kstar.trans' le_sup_right)).trans (kstar_mul_kstar _).le)
    exact (kstar_mono hpiece).trans (kstar_idem _).le
  exact hle hclass

lemma mem_file_of_mem_packages (h : tokens ∈ packages dialect)
    (hfirst : MembersFirst dialect tokens) : tokens ∈ file dialect := by
  refine mem_kstar_of_isInfix h fun piece hpiece hwithin => ?_
  obtain ⟨head, hhead, content, hcontent, rfl⟩ := Language.mem_mul.1 hpiece
  obtain ⟨declarations, hdeclarations, rest, hclasses, rfl⟩ := Language.mem_mul.1 hcontent
  have hend : rest <:+ head ++ (declarations ++ rest) :=
    (List.suffix_append _ _).trans (List.suffix_append _ _)
  have hrest := mem_kstar_of_mem_classes hclasses (hfirst.of_isInfix (hend.isInfix.trans hwithin))
  have hle : (declaration dialect)∗ * (classBlock dialect + declaration dialect)∗ ≤
      (classBlock dialect + declaration dialect)∗ :=
    (mul_le_mul' (kstar_mono le_sup_right) le_rfl).trans (kstar_mul_kstar _).le
  exact Language.append_mem_mul hhead (hle (Language.append_mem_mul hdeclarations hrest))

lemma mem_packages_of_mem_blocks (h : tokens ∈ blocks dialect)
    (hhead : ∀ token ∈ tokens.head?, token.kind = .packageWord) : tokens ∈ packages dialect := by
  cases tokens with
  | nil => exact Language.nil_mem_kstar _
  | cons token tokens =>
    have hkind : token.kind = .packageWord := hhead token rfl
    simp only [blocks, remaining, item, classes, mul_assoc, mem_kstar_mul,
      cons_mem_declaration_mul, cons_mem_classHead_mul, hkind, reduceCtorEq, false_and,
      or_false] at h
    exact h

end Production

/-- **Soundness.** The tokens of a text without diagnostics are blocks of the grammar, each member
behind the header of its class in the same package. They are a file of the grammar if the text
begins with a package and no member is directly behind a declaration. -/
theorem parse_sound {source : String} (h : (parse source).diagnostics = []) :
    significantTokens source ∈ blocks .accepted ∧
      ((∀ token ∈ (significantTokens source).head?, token.kind = .packageWord) →
        MembersFirst .accepted (significantTokens source) →
          significantTokens source ∈ file .accepted) := by
  have hblocks := significantTokens_mem_blocks h
  refine ⟨hblocks, ?_⟩
  intro hhead hfirst
  exact mem_file_of_mem_packages (mem_packages_of_mem_blocks hblocks hhead) hfirst

/-- A package with a class in it. -/
theorem parse_sound_class : (parse "package p: class A: @B(1)").diagnostics = [] ∧
    significantTokens "package p: class A: @B(1)" ∈ file .accepted := by
  have h : (parse "package p: class A: @B(1)").diagnostics = [] := by decide +kernel
  have hkinds : ∀ token ∈ significantTokens "package p: class A: @B(1)",
      token.kind ≠ .annotationWord := by decide +kernel
  refine ⟨h, (parse_sound h).2 (by decide +kernel) ?_⟩
  intro piece hpiece hwithin
  cases piece with
  | nil =>
    simp only [declaration, mul_assoc] at hpiece
    exact nil_notMem_one_mul hpiece
  | cons token tokens =>
    exact hkinds token (hwithin.subset List.mem_cons_self) (cons_mem_declaration_mul.1 hpiece).1

namespace Production

lemma mem_element_of_mem_file {dialect : Dialect}
    {package colon keyword sign name colon' first : Token} {tokens : List Token}
    (h : package :: colon :: keyword :: sign :: name :: colon' :: first :: tokens ∈ file dialect)
    (hcolon : colon.kind = .colon) (hkeyword : keyword.kind = .annotationWord)
    (hfirst : first.kind = .identifier) : ∃ l, first :: tokens ∈ element dialect * l := by
  simp only [cons_mem_file, cons_mem_packageBlock_mul, mem_opt_mul, cons_mem_qualifiedName_mul,
    cons_mem_word_mul, mem_kstar_mul, add_mul, Language.mem_add, cons_mem_declaration_mul,
    cons_mem_classBlock_mul, cons_mem_name_mul, cons_mem_uses_mul, cons_mem_use_mul, hcolon,
    hkeyword, hfirst, TokenKind.isName, reduceCtorEq, false_and, false_or, or_false, true_and,
    and_false, Bool.false_eq_true] at h
  exact ⟨_, h.2.2.2.2⟩

lemma kind_of_cons_mem_value_mul {dialect : Dialect} {l : Language Token} {token : Token}
    {tokens : List Token} (h : token :: tokens ∈ value dialect * l) :
    token.kind ≠ .closeParen := by
  intro hkind
  rw [← value_eq] at h
  simp only [valueOf, useOf, literal, add_mul, mul_assoc, Language.mem_add, cons_mem_one_mul,
    cons_mem_qualifiedName_mul, cons_mem_word_mul, hkind, TokenKind.isLiteral, TokenKind.isName,
    reduceCtorEq, Bool.false_eq_true, false_and, or_self] at h

end Production

/-- The name of an element can be a keyword, the name of `String` qualified, and the list of
arguments empty, none of which is documented. -/
theorem parse_accepts_undocumented :
    ((parse "package: annotation @A: int package").diagnostics = [] ∧
      significantTokens "package: annotation @A: int package" ∉ file .documented) ∧
    ((parse "package: annotation @A: java.lang.String x").diagnostics = [] ∧
      significantTokens "package: annotation @A: java.lang.String x" ∉ file .documented) ∧
    ((parse "package: class A: @X()").diagnostics = [] ∧
      significantTokens "package: class A: @X()" ∉ file .documented) := by
  refine ⟨⟨by decide +kernel, ?_⟩, ⟨by decide +kernel, ?_⟩, by decide +kernel, ?_⟩
  · have htokens : significantTokens "package: annotation @A: int package" =
        [⟨.packageWord, "package", ⟨1, 1, 0⟩⟩, ⟨.colon, ":", ⟨1, 8, 7⟩⟩,
          ⟨.annotationWord, "annotation", ⟨1, 10, 9⟩⟩, ⟨.atSign, "@", ⟨1, 21, 20⟩⟩,
          ⟨.identifier, "A", ⟨1, 22, 21⟩⟩, ⟨.colon, ":", ⟨1, 23, 22⟩⟩,
          ⟨.identifier, "int", ⟨1, 25, 24⟩⟩, ⟨.packageWord, "package", ⟨1, 29, 28⟩⟩] := by
      decide +kernel
    rw [htokens]
    intro h
    obtain ⟨l, h⟩ := mem_element_of_mem_file h rfl rfl rfl
    -- A keyword that Java reserves does not name an element.
    simp only [element, elementType, mul_assoc, add_mul, Language.mem_add, Dialect.documented,
      cons_mem_one_mul, cons_mem_word_mul, cons_mem_name_mul, mem_kstar_mul, TokenKind.isName,
      reduceCtorEq, false_and, or_false, and_false, Bool.false_eq_true] at h
  · have htokens : significantTokens "package: annotation @A: java.lang.String x" =
        [⟨.packageWord, "package", ⟨1, 1, 0⟩⟩, ⟨.colon, ":", ⟨1, 8, 7⟩⟩,
          ⟨.annotationWord, "annotation", ⟨1, 10, 9⟩⟩, ⟨.atSign, "@", ⟨1, 21, 20⟩⟩,
          ⟨.identifier, "A", ⟨1, 22, 21⟩⟩, ⟨.colon, ":", ⟨1, 23, 22⟩⟩,
          ⟨.identifier, "java", ⟨1, 25, 24⟩⟩, ⟨.dot, ".", ⟨1, 29, 28⟩⟩,
          ⟨.identifier, "lang", ⟨1, 30, 29⟩⟩, ⟨.dot, ".", ⟨1, 34, 33⟩⟩,
          ⟨.identifier, "String", ⟨1, 35, 34⟩⟩, ⟨.identifier, "x", ⟨1, 42, 41⟩⟩] := by
      decide +kernel
    rw [htokens]
    intro h
    obtain ⟨l, h⟩ := mem_element_of_mem_file h rfl rfl rfl
    simp only [element, elementType, mul_assoc, add_mul, Language.mem_add, Dialect.documented,
      cons_mem_one_mul, cons_mem_word_mul, reduceCtorEq, false_and, or_false] at h
    exact absurd h.1.2 (by decide)
  · have htokens : significantTokens "package: class A: @X()" =
        [⟨.packageWord, "package", ⟨1, 1, 0⟩⟩, ⟨.colon, ":", ⟨1, 8, 7⟩⟩,
          ⟨.classWord, "class", ⟨1, 10, 9⟩⟩, ⟨.identifier, "A", ⟨1, 16, 15⟩⟩,
          ⟨.colon, ":", ⟨1, 17, 16⟩⟩, ⟨.atSign, "@", ⟨1, 19, 18⟩⟩,
          ⟨.identifier, "X", ⟨1, 20, 19⟩⟩, ⟨.openParen, "(", ⟨1, 21, 20⟩⟩,
          ⟨.closeParen, ")", ⟨1, 22, 21⟩⟩] := by decide +kernel
    rw [htokens]
    intro h
    simp only [cons_mem_file, cons_mem_packageBlock_mul, mem_opt_mul, cons_mem_qualifiedName_mul,
      cons_mem_word_mul, mem_kstar_mul, add_mul, mul_assoc, Language.mem_add,
      cons_mem_declaration_mul, cons_mem_classBlock_mul, cons_mem_name_mul, cons_mem_uses_mul,
      cons_mem_use_mul, member, method, field, separated, Dialect.documented,
      zero_mul, Language.notMem_zero, TokenKind.isName, reduceCtorEq, Bool.false_eq_true,
      false_and, false_or, or_false, true_and, and_false] at h
    exact kind_of_cons_mem_value_mul h rfl

end ExternalAnnotations
