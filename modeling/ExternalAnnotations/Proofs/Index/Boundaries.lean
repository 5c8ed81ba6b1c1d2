import ExternalAnnotations.Proofs.Index.ReadingBlocks

/-!
# Where blocks begin and end

A block keyword opens a block unless it is part of a name. No spelling of a block ends with a token
after which it would be one, and every spelling begins with two tokens that open a block.
-/

namespace ExternalAnnotations

variable {terminals others : List Terminal}

/-- Whether a block keyword after the terminal is a name. -/
def Terminal.bindsName (terminal : Terminal) : Bool := terminal.kind.any TokenKind.bindsName

/-- After the terminals a block can begin. -/
def Closed (terminals : List Terminal) : Prop :=
  ∀ terminal ∈ terminals.getLast?, terminal.bindsName = false

lemma Closed.append (h : Closed terminals) (ho : Closed others) : Closed (terminals ++ others) := by
  intro terminal hlast
  rw [List.getLast?_append] at hlast
  cases hl : others.getLast? with
  | none => exact h terminal (by simpa [hl] using hlast)
  | some last => exact ho terminal (by simpa [hl] using hlast)

lemma Closed.cons {terminal : Terminal} (h : Closed terminals)
    (hnil : terminals = [] → terminal.bindsName = false) : Closed (terminal :: terminals) := by
  cases terminals with
  | nil => simpa [Closed] using hnil rfl
  | cons first others => simpa [Closed, List.getLast?_cons] using h

lemma closed_nil : Closed [] := by simp [Closed]

lemma closed_concat (terminals : List Terminal) {terminal : Terminal}
    (h : terminal.bindsName = false) : Closed (terminals ++ [terminal]) := by
  simpa [Closed] using h

lemma closed_sequence {α : Type} {spelling : α → List Terminal → Prop}
    (hclosed : ∀ a terminals, spelling a terminals → Closed terminals) {items : List α}
    (h : Sequence [] spelling items terminals) : Closed terminals := by
  induction h with
  | nil => exact closed_nil
  | cons ha h ih => exact (hclosed _ _ ha).append ih

lemma QualifiedName.terminals_eq_concat (q : QualifiedName) :
    ∃ terminals text, q.terminals = terminals ++ [.name text] := by
  obtain ⟨first, others⟩ := q
  rcases List.eq_nil_or_concat others with rfl | ⟨parts, part, rfl⟩
  · exact ⟨[], first, rfl⟩
  · refine ⟨.name first :: parts.flatMap (fun part => [.word .dot, .name part]) ++ [.word .dot],
      part, ?_⟩
    simp [terminals]

lemma QualifiedName.closed (q : QualifiedName) : Closed q.terminals := by
  obtain ⟨terminals, text, h⟩ := q.terminals_eq_concat
  rw [h]
  exact closed_concat terminals rfl

lemma UseSpelling.closed {use : AnnotationUse} (h : UseSpelling use terminals) :
    Closed terminals := by
  cases h with
  | bare q => exact q.closed.cons fun hnil => absurd hnil (List.cons_ne_nil _ _)
  | sole q place h =>
    rw [← List.append_assoc]
    exact closed_concat _ rfl
  | named q place h =>
    rw [← List.append_assoc]
    exact closed_concat _ rfl

lemma ValueSpelling.closed {value : WrittenValue} (h : ValueSpelling value terminals) :
    Closed terminals := by
  cases h with
  | literal h => exact closed_concat [] (by cases h <;> rfl)
  | name q => exact q.closed
  | classLiteral q =>
    rw [List.append_cons]
    exact closed_concat _ rfl
  | emptyArray => exact closed_concat [_] rfl
  | array h => exact closed_concat _ rfl
  | nested h => exact h.closed

lemma UsesSpelling.closed {uses : List AnnotationUse} (h : UsesSpelling uses terminals) :
    Closed terminals :=
  closed_sequence (fun _ _ h => h.1.closed) h

lemma ElementSpelling.closed {element : ElementDeclaration}
    (h : ElementSpelling element terminals) :
    Closed terminals := by
  cases h with
  | plain h => exact closed_concat _ rfl
  | @withDefault type name value terminals others h hvalue =>
    rw [List.append_cons, List.append_cons]
    exact (closed_concat _ rfl).append hvalue.closed

lemma closed_header (header : List Terminal) (h : Closed terminals) :
    Closed (header ++ [.word .colon] ++ terminals) :=
  (closed_concat header rfl).append h

lemma TypeSpelling.closed {uses : List AnnotationUse} (h : TypeSpelling uses terminals) :
    Closed terminals := by
  cases h with
  | absent => exact closed_nil
  | present h => exact closed_header [_] h.closed

lemma MethodPart.Spelling.closed {part : MethodPart} (h : part.Spelling terminals) :
    Closed terminals := by
  cases h with
  | result h => exact closed_header [_] h.closed
  | parameter _ _ h htype => exact (closed_header [_, _, _] h.closed).append htype.closed

lemma MemberBlock.Spelling.closed {member : MemberBlock} (h : member.Spelling terminals) :
    Closed terminals := by
  cases h with
  | method _ _ huses hparts =>
    exact (closed_header _ huses.closed).append (closed_sequence (fun _ _ h => h.closed) hparts)
  | field huses htype => exact (closed_header [_, _] huses.closed).append htype.closed

lemma AnnotationBlock.Spelling.closed {block : AnnotationBlock} (h : block.Spelling terminals) :
    Closed terminals := by
  cases h with
  | mk huses helements =>
    exact (closed_header [_, _, _] huses.closed).append
      (closed_sequence (fun _ _ h => h.closed) helements)

lemma ClassBlock.Spelling.closed {block : ClassBlock} (h : block.Spelling terminals) :
    Closed terminals := by
  cases h with
  | mk huses hmembers =>
    exact (closed_header [_, _] huses.closed).append
      (closed_sequence (fun _ _ h => h.closed) hmembers)

lemma PackageItem.Spelling.closed {item : PackageItem} (h : item.Spelling terminals) :
    Closed terminals := by
  cases h with
  | ofClass h => exact h.closed
  | ofDeclaration h => exact h.closed

lemma PackageBlock.Spelling.closed {block : PackageBlock} (h : block.Spelling terminals) :
    Closed terminals := by
  cases h with
  | unnamed h => exact closed_header [_] (closed_sequence (fun _ _ h => h.closed) h)
  | named q h => exact closed_header _ (closed_sequence (fun _ _ h => h.closed) h)

/-! ### First terminals -/

/-- The terminals begin with two that open a block. -/
def Opens (terminals : List Terminal) : Prop :=
  ∃ kind second others, terminals = .word kind :: second :: others ∧ kind.opensBlock = true ∧
    second.avoids [.equals] = true

lemma MemberBlock.Spelling.opens {member : MemberBlock} (h : member.Spelling terminals) :
    Opens terminals := by
  cases h with
  | method hname => exact ⟨.methodWord, _, _, rfl, rfl, by cases hname <;> rfl⟩
  | field => exact ⟨.fieldWord, _, _, rfl, rfl, rfl⟩

lemma PackageItem.Spelling.opens {item : PackageItem} (h : item.Spelling terminals) :
    Opens terminals := by
  cases h with
  | ofClass h =>
    cases h with
    | mk => exact ⟨.classWord, _, _, rfl, rfl, rfl⟩
  | ofDeclaration h =>
    cases h with
    | mk => exact ⟨.annotationWord, _, _, rfl, rfl, rfl⟩

lemma PackageBlock.Spelling.opens {block : PackageBlock} (h : block.Spelling terminals) :
    Opens terminals := by
  cases h with
  | unnamed => exact ⟨.packageWord, _, _, rfl, rfl, rfl⟩
  | named q => exact ⟨.packageWord, _, _, rfl, rfl, rfl⟩

/-! ### Cursors between blocks -/

lemma Terminal.Fits.bindsName_eq_false {terminal : Terminal} {token : Token}
    (h : terminal.Fits token) (ht : terminal.bindsName = false) : token.kind.bindsName = false := by
  obtain ⟨kind, lexeme, glued⟩ := terminal
  cases kind with
  | some kind =>
    obtain rfl : token.kind = kind := h.2
    exact ht
  | none =>
    have hkind : ∀ kind : TokenKind, kind.isName = true → kind.bindsName = false := by
      intro kind
      cases kind <;> decide
    have hname : (Terminal.name lexeme).Fits token := h
    exact hkind _ hname.isName

namespace Cursor

variable {cursor last : Cursor}

/-- A block keyword that comes next would not be part of a name. -/
def Ready (cursor : Cursor) : Prop :=
  ∀ token ∈ cursor.previous, token.kind.bindsName = false

lemma Spells.ready (h : Spells terminals cursor last) (hclosed : Closed terminals)
    (hcursor : terminals = [] → cursor.Ready) : last.Ready := by
  induction h with
  | nil => exact hcursor rfl
  | @cons terminal terminals previous token rest last hfits _ h ih =>
    refine ih (fun terminal hlast => ?_) fun hnil => ?_
    · cases terminals with
      | nil => contradiction
      | cons => exact hclosed terminal (by simpa [List.getLast?_cons] using hlast)
    · subst hnil
      rintro _ ⟨⟩
      exact hfits.bindsName_eq_false (hclosed terminal rfl)

lemma withinBlock_of_opens (hready : cursor.Ready) (ho : Opens terminals)
    (h : Spells (terminals ++ others) cursor last) : Reader.withinBlock cursor = false := by
  obtain ⟨kind, second, more, rfl, hkind, hsecond⟩ := ho
  have hprevious : (cursor.previous.map (·.kind)).any TokenKind.bindsName = false := by
    rw [Option.any_map, Option.any_eq_false]
    exact fun token htoken => Bool.not_eq_true _ ▸ hready token htoken
  have hstarts : cursor.startsBlock = true := by
    rw [startsBlock_eq_kinds, h.kind?, hprevious, bne, h.secondKind?_ne hsecond]
    simpa using hkind
  rw [Reader.withinBlock, hstarts, Bool.not_true, Bool.and_false]

/-- Before a sequence of blocks, and after which there are no more, there is no block to go on. -/
lemma withinBlock_of_sequence {α : Type} {spelling : α → List Terminal → Prop} {items : List α}
    (hopens : ∀ a terminals, spelling a terminals → Opens terminals)
    (h : Sequence [] spelling items terminals) (hspells : Spells terminals cursor last)
    (hready : cursor.Ready) (hlast : Reader.withinBlock last = false) :
    Reader.withinBlock cursor = false := by
  cases h with
  | nil =>
    cases hspells
    exact hlast
  | cons ha h => exact withinBlock_of_opens hready (hopens _ _ ha) hspells

end Cursor

end ExternalAnnotations
