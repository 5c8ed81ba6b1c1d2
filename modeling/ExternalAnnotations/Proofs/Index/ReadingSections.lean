import ExternalAnnotations.Proofs.Index.AlikeBlocks
import ExternalAnnotations.Proofs.Index.ReadingBlocks

/-!
# Reading sections and blocks

Every spelling of a block is read without an error up to where the next block begins, and the
block contributes what it says.
-/

namespace ExternalAnnotations

variable {terminals : List Terminal} {cursor last : Cursor}

open Reader.Reads (useKinds)

/-! ### Sections -/

/-- Sections that end at a place without an error and contribute some entries. -/
structure Section.Gives (read : Section) (entries : List Entry) (last : Cursor) : Prop where
  failure : read.failure = none
  cursor : read.cursor = last
  entries : unplaced (read.complete ++ read.held) = unplaced entries

namespace Section

lemma reads_opening {α : Type} {header : Reader α} {P : α → Prop} {others : List Terminal}
    {uses : List AnnotationUse} (h : Reader.Reads header terminals P Cursor.Anywhere)
    (huses : UsesSpelling uses others) :
    Reader.Reads (opening header) (terminals ++ others)
      (fun opened => P opened.1 ∧ unplaced opened.2 = unplaced uses) (Cursor.Avoids useKinds) :=
  h.andThen fun _ ha => (Reader.Reads.annotations huses).map fun _ hu => ⟨ha, hu⟩

lemma type_gives {typeUses : List AnnotationUse} (h : TypeSpelling typeUses terminals)
    (hspells : Cursor.Spells terminals cursor last) (hlast : last.Avoids (.typeWord :: useKinds))
    (subject : Subject) (placement : Placement) (place : Location) (held : List Entry) :
    (type subject placement place held cursor).Gives
      (held ++ subject.entry placement .start typeUses) last := by
  unfold type
  cases h with
  | absent =>
    cases hspells
    rw [hlast .typeWord (by simp), if_neg Bool.false_ne_true]
    exact ⟨rfl, rfl, congrArg unplaced (List.append_nil held).symm⟩
  | present h =>
    obtain ⟨⟨_, uses⟩, hread, -, huses⟩ :=
      reads_opening Reader.Reads.typeHeader h cursor last hspells
      (hlast.mono fun _ => List.mem_cons_of_mem _)
    rw [hspells.isAt, if_pos rfl, hread]
    refine ⟨rfl, rfl, ?_⟩
    rw [unplaced_append, unplaced_append, subject.unplaced_entry placement huses]

lemma avoids_of_type {typeUses : List AnnotationUse} (h : TypeSpelling typeUses terminals)
    (hspells : Cursor.Spells terminals cursor last) (hlast : last.Avoids useKinds) :
    cursor.Avoids useKinds := by
  cases h with
  | absent =>
    cases hspells
    exact hlast
  | present => exact hspells.avoids rfl

lemma next_gives {part : MethodPart} (h : part.Spelling terminals)
    (hspells : Cursor.Spells terminals cursor last) (hlast : last.Avoids (.typeWord :: useKinds))
    (subject : Subject) : (next subject cursor).Gives (part.entries subject) last := by
  have huse : last.Avoids useKinds := hlast.mono fun _ => List.mem_cons_of_mem _
  unfold next
  cases h with
  | result h =>
    obtain ⟨⟨place, uses⟩, hread, -, huses⟩ :=
      reads_opening Reader.Reads.returnHeader h cursor last hspells huse
    rw [hspells.isAt, if_pos rfl, result, hread]
    exact ⟨rfl, rfl, subject.unplaced_entry .returnType huses⟩
  | parameter hdigits hlimit h htype =>
    rw [hspells.isAt_other (by decide), hspells.isAt, if_neg Bool.false_ne_true, if_pos rfl,
      parameter]
    obtain ⟨middle, hfirst, hsecond⟩ := hspells.of_append
    obtain ⟨⟨⟨position, place⟩, uses⟩, hread, hposition, huses⟩ :=
      reads_opening (Reader.Reads.parameterHeader hdigits hlimit) h cursor middle hfirst
        (avoids_of_type htype hsecond huse)
    obtain ⟨hfailure, hcursor, hentries⟩ := type_gives htype hsecond hlast subject
      (.parameterType position) place (subject.entry (.parameter position) place uses)
    rw [hread]
    refine ⟨hfailure, hcursor, hentries.trans ?_⟩
    obtain rfl : position = _ := hposition
    rw [MethodPart.entries, unplaced_append, unplaced_append, subject.unplaced_entry _ huses]

lemma starts_part {part : MethodPart} {others : List Terminal} (h : part.Spelling terminals)
    (hspells : Cursor.Spells (terminals ++ others) cursor last) :
    Reader.withinBlock cursor = true ∧ cursor.Avoids (.typeWord :: useKinds) := by
  cases h <;> exact ⟨Cursor.withinBlock_of_kind? hspells.kind? rfl, hspells.avoids rfl⟩

lemma avoids_of_parts {parts : List MethodPart}
    (h : Sequence [] MethodPart.Spelling parts terminals)
    (hspells : Cursor.Spells terminals cursor last) (hlast : Reader.withinBlock last = false) :
    cursor.Avoids (.typeWord :: useKinds) := by
  cases h with
  | nil =>
    cases hspells
    exact Cursor.avoids_of_withinBlock hlast (by decide)
  | cons hpart h => exact (starts_part hpart hspells).2

/-- The sections of a method up to the end of the block. -/
lemma following_gives {parts : List MethodPart}
    (h : Sequence [] MethodPart.Spelling parts terminals)
    (hspells : Cursor.Spells terminals cursor last) (hlast : Reader.withinBlock last = false)
    (subject : Subject) (held : List Entry) :
    (following subject held cursor).Gives (held ++ parts.flatMap (·.entries subject)) last := by
  induction h generalizing cursor held with
  | nil =>
    cases hspells
    rw [following, hlast, if_neg Bool.false_ne_true]
    exact ⟨rfl, rfl, congrArg unplaced (List.append_nil held).symm⟩
  | @cons part parts terminals others hpart h ih =>
    obtain ⟨middle, hfirst, hsecond⟩ := hspells.of_append
    have hmiddle := avoids_of_parts h hsecond hlast
    obtain ⟨hfailure, hcursor, hentries⟩ := next_gives hpart hfirst hmiddle subject
    have hlt : middle.rest.length < cursor.rest.length := by
      cases hpart <;> exact hfirst.length_lt
    rw [following, (starts_part hpart hspells).1, if_pos rfl]
    generalize next subject cursor = read at hfailure hcursor hentries
    obtain ⟨complete, held', failure, cursor'⟩ := read
    obtain rfl : failure = none := hfailure
    obtain rfl : cursor' = middle := hcursor
    -- What the section holds back is completed by the sections after it.
    obtain ⟨hfailure', hcursor', hentries'⟩ := ih hsecond held'
    simp only [Option.isNone_none, Bool.true_and, hlt, decide_true, if_true]
    refine ⟨hfailure', hcursor', ?_⟩
    simp only [after, unplaced_append, List.flatMap_cons, List.append_assoc] at hentries hentries' ⊢
    rw [hentries', ← hentries, List.append_assoc]

lemma method_gives {name : String} {descriptor : MethodDescriptor} {uses : List AnnotationUse}
    {parts : List MethodPart}
    (h : (MemberBlock.method name descriptor uses parts).Spelling terminals)
    (hspells : Cursor.Spells terminals cursor last) (hlast : Reader.withinBlock last = false)
    (owner package : String) :
    (method owner package cursor).Gives
      ((MemberBlock.method name descriptor uses parts).entries owner package) last := by
  cases h with
  | method hname hdescriptor huses hparts =>
    obtain ⟨middle, hfirst, hsecond⟩ := hspells.of_append
    have hmiddle := (avoids_of_parts hparts hsecond hlast).mono fun _ => List.mem_cons_of_mem _
    obtain ⟨⟨⟨member, place⟩, uses'⟩, hread, hmember, hu⟩ :=
      reads_opening (Reader.Reads.methodHeader hname hdescriptor) huses cursor middle hfirst hmiddle
    obtain rfl : member = _ := hmember
    rw [method, hread]
    obtain ⟨hfailure, hcursor, hentries⟩ := following_gives hparts hsecond hlast
      ⟨owner, package, some (.method name descriptor)⟩
      (Subject.entry ⟨owner, package, some (.method name descriptor)⟩ .declaration place uses')
    refine ⟨hfailure, hcursor, hentries.trans ?_⟩
    rw [MemberBlock.entries, unplaced_append, unplaced_append, Subject.unplaced_entry _ _ hu]

lemma field_gives {name : String} {uses typeUses : List AnnotationUse}
    (h : (MemberBlock.field name uses typeUses).Spelling terminals)
    (hspells : Cursor.Spells terminals cursor last) (hlast : Reader.withinBlock last = false)
    (owner package : String) :
    (field owner package cursor).Gives
      ((MemberBlock.field name uses typeUses).entries owner package) last := by
  have hkinds : last.Avoids (.typeWord :: useKinds) :=
    Cursor.avoids_of_withinBlock hlast (by decide)
  cases h with
  | field huses htype =>
    obtain ⟨middle, hfirst, hsecond⟩ := hspells.of_append
    obtain ⟨⟨⟨member, place⟩, uses'⟩, hread, hmember, hu⟩ :=
      reads_opening (Reader.Reads.fieldHeader name) huses cursor middle hfirst
        (avoids_of_type htype hsecond (hkinds.mono fun _ => List.mem_cons_of_mem _))
    obtain rfl : member = _ := hmember
    rw [field, hread]
    obtain ⟨hfailure, hcursor, hentries⟩ := type_gives htype hsecond hkinds
      ⟨owner, package, some (.field name)⟩ .fieldType place
      (Subject.entry ⟨owner, package, some (.field name)⟩ .declaration place uses')
    dsimp only
    rw [hcursor, hlast, Bool.and_false, if_neg Bool.false_ne_true]
    refine ⟨hfailure, hcursor, hentries.trans ?_⟩
    rw [MemberBlock.entries, unplaced_append, unplaced_append, Subject.unplaced_entry _ _ hu]

end Section

end ExternalAnnotations
