import ExternalAnnotations.Proofs.Index.Carried
import ExternalAnnotations.Proofs.Index.Recovery
import ExternalAnnotations.Proofs.Index.Soundness

/-!
# Blocks in a longer text

Sections and blocks of a text contribute the same, moved, where the text stands in a longer one.
Behind the last of its blocks the parser stands on what follows, and begins anew.
-/

namespace ExternalAnnotations

open Cursor (carried Detached)
open ReaderRelation

variable {shift : Shift} {tail : List Token} {cursor : Cursor}

lemma Subject.moved_entry (subject : Subject) (placement : Placement) (place : Location)
    (annotations : List AnnotationUse) :
    moved shift (subject.entry placement place annotations) =
      subject.entry placement (moved shift place) (moved shift annotations) := by
  cases annotations <;> rfl

/-! ### Sections -/

namespace Section

def carried (shift : Shift) (tail : List Token) (read : Section) : Section :=
  ⟨moved shift read.complete, moved shift read.held, moved shift read.failure,
    read.cursor.carried shift tail⟩

/-- Unless a section fails before a tail, the other one is the same in the longer text. -/
def Carries (shift : Shift) (tail : List Token) (read read' : Section) : Prop :=
  tail = [] ∨ read.failure = none → read' = read.carried shift tail ∧ read.cursor.Detached tail

lemma Carries.mk {read read' : Section} (h : read.cursor.Detached tail)
    (heq : read' = read.carried shift tail) : Carries shift tail read read' := fun _ => ⟨heq, h⟩

lemma Carries.cut {read read' : Section} {error : SyntaxError} (htail : tail ≠ [])
    (herror : read.failure = some error) : Carries shift tail read read' := by
  rintro (h | h)
  · exact absurd h htail
  · rw [herror] at h
    contradiction

lemma Carries.after {read read' : Section} (h : Carries shift tail read read')
    (entries : List Entry) :
    Carries shift tail (read.after entries) (read'.after (moved shift entries)) := by
  intro hfine
  obtain ⟨rfl, hdetached⟩ := h hfine
  refine ⟨?_, hdetached⟩
  exact congrArg (Section.mk · _ _ _) (moved_append _ _).symm

section

variable (ht : OpensPackage tail) (h : cursor.Detached tail)
include ht h

lemma type_carries (subject : Subject) (placement : Placement) (place : Location)
    (held : List Entry) : Carries shift tail (type subject placement place held cursor)
      (type subject placement (moved shift place) (moved shift held)
        (cursor.carried shift tail)) := by
  unfold type
  rw [h.alike.isAt_eq ht (by decide)]
  split
  · have hopened : Carried shift tail (opening Reader.typeHeader cursor)
      (opening Reader.typeHeader (cursor.carried shift tail)) :=
      (carrying shift ht).typeHeader.opening_carried (fun _ _ hsame => hsame.symm) h
    generalize opening Reader.typeHeader cursor = result,
      opening Reader.typeHeader (cursor.carried shift tail) = result' at hopened
    cases hopened with
    | ok opened hdetached =>
      refine .mk hdetached ?_
      rw [carried, subject.moved_entry]
      rfl
    | error error htail hdetached => exact .mk hdetached rfl
    | cut error next htail => exact .cut htail rfl
  · exact .mk h rfl

lemma result_carries (subject : Subject) : Carries shift tail (result subject cursor)
    (result subject (cursor.carried shift tail)) := by
  unfold result
  have hopened : Carried shift tail (opening Reader.returnHeader cursor)
      (opening Reader.returnHeader (cursor.carried shift tail)) :=
    (carrying shift ht).returnHeader.opening_carried (fun _ _ hplace => hplace) h
  generalize opening Reader.returnHeader cursor = result,
    opening Reader.returnHeader (cursor.carried shift tail) = result' at hopened
  cases hopened with
  | ok opened hdetached =>
    refine .mk hdetached ?_
    rw [carried, subject.moved_entry]
    rfl
  | error error htail hdetached => exact .mk hdetached rfl
  | cut error next htail => exact .cut htail rfl

lemma parameter_carries (subject : Subject) : Carries shift tail (parameter subject cursor)
    (parameter subject (cursor.carried shift tail)) := by
  unfold parameter
  have hopened : Carried shift tail (opening Reader.parameterHeader cursor)
      (opening Reader.parameterHeader (cursor.carried shift tail)) :=
    (carrying shift ht).parameterHeader.opening_carried (fun _ _ => moved_of_headed fun _ => rfl) h
  generalize opening Reader.parameterHeader cursor = result,
    opening Reader.parameterHeader (cursor.carried shift tail) = result' at hopened
  cases hopened with
  | @ok opened next hdetached =>
    obtain ⟨⟨position, place⟩, annotations⟩ := opened
    have htype : Carries shift tail _ _ := type_carries ht hdetached subject
      (.parameterType position) place (subject.entry (.parameter position) place annotations)
    rwa [subject.moved_entry] at htype
  | error error htail hdetached => exact .mk hdetached rfl
  | cut error next htail => exact .cut htail rfl

omit ht in
lemma unexpected_carries (expected : String) (complete held : List Entry) :
    Carries shift tail ⟨complete, held, some (cursor.unexpected expected), cursor⟩
      ⟨moved shift complete, moved shift held,
        some ((cursor.carried shift tail).unexpected expected), cursor.carried shift tail⟩ := by
  rintro (htail | hnone)
  · subst htail
    rw [Cursor.unexpected_carried h.begun]
    exact ⟨rfl, h⟩
  · contradiction

lemma next_carries (subject : Subject) : Carries shift tail (next subject cursor)
    (next subject (cursor.carried shift tail)) := by
  unfold next
  rw [h.alike.isAt_eq ht (by decide), h.alike.isAt_eq ht (by decide)]
  split
  · exact result_carries ht h subject
  · split
    · exact parameter_carries ht h subject
    · exact unexpected_carries h _ [] []

lemma begins_carried : begins (cursor.carried shift tail) = begins cursor := by
  rw [begins, begins, h.alike.isAt_eq ht (by decide), h.alike.isAt_eq ht (by decide)]

lemma following_carries (subject : Subject) (held : List Entry) :
    Carries shift tail (following subject held cursor)
      (following subject (moved shift held) (cursor.carried shift tail)) := by
  induction hlength : cursor.rest.length using Nat.strong_induction_on generalizing cursor held with
  | _ length ih =>
  subst hlength
  rw [following, following, h.alike.withinBlock_eq ht, begins_carried ht h]
  cases hwithin : Reader.withinBlock cursor with
  | false => exact .mk h rfl
  | true =>
    have hnext : Carries shift tail _ _ := next_carries ht h subject
    simp only [if_true]
    generalize next subject cursor = read,
      next subject (cursor.carried shift tail) = read' at hnext
    by_cases hfine : tail = [] ∨ read.failure = none
    · obtain ⟨rfl, hdetached⟩ := hnext hfine
      have hgoes : ((read.carried shift tail).failure.isNone &&
          decide ((read.carried shift tail).cursor.rest.length <
            (cursor.carried shift tail).rest.length)) =
          (read.failure.isNone && decide (read.cursor.rest.length < cursor.rest.length)) := by
        have hshorter : (read.cursor.carried shift tail).rest.length <
            (cursor.carried shift tail).rest.length ↔
              read.cursor.rest.length < cursor.rest.length := by
          rw [Cursor.length_carried, Cursor.length_carried]
          omega
        rw [carried, decide_eq_decide.2 hshorter]
        cases read.failure <;> rfl
      rw [hgoes]
      split
      · rename_i hmore
        have hlt := of_decide_eq_true (Bool.and_eq_true_iff.1 hmore).2
        have hrest := (ih _ hlt hdetached read.held rfl).after (held ++ read.complete)
        rwa [moved_append] at hrest
      · split
        · exact hnext.after held
        · exact hnext
    · -- A section that fails before a tail ends the block.
      rw [not_or] at hfine
      obtain ⟨error, herror⟩ := Option.ne_none_iff_exists'.1 hfine.2
      simp only [herror, Option.isNone_some, Bool.false_and, Bool.false_eq_true, if_false]
      split
      · exact .cut hfine.1 herror
      · exact .cut hfine.1 herror

lemma method_carries (owner package : String) : Carries shift tail (method owner package cursor)
    (method owner package (cursor.carried shift tail)) := by
  unfold method
  have hopened : Carried shift tail (opening Reader.methodHeader cursor)
      (opening Reader.methodHeader (cursor.carried shift tail)) :=
    (carrying shift ht).methodHeader.opening_carried (fun _ _ => moved_of_headed fun _ => rfl) h
  generalize opening Reader.methodHeader cursor = result,
    opening Reader.methodHeader (cursor.carried shift tail) = result' at hopened
  cases hopened with
  | @ok opened next hdetached =>
    obtain ⟨⟨member, place⟩, annotations⟩ := opened
    have hsections : Carries shift tail _ _ := following_carries ht hdetached
      ⟨owner, package, some member⟩
      (Subject.entry ⟨owner, package, some member⟩ .declaration place annotations)
    rwa [Subject.moved_entry] at hsections
  | error error htail hdetached => exact .mk hdetached rfl
  | cut error next htail => exact .cut htail rfl

lemma field_carries (owner package : String) : Carries shift tail (field owner package cursor)
    (field owner package (cursor.carried shift tail)) := by
  unfold field
  have hopened : Carried shift tail (opening Reader.fieldHeader cursor)
      (opening Reader.fieldHeader (cursor.carried shift tail)) :=
    (carrying shift ht).fieldHeader.opening_carried (fun _ _ => moved_of_headed fun _ => rfl) h
  generalize opening Reader.fieldHeader cursor = result,
    opening Reader.fieldHeader (cursor.carried shift tail) = result' at hopened
  cases hopened with
  | @ok opened next hdetached =>
    obtain ⟨⟨member, place⟩, annotations⟩ := opened
    have htype : Carries shift tail _ _ := type_carries ht hdetached ⟨owner, package, some member⟩
      .fieldType place (Subject.entry ⟨owner, package, some member⟩ .declaration place annotations)
    have hmember : moved shift member = member := rfl
    rw [Subject.moved_entry] at htype
    change Carries shift tail (if _ then _ else _) (if _ then _ else _)
    simp only [hmember]
    generalize type _ _ place _ next = read,
      type _ _ (moved shift place) _ (next.carried shift tail) = read' at htype ⊢
    by_cases hfine : tail = [] ∨ read.failure = none
    · obtain ⟨rfl, hdetached⟩ := htype hfine
      have hends : ((read.carried shift tail).failure.isNone &&
          Reader.withinBlock (read.carried shift tail).cursor) =
          (read.failure.isNone && Reader.withinBlock read.cursor) := by
        rw [carried, hdetached.alike.withinBlock_eq ht]
        cases read.failure <;> rfl
      rw [hends]
      split
      · exact unexpected_carries hdetached _ read.complete read.held
      · exact .mk hdetached rfl
    · rw [not_or] at hfine
      obtain ⟨error, herror⟩ := Option.ne_none_iff_exists'.1 hfine.2
      rw [if_neg (by simp [herror])]
      exact .cut hfine.1 herror
  | error error htail hdetached => exact .mk hdetached rfl
  | cut error next htail => exact .cut htail rfl

end

end Section

/-! ### Blocks -/

namespace Block

def carried (shift : Shift) (tail : List Token) (block : Block) : Block where
  parsed := moved shift block.parsed
  failure := moved shift block.failure
  cursor := block.cursor.carried shift tail
  scopes := block.scopes

/-- Unless a block fails before a tail, the other one is the same in the longer text. -/
def Carries (shift : Shift) (tail : List Token) (block block' : Block) : Prop :=
  tail = [] ∨ block.failure = none →
    block' = block.carried shift tail ∧ block.cursor.Detached tail

lemma Carries.mk {block block' : Block} (h : block.cursor.Detached tail)
    (heq : block' = block.carried shift tail) : Carries shift tail block block' :=
  fun _ => ⟨heq, h⟩

lemma Carries.cut {block block' : Block} {error : SyntaxError} (htail : tail ≠ [])
    (herror : block.failure = some error) : Carries shift tail block block' := by
  rintro (h | h)
  · exact absurd h htail
  · rw [herror] at h
    contradiction

section

variable (ht : OpensPackage tail) (h : cursor.Detached tail)
include ht h

lemma package_carries (hn : cursor.rest ≠ []) :
    Carries shift tail (package cursor) (package (cursor.carried shift tail)) := by
  unfold package
  have hread : Carried shift tail (Reader.packageHeader cursor) _ :=
    ((carrying shift ht).packageHeader ⟨h, rfl⟩ (.inr hn)).carried fun _ _ hsame => hsame.symm
  generalize Reader.packageHeader cursor = result,
    Reader.packageHeader (cursor.carried shift tail) = result' at hread
  cases hread with
  | ok name hdetached => exact .mk hdetached rfl
  | error error htail hdetached => exact .mk hdetached rfl
  | cut error next htail => exact .cut htail rfl

lemma ofClass_carries (scopes : Scopes) :
    Carries shift tail (ofClass scopes cursor) (ofClass scopes (cursor.carried shift tail)) := by
  unfold ofClass
  have hheader : Carried shift tail (Reader.classHeader cursor) _ :=
    ((carrying shift ht).classHeader ⟨h, rfl⟩).carried fun _ _ => moved_of_headed fun _ => rfl
  generalize Reader.classHeader cursor = result,
    Reader.classHeader (cursor.carried shift tail) = result' at hheader
  cases hheader with
  | error error htail hdetached => exact .mk hdetached rfl
  | cut error next htail => exact .cut htail rfl
  | @ok opened next hdetached =>
    obtain ⟨name, place⟩ := opened
    have hread : Carried shift tail (Reader.annotations next) _ :=
      ((carrying shift ht).annotations ⟨hdetached, rfl⟩).carried fun _ _ => moved_of_uses
    dsimp only
    generalize Reader.annotations next = result,
      Reader.annotations (next.carried shift tail) = result' at hread
    cases hread with
    | ok annotations hdetached =>
      refine .mk hdetached ?_
      exact congrArg (fun entries => Block.mk (.ofEntries entries) none _ _)
        (Subject.moved_entry _ _ _ _).symm
    | error error htail hdetached => exact .mk hdetached rfl
    | cut error next htail => exact .cut htail rfl

lemma declaration_carries (scopes : Scopes) : Carries shift tail (declaration scopes cursor)
    (declaration scopes (cursor.carried shift tail)) := by
  unfold declaration
  have hread : Carried shift tail (Reader.declaration scopes.packageName cursor) _ :=
    ((carrying shift ht).declaration scopes.packageName ⟨h, rfl⟩).carried
      fun _ _ => moved_of_declared
  generalize Reader.declaration scopes.packageName cursor = result,
    Reader.declaration scopes.packageName (cursor.carried shift tail) = result' at hread
  cases hread with
  | ok declaration hdetached => exact .mk hdetached rfl
  | error error htail hdetached => exact .mk hdetached rfl
  | cut error next htail => exact .cut htail rfl

omit ht h in
lemma ofSections_carries (scopes : Scopes) {read read' : Section}
    (hread : Section.Carries shift tail read read') :
    Carries shift tail (ofSections scopes read) (ofSections scopes read') := by
  intro hfine
  obtain ⟨rfl, hdetached⟩ := hread hfine
  refine ⟨?_, hdetached⟩
  have hkept : (read.carried shift tail).kept = moved shift read.kept := by
    unfold Section.kept Section.carried
    cases read.failure with
    | none => exact (moved_append _ _).symm
    | some error => rfl
  rw [ofSections, hkept]
  rfl

omit ht in
lemma misplaced_carries (expected : String) (scopes : Scopes) :
    Carries shift tail (misplaced expected scopes cursor)
      (misplaced expected scopes (cursor.carried shift tail)) := by
  rintro (htail | hnone)
  · subst htail
    rw [misplaced, misplaced, Cursor.unexpected_carried h.begun]
    exact ⟨rfl, h⟩
  · contradiction

end

end Block

lemma Cursor.Detached.skipToBlock (h : cursor.Detached tail) (limit : Nat) :
    (cursor.skipToBlock limit).Detached tail := by
  induction limit generalizing cursor with
  | zero => exact h
  | succ limit ih =>
    rw [Cursor.skipToBlock_succ]
    split
    · exact ih h.forward
    · exact h

lemma Cursor.skipToBlock_carried (h : cursor.Detached []) (limit : Nat) :
    (cursor.carried shift []).skipToBlock limit = (cursor.skipToBlock limit).carried shift [] := by
  induction limit generalizing cursor with
  | zero => rfl
  | succ limit ih =>
    rw [Cursor.skipToBlock_succ, Cursor.skipToBlock_succ,
      h.alike.withinBlock_eq opensPackage_nil]
    split
    · rename_i hwithin
      rw [Cursor.forward_carried (Cursor.ne_nil_of_withinBlock hwithin)]
      exact ih h.forward
    · rfl

namespace Block

lemma skipped_carries (h : cursor.Detached []) (hn : cursor.rest ≠ []) (scopes : Scopes) :
    Carries shift [] (skipped scopes cursor) (skipped scopes (cursor.carried shift [])) := by
  refine .mk (h.forward.skipToBlock _) ?_
  rw [skipped, skipped, Cursor.forward_carried hn, Cursor.skipToBlock_carried h.forward,
    Cursor.length_carried]
  rfl

variable {scopes : Scopes}

lemma member_carries {read : String → String → Cursor → Section}
    (hread : ∀ owner package, Section.Carries shift tail (read owner package cursor)
      (read owner package (cursor.carried shift tail)))
    (h : cursor.Detached tail) (hn : cursor.rest ≠ []) (hscopes : tail ≠ [] → scopes.Sound) :
    Carries shift tail (member read scopes cursor)
      (member read scopes (cursor.carried shift tail)) := by
  unfold member
  split
  · exact ofSections_carries scopes (hread _ _)
  · rename_i howner
    by_cases htail : tail = []
    · subst htail
      exact skipped_carries h hn scopes
    · exact absurd howner (hscopes htail).owner
  · exact misplaced_carries h _ scopes

lemma read_carries (ht : OpensPackage tail) (h : cursor.Detached tail) (hn : cursor.rest ≠ [])
    (hscopes : tail ≠ [] → scopes.Sound) : Carries shift tail (read scopes cursor)
      (read scopes (cursor.carried shift tail)) := by
  have hskipped (hmalformed : scopes.package = .malformed) : Carries shift tail
      (skipped scopes cursor) (skipped scopes (cursor.carried shift tail)) := by
    by_cases htail : tail = []
    · subst htail
      exact skipped_carries h hn scopes
    · exact absurd hmalformed (hscopes htail).package
  unfold read
  rw [h.alike.kind?_eq hn]
  split
  · exact package_carries ht h hn
  · split
    · exact hskipped ‹_›
    · exact ofClass_carries ht h scopes
  · split
    · exact hskipped ‹_›
    · exact declaration_carries ht h scopes
  · exact member_carries (fun _ _ => Section.method_carries ht h _ _) h hn hscopes
  · exact member_carries (fun _ _ => Section.field_carries ht h _ _) h hn hscopes
  · exact misplaced_carries h _ scopes

lemma resume_carries {block : Block} (hn : cursor.rest ≠ [])
    (hdetached : block.cursor.Detached tail) (hfine : tail = [] ∨ block.failure = none) :
    (block.carried shift tail).resume (cursor.carried shift tail) =
        (block.resume cursor).carried shift tail ∧ (block.resume cursor).Detached tail := by
  unfold resume
  have hfailure : (block.carried shift tail).failure.isNone = block.failure.isNone := by
    rw [Block.carried]
    cases block.failure <;> rfl
  rw [hfailure]
  cases hnone : block.failure with
  | none => exact ⟨rfl, hdetached⟩
  | some error =>
    obtain rfl : tail = [] := by
      rw [hnone] at hfine
      exact hfine.resolve_right nofun
    have hlength : (block.cursor.carried shift []).rest.length =
          (cursor.carried shift []).rest.length ↔
        block.cursor.rest.length = cursor.rest.length := by
      rw [Cursor.length_carried, Cursor.length_carried]
      omega
    -- Where the block took nothing, the parser passes over the first token.
    have hstart : (if (block.cursor.carried shift []).rest.length =
            (cursor.carried shift []).rest.length then (block.cursor.carried shift []).forward
          else block.cursor.carried shift []) =
        (if block.cursor.rest.length = cursor.rest.length then block.cursor.forward
          else block.cursor).carried shift [] ∧
        (if block.cursor.rest.length = cursor.rest.length then block.cursor.forward
          else block.cursor).Detached [] := by
      rw [if_congr hlength rfl rfl]
      split
      · rename_i hstill
        have hne : block.cursor.rest ≠ [] := by
          rw [← List.length_pos_iff, hstill, List.length_pos_iff]
          exact hn
        exact ⟨Cursor.forward_carried hne, hdetached.forward⟩
      · exact ⟨rfl, hdetached⟩
    simp only [Option.isNone_some, Bool.false_eq_true, if_false]
    change Cursor.skipToBlock _ (if (block.cursor.carried shift []).rest.length =
      (cursor.carried shift []).rest.length then (block.cursor.carried shift []).forward else
        block.cursor.carried shift []) = _ ∧ _
    rw [hstart.1]
    exact ⟨Cursor.skipToBlock_carried hstart.2 _, hstart.2.skipToBlock _⟩

end Block

end ExternalAnnotations
