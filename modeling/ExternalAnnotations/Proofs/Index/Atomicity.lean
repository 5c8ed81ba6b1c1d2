import ExternalAnnotations.Proofs.Index.ReadingBlocks
import ExternalAnnotations.Proofs.Index.Silence
import ExternalAnnotations.Proofs.Index.Soundness
import ExternalAnnotations.Proofs.Index.WellFormed

/-!
# What a block that fails leaves

A block is read part by part: the annotations on what is declared, then those in its sections. What
was read for a part counts as soon as the keyword of a further part has been read, whatever comes
after it. If the block fails, the part in which it does is lost, and so is the one before the token
that is out of place; if it does not, nothing is.
-/

namespace ExternalAnnotations

open Section (opening)

/-! ### The parts of a block -/

/-- The annotations that stand in one part of a block. -/
structure Part where
  placement : Placement
  place : Location
  annotations : List AnnotationUse

namespace Reader

/-- Reads the part for what a method returns. -/
def resultPart : Reader Part := do
  let (place, annotations) ← opening returnHeader
  return ⟨.returnType, place, annotations⟩

/-- Reads the part for a parameter. -/
def parameterPart : Reader Part := do
  let ((position, place), annotations) ← opening parameterHeader
  return ⟨.parameter position, place, annotations⟩

/-- Reads the part for the type of what another part is for. It counts as standing there. -/
def typePart (placement : Placement) (place : Location) : Reader Part := do
  let (_, annotations) ← opening typeHeader
  return ⟨placement, place, annotations⟩

end Reader

namespace Subject

/-- The entries that come of a part. -/
def entriesOf (subject : Subject) (part : Part) : List Entry :=
  subject.entry part.placement part.place part.annotations

/-- How the next part is read, if the keyword of one that can follow comes after a part. -/
def further? (subject : Subject) (part : Part) (cursor : Cursor) : Option (Reader Part) :=
  match subject.member with
  | none => none
  | some (.field _) =>
    if part.placement = .declaration ∧ cursor.isAt .typeWord then
      some (.typePart .fieldType part.place)
    else none
  | some (.method _ _) =>
    if cursor.isAt .returnWord then some .resultPart
    else if cursor.isAt .parameterWord then some .parameterPart
    else
      match part.placement with
      | .parameter position =>
        if cursor.isAt .typeWord then some (.typePart (.parameterType position) part.place)
        else none
      | _ => none

/-- What may come after the last part of a member. -/
def expected (subject : Subject) : String :=
  match subject.member with
  | some (.field _) => "'type', '@' or a new block"
  | _ => "'return', 'parameter', '@' or a new block"

/-- How the reading of a block goes on after a part: the parts that are read to their ends, each
with the place after it, and then the failure, if there is one, and where it leaves off. A class has
no further parts, and what comes after it is not looked at. -/
inductive Runs (subject : Subject) :
    Part → Cursor → List (Part × Cursor) → Option SyntaxError → Cursor → Prop
  | ends {part : Part} {cursor : Cursor} (hnone : subject.further? part cursor = none)
      (hends : subject.member = none ∨ Reader.withinBlock cursor = false) :
      Runs subject part cursor [(part, cursor)] none cursor
  | strays {part : Part} {cursor : Cursor} (hnone : subject.further? part cursor = none)
      (hmember : subject.member ≠ none) (hwithin : Reader.withinBlock cursor = true) :
      Runs subject part cursor [(part, cursor)] (some (cursor.unexpected subject.expected)) cursor
  | breaks {part : Part} {cursor last : Cursor} {reader : Reader Part} {error : SyntaxError}
      (hfurther : subject.further? part cursor = some reader)
      (herror : reader cursor = .error error last) :
      Runs subject part cursor [(part, cursor)] (some error) last
  | goes {part next : Part} {cursor middle last : Cursor} {reader : Reader Part}
      {parts : List (Part × Cursor)} {failure : Option SyntaxError}
      (hfurther : subject.further? part cursor = some reader)
      (hread : reader cursor = .ok next middle)
      (rest : Runs subject next middle parts failure last) :
      Runs subject part cursor ((part, cursor) :: parts) failure last

/-- The entries of those parts after which the keyword of a further one was read. -/
def completed (subject : Subject) (parts : List (Part × Cursor)) : List Entry :=
  (parts.filter fun (part, after) => (subject.further? part after).isSome).flatMap
    fun (part, _) => subject.entriesOf part

/-- The entries of all parts. -/
def allEntries (subject : Subject) (parts : List (Part × Cursor)) : List Entry :=
  parts.flatMap fun (part, _) => subject.entriesOf part

variable {subject : Subject} {part : Part} {cursor : Cursor} {reader : Reader Part}

lemma completed_of_none (h : subject.further? part cursor = none) :
    subject.completed [(part, cursor)] = [] := by
  simp [completed, h]

lemma completed_cons (h : subject.further? part cursor = some reader)
    (parts : List (Part × Cursor)) :
    subject.completed ((part, cursor) :: parts) =
      subject.entriesOf part ++ subject.completed parts := by
  simp [completed, h]

end Subject

/-! ### Sections -/

namespace Section

/-- Sections are those of some parts: what is complete comes of the parts that another one follows,
and what is held of the last one. -/
structure Traces (subject : Subject) (part : Part) (cursor : Cursor) (parts : List (Part × Cursor))
    (read : Section) : Prop where
  runs : subject.Runs part cursor parts read.failure read.cursor
  complete : read.complete = subject.completed parts
  held : read.failure = none → read.complete ++ read.held = subject.allEntries parts

variable {subject : Subject} {part next : Part} {cursor middle last : Cursor}
  {reader : Reader Part} {parts : List (Part × Cursor)} {read : Section}

lemma after_append (entries others : List Entry) (read : Section) :
    (read.after others).after entries = read.after (entries ++ others) :=
  congrArg (fun complete => { read with complete }) (List.append_assoc _ _ _).symm

lemma Traces.ends (hnone : subject.further? part cursor = none)
    (hends : subject.member = none ∨ Reader.withinBlock cursor = false) :
    Traces subject part cursor [(part, cursor)] { held := subject.entriesOf part, cursor } :=
  ⟨.ends hnone hends, (subject.completed_of_none hnone).symm, fun _ => (List.append_nil _).symm⟩

lemma Traces.strays (held : List Entry) (hnone : subject.further? part cursor = none)
    (hmember : subject.member ≠ none) (hwithin : Reader.withinBlock cursor = true) :
    Traces subject part cursor [(part, cursor)]
      { held, failure := some (cursor.unexpected subject.expected), cursor } :=
  ⟨.strays hnone hmember hwithin, (subject.completed_of_none hnone).symm, nofun⟩

lemma Traces.breaks {error : SyntaxError} (hfurther : subject.further? part cursor = some reader)
    (herror : reader cursor = .error error last) :
    Traces subject part cursor [(part, cursor)]
      (after (subject.entriesOf part) { failure := some error, cursor := last }) :=
  ⟨.breaks hfurther herror, (Subject.completed_cons hfurther []).symm, nofun⟩

lemma Traces.goes (h : Traces subject next middle parts read)
    (hfurther : subject.further? part cursor = some reader)
    (hread : reader cursor = .ok next middle) :
    Traces subject part cursor ((part, cursor) :: parts)
      (read.after (subject.entriesOf part)) := by
  refine ⟨.goes hfurther hread h.runs, ?_, fun hfailure => ?_⟩
  · rw [Subject.completed_cons hfurther, ← h.complete]
    rfl
  · rw [Subject.allEntries, List.flatMap_cons, ← Subject.allEntries, ← h.held hfailure]
    exact List.append_assoc _ _ _

/-! ### One section after the other -/

lemma length_lt_of_next (hfailure : (Section.next subject cursor).failure = none) :
    (Section.next subject cursor).cursor.rest.length < cursor.rest.length := by
  obtain ⟨taken, htaken, hrest⟩ := spans_next subject hfailure
  have hne : taken ≠ [] := by
    rintro rfl
    simp only [Language.mem_add, Production.resultSection, Production.parameterSection,
      mul_assoc] at htaken
    exact htaken.elim Production.nil_notMem_one_mul Production.nil_notMem_one_mul
  have hlength := List.length_pos_of_ne_nil hne
  rw [hrest, List.length_append]
  omega

section

variable {held : List Entry} (hwithin : Reader.withinBlock cursor = true)
include hwithin

lemma following_of_read (hfailure : (Section.next subject cursor).failure = none) :
    following subject held cursor =
      (following subject (Section.next subject cursor).held
        (Section.next subject cursor).cursor).after
          (held ++ (Section.next subject cursor).complete) := by
  have hlt := length_lt_of_next hfailure
  rw [following, if_pos hwithin]
  simp [hfailure, hlt]

lemma following_of_failed (hbegins : begins cursor = true)
    (hfailure : (Section.next subject cursor).failure ≠ none) :
    following subject held cursor = (Section.next subject cursor).after held := by
  rw [following, if_pos hwithin]
  simp [hfailure, hbegins]

lemma following_of_strays (hreturn : cursor.isAt .returnWord = false)
    (hparameter : cursor.isAt .parameterWord = false) :
    following subject held cursor =
      { failure := some (cursor.unexpected "'return', 'parameter', '@' or a new block")
        cursor } := by
  rw [following, if_pos hwithin]
  simp [Section.next, begins, hreturn, hparameter]

end

section

variable {name : String} {d : MethodDescriptor}
  (hmember : subject.member = some (.method name d))
include hmember

lemma further?_of_return (hat : cursor.isAt .returnWord = true) :
    subject.further? part cursor = some .resultPart := by
  simp only [Subject.further?, hmember, if_pos hat]

lemma further?_of_parameter (hreturn : cursor.isAt .returnWord = false)
    (hat : cursor.isAt .parameterWord = true) :
    subject.further? part cursor = some .parameterPart := by
  simp only [Subject.further?, hmember, hreturn, hat, if_true, Bool.false_eq_true, if_false]

lemma further?_of_type {position : Nat} {place : Location} {annotations : List AnnotationUse}
    (hat : cursor.isAt .typeWord = true) :
    subject.further? ⟨.parameter position, place, annotations⟩ cursor =
      some (.typePart (.parameterType position) place) := by
  have hkind : cursor.kind? = some .typeWord := eq_of_beq hat
  simp only [Subject.further?, hmember, Cursor.isAt, hkind]
  rfl

lemma further?_of_others (hreturn : cursor.isAt .returnWord = false)
    (hparameter : cursor.isAt .parameterWord = false)
    (htype : ∀ position, part.placement = .parameter position → cursor.isAt .typeWord = false) :
    subject.further? part cursor = none := by
  simp only [Subject.further?, hmember, hreturn, hparameter, Bool.false_eq_true, if_false]
  split
  · rename_i position hplacement
    rw [htype position hplacement, if_neg Bool.false_ne_true]
  · rfl

section

variable (hlater : ∀ (part : Part) (middle : Cursor), middle.rest.length < cursor.rest.length →
    (∀ position, part.placement = .parameter position → middle.isAt .typeWord = false) →
      ∃ parts, Traces subject part middle parts
        (following subject (subject.entriesOf part) middle))
include hlater

lemma traces_return (part : Part) (hwithin : Reader.withinBlock cursor = true)
    (hat : cursor.isAt .returnWord = true) :
    ∃ parts, Traces subject part cursor parts
      (following subject (subject.entriesOf part) cursor) := by
  have hfurther : subject.further? part cursor = some .resultPart :=
    further?_of_return hmember hat
  have hnext : Section.next subject cursor = result subject cursor := if_pos hat
  cases hopening : opening Reader.returnHeader cursor with
  | error error last =>
    rw [result, hopening] at hnext
    rw [following_of_failed hwithin (by simp [begins, hat]) (by simp [hnext]), hnext]
    exact ⟨_, .breaks hfurther (Reader.bind_error hopening)⟩
  | ok opened middle =>
    obtain ⟨place, annotations⟩ := opened
    rw [result, hopening] at hnext
    have hlt := length_lt_of_next (by rw [hnext])
    rw [following_of_read hwithin (by rw [hnext]), hnext, List.append_nil]
    rw [hnext] at hlt
    obtain ⟨parts, hrest⟩ := hlater ⟨.returnType, place, annotations⟩ middle hlt
      fun _ hplacement => Placement.noConfusion hplacement
    exact ⟨_, hrest.goes hfurther (Reader.bind_ok hopening)⟩

lemma traces_parameter (part : Part) (hwithin : Reader.withinBlock cursor = true)
    (hreturn : cursor.isAt .returnWord = false) (hat : cursor.isAt .parameterWord = true) :
    ∃ parts, Traces subject part cursor parts
      (following subject (subject.entriesOf part) cursor) := by
  have hfurther : subject.further? part cursor = some .parameterPart :=
    further?_of_parameter hmember hreturn hat
  have hbegins : begins cursor = true := by simp [begins, hat]
  have hnext : Section.next subject cursor = parameter subject cursor := by
    simp [Section.next, hreturn, hat]
  cases hopening : opening Reader.parameterHeader cursor with
  | error error last =>
    rw [parameter, hopening] at hnext
    rw [following_of_failed hwithin hbegins (by simp [hnext]), hnext]
    exact ⟨_, .breaks hfurther (Reader.bind_error hopening)⟩
  | ok opened middle =>
    obtain ⟨⟨position, place⟩, annotations⟩ := opened
    have hread : Reader.parameterPart cursor =
        .ok ⟨.parameter position, place, annotations⟩ middle := Reader.bind_ok hopening
    rw [parameter, hopening] at hnext
    dsimp only at hnext
    cases htype : middle.isAt .typeWord with
    | false =>
      rw [type, htype, if_neg Bool.false_ne_true] at hnext
      have hlt := length_lt_of_next (by rw [hnext])
      rw [following_of_read hwithin (by rw [hnext]), hnext, List.append_nil]
      rw [hnext] at hlt
      obtain ⟨parts, hrest⟩ :=
        hlater ⟨.parameter position, place, annotations⟩ middle hlt fun _ _ => htype
      exact ⟨_, hrest.goes hfurther hread⟩
    | true =>
      have hfurther' : subject.further? ⟨.parameter position, place, annotations⟩ middle =
          some (.typePart (.parameterType position) place) := further?_of_type hmember htype
      rw [type, htype, if_pos rfl] at hnext
      cases hopening' : opening Reader.typeHeader middle with
      | error error last =>
        rw [hopening'] at hnext
        rw [following_of_failed hwithin hbegins (by simp [hnext]), hnext]
        have hbreaks := Traces.breaks hfurther' (Reader.bind_error hopening')
        rw [after, List.append_nil] at hbreaks
        exact ⟨_, hbreaks.goes hfurther hread⟩
      | ok opened last =>
        obtain ⟨⟨⟩, uses⟩ := opened
        rw [hopening'] at hnext
        have hlt := length_lt_of_next (by rw [hnext])
        rw [following_of_read hwithin (by rw [hnext]), hnext]
        rw [hnext] at hlt
        obtain ⟨parts, hrest⟩ := hlater ⟨.parameterType position, place, uses⟩ last hlt
          fun _ hplacement => Placement.noConfusion hplacement
        have htyped := (hrest.goes hfurther' (Reader.bind_ok hopening')).goes hfurther hread
        rw [after_append] at htyped
        exact ⟨_, htyped⟩

end

/-- Reading the sections after a part of a method. A section for a type that comes at once has been
read with the part. -/
lemma traces_following (part : Part)
    (htype : ∀ position, part.placement = .parameter position → cursor.isAt .typeWord = false) :
    ∃ parts, Traces subject part cursor parts
      (following subject (subject.entriesOf part) cursor) := by
  induction hlength : cursor.rest.length using Nat.strong_induction_on
    generalizing cursor part with
  | _ length ih =>
  have hlater : ∀ (part : Part) (middle : Cursor), middle.rest.length < cursor.rest.length →
      (∀ position, part.placement = .parameter position → middle.isAt .typeWord = false) →
        ∃ parts, Traces subject part middle parts
          (following subject (subject.entriesOf part) middle) :=
    fun part middle hlt htype => ih _ (hlength ▸ hlt) part htype rfl
  cases hwithin : Reader.withinBlock cursor with
  | false =>
    have havoids : cursor.Avoids [.returnWord, .parameterWord] :=
      Cursor.avoids_of_withinBlock hwithin rfl
    rw [following, hwithin, if_neg Bool.false_ne_true]
    exact ⟨_, .ends (further?_of_others hmember (havoids _ (by simp)) (havoids _ (by simp)) htype)
      (.inr hwithin)⟩
  | true =>
    cases hreturn : cursor.isAt .returnWord with
    | true => exact traces_return hmember hlater part hwithin hreturn
    | false =>
      cases hparameter : cursor.isAt .parameterWord with
      | true => exact traces_parameter hmember hlater part hwithin hreturn hparameter
      | false =>
        rw [following_of_strays hwithin hreturn hparameter]
        have hstrays := Traces.strays [] (further?_of_others hmember hreturn hparameter htype)
          (by simp [hmember]) hwithin
        rw [Subject.expected, hmember] at hstrays
        exact ⟨_, hstrays⟩

end

/-! ### Members -/

lemma method_of_methodHeader {opened : Member × Location}
    (h : Reader.methodHeader cursor = .ok opened last) :
    ∃ name d, opened.1 = .method name d := by
  obtain ⟨keyword, name, first, others, colon, d, -, -, -, -, -, -, hopened⟩ :=
    Reader.tokens_of_methodHeader h
  exact ⟨name.lexeme, d, hopened⟩

lemma traces_method {owner package : String} {member : Member} {place : Location}
    {annotations : List AnnotationUse}
    (hread : opening Reader.methodHeader cursor = .ok ((member, place), annotations) middle) :
    ∃ parts, Traces ⟨owner, package, some member⟩ ⟨.declaration, place, annotations⟩ middle parts
      (method owner package cursor) := by
  obtain ⟨_, hheader⟩ := header_of_opening hread
  obtain ⟨name, d, hmember⟩ := method_of_methodHeader hheader
  rw [method, hread]
  exact traces_following (congrArg some hmember) ⟨.declaration, place, annotations⟩ nofun

lemma traces_end (hmember : subject.member ≠ none) (hnone : subject.further? part cursor = none) :
    Traces subject part cursor [(part, cursor)]
      (if Reader.withinBlock cursor then
        { held := subject.entriesOf part
          failure := some (cursor.unexpected subject.expected)
          cursor }
      else { held := subject.entriesOf part, cursor }) := by
  split
  · rename_i hwithin
    exact .strays _ hnone hmember hwithin
  · rename_i hwithin
    exact .ends hnone (.inr (eq_false_of_ne_true hwithin))

lemma traces_field {owner package : String} {member : Member} {place : Location}
    {annotations : List AnnotationUse}
    (hread : opening Reader.fieldHeader cursor = .ok ((member, place), annotations) middle) :
    ∃ parts, Traces ⟨owner, package, some member⟩ ⟨.declaration, place, annotations⟩ middle parts
      (field owner package cursor) := by
  obtain ⟨_, hheader⟩ := header_of_opening hread
  obtain ⟨name, rfl⟩ := Reader.field_of_fieldHeader hheader
  rw [field, hread]
  dsimp only
  have hmember : (some (Member.field name)) ≠ none := nofun
  cases htype : middle.isAt .typeWord with
  | false =>
    rw [type, htype, if_neg Bool.false_ne_true]
    exact ⟨_, traces_end hmember (by simp [Subject.further?, htype])⟩
  | true =>
    have hfurther : Subject.further? ⟨owner, package, some (.field name)⟩
        ⟨.declaration, place, annotations⟩ middle = some (.typePart .fieldType place) := by
      simp [Subject.further?, htype]
    rw [type, htype, if_pos rfl]
    cases hopening : opening Reader.typeHeader middle with
    | error error last =>
      have hbreaks := Traces.breaks hfurther (Reader.bind_error hopening)
      rw [after, List.append_nil] at hbreaks
      exact ⟨_, hbreaks⟩
    | ok opened last =>
      obtain ⟨⟨⟩, uses⟩ := opened
      have hnone : Subject.further? ⟨owner, package, some (.field name)⟩ ⟨.fieldType, place, uses⟩
          last = none := by simp [Subject.further?]
      have hgoes := (traces_end hmember hnone).goes hfurther (Reader.bind_ok hopening)
      dsimp only
      cases hwithin : Reader.withinBlock last with
      | true =>
        rw [hwithin, if_pos rfl, after, List.append_nil] at hgoes
        exact ⟨_, hgoes⟩
      | false =>
        rw [hwithin, if_neg Bool.false_ne_true, after, List.append_nil] at hgoes
        exact ⟨_, hgoes⟩

end Section

/-! ### Blocks -/

namespace Block

/-- A block at a place begins with a part: the one for the class or member that it is about. -/
inductive Begins (scopes : Scopes) (cursor : Cursor) : Subject → Part → Cursor → Prop
  | ofClass {name : String} {place : Location} {annotations : List AnnotationUse} {next : Cursor}
      (hkind : cursor.kind? = some .classWord) (hpackage : scopes.package ≠ .malformed)
      (hread : opening Reader.classHeader cursor = .ok ((name, place), annotations) next) :
      Begins scopes cursor ⟨qualify scopes.packageName name, scopes.packageName, none⟩
        ⟨.declaration, place, annotations⟩ next
  | method {owner : String} {member : Member} {place : Location}
      {annotations : List AnnotationUse} {next : Cursor}
      (hkind : cursor.kind? = some .methodWord) (howner : scopes.owner = .known owner)
      (hread : opening Reader.methodHeader cursor = .ok ((member, place), annotations) next) :
      Begins scopes cursor ⟨owner, scopes.packageName, some member⟩
        ⟨.declaration, place, annotations⟩ next
  | field {owner : String} {member : Member} {place : Location}
      {annotations : List AnnotationUse} {next : Cursor}
      (hkind : cursor.kind? = some .fieldWord) (howner : scopes.owner = .known owner)
      (hread : opening Reader.fieldHeader cursor = .ok ((member, place), annotations) next) :
      Begins scopes cursor ⟨owner, scopes.packageName, some member⟩
        ⟨.declaration, place, annotations⟩ next

/-- What a block at a place adds: the entries of its own parts, of which only the completed ones
count if it fails. No annotation type is declared by a block that fails. -/
structure Adds (scopes : Scopes) (cursor : Cursor) (block : Block) : Prop where
  none : (∀ subject part next, ¬Begins scopes cursor subject part next) →
    block.parsed.index.entries = []
  parts : ∀ subject part next, Begins scopes cursor subject part next →
    ∃ parts, subject.Runs part next parts block.failure block.cursor ∧
      block.parsed.index.entries =
        if block.failure.isSome then subject.completed parts else subject.allEntries parts
  declarations : block.failure.isSome → block.parsed.index.declarations = []

variable {scopes : Scopes} {cursor next next' : Cursor} {subject subject' : Subject}
  {part part' : Part}

lemma Begins.unique (h : Begins scopes cursor subject part next)
    (h' : Begins scopes cursor subject' part' next') :
    subject' = subject ∧ part' = part ∧ next' = next := by
  cases h <;> cases h' <;> simp_all

lemma Adds.of_begins {block : Block} (h : Begins scopes cursor subject part next)
    (hparts : ∃ parts, subject.Runs part next parts block.failure block.cursor ∧
      block.parsed.index.entries =
        if block.failure.isSome then subject.completed parts else subject.allEntries parts)
    (hdeclarations : block.parsed.index.declarations = []) : Adds scopes cursor block where
  none := fun hnone => absurd h (hnone _ _ _)
  parts := by
    intro subject' part' next' h'
    obtain ⟨rfl, rfl, rfl⟩ := h.unique h'
    exact hparts
  declarations := fun _ => hdeclarations

lemma Adds.of_sections {read : Section} {scopes' : Scopes}
    (h : Begins scopes cursor subject part next)
    (hread : ∃ parts, read.Traces subject part next parts) :
    Adds scopes cursor (ofSections scopes' read) := by
  obtain ⟨parts, hruns, hcomplete, hall⟩ := hread
  refine .of_begins h ⟨parts, hruns, ?_⟩ rfl
  change read.kept = if read.failure.isSome then _ else _
  unfold Section.kept
  split
  · exact hcomplete
  · rename_i hfailure
    exact hall (by simpa using hfailure)

lemma Adds.of_not {block : Block} (h : ∀ subject part next, ¬Begins scopes cursor subject part next)
    (hentries : block.parsed.index.entries = [])
    (hdeclarations : block.failure.isSome → block.parsed.index.declarations = []) :
    Adds scopes cursor block :=
  ⟨fun _ => hentries, fun _ _ _ hbegins => absurd hbegins (h _ _ _), hdeclarations⟩

/-! ### Kinds of blocks -/

lemma not_begins_of_kind? (hclass : cursor.kind? ≠ some .classWord)
    (hmethod : cursor.kind? ≠ some .methodWord) (hfield : cursor.kind? ≠ some .fieldWord)
    (subject : Subject) (part : Part) (next : Cursor) :
    ¬Begins scopes cursor subject part next := by
  rintro (⟨hkind, -, -⟩ | ⟨hkind, -, -⟩ | ⟨hkind, -, -⟩)
  · exact hclass hkind
  · exact hmethod hkind
  · exact hfield hkind

lemma package_adds (hkind : cursor.kind? = some .packageWord) :
    Adds scopes cursor (package cursor) := by
  have hnot : ∀ subject part next, ¬Begins scopes cursor subject part next :=
    not_begins_of_kind? (by simp [hkind]) (by simp [hkind]) (by simp [hkind])
  unfold package
  split <;> exact .of_not hnot rfl fun _ => rfl

lemma declaration_adds (hkind : cursor.kind? = some .annotationWord) :
    Adds scopes cursor (declaration scopes cursor) := by
  have hnot : ∀ subject part next, ¬Begins scopes cursor subject part next :=
    not_begins_of_kind? (by simp [hkind]) (by simp [hkind]) (by simp [hkind])
  unfold declaration
  split
  · exact .of_not hnot rfl fun _ => rfl
  · exact .of_not hnot rfl nofun

lemma ofClass_adds (hkind : cursor.kind? = some .classWord)
    (hpackage : scopes.package ≠ .malformed) :
    Adds scopes cursor (ofClass scopes cursor) := by
  have hnot {error : SyntaxError} {last : Cursor}
      (herror : opening Reader.classHeader cursor = .error error last) (subject : Subject)
      (part : Part) (next : Cursor) : ¬Begins scopes cursor subject part next := by
    rintro (⟨-, -, hread⟩ | ⟨hother, -, -⟩ | ⟨hother, -, -⟩)
    · exact absurd (herror.symm.trans hread) nofun
    · simp [hkind] at hother
    · simp [hkind] at hother
  cases hheader : Reader.classHeader cursor with
  | error error middle =>
    rw [ofClass, hheader]
    exact .of_not (hnot (Reader.bind_error hheader)) rfl fun _ => rfl
  | ok opened middle =>
    obtain ⟨name, place⟩ := opened
    have hopening : opening Reader.classHeader cursor =
        (do return ((name, place), ← Reader.annotations)) middle := Reader.bind_ok hheader
    cases hannotations : Reader.annotations middle with
    | error error last =>
      rw [Reader.bind_error hannotations] at hopening
      rw [ofClass, hheader]
      simp only [hannotations]
      exact .of_not (hnot hopening) rfl fun _ => rfl
    | ok annotations last =>
      rw [Reader.bind_ok hannotations] at hopening
      have hbegins : Begins scopes cursor _ _ _ := .ofClass hkind hpackage hopening
      rw [ofClass, hheader]
      simp only [hannotations]
      exact .of_begins hbegins ⟨_, .ends rfl (.inl rfl), (List.append_nil _).symm⟩ rfl

section

variable {owner : String} {header : Reader (Member × Location)} {read : Section}

lemma opened_adds
    (hfails : ∀ error last, opening header cursor = .error error last →
      read = { failure := some error, cursor := last })
    (htraces : ∀ member place annotations next,
      opening header cursor = .ok ((member, place), annotations) next →
        ∃ parts, read.Traces ⟨owner, scopes.packageName, some member⟩
          ⟨.declaration, place, annotations⟩ next parts)
    (hbegins : ∀ member place annotations next,
      opening header cursor = .ok ((member, place), annotations) next →
        Begins scopes cursor ⟨owner, scopes.packageName, some member⟩
          ⟨.declaration, place, annotations⟩ next)
    (hopened : ∀ subject part next, Begins scopes cursor subject part next →
      ∃ opened, opening header cursor = .ok opened next) :
    Adds scopes cursor (ofSections scopes read) := by
  cases hread : opening header cursor with
  | error error last =>
    rw [hfails error last hread]
    refine .of_not (fun subject part next h => ?_) rfl fun _ => rfl
    obtain ⟨_, hok⟩ := hopened subject part next h
    exact absurd (hread.symm.trans hok) nofun
  | ok opened next =>
    obtain ⟨⟨member, place⟩, annotations⟩ := opened
    exact .of_sections (hbegins _ _ _ _ hread) (htraces _ _ _ _ hread)

lemma method_adds (hkind : cursor.kind? = some .methodWord) (howner : scopes.owner = .known owner) :
    Adds scopes cursor (ofSections scopes (Section.method owner scopes.packageName cursor)) := by
  refine opened_adds (fun _ _ herror => by rw [Section.method, herror])
    (fun _ _ _ _ => Section.traces_method) (fun _ _ _ _ => .method hkind howner) ?_
  rintro subject part next (⟨hother, -, -⟩ | ⟨-, -, hread⟩ | ⟨hother, -, -⟩)
  · simp [hkind] at hother
  · exact ⟨_, hread⟩
  · simp [hkind] at hother

lemma field_adds (hkind : cursor.kind? = some .fieldWord) (howner : scopes.owner = .known owner) :
    Adds scopes cursor (ofSections scopes (Section.field owner scopes.packageName cursor)) := by
  refine opened_adds (fun _ _ herror => by rw [Section.field, herror])
    (fun _ _ _ _ => Section.traces_field) (fun _ _ _ _ => .field hkind howner) ?_
  rintro subject part next (⟨hother, -, -⟩ | ⟨hother, -, -⟩ | ⟨-, -, hread⟩)
  · simp [hkind] at hother
  · simp [hkind] at hother
  · exact ⟨_, hread⟩

end

lemma member_adds {read : String → String → Cursor → Section}
    (hknown : ∀ owner, scopes.owner = .known owner →
      Adds scopes cursor (ofSections scopes (read owner scopes.packageName cursor)))
    (hclass : cursor.kind? ≠ some .classWord) :
    Adds scopes cursor (member read scopes cursor) := by
  have hnot (howner : ∀ owner, scopes.owner ≠ .known owner) (subject : Subject) (part : Part)
      (next : Cursor) : ¬Begins scopes cursor subject part next := by
    rintro (⟨hkind, -, -⟩ | ⟨-, hknown, -⟩ | ⟨-, hknown, -⟩)
    · exact hclass hkind
    · exact howner _ hknown
    · exact howner _ hknown
  unfold member
  split
  · rename_i owner howner
    exact hknown owner howner
  · rename_i howner
    exact .of_not (hnot (by simp [howner])) rfl fun _ => rfl
  · rename_i howner
    exact .of_not (hnot (by simp [howner])) rfl fun _ => rfl

lemma not_begins_of_malformed (hpackage : scopes.package = .malformed)
    (hmethod : cursor.kind? ≠ some .methodWord) (hfield : cursor.kind? ≠ some .fieldWord)
    (subject : Subject) (part : Part) (next : Cursor) :
    ¬Begins scopes cursor subject part next := by
  rintro (⟨-, hother, -⟩ | ⟨hkind, -, -⟩ | ⟨hkind, -, -⟩)
  · exact hother hpackage
  · exact hmethod hkind
  · exact hfield hkind

lemma read_adds (scopes : Scopes) (cursor : Cursor) :
    Adds scopes cursor (read scopes cursor) := by
  unfold read
  split
  · rename_i hkind
    exact package_adds hkind
  · rename_i hkind
    split
    · rename_i hpackage
      exact .of_not (not_begins_of_malformed hpackage (by simp [hkind]) (by simp [hkind])) rfl nofun
    · rename_i hpackage
      exact ofClass_adds hkind hpackage
  · rename_i hkind
    split
    · rename_i hpackage
      exact .of_not (not_begins_of_malformed hpackage (by simp [hkind]) (by simp [hkind])) rfl nofun
    · exact declaration_adds hkind
  · rename_i hkind
    exact member_adds (fun owner howner => method_adds hkind howner) (by simp [hkind])
  · rename_i hkind
    exact member_adds (fun owner howner => field_adds hkind howner) (by simp [hkind])
  · rename_i hpackage hclass hdeclaration hmethod hfield
    exact .of_not (not_begins_of_kind? hclass hmethod hfield) rfl fun _ => rfl

end Block

/-- **Failing blocks.** Wherever the parser begins a block, the index has what it had before, what
the block adds, and what the blocks after it add, where these depend on the block only by the
package and the class that it leaves open and the place where the parser goes on. A block adds
entries for its own parts only: all of them if it does not fail, and if it does, exactly those after
which the keyword of a further part of the block was read. A block that fails declares nothing. -/
theorem failed_block_keeps_completed_parts {source : String} {said : Parsed} {scopes : Scopes}
    {cursor : Cursor} (h : Rounds source said scopes cursor) (hn : cursor.rest ≠ []) :
    let block := Block.read scopes cursor
    let later := parseBlocks source.toList block.scopes (block.resume cursor)
    (parse source).index.entries =
        said.index.entries ++ block.parsed.index.entries ++ later.index.entries ∧
      (parse source).index.declarations =
        said.index.declarations ++ block.parsed.index.declarations ++ later.index.declarations ∧
      Block.Adds scopes cursor block := by
  intro block later
  have hparse : (parse source).index = said.index ++ block.parsed.index ++ later.index := by
    rw [(h.step hn).parse_eq]
    change said.index ++ (block.outcome source.toList).index ++ _ = _
    rw [Block.index_outcome]
  refine ⟨?_, ?_, Block.read_adds scopes cursor⟩
  · rw [hparse]
    rfl
  · rw [hparse]
    rfl

/-- A number stands behind the annotations of the type of a field. What was read for the type is
lost, and what was read for the field itself is not. -/
theorem failed_block_keeps_completed_parts_field :
    let text := "class C: field f: @A type: @B 1"
    let start := Cursor.ofTokens (significantTokens text)
    let opened := Block.read .none start
    let place := opened.resume start
    let block := Block.read opened.scopes place
    let later := parseBlocks text.toList block.scopes (block.resume place)
    (parse text).index.entries =
        ({} ++ opened.outcome text.toList).index.entries ++ block.parsed.index.entries ++
          later.index.entries ∧
      block.parsed.index.entries.map (·.text) = ["C field f [declaration] @A"] ∧
      block.failure.isSome ∧ Block.Adds opened.scopes place block := by
  intro text start opened place block later
  have hround := (@Rounds.start text).step (by decide +kernel)
  obtain ⟨hentries, -, hadds⟩ := failed_block_keeps_completed_parts hround (by decide +kernel)
  exact ⟨hentries, by decide +kernel, by decide +kernel, hadds⟩

end ExternalAnnotations
