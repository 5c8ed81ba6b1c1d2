import ExternalAnnotations.Proofs.Index.Depth

/-!
# Blocks with values that are nested too deeply

A block has values in the annotations on what it declares, in those of its sections, and in the
defaults of the elements of an annotation type. `Block.Meets` says which values the parser comes to
in a block, and how deep they are. A block is reported for its depth if one of them is too deep, at
that one, and for no other reason.
-/

namespace ExternalAnnotations

open Section (opening)

namespace Reader

variable {α : Type} {cursor start last : Cursor} {place : Location}

/-! ### Lists of annotations, and defaults -/

lemma annotations_deep_iff :
    annotations start = .error (.tooDeep place) last ↔
      ∃ sign given, Turn (·.isAt .atSign) annotationUse start sign ∧
        ArgumentAt (valueAt 1) sign given ∧ valueAt 1 given = .error (.tooDeep place) last := by
  have hloop : annotations start = .error (.tooDeep place) last ↔
      ∃ sign, Turn (·.isAt .atSign) annotationUse start sign ∧
        annotationUse sign = .error (.tooDeep place) last :=
    manyWhile_error_iff fun _ _ => .annotationUse
  have huse (sign : Cursor) : annotationUse sign = .error (.tooDeep place) last ↔
      ∃ given, ArgumentAt (valueAt 1) sign given ∧
        valueAt 1 given = .error (.tooDeep place) last :=
    annotationOf_deep_iff (Walks.valueAt 1)
  simp only [hloop, huse, exists_and_left]

lemma opening_deep_iff {header : Reader α} (h : Shallow header) :
    opening header start = .error (.tooDeep place) last ↔
      ∃ opened next, header start = .ok opened next ∧
        annotations next = .error (.tooDeep place) last :=
  (bind_deep_iff h).trans <| exists_congr fun _ => exists_congr fun _ =>
    and_congr_right fun _ => map_error_iff

/-- The declaration of an element at a place has a default, and this begins at another place. -/
def HasDefault (start given : Cursor) : Prop :=
  ∃ type middle name after, elementType start = .ok type middle ∧
    elementName middle = .ok name after ∧ after.isAt .equals = true ∧ after.forward = given

lemma elementDeclaration_deep_iff :
    elementDeclaration start = .error (.tooDeep place) last ↔
      ∃ given, HasDefault start given ∧ valueAt 0 given = .error (.tooDeep place) last := by
  constructor
  · intro h
    obtain ⟨type, middle, htype, h⟩ := (bind_deep_iff shallow.elementType.shallow).1 h
    obtain ⟨name, after, hname, h⟩ := (bind_deep_iff shallow.elementName.shallow).1 h
    cases hequals : after.isAt .equals with
    | false =>
      rw [bind_ok (eat_of_not hequals)] at h
      contradiction
    | true =>
      rw [bind_ok (eat_of_isAt hequals)] at h
      have hvalue := map_error_iff.1 (map_error_iff.1 h)
      exact ⟨_, ⟨type, middle, name, after, htype, hname, hequals, rfl⟩, hvalue⟩
  · rintro ⟨_, ⟨type, middle, name, after, htype, hname, hequals, rfl⟩, h⟩
    refine (bind_deep_iff shallow.elementType.shallow).2 ⟨type, middle, htype, ?_⟩
    refine (bind_deep_iff shallow.elementName.shallow).2 ⟨name, after, hname, ?_⟩
    rw [bind_ok (eat_of_isAt hequals)]
    exact map_error_iff.2 (map_error_iff.2 h)

/-- What opens the declaration of an annotation type stands between two places. -/
def DeclarationHead (start next : Cursor) : Prop :=
  ∃ keyword first sign second name third colon,
    expect .annotationWord "'annotation'" start = .ok keyword first ∧
    expect .atSign "'@' before annotation name" first = .ok sign second ∧
    Reader.name "annotation name" second = .ok name third ∧
    expect .colon "':' after annotation name" third = .ok colon next

lemma declaration_deep_iff {package : String} :
    declaration package start = .error (.tooDeep place) last ↔
      ∃ next, DeclarationHead start next ∧ (annotations next = .error (.tooDeep place) last ∨
        ∃ uses elements element given, annotations next = .ok uses elements ∧
          Turn withinBlock elementDeclaration elements element ∧ HasDefault element given ∧
            valueAt 0 given = .error (.tooDeep place) last) := by
  have helements (elements : Cursor) :
      manyWhile withinBlock elementDeclaration elements = .error (.tooDeep place) last ↔
        ∃ element given, Turn withinBlock elementDeclaration elements element ∧
          HasDefault element given ∧ valueAt 0 given = .error (.tooDeep place) last := by
    rw [manyWhile_error_iff fun _ _ => .elementDeclaration]
    simp only [elementDeclaration_deep_iff, exists_and_left]
  constructor
  · intro h
    obtain ⟨keyword, first, hkeyword, h⟩ := (bind_deep_iff (.expect _ _)).1 h
    obtain ⟨sign, second, hsign, h⟩ := (bind_deep_iff (.expect _ _)).1 h
    obtain ⟨name, third, hname, h⟩ := (bind_deep_iff (shallow.name _).shallow).1 h
    obtain ⟨colon, next, hcolon, h⟩ := (bind_deep_iff (.expect _ _)).1 h
    refine ⟨next, ⟨keyword, first, sign, second, name, third, colon, hkeyword, hsign, hname,
      hcolon⟩, ?_⟩
    rcases bind_error_iff.1 h with h | ⟨uses, elements, huses, h⟩
    · exact .inl h
    · obtain ⟨element, given, hrest⟩ := (helements elements).1 (map_error_iff.1 h)
      exact .inr ⟨uses, elements, element, given, huses, hrest⟩
  · rintro ⟨next, ⟨keyword, first, sign, second, name, third, colon, hkeyword, hsign, hname,
      hcolon⟩, h⟩
    refine (bind_deep_iff (.expect _ _)).2 ⟨keyword, first, hkeyword, ?_⟩
    refine (bind_deep_iff (.expect _ _)).2 ⟨sign, second, hsign, ?_⟩
    refine (bind_deep_iff (shallow.name _).shallow).2 ⟨name, third, hname, ?_⟩
    refine (bind_deep_iff (.expect _ _)).2 ⟨colon, next, hcolon, bind_error_iff.2 ?_⟩
    rcases h with h | ⟨uses, elements, element, given, huses, hrest⟩
    · exact .inl h
    · exact .inr ⟨uses, elements, huses, map_error_iff.2 ((helements elements).2
        ⟨element, given, hrest⟩)⟩

lemma part_deep_iff {header : Reader α} {made : α × List AnnotationUse → Reader Part}
    (h : Shallow header) (hmade : ∀ opened, Shallow (made opened)) :
    (opening header >>= made) start = .error (.tooDeep place) last ↔
      ∃ opened next, header start = .ok opened next ∧
        annotations next = .error (.tooDeep place) last :=
  (before_deep_iff hmade).trans (opening_deep_iff h)

end Reader

/-! ### Parts -/

namespace Subject

/-- The parts that the reading of a block comes to, each with the place after it. -/
inductive Reaches (subject : Subject) (first : Part) (start : Cursor) : Part → Cursor → Prop
  | here : Reaches subject first start first start
  | further {part next : Part} {after middle : Cursor} {reader : Reader Part}
      (h : Reaches subject first start part after)
      (hfurther : subject.further? part after = some reader)
      (hread : reader after = .ok next middle) : Reaches subject first start next middle

variable {subject : Subject} {first part : Part} {start after last : Cursor}
  {parts : List (Part × Cursor)} {failure : Option SyntaxError} {reader : Reader Part}

lemma Reaches.runs (h : subject.Reaches first start part after)
    (hruns : subject.Runs first start parts failure last) :
    ∃ parts, subject.Runs part after parts failure last := by
  induction h with
  | here => exact ⟨parts, hruns⟩
  | further _ hfurther hread ih =>
    obtain ⟨others, hruns⟩ := ih
    cases hruns with
    | ends hnone hends => simp [hnone] at hfurther
    | strays hnone hmember hwithin => simp [hnone] at hfurther
    | breaks hfurther' herror =>
      obtain rfl := Option.some.inj (hfurther.symm.trans hfurther')
      exact absurd (hread.symm.trans herror) nofun
    | goes hfurther' hread' hrest =>
      obtain rfl := Option.some.inj (hfurther.symm.trans hfurther')
      obtain ⟨rfl, rfl⟩ := EStateM.Result.ok.inj (hread.symm.trans hread')
      exact ⟨_, hrest⟩

lemma Reaches.of_further {next : Part} {middle : Cursor}
    (hfurther : subject.further? first start = some reader) (hread : reader start = .ok next middle)
    (h : subject.Reaches next middle part after) : subject.Reaches first start part after := by
  induction h with
  | here => exact .further .here hfurther hread
  | further _ hfurther' hread' ih => exact .further ih hfurther' hread'

lemma reader_of_further (h : subject.further? part after = some reader) :
    reader = .resultPart ∨ reader = .parameterPart ∨
      ∃ placement place, reader = .typePart placement place := by
  unfold further? at h
  grind

/-- What opens the section of a further part of a block, up to the annotations in it. -/
inductive Opens (subject : Subject) (part : Part) (after : Cursor) : Cursor → Prop
  | result {opened : Location} {next : Cursor}
      (hfurther : subject.further? part after = some .resultPart)
      (hheader : Reader.returnHeader after = .ok opened next) : Opens subject part after next
  | parameter {opened : Nat × Location} {next : Cursor}
      (hfurther : subject.further? part after = some .parameterPart)
      (hheader : Reader.parameterHeader after = .ok opened next) : Opens subject part after next
  | type {placement : Placement} {place : Location} {opened : Unit} {next : Cursor}
      (hfurther : subject.further? part after = some (.typePart placement place))
      (hheader : Reader.typeHeader after = .ok opened next) : Opens subject part after next

lemma further_deep_iff {place : Location} :
    (∃ reader, subject.further? part after = some reader ∧
      reader after = .error (.tooDeep place) last) ↔
      ∃ next, subject.Opens part after next ∧
        Reader.annotations next = .error (.tooDeep place) last := by
  constructor
  · rintro ⟨reader, hfurther, h⟩
    rcases reader_of_further hfurther with rfl | rfl | ⟨placement, place', rfl⟩
    · obtain ⟨opened, next, hheader, h⟩ :=
        (Reader.part_deep_iff shallow.returnHeader.shallow fun _ => .pure _).1 h
      exact ⟨next, .result hfurther hheader, h⟩
    · obtain ⟨opened, next, hheader, h⟩ :=
        (Reader.part_deep_iff shallow.parameterHeader.shallow fun _ => .pure _).1 h
      exact ⟨next, .parameter hfurther hheader, h⟩
    · obtain ⟨opened, next, hheader, h⟩ :=
        (Reader.part_deep_iff shallow.typeHeader.shallow fun _ => .pure _).1 h
      exact ⟨next, .type hfurther hheader, h⟩
  · rintro ⟨next, hopens, h⟩
    cases hopens with
    | result hfurther hheader =>
      refine ⟨_, hfurther,
        (Reader.part_deep_iff shallow.returnHeader.shallow fun _ => .pure _).2 ?_⟩
      exact ⟨_, next, hheader, h⟩
    | parameter hfurther hheader =>
      refine ⟨_, hfurther,
        (Reader.part_deep_iff shallow.parameterHeader.shallow fun _ => .pure _).2 ?_⟩
      exact ⟨_, next, hheader, h⟩
    | type hfurther hheader =>
      refine ⟨_, hfurther, (Reader.part_deep_iff shallow.typeHeader.shallow fun _ => .pure _).2 ?_⟩
      exact ⟨_, next, hheader, h⟩

lemma Runs.fails {error : SyntaxError}
    (h : subject.Runs first start parts (some error) last) :
    (∃ place : Cursor, error = place.unexpected subject.expected) ∨
      ∃ part after, subject.Reaches first start part after ∧ ∃ reader,
        subject.further? part after = some reader ∧ reader after = .error error last := by
  generalize hfailure : some error = failure at h
  induction h with
  | ends hnone hends => contradiction
  | @strays _ cursor hnone hmember hwithin => exact .inl ⟨cursor, Option.some.inj hfailure⟩
  | breaks hfurther herror =>
    obtain rfl := Option.some.inj hfailure
    exact .inr ⟨_, _, .here, _, hfurther, herror⟩
  | goes hfurther hread hrest ih =>
    refine (ih hfailure).imp_right fun ⟨part, after, hreaches, hrest⟩ => ?_
    exact ⟨part, after, .of_further hfurther hread hreaches, hrest⟩

lemma Reaches.failure_eq {error : SyntaxError} {stop : Cursor}
    (h : subject.Reaches first start part after)
    (hruns : subject.Runs first start parts failure stop)
    (hfurther : subject.further? part after = some reader)
    (herror : reader after = .error error last) : failure = some error ∧ stop = last := by
  obtain ⟨others, hruns⟩ := h.runs hruns
  cases hruns with
  | ends hnone hends => simp [hnone] at hfurther
  | strays hnone hmember hwithin => simp [hnone] at hfurther
  | breaks hfurther' herror' =>
    obtain rfl := Option.some.inj (hfurther.symm.trans hfurther')
    obtain ⟨rfl, rfl⟩ := EStateM.Result.error.inj (herror.symm.trans herror')
    exact ⟨rfl, rfl⟩
  | goes hfurther' hread' hrest =>
    obtain rfl := Option.some.inj (hfurther.symm.trans hfurther')
    exact absurd (herror.symm.trans hread') nofun

lemma Runs.deep_iff {place : Location} {stop : Cursor}
    (h : subject.Runs first start parts failure stop) :
    failure = some (.tooDeep place) ∧ stop = last ↔
      ∃ part after next, subject.Reaches first start part after ∧
        subject.Opens part after next ∧
          Reader.annotations next = .error (.tooDeep place) last := by
  constructor
  · rintro ⟨rfl, rfl⟩
    rcases h.fails with ⟨cursor, hstrays⟩ | ⟨part, after, hreaches, hrest⟩
    · exact absurd hstrays.symm (Cursor.unexpected_ne_tooDeep cursor _ place)
    · obtain ⟨next, hopens, herror⟩ := further_deep_iff.1 hrest
      exact ⟨part, after, next, hreaches, hopens, herror⟩
  · rintro ⟨part, after, next, hreaches, hopens, herror⟩
    obtain ⟨reader, hfurther, herror⟩ := further_deep_iff.2 ⟨next, hopens, herror⟩
    exact hreaches.failure_eq h hfurther herror

end Subject

/-! ### Blocks -/

namespace Block

/-- Where a block has a list of annotations, perhaps an empty one. -/
inductive AnnotationsAt (scopes : Scopes) (cursor : Cursor) : Cursor → Prop
  | ofClass {opened : String × Location} {list : Cursor} (hkind : cursor.kind? = some .classWord)
      (hpackage : scopes.package ≠ .malformed)
      (hheader : Reader.classHeader cursor = .ok opened list) : AnnotationsAt scopes cursor list
  | declaration {list : Cursor} (hkind : cursor.kind? = some .annotationWord)
      (hpackage : scopes.package ≠ .malformed) (hheader : Reader.DeclarationHead cursor list) :
      AnnotationsAt scopes cursor list
  | method {owner : String} {opened : Member × Location} {list : Cursor}
      (hkind : cursor.kind? = some .methodWord) (howner : scopes.owner = .known owner)
      (hheader : Reader.methodHeader cursor = .ok opened list) : AnnotationsAt scopes cursor list
  | field {owner : String} {opened : Member × Location} {list : Cursor}
      (hkind : cursor.kind? = some .fieldWord) (howner : scopes.owner = .known owner)
      (hheader : Reader.fieldHeader cursor = .ok opened list) : AnnotationsAt scopes cursor list
  | part {subject : Subject} {first part : Part} {start after list : Cursor}
      (hbegins : Begins scopes cursor subject first start)
      (hreaches : subject.Reaches first start part after) (hopens : subject.Opens part after list) :
      AnnotationsAt scopes cursor list

/-- Where a block has the default of an element. -/
def DefaultAt (scopes : Scopes) (cursor given : Cursor) : Prop :=
  cursor.kind? = some .annotationWord ∧ scopes.package ≠ .malformed ∧
    ∃ list uses elements element, Reader.DeclarationHead cursor list ∧
      Reader.annotations list = .ok uses elements ∧
        Reader.Turn Reader.withinBlock Reader.elementDeclaration elements element ∧
          Reader.HasDefault element given

variable {scopes : Scopes} {cursor list given last : Cursor} {place : Location}

lemma failure_of_declaration (hkind : cursor.kind? = some .annotationWord)
    (hpackage : scopes.package ≠ .malformed) {error : SyntaxError}
    (h : Reader.declaration scopes.packageName cursor = .error error last) :
    (read scopes cursor).failure = some error ∧ (read scopes cursor).cursor = last := by
  rw [read, hkind]
  simp only [if_neg hpackage, declaration, h, and_self]

lemma failure_of_annotations (h : AnnotationsAt scopes cursor list)
    (herror : Reader.annotations list = .error (.tooDeep place) last) :
    (read scopes cursor).failure = some (.tooDeep place) ∧ (read scopes cursor).cursor = last := by
  cases h with
  | ofClass hkind hpackage hheader =>
    rw [read, hkind]
    simp only [if_neg hpackage, ofClass, hheader, herror, and_self]
  | declaration hkind hpackage hheader =>
    exact failure_of_declaration hkind hpackage
      (Reader.declaration_deep_iff.2 ⟨list, hheader, .inl herror⟩)
  | method hkind howner hheader =>
    have hopening :=
      (Reader.opening_deep_iff shallow.methodHeader.shallow).2 ⟨_, list, hheader, herror⟩
    rw [read, hkind]
    simp only [member, howner, ofSections, Section.method, hopening, and_self]
  | field hkind howner hheader =>
    have hopening :=
      (Reader.opening_deep_iff shallow.fieldHeader.shallow).2 ⟨_, list, hheader, herror⟩
    rw [read, hkind]
    simp only [member, howner, ofSections, Section.field, hopening, and_self]
  | part hbegins hreaches hopens =>
    obtain ⟨parts, hruns, -⟩ := (read_adds scopes cursor).parts _ _ _ hbegins
    exact hruns.deep_iff.2 ⟨_, _, list, hreaches, hopens, herror⟩

lemma failure_of_default (h : DefaultAt scopes cursor given)
    (herror : Reader.valueAt 0 given = .error (.tooDeep place) last) :
    (read scopes cursor).failure = some (.tooDeep place) ∧ (read scopes cursor).cursor = last := by
  obtain ⟨hkind, hpackage, list, uses, elements, element, hheader, huses, hturn, hdefault⟩ := h
  exact failure_of_declaration hkind hpackage (Reader.declaration_deep_iff.2
    ⟨list, hheader, .inr ⟨uses, elements, element, given, huses, hturn, hdefault, herror⟩⟩)

/-- The readings that a block can fail for because of depth: those of its annotations and of its
defaults. -/
def IsDeepAt (scopes : Scopes) (cursor : Cursor) (place : Location) (last : Cursor) : Prop :=
  (∃ list, AnnotationsAt scopes cursor list ∧
      Reader.annotations list = .error (.tooDeep place) last) ∨
    ∃ given, DefaultAt scopes cursor given ∧
      Reader.valueAt 0 given = .error (.tooDeep place) last

lemma isDeepAt_ofClass (hkind : cursor.kind? = some .classWord)
    (hpackage : scopes.package ≠ .malformed)
    (h : (ofClass scopes cursor).failure = some (.tooDeep place)) :
    IsDeepAt scopes cursor place (ofClass scopes cursor).cursor := by
  unfold ofClass at h ⊢
  cases hheader : Reader.classHeader cursor with
  | error error next =>
    rw [hheader] at h
    obtain rfl := Option.some.inj h
    exact absurd hheader (shallow.classHeader.shallow cursor place next)
  | ok opened list =>
    simp only [hheader] at h ⊢
    cases hannotations : Reader.annotations list with
    | error error last =>
      rw [hannotations] at h
      obtain rfl := Option.some.inj h
      exact .inl ⟨list, .ofClass hkind hpackage hheader, hannotations⟩
    | ok annotations last =>
      rw [hannotations] at h
      contradiction

lemma isDeepAt_declaration (hkind : cursor.kind? = some .annotationWord)
    (hpackage : scopes.package ≠ .malformed)
    (h : (declaration scopes cursor).failure = some (.tooDeep place)) :
    IsDeepAt scopes cursor place (declaration scopes cursor).cursor := by
  unfold declaration at h ⊢
  cases hread : Reader.declaration scopes.packageName cursor with
  | ok declared last =>
    rw [hread] at h
    contradiction
  | error error last =>
    rw [hread] at h
    obtain rfl := Option.some.inj h
    obtain ⟨list, hheader, hannotations | ⟨uses, elements, element, given, huses, hturn,
      hdefault, herror⟩⟩ := Reader.declaration_deep_iff.1 hread
    · exact .inl ⟨list, .declaration hkind hpackage hheader, hannotations⟩
    · exact .inr ⟨given, ⟨hkind, hpackage, list, uses, elements, element, hheader, huses, hturn,
        hdefault⟩, herror⟩

lemma isDeepAt_member {owner : String} {header : Reader (Member × Location)} {read : Section}
    (hblock : Block.read scopes cursor = ofSections scopes read) (hshallow : header.Shallow)
    (hfails : ∀ error last, opening header cursor = .error error last →
      read = { failure := some error, cursor := last })
    (hbegins : ∀ member place annotations next,
      opening header cursor = .ok ((member, place), annotations) next →
        Begins scopes cursor ⟨owner, scopes.packageName, some member⟩
          ⟨.declaration, place, annotations⟩ next)
    (hlist : ∀ opened list, header cursor = .ok opened list → AnnotationsAt scopes cursor list)
    (h : read.failure = some (.tooDeep place)) : IsDeepAt scopes cursor place read.cursor := by
  cases hopening : opening header cursor with
  | error error last =>
    obtain rfl := hfails error last hopening
    obtain rfl := Option.some.inj h
    obtain ⟨opened, list, hheader, herror⟩ := (Reader.opening_deep_iff hshallow).1 hopening
    exact .inl ⟨list, hlist opened list hheader, herror⟩
  | ok opened next =>
    obtain ⟨⟨member, keyword⟩, annotations⟩ := opened
    have hbegins := hbegins member keyword annotations next hopening
    obtain ⟨parts, hruns, -⟩ := (read_adds scopes cursor).parts _ _ _ hbegins
    rw [hblock] at hruns
    obtain ⟨part, after, list, hreaches, hopens, herror⟩ := hruns.deep_iff.1 ⟨h, rfl⟩
    exact .inl ⟨list, .part hbegins hreaches hopens, herror⟩

lemma isDeepAt_of_known {sections : String → String → Cursor → Section}
    (hknown : ∀ owner, scopes.owner = .known owner →
      (sections owner scopes.packageName cursor).failure = some (.tooDeep place) →
        IsDeepAt scopes cursor place (sections owner scopes.packageName cursor).cursor)
    (h : (member sections scopes cursor).failure = some (.tooDeep place)) :
    IsDeepAt scopes cursor place (member sections scopes cursor).cursor := by
  unfold member at h ⊢
  split at h
  · rename_i owner howner
    exact hknown owner howner h
  · contradiction
  · exact absurd (Option.some.inj h) (Cursor.unexpected_ne_tooDeep _ _ _)

lemma isDeepAt_method (hkind : cursor.kind? = some .methodWord)
    (h : (member Section.method scopes cursor).failure = some (.tooDeep place)) :
    IsDeepAt scopes cursor place (member Section.method scopes cursor).cursor := by
  refine isDeepAt_of_known (fun owner howner => ?_) h
  have hblock : read scopes cursor =
      ofSections scopes (Section.method owner scopes.packageName cursor) := by
    rw [read, hkind]
    simp only [member, howner]
  exact isDeepAt_member hblock shallow.methodHeader.shallow
    (fun _ _ herror => by rw [Section.method, herror])
    (fun _ _ _ _ => .method hkind howner) fun _ _ => .method hkind howner

lemma isDeepAt_field (hkind : cursor.kind? = some .fieldWord)
    (h : (member Section.field scopes cursor).failure = some (.tooDeep place)) :
    IsDeepAt scopes cursor place (member Section.field scopes cursor).cursor := by
  refine isDeepAt_of_known (fun owner howner => ?_) h
  have hblock : read scopes cursor =
      ofSections scopes (Section.field owner scopes.packageName cursor) := by
    rw [read, hkind]
    simp only [member, howner]
  exact isDeepAt_member hblock shallow.fieldHeader.shallow
    (fun _ _ herror => by rw [Section.field, herror])
    (fun _ _ _ _ => .field hkind howner) fun _ _ => .field hkind howner

lemma isDeepAt_of_failure (h : (read scopes cursor).failure = some (.tooDeep place)) :
    IsDeepAt scopes cursor place (read scopes cursor).cursor := by
  unfold read at h ⊢
  split at h
  · unfold package at h
    split at h
    · contradiction
    · rename_i hheader
      obtain rfl := Option.some.inj h
      exact absurd hheader (shallow.packageHeader rfl (.inl rfl)).shallow
  · rename_i hkind
    split at h
    · contradiction
    · rename_i hpackage
      rw [if_neg hpackage]
      exact isDeepAt_ofClass hkind hpackage h
  · rename_i hkind
    split at h
    · contradiction
    · rename_i hpackage
      rw [if_neg hpackage]
      exact isDeepAt_declaration hkind hpackage h
  · rename_i hkind
    exact isDeepAt_method hkind h
  · rename_i hkind
    exact isDeepAt_field hkind h
  · exact absurd (Option.some.inj h) (Cursor.unexpected_ne_tooDeep _ _ _)

/-- The values that the parser comes to in a block, with their depths: an argument of an annotation
is at depth one, and a default at depth zero. -/
inductive Meets (scopes : Scopes) (cursor : Cursor) : Nat → Cursor → Prop
  | argument {list sign given value : Cursor} {depth : Nat}
      (hlist : AnnotationsAt scopes cursor list)
      (hsign : Reader.Turn (·.isAt .atSign) Reader.annotationUse list sign)
      (hgiven : Reader.ArgumentAt (Reader.valueAt 1) sign given)
      (hcomes : Reader.Comes 1 given depth value) : Meets scopes cursor depth value
  | default {given value : Cursor} {depth : Nat} (hgiven : DefaultAt scopes cursor given)
      (hcomes : Reader.Comes 0 given depth value) : Meets scopes cursor depth value

/-- A block is reported for its depth where it comes to a value beyond the limit, and nowhere
else. -/
lemma deep_iff :
    (read scopes cursor).failure = some (.tooDeep place) ∧ (read scopes cursor).cursor = last ↔
      ∃ depth, Meets scopes cursor depth last ∧ maxValueDepth < depth ∧ last.place = place := by
  constructor
  · rintro ⟨hfailure, rfl⟩
    rcases isDeepAt_of_failure hfailure with ⟨list, hlist, herror⟩ | ⟨given, hgiven, herror⟩
    · obtain ⟨sign, given, hsign, hgiven, herror⟩ := Reader.annotations_deep_iff.1 herror
      obtain ⟨depth, hcomes, hrest⟩ := Reader.valueAt_deep_iff.1 herror
      exact ⟨depth, .argument hlist hsign hgiven hcomes, hrest⟩
    · obtain ⟨depth, hcomes, hrest⟩ := Reader.valueAt_deep_iff.1 herror
      exact ⟨depth, .default hgiven hcomes, hrest⟩
  · rintro ⟨depth, hmeets, hrest⟩
    cases hmeets with
    | argument hlist hsign hgiven hcomes =>
      have herror := Reader.valueAt_deep_iff.2 ⟨depth, hcomes, hrest⟩
      exact failure_of_annotations hlist
        (Reader.annotations_deep_iff.2 ⟨_, _, hsign, hgiven, herror⟩)
    | default hgiven hcomes =>
      exact failure_of_default hgiven (Reader.valueAt_deep_iff.2 ⟨depth, hcomes, hrest⟩)

lemma Meets.le {depth : Nat} (h : Meets scopes cursor depth last) : depth ≤ maxValueDepth + 2 := by
  cases h with
  | argument _ _ _ hcomes => exact hcomes.le (by decide)
  | default _ hcomes => exact hcomes.le (by decide)

end Block

end ExternalAnnotations
