import ExternalAnnotations.Proofs.Index.DepthBlocks

/-!
# The limits of the parser

A value that was read at some depth has no more levels than there was room for, since one that did
would have been found too deep. So nothing in an index is nested beyond the limit. Together with
what is known of the rounds and of the blocks this bounds all that the parser does.
-/

namespace ExternalAnnotations

/-! ### Heights -/

lemma WrittenValue.maxHeight_le {items : List WrittenValue} {bound : Nat}
    (h : ∀ value ∈ items, value.height ≤ bound) : maxHeight items ≤ bound := by
  induction items with
  | nil => exact Nat.zero_le bound
  | cons value items ih =>
    obtain ⟨hvalue, hitems⟩ := List.forall_mem_cons.1 h
    exact max_le hvalue (ih hitems)

lemma AnnotationUse.height_le {use : AnnotationUse} {bound : Nat}
    (h : ∀ field ∈ use.values, field.2.height + 1 ≤ bound) : use.height ≤ bound := by
  obtain ⟨typeName, fields, place⟩ := use
  rw [AnnotationUse.height]
  induction fields with
  | nil => exact Nat.zero_le bound
  | cons field fields ih =>
    obtain ⟨hfield, hfields⟩ := List.forall_mem_cons.1 h
    exact max_le hfield (ih hfields)

lemma forall_mem_of_forall₂_left {α β : Type} {property : α → Prop} {items : List α}
    {others : List β} (h : List.Forall₂ (fun item _ => property item) items others) :
    ∀ item ∈ items, property item := by
  have hboth : List.Forall₂ (fun item _ => property item ∧ True) items others :=
    h.imp fun _ _ hitem => ⟨hitem, trivial⟩
  exact ((List.forall₂_and_left items others).1 hboth).1

lemma WrittenValue.height_le_of_isPlain {value : WrittenValue} (room : Nat) (h : value.isPlain) :
    value.height ≤ room + 1 := by
  cases value with
  | array items => exact absurd h Bool.false_ne_true
  | nested use => exact absurd h Bool.false_ne_true
  | _ => exact Nat.le_add_left 1 room

lemma WrittenValue.height_array_le {items : List WrittenValue} {room : Nat}
    (h : ∀ item ∈ items, item.height ≤ room) : (WrittenValue.array items).height ≤ room + 1 := by
  rw [WrittenValue.height]
  exact Nat.succ_le_succ (maxHeight_le h)

lemma WrittenValue.height_nested_le {use : AnnotationUse} {room : Nat}
    (h : ∀ field ∈ use.values, field.2.height ≤ room - 1) :
    (WrittenValue.nested use).height ≤ room + 1 := by
  rw [WrittenValue.height]
  refine Nat.succ_le_succ (AnnotationUse.height_le fun field hmem => ?_)
  have hheight := h field hmem
  have hpos := field.2.height_pos
  omega

/-- A reading and itself, of which the values have no more levels than there was room for. -/
def heights : ValueRelation [] where
  toReaderRelation := walking.toReaderRelation
  Value room value _ := value.height ≤ room
  tooDeep := walking.tooDeep
  plain := WrittenValue.height_le_of_isPlain
  array h := WrittenValue.height_array_le (forall_mem_of_forall₂_left h)
  nested h := WrittenValue.height_nested_le
    (forall_mem_of_forall₂_left (h.values.imp fun _ _ hfield => hfield.2))

lemma height_le_of_uses {uses others : List AnnotationUse}
    (h : List.Forall₂ (heights.Use (heights.Value maxValueDepth)) uses others) :
    ∀ use ∈ uses, use.height ≤ maxValueDepth + 1 := by
  refine forall_mem_of_forall₂_left (h.imp fun use _ huse => AnnotationUse.height_le ?_)
  have hfields : ∀ field ∈ use.values, field.2.height ≤ maxValueDepth :=
    forall_mem_of_forall₂_left (huse.values.imp fun _ _ hfield => hfield.2)
  exact fun field hmem => Nat.succ_le_succ (hfields field hmem)

lemma ReaderRelation.Relates.yields {α : Type} {l : Language Token} {same : α → α → Prop}
    {property : α → Prop} {reader reader' : Reader α} (h : heights.Relates l same reader reader')
    (hsame : ∀ a a', same a a' → property a) : Reader.Yields property reader := by
  intro cursor a next hread
  have hgives := h (rfl : cursor = cursor)
  rw [hread] at hgives
  generalize reader' cursor = result at hgives
  cases hgives with
  | ok _ _ ha => exact hsame _ _ ha

namespace Reader.Yields

variable {α β : Type}

lemma andThen {property : α → Prop} {found : β → Prop} {reader : Reader α} {next : α → Reader β}
    (h : Yields property reader) (hnext : ∀ a, property a → Yields found (next a)) :
    Yields found (reader >>= next) := by
  intro cursor b last hread
  obtain ⟨a, middle, hok, hread⟩ := ok_of_bind hread
  exact hnext a (h cursor a middle hok) middle b last hread

lemma opening (header : Reader α) :
    Yields (fun opened => ∀ use ∈ opened.2, use.height ≤ maxValueDepth + 1)
      (Section.opening header) :=
  bind fun _ => (heights.annotations.yields fun _ _ => height_le_of_uses).andThen
    fun _ huses => pure huses

end Reader.Yields

/-! ### Indexes -/

/-- Every annotation and every default in an index is nested within the limit. -/
structure Index.WithinLimit (index : Index) : Prop where
  entries : ∀ entry ∈ index.entries, ∀ use ∈ entry.annotations, use.height ≤ maxValueDepth + 1
  annotations : ∀ declaration ∈ index.declarations, ∀ use ∈ declaration.annotations,
    use.height ≤ maxValueDepth + 1
  defaults : ∀ declaration ∈ index.declarations, ∀ element ∈ declaration.elements,
    ∀ value ∈ element.default, value.height ≤ maxValueDepth + 1

namespace Index.WithinLimit

lemma empty : WithinLimit {} := ⟨nofun, nofun, nofun⟩

lemma append {first second : Index} (h : first.WithinLimit) (h' : second.WithinLimit) :
    (first ++ second).WithinLimit where
  entries entry hmem := (List.mem_append.1 hmem).elim (h.entries entry) (h'.entries entry)
  annotations declaration hmem :=
    (List.mem_append.1 hmem).elim (h.annotations declaration) (h'.annotations declaration)
  defaults declaration hmem :=
    (List.mem_append.1 hmem).elim (h.defaults declaration) (h'.defaults declaration)

end Index.WithinLimit

namespace Subject

variable {subject : Subject} {first : Part} {start last : Cursor} {parts : List (Part × Cursor)}
  {failure : Option SyntaxError} {entry : Entry}

lemma annotations_of_further {part : Part} {after : Cursor} {reader : Reader Part}
    (h : subject.further? part after = some reader) :
    Reader.Yields (∀ use ∈ ·.annotations, use.height ≤ maxValueDepth + 1) reader := by
  rcases reader_of_further h with rfl | rfl | ⟨placement, place, rfl⟩
  all_goals exact (Reader.Yields.opening _).andThen fun _ huses => .pure huses

lemma Runs.within (h : subject.Runs first start parts failure last)
    (hfirst : ∀ use ∈ first.annotations, use.height ≤ maxValueDepth + 1) :
    ∀ part ∈ parts, ∀ use ∈ part.1.annotations, use.height ≤ maxValueDepth + 1 := by
  induction h with
  | ends => exact List.forall_mem_singleton.2 hfirst
  | strays => exact List.forall_mem_singleton.2 hfirst
  | breaks => exact List.forall_mem_singleton.2 hfirst
  | goes hfurther hread hrest ih =>
    exact List.forall_mem_cons.2 ⟨hfirst, ih (annotations_of_further hfurther _ _ _ hread)⟩

lemma annotations_of_mem {placement : Placement} {place : Location}
    {annotations : List AnnotationUse} (h : entry ∈ subject.entry placement place annotations) :
    entry.annotations = annotations := by
  unfold Subject.entry at h
  split at h
  · contradiction
  · obtain rfl := List.mem_singleton.1 h
    rfl

lemma completed_subset (parts : List (Part × Cursor)) :
    subject.completed parts ⊆ subject.allEntries parts := by
  intro entry hmem
  obtain ⟨part, hpart, hentry⟩ := List.mem_flatMap.1 hmem
  exact List.mem_flatMap.2 ⟨part, List.mem_of_mem_filter hpart, hentry⟩

end Subject

namespace Block

variable {scopes : Scopes} {cursor next : Cursor} {subject : Subject} {part : Part}

lemma Begins.within (h : Begins scopes cursor subject part next) :
    ∀ use ∈ part.annotations, use.height ≤ maxValueDepth + 1 := by
  cases h with
  | ofClass _ _ hread => exact Reader.Yields.opening _ _ _ _ hread
  | method _ _ hread => exact Reader.Yields.opening _ _ _ _ hread
  | field _ _ hread => exact Reader.Yields.opening _ _ _ _ hread

lemma entries_within (scopes : Scopes) (cursor : Cursor) :
    ∀ entry ∈ (read scopes cursor).parsed.index.entries, ∀ use ∈ entry.annotations,
      use.height ≤ maxValueDepth + 1 := by
  have hadds := read_adds scopes cursor
  by_cases hbegins : ∃ subject part next, Begins scopes cursor subject part next
  · obtain ⟨subject, part, next, hbegins⟩ := hbegins
    obtain ⟨parts, hruns, hentries⟩ := hadds.parts subject part next hbegins
    have hall : (read scopes cursor).parsed.index.entries ⊆ subject.allEntries parts := by
      rw [hentries]
      split
      · exact Subject.completed_subset parts
      · exact List.Subset.refl _
    intro entry hmem
    obtain ⟨part, hpart, hentry⟩ := List.mem_flatMap.1 (hall hmem)
    rw [Subject.annotations_of_mem hentry]
    exact hruns.within hbegins.within part hpart
  · rw [hadds.none fun subject part next h => hbegins ⟨subject, part, next, h⟩]
    exact nofun

lemma declaration_within (package : String) : Reader.Yields (fun declaration : Declaration =>
    (∀ use ∈ declaration.annotations, use.height ≤ maxValueDepth + 1) ∧
      ∀ element ∈ declaration.elements, ∀ value ∈ element.default,
        value.height ≤ maxValueDepth + 1) (Reader.declaration package) := by
  refine (heights.declaration package).yields fun declaration other h =>
    ⟨height_le_of_uses h.annotations, ?_⟩
  refine forall_mem_of_forall₂_left (h.elements.imp fun element other helement value hvalue => ?_)
  have hdefault := helement.default
  rw [Option.mem_def.1 hvalue] at hdefault
  generalize other.default = found at hdefault
  cases hdefault with
  | some hheight => exact hheight

lemma declarations_of_read (scopes : Scopes) (cursor : Cursor) :
    ∀ declared ∈ (read scopes cursor).parsed.index.declarations,
      ∃ last, Reader.declaration scopes.packageName cursor = .ok declared last := by
  intro declared hmem
  have hmember (sections : String → String → Cursor → Section) :
      declared ∉ (member sections scopes cursor).parsed.index.declarations := by
    unfold member
    split <;> exact nofun
  unfold read at hmem
  split at hmem
  · unfold package at hmem
    split at hmem <;> contradiction
  · split at hmem
    · contradiction
    · unfold ofClass at hmem
      split at hmem
      · contradiction
      · split at hmem <;> contradiction
  · split at hmem
    · contradiction
    · unfold declaration at hmem
      split at hmem
      · contradiction
      · rename_i hread
        obtain rfl := List.mem_singleton.1 hmem
        exact ⟨_, hread⟩
  · exact absurd hmem (hmember _)
  · exact absurd hmem (hmember _)
  · contradiction

lemma within_read (scopes : Scopes) (cursor : Cursor) :
    (read scopes cursor).parsed.index.WithinLimit where
  entries := entries_within scopes cursor
  annotations := by
    intro declared hmem
    obtain ⟨last, hread⟩ := declarations_of_read scopes cursor declared hmem
    exact (declaration_within _ _ _ _ hread).1
  defaults := by
    intro declared hmem
    obtain ⟨last, hread⟩ := declarations_of_read scopes cursor declared hmem
    exact (declaration_within _ _ _ _ hread).2

end Block

lemma Rounds.within {source : String} {said : Parsed} {scopes : Scopes} {cursor : Cursor}
    (h : Rounds source said scopes cursor) : said.index.WithinLimit := by
  induction h with
  | start => exact .empty
  | @step said scopes cursor h hn ih =>
    change (said.index ++ ((Block.read scopes cursor).outcome source.toList).index).WithinLimit
    rw [Block.index_outcome]
    exact ih.append (Block.within_read scopes cursor)

/-- A text is reported for its depth only where one of its blocks comes to a value beyond the
limit. -/
lemma Rounds.meets_of_mem {source : String} {said : Parsed} {scopes : Scopes} {cursor : Cursor}
    {place : Location} (h : Rounds source said scopes cursor)
    (hmem : .ofSyntaxError source.toList (.tooDeep place) ∈ said.diagnostics) :
    ∃ said scopes cursor, Rounds source said scopes cursor ∧ cursor.rest ≠ [] ∧
      ∃ depth value, Block.Meets scopes cursor depth value ∧ maxValueDepth < depth ∧
        value.place = place := by
  induction h with
  | start => contradiction
  | @step said scopes cursor h hn ih =>
    rcases List.mem_append.1 hmem with hmem | hmem
    · exact ih hmem
    · rw [Block.diagnostics_outcome] at hmem
      obtain ⟨error, herror, heq⟩ := List.mem_map.1 hmem
      obtain ⟨rfl, -⟩ := Diagnostic.malformed.inj heq
      obtain ⟨depth, hmeets, hdeep⟩ := Block.deep_iff.1 ⟨Option.mem_toList.1 herror, rfl⟩
      exact ⟨said, scopes, cursor, h, hn, depth, _, hmeets, hdeep⟩

lemma Rounds.mem_of_meets {source : String} {said : Parsed} {scopes : Scopes}
    {cursor value : Cursor} {place : Location} {depth : Nat} (h : Rounds source said scopes cursor)
    (hn : cursor.rest ≠ []) (hmeets : Block.Meets scopes cursor depth value)
    (hdeep : maxValueDepth < depth ∧ value.place = place) :
    .ofSyntaxError source.toList (.tooDeep place) ∈ (parse source).diagnostics := by
  obtain ⟨hfailure, -⟩ := Block.deep_iff.2 ⟨depth, hmeets, hdeep⟩
  rw [(h.step hn).parse_eq]
  refine List.mem_append_left _ (List.mem_append_right _ ?_)
  exact Block.mem_diagnostics_outcome hfailure

/-- **Progress and depth.** Every round of the parser ends behind the token at which it begins,
whatever becomes of the block. So the rounds come to the end of every text, and there are no more
diagnostics than tokens. The loops in a block end in the same way. A value that is nested in another
one is deeper and begins at a later token. It is not read if it is beyond the limit, so the parser
is never deeper in values than one annotation beyond it: the reading of the block stops there, and
the text is reported for it. No value, no block and no text is too deep for any other reason, and
nothing in the index is. -/
theorem parse_progresses (source : String) :
    (∀ said scopes cursor, Rounds source said scopes cursor → cursor.rest ≠ [] →
      cursor.Precedes ((Block.read scopes cursor).resume cursor)) ∧
    (∃ scopes last, Rounds source (parse source) scopes last ∧ last.rest = []) ∧
    (parse source).diagnostics.length ≤ (significantTokens source).length ∧
    LoopsProgress ∧
    (∀ depth start inner next, Reader.Nests depth start inner next →
      depth < inner ∧ start.Precedes next) ∧
    (∀ depth start place last, Reader.valueAt depth start = .error (.tooDeep place) last ↔
      ∃ inner, Reader.Comes depth start inner last ∧ maxValueDepth < inner ∧ last.place = place) ∧
    (∀ scopes cursor depth value, Block.Meets scopes cursor depth value →
      depth ≤ maxValueDepth + 2) ∧
    (∀ scopes cursor place last,
      (Block.read scopes cursor).failure = some (.tooDeep place) ∧
          (Block.read scopes cursor).cursor = last ↔
        ∃ depth, Block.Meets scopes cursor depth last ∧ maxValueDepth < depth ∧
          last.place = place) ∧
    (∀ place, .ofSyntaxError source.toList (.tooDeep place) ∈ (parse source).diagnostics ↔
      ∃ said scopes cursor, Rounds source said scopes cursor ∧ cursor.rest ≠ [] ∧
        ∃ depth value, Block.Meets scopes cursor depth value ∧ maxValueDepth < depth ∧
          value.place = place) ∧
    (parse source).index.WithinLimit := by
  obtain ⟨scopes, last, hends, hnil⟩ := (@Rounds.start source).ends
  have hlength := hends.length_diagnostics_le
  rw [hnil, List.length_nil, Nat.add_zero] at hlength
  exact ⟨fun _ _ _ h => h.precedes, ⟨scopes, last, hends, hnil⟩, hlength, loopsProgress,
    fun _ _ _ _ => Reader.Nests.lt_and_precedes, fun _ _ _ _ => Reader.valueAt_deep_iff,
    fun _ _ _ _ => Block.Meets.le, fun _ _ _ _ => Block.deep_iff,
    fun _ => ⟨hends.meets_of_mem, fun ⟨_, _, _, hround, hn, _, _, hmeets, hdeep⟩ =>
      hround.mem_of_meets hn hmeets hdeep⟩, hends.within⟩

/-- The argument is at depth one, so the items of the sixty-fourth array are beyond the limit. -/
example :
    let text (depth : Nat) := String.ofList ("class C: @A(".toList ++ List.replicate depth '\x7b')
    let failure (depth : Nat) :=
      (Block.read .none (.ofTokens (significantTokens (text depth)))).failure
    failure 64 = some (.tooDeep ⟨1, 77, 76⟩) ∧
      failure 63 = some (.unexpectedEnd "annotation value" ⟨1, 76, 75⟩) := by
  decide +kernel

end ExternalAnnotations
