import ExternalAnnotations.Index.MemberReader

/-!
# Sections of a block

The annotations in a member block stand in sections: for the member itself, for what a method
returns, for a parameter, and for the type of a parameter or field. The keyword of a further
section shows that the sections before it are complete. The entries of the last section are held,
and they are kept only if the block ends as it should.
-/

namespace ExternalAnnotations

/-- The element that a block is about: a class or one of its members. -/
structure Subject where
  owner : String
  package : String
  member : Option Member

/-- The entry for a part of an element. There is none for no annotations. -/
def Subject.entry (subject : Subject) (placement : Placement) (place : Location)
    (annotations : List AnnotationUse) : List Entry :=
  if annotations.isEmpty then []
  else [⟨subject.owner, subject.package, subject.member, placement, annotations, place⟩]

/-- What some sections contribute, and where they end or fail. -/
structure Section where
  complete : List Entry := []
  held : List Entry := []
  failure : Option SyntaxError := none
  cursor : Cursor

namespace Section

/-- The entries that remain of a block with these sections. -/
def kept (sections : Section) : List Entry :=
  if sections.failure.isSome then sections.complete else sections.complete ++ sections.held

/-- The sections with complete entries before them. -/
def after (entries : List Entry) (sections : Section) : Section :=
  { sections with complete := entries ++ sections.complete }

/-- Reads the header of a section and the annotations after it. -/
def opening {α : Type} (header : Reader α) : Reader (α × List AnnotationUse) := do
  let opened ← header
  return (opened, ← Reader.annotations)

/-- Reads the section for a type, if there is one. -/
def type (subject : Subject) (placement : Placement) (place : Location) (held : List Entry)
    (cursor : Cursor) : Section :=
  if cursor.isAt .typeWord then
    match opening Reader.typeHeader cursor with
    | .ok (_, annotations) next =>
      { complete := held, held := subject.entry placement place annotations, cursor := next }
    | .error error next => { complete := held, failure := some error, cursor := next }
  else { held, cursor }

/-- Reads the section for what a method returns. -/
def result (subject : Subject) (cursor : Cursor) : Section :=
  match opening Reader.returnHeader cursor with
  | .ok (place, annotations) next =>
    { held := subject.entry .returnType place annotations, cursor := next }
  | .error error next => { failure := some error, cursor := next }

/-- Reads the section for a parameter and the one for its type. -/
def parameter (subject : Subject) (cursor : Cursor) : Section :=
  match opening Reader.parameterHeader cursor with
  | .ok ((position, place), annotations) next =>
    type subject (.parameterType position) place
      (subject.entry (.parameter position) place annotations) next
  | .error error next => { failure := some error, cursor := next }

/-- Reads the next section of a method block. -/
def next (subject : Subject) (cursor : Cursor) : Section :=
  if cursor.isAt .returnWord then result subject cursor
  else if cursor.isAt .parameterWord then parameter subject cursor
  else
    { failure := some (cursor.unexpected "'return', 'parameter', '@' or a new block"), cursor }

/-- Whether the section of another part of a method begins. -/
def begins (cursor : Cursor) : Bool := cursor.isAt .returnWord || cursor.isAt .parameterWord

/-- Reads the sections of a method block after the one for the method itself, whose entries are
held. Every section takes at least its keyword, which is why this ends. -/
def following (subject : Subject) (held : List Entry) (cursor : Cursor) : Section :=
  if Reader.withinBlock cursor then
    let read := next subject cursor
    if read.failure.isNone && read.cursor.rest.length < cursor.rest.length then
      (following subject read.held read.cursor).after (held ++ read.complete)
    else if begins cursor then read.after held
    else read
  else { held, cursor }
termination_by cursor.rest.length
decreasing_by grind

/-- Reads a method block. -/
def method (owner package : String) (cursor : Cursor) : Section :=
  match opening Reader.methodHeader cursor with
  | .ok ((member, place), annotations) next =>
    let subject : Subject := ⟨owner, package, some member⟩
    following subject (subject.entry .declaration place annotations) next
  | .error error next => { failure := some error, cursor := next }

/-- Reads a field block. -/
def field (owner package : String) (cursor : Cursor) : Section :=
  match opening Reader.fieldHeader cursor with
  | .ok ((member, place), annotations) next =>
    let subject : Subject := ⟨owner, package, some member⟩
    let read := type subject .fieldType place (subject.entry .declaration place annotations) next
    if read.failure.isNone && Reader.withinBlock read.cursor then
      { read with failure := some (read.cursor.unexpected "'type', '@' or a new block") }
    else read
  | .error error next => { failure := some error, cursor := next }

end Section

end ExternalAnnotations
