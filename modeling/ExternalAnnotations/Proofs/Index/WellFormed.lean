import ExternalAnnotations.Proofs.Index.AlikeBlocks
import ExternalAnnotations.Proofs.Index.Walking
import ExternalAnnotations.Proofs.Signature.Codec
import ExternalAnnotations.Proofs.Token.Touching

/-!
# What every text gives

However malformed a text is, its entries are for classes and members that are named in it, they are
for parts that such a member has, and they come in the order in which they are written, as do
declarations and diagnostics. Each section, and from it each block, keeps to what is between the
places where it starts and where it ends.
-/

namespace ExternalAnnotations

open Cursor (LeadsTo)

/-! ### In the order of the text -/

/-- Offsets between two others that do not decrease. -/
structure Ascending (first last : Nat) (offsets : List Nat) : Prop where
  le : first ≤ last
  within : ∀ offset ∈ offsets, first ≤ offset ∧ offset ≤ last
  sorted : offsets.Pairwise (· ≤ ·)

namespace Ascending

variable {first middle last : Nat} {offsets others : List Nat}

lemma nil (h : first ≤ last) : Ascending first last [] := ⟨h, by simp, .nil⟩

lemma of_eq (h : first ≤ last) (hall : ∀ offset ∈ offsets, offset = first) :
    Ascending first last offsets where
  le := h
  within offset hmem := by
    obtain rfl := hall offset hmem
    exact ⟨le_rfl, h⟩
  sorted := List.pairwise_of_forall_mem_list fun offset hmem other hmem' =>
    (hall offset hmem).trans (hall other hmem').symm |>.le

lemma append (h : Ascending first middle offsets) (h' : Ascending middle last others) :
    Ascending first last (offsets ++ others) where
  le := h.le.trans h'.le
  within offset hmem := by
    rcases List.mem_append.1 hmem with hmem | hmem
    · exact ⟨(h.within offset hmem).1, (h.within offset hmem).2.trans h'.le⟩
    · exact ⟨h.le.trans (h'.within offset hmem).1, (h'.within offset hmem).2⟩
  sorted := List.pairwise_append.2 ⟨h.sorted, h'.sorted, fun offset hmem other hmem' =>
    (h.within offset hmem).2.trans (h'.within other hmem').1⟩

lemma sublist (h : Ascending first last offsets) (hsub : others.Sublist offsets) :
    Ascending first last others :=
  ⟨h.le, fun offset hmem => h.within offset (hsub.subset hmem), h.sorted.sublist hsub⟩

lemma after (h : Ascending middle last offsets) (hle : first ≤ middle) :
    Ascending first last offsets := (nil hle).append h

end Ascending

namespace Cursor

def offset (cursor : Cursor) : Nat := cursor.place.offset

/-- Each token ahead starts behind the one before it. -/
structure Ordered (cursor : Cursor) : Prop where
  rest : cursor.rest.Pairwise fun token later => token.finish.offset ≤ later.start.offset
  previous : ∀ last ∈ cursor.previous, ∀ token ∈ cursor.rest,
    last.finish.offset ≤ token.start.offset

lemma ordered_significantTokens (source : String) :
    (ofTokens (significantTokens source)).Ordered :=
  ⟨pairwise_significantTokens source, by simp [ofTokens]⟩

lemma Ordered.forward {cursor : Cursor} (h : cursor.Ordered) :
    cursor.forward.Ordered ∧ cursor.offset ≤ cursor.forward.offset := by
  obtain ⟨previous, rest⟩ := cursor
  cases rest with
  | nil => exact ⟨h, le_rfl⟩
  | cons token rest =>
    obtain ⟨hbehind, hrest⟩ := List.pairwise_cons.1 h.rest
    refine ⟨⟨hrest, fun last hlast later hlater => ?_⟩, token.start_le_finish.trans ?_⟩
    · obtain rfl := Option.some.inj hlast
      exact hbehind later hlater
    · cases rest with
      | nil => exact le_rfl
      | cons later rest => exact hbehind later List.mem_cons_self

lemma LeadsTo.ordered {cursor next : Cursor} (h : cursor.LeadsTo next) (ho : cursor.Ordered) :
    next.Ordered ∧ cursor.offset ≤ next.offset := by
  induction h with
  | refl => exact ⟨ho, le_rfl⟩
  | tail _ hstep ih =>
    obtain rfl := hstep
    exact ⟨ih.1.forward.1, ih.2.trans ih.1.forward.2⟩

end Cursor

/-- Between two places the parser goes on, and what it reports is at a place on the way. -/
structure Reports (start : Cursor) (failure : Option SyntaxError) (next : Cursor) : Prop where
  leadsTo : start.LeadsTo next
  fault : ∀ error ∈ failure, ∃ fault, start.LeadsTo fault ∧ error.place = fault.place ∧
    fault.LeadsTo next

namespace Reports

variable {start middle next : Cursor} {failure : Option SyntaxError}

lemma none (h : start.LeadsTo next) : Reports start none next := ⟨h, nofun⟩

lemma of_error {α : Type} {error : SyntaxError}
    (h : Reader.Walks start (.error error next : EStateM.Result SyntaxError Cursor α)) :
    Reports start (some error) next := by
  cases h with
  | error fault hfault hplace hnext =>
    refine ⟨hfault.trans hnext, fun _ h => ?_⟩
    obtain rfl := Option.some.inj h
    exact ⟨fault, hfault, hplace, hnext⟩

lemma unexpected (expected : String) :
    Reports start (some (start.unexpected expected)) start := by
  have hfail : walking.Gives ⊤ Eq start ((Reader.fail expected : Reader Unit) start)
    (Reader.fail expected start) := .fail expected rfl
  exact of_error hfail.walks

lemma after (h : start.LeadsTo middle) (hreports : Reports middle failure next) :
    Reports start failure next := by
  refine ⟨h.trans hreports.leadsTo, fun error herror => ?_⟩
  obtain ⟨fault, hfault, hplace, hnext⟩ := hreports.fault error herror
  exact ⟨fault, h.trans hfault, hplace, hnext⟩

lemma ascending (h : Reports start failure next) (ho : start.Ordered) :
    Ascending start.offset next.offset (failure.toList.map (·.place.offset)) := by
  have hle := (h.leadsTo.ordered ho).2
  cases failure with
  | none => exact .nil hle
  | some error =>
    obtain ⟨fault, hfault, hplace, hnext⟩ := h.fault error rfl
    obtain ⟨hordered, hbefore⟩ := hfault.ordered ho
    have hbehind := (hnext.ordered hordered).2
    have hoffset : error.place.offset = fault.offset := congrArg Location.offset hplace
    refine ⟨hle, fun offset hmem => ?_, List.pairwise_singleton _ _⟩
    obtain rfl := List.mem_singleton.1 hmem
    simp only [hoffset]
    exact ⟨hbefore, hbehind⟩

end Reports

/-! ### Where a method is written -/

/-- The tokens of a text around the descriptor of a method: the keyword, the name, the descriptor,
with nothing but trivia at its ends, and a colon. -/
structure MethodText (source : String) where
  before : List Token
  keyword : Token
  gap : List Token
  name : Token
  leading : List Token
  descriptor : List Token
  trailing : List Token
  colon : Token
  after : List Token
  tokens_eq : tokens source = before ++ keyword :: (gap ++ name ::
    (leading ++ descriptor ++ trailing ++ colon :: after))
  keyword_kind : keyword.kind = .methodWord
  name_kind : Reader.isMethodName name.kind = true
  colon_kind : colon.kind = .colon
  trivia : ∀ token ∈ gap ++ leading ++ trailing, token.kind.isTrivia = true

lemma MethodText.exists_of_significant {source : String} {before descriptor after : List Token}
    {keyword name first colon : Token}
    (h : significantTokens source =
      before ++ keyword :: name :: ((first :: descriptor) ++ colon :: after))
    (hkeyword : keyword.kind = .methodWord) (hname : Reader.isMethodName name.kind = true)
    (hcolon : colon.kind = .colon)
    (htouch : (first :: descriptor).IsChain fun last token =>
      token.start.offset = last.finish.offset) :
    ∃ text : MethodText source, text.keyword = keyword ∧ text.name = name ∧
      text.descriptor = first :: descriptor := by
  obtain ⟨earlier, _, htokens, -, h⟩ := List.filter_eq_append_iff.1 h
  obtain ⟨leadIn, _, rfl, -, -, h⟩ := List.filter_eq_cons_iff.1 h
  obtain ⟨gap, _, rfl, hgap, -, h⟩ := List.filter_eq_cons_iff.1 h
  obtain ⟨around, _, rfl, haround, h⟩ := List.filter_eq_append_iff.1 h
  obtain ⟨behind, rest, rfl, hbehind, -, -⟩ := List.filter_eq_cons_iff.1 h
  have hcontiguous := contiguous_tokens source
  rw [htokens, ← List.append_assoc] at hcontiguous
  have hlexemes : ∀ token ∈ around, token.lexeme ≠ "" := fun token hmem => by
    have hall : token ∈ tokens source := by simp [htokens, hmem]
    exact Lexer.lexeme_ne_empty hall
  obtain ⟨leading, trailing, rfl, htrivia⟩ :=
    hcontiguous.behind.behind.left.exists_around_touching (!·.kind.isTrivia) hlexemes haround htouch
  refine ⟨{
    before := earlier ++ leadIn
    keyword, gap, name, leading, descriptor := first :: descriptor
    trailing := trailing ++ behind
    colon, after := rest
    tokens_eq := by rw [htokens]; simp
    keyword_kind := hkeyword
    name_kind := hname
    colon_kind := hcolon
    trivia := fun token hmem => ?_ }, rfl, rfl, rfl⟩
  have hends := htrivia token
  have hgap := hgap token
  have hbehind := hbehind token
  simp only [List.mem_append, Bool.not_eq_true', Bool.not_eq_false, Bool.not_eq_false'] at *
  tauto

/-! ### Entries -/

/-- Whether an element has a part for annotations: a class only itself, a method also what it
returns and its parameters, and a field its type. -/
def hasPart : Option Member → Placement → Bool
  | none, .declaration => true
  | some (.method _ _), .declaration | some (.method _ _), .returnType
  | some (.method _ _), .parameter _ | some (.method _ _), .parameterType _ => true
  | some (.field _), .declaration | some (.field _), .fieldType => true
  | _, _ => false

/-- The header of a class in a package stands in a text. -/
def ClassNamed (source package owner : String) : Prop :=
  ∃ keyword name colon, [keyword, name, colon] <:+: significantTokens source ∧
    keyword.kind = .classWord ∧ name.kind.isName = true ∧ colon.kind = .colon ∧
    owner = if package = "" then name.lexeme else package ++ "." ++ name.lexeme

/-- A method with a descriptor stands in a text before an offset. -/
def MethodNamed (source : String) (name : String) (descriptor : MethodDescriptor) (offset : Nat) :
    Prop :=
  ∃ text : MethodText source, text.name.lexeme = name ∧
    spelled text.descriptor = String.ofList descriptor.encode ∧
    source.toByteArray.extract text.name.finish.offset text.colon.start.offset =
      (spelled text.leading ++ String.ofList descriptor.encode ++
        spelled text.trailing).toByteArray ∧
    text.keyword.start.offset ≤ offset

/-- What holds of the entries of a text. -/
structure Entry.WellFormed (source : String) (entry : Entry) : Prop where
  annotated : entry.annotations ≠ []
  owner : ClassNamed source entry.package entry.owner
  part : hasPart entry.member entry.placement = true
  method : ∀ name descriptor, entry.member = some (.method name descriptor) →
    MethodNamed source name descriptor entry.place.offset

/-- What holds of the entries that are made for an element. -/
structure Subject.Made (subject : Subject) (entry : Entry) : Prop where
  annotated : entry.annotations ≠ []
  owner : entry.owner = subject.owner
  package : entry.package = subject.package
  member : entry.member = subject.member
  part : hasPart entry.member entry.placement = true

lemma Subject.made_of_mem {subject : Subject} {placement : Placement} {place : Location}
    {annotations : List AnnotationUse} {entry : Entry}
    (hpart : hasPart subject.member placement = true)
    (h : entry ∈ subject.entry placement place annotations) :
    subject.Made entry ∧ entry.place = place := by
  unfold Subject.entry at h
  split at h
  · contradiction
  · rename_i hannotations
    obtain rfl := List.mem_singleton.1 h
    exact ⟨⟨by simpa using hannotations, rfl, rfl, rfl, hpart⟩, rfl⟩

/-! ### Headers -/

namespace Reader

variable {α β : Type} {start next : Cursor}

/-- What a reader gives has a property, wherever it starts. -/
def Yields (property : α → Prop) (reader : Reader α) : Prop :=
  ∀ cursor a next, reader cursor = .ok a next → property a

namespace Yields

variable {property : β → Prop}

lemma pure {b : β} (h : property b) : Yields property (Pure.pure b) := by
  intro cursor a next hread
  obtain ⟨rfl, -⟩ := EStateM.Result.ok.inj hread
  exact h

lemma bind {reader : Reader α} {next : α → Reader β} (h : ∀ a, Yields property (next a)) :
    Yields property (reader >>= next) := by
  intro cursor b last hread
  obtain ⟨a, middle, -, hread⟩ := ok_of_bind hread
  exact h a middle b last hread

end Yields

lemma place_of_header {kind : TokenKind} {expected : String} {header : Token → Reader β}
    (place : β → Location) {b : β} (h : (expect kind expected >>= header) start = .ok b next)
    (hplace : ∀ keyword, Yields (place · = keyword.start) (header keyword)) :
    place b = start.place := by
  obtain ⟨keyword, middle, hkeyword, h⟩ := ok_of_bind h
  exact (hplace keyword middle b next h).trans (place_of_token hkeyword).symm

lemma place_of_classHeader {opened : String × Location} (h : classHeader start = .ok opened next) :
    opened.2 = start.place :=
  place_of_header (·.2) h fun _ => .bind fun _ => .bind fun _ => .pure rfl

lemma place_of_methodHeader {opened : Member × Location}
    (h : methodHeader start = .ok opened next) : opened.2 = start.place :=
  place_of_header (·.2) h fun _ => .bind fun _ => .bind fun _ => .bind fun _ => .pure rfl

lemma place_of_fieldHeader {opened : Member × Location}
    (h : fieldHeader start = .ok opened next) : opened.2 = start.place :=
  place_of_header (·.2) h fun _ => .bind fun _ => .bind fun _ => .pure rfl

lemma place_of_returnHeader {place : Location} (h : returnHeader start = .ok place next) :
    place = start.place :=
  place_of_header id h fun _ => .bind fun _ => .pure rfl

lemma place_of_parameterHeader {opened : Nat × Location}
    (h : parameterHeader start = .ok opened next) : opened.2 = start.place :=
  place_of_header (·.2) h fun _ => .bind fun _ => .bind fun _ => .bind fun _ => .pure rfl

lemma place_of_declaration {package : String} {declared : Declaration}
    (h : declaration package start = .ok declared next) : declared.place = start.place :=
  place_of_header (·.place) h fun _ => .bind fun _ => .bind fun _ => .bind fun _ =>
    .bind fun _ => .bind fun _ => .pure rfl

lemma field_of_fieldHeader {opened : Member × Location}
    (h : fieldHeader start = .ok opened next) : ∃ name, opened.1 = .field name := by
  have hyields : Yields (fun opened => ∃ name, opened.1 = Member.field name) fieldHeader :=
    .bind fun _ => .bind fun name => .bind fun _ => .pure ⟨name, rfl⟩
  exact hyields start opened next h

lemma tokens_of_classHeader {opened : String × Location}
    (h : classHeader start = .ok opened next) :
    ∃ keyword name colon, start.rest = keyword :: name :: colon :: next.rest ∧
      keyword.kind = .classWord ∧ name.kind.isName = true ∧ colon.kind = .colon ∧
      name.lexeme = opened.1 := by
  obtain ⟨keyword, middle, hkeyword, h⟩ := ok_of_bind h
  obtain ⟨text, middle', hname, h⟩ := ok_of_bind h
  obtain ⟨name, middle'', htoken, hname⟩ := ok_of_bind hname
  obtain ⟨rfl, rfl⟩ := EStateM.Result.ok.inj hname
  obtain ⟨colon, last, hcolon, h⟩ := ok_of_bind h
  obtain ⟨rfl, rfl⟩ := EStateM.Result.ok.inj h
  obtain ⟨hkeyword, hrest⟩ := rest_of_token hkeyword
  obtain ⟨hname, hrest'⟩ := rest_of_token htoken
  obtain ⟨hcolon, hrest''⟩ := rest_of_token hcolon
  exact ⟨keyword, name, colon, by rw [hrest, hrest', hrest''], beq_iff_eq.1 hkeyword, hname,
    beq_iff_eq.1 hcolon, rfl⟩

lemma tokens_of_descriptor {descriptor : MethodDescriptor}
    (h : Reader.descriptor start = .ok descriptor next) :
    ∃ first others, start.rest = (first :: others) ++ next.rest ∧
      (first :: others).IsChain (fun last token => token.start.offset = last.finish.offset) ∧
      spelled (first :: others) = String.ofList descriptor.encode := by
  obtain ⟨first, middle, hfirst, h⟩ := ok_of_bind h
  obtain ⟨others, last, hothers, h⟩ := ok_of_bind h
  obtain ⟨hrest, -, hchain⟩ := of_descriptorParts hothers
  cases hdecode : MethodDescriptor.decode (String.join ((first :: others).map (·.lexeme))) with
  | error error =>
    simp only [hdecode] at h
    contradiction
  | ok decoded =>
    simp only [hdecode] at h
    obtain ⟨rfl, rfl⟩ := EStateM.Result.ok.inj h
    refine ⟨first, others, ?_, hchain, (MethodDescriptor.decode_eq_ok_iff.1 hdecode).2⟩
    rw [(rest_of_token hfirst).2, hrest, List.cons_append]

lemma tokens_of_methodHeader {opened : Member × Location}
    (h : methodHeader start = .ok opened next) :
    ∃ keyword name first others colon descriptor,
      start.rest = keyword :: name :: ((first :: others) ++ colon :: next.rest) ∧
      keyword.kind = .methodWord ∧ isMethodName name.kind = true ∧ colon.kind = .colon ∧
      (first :: others).IsChain (fun last token => token.start.offset = last.finish.offset) ∧
      spelled (first :: others) = String.ofList descriptor.encode ∧
      opened.1 = .method name.lexeme descriptor := by
  obtain ⟨keyword, middle, hkeyword, h⟩ := ok_of_bind h
  obtain ⟨name, middle', hname, h⟩ := ok_of_bind h
  obtain ⟨descriptor, middle'', hdescriptor, h⟩ := ok_of_bind h
  obtain ⟨colon, last, hcolon, h⟩ := ok_of_bind h
  obtain ⟨rfl, rfl⟩ := EStateM.Result.ok.inj h
  obtain ⟨hkeyword, hrest⟩ := rest_of_token hkeyword
  obtain ⟨hname, hrest'⟩ := rest_of_token hname
  obtain ⟨first, others, hrest'', hchain, hspelled⟩ := tokens_of_descriptor hdescriptor
  obtain ⟨hcolon, hlast⟩ := rest_of_token hcolon
  exact ⟨keyword, name, first, others, colon, descriptor,
    by rw [hrest, hrest', hrest'', hlast], beq_iff_eq.1 hkeyword, hname,
    beq_iff_eq.1 hcolon, hchain, hspelled, rfl⟩

end Reader

/-! ### Sections -/

namespace Section

/-- What is read of sections, in the order of the text. -/
def entries (read : Section) : List Entry := read.complete ++ read.held

lemma kept_sublist (read : Section) : read.kept.Sublist read.entries := by
  unfold kept entries
  split
  · exact List.sublist_append_left _ _
  · exact List.Sublist.refl _

lemma entries_after (held : List Entry) (read : Section) :
    (read.after held).entries = held ++ read.entries := List.append_assoc _ _ _

/-- What holds of sections for an element that are read from a place on, behind entries that were
read before. -/
structure WellFormed (subject : Subject) (start : Cursor) (before : List Entry) (read : Section) :
    Prop where
  reports : Reports start read.failure read.cursor
  made : ∀ entry ∈ read.entries, subject.Made entry
  ascending : start.Ordered →
    Ascending start.offset read.cursor.offset ((before ++ read.entries).map (·.place.offset))

variable {subject : Subject} {start cursor : Cursor} {held : List Entry}

lemma header_of_opening {α : Type} {header : Reader α} {opened : α}
    {annotations : List AnnotationUse} {next : Cursor}
    (h : opening header cursor = .ok (opened, annotations) next) :
    ∃ middle, header cursor = .ok opened middle := by
  obtain ⟨opened', middle, hheader, h⟩ := Reader.ok_of_bind h
  obtain ⟨annotations', last, -, h⟩ := Reader.ok_of_bind h
  obtain ⟨⟨rfl, -⟩, -⟩ := EStateM.Result.ok.inj h
  exact ⟨middle, hheader⟩

lemma wellFormed_of_error {error : SyntaxError} {next : Cursor}
    (h : Reports start (some error) next) :
    WellFormed subject start [] { failure := some error, cursor := next } :=
  ⟨h, nofun, fun ho => .nil (h.leadsTo.ordered ho).2⟩

lemma ascending_of_place {next : Cursor} {entries : List Entry} (hlead : start.LeadsTo next)
    (ho : start.Ordered) (h : ∀ entry ∈ entries, entry.place = start.place) :
    Ascending start.offset next.offset (entries.map (·.place.offset)) := by
  refine .of_eq (hlead.ordered ho).2 fun offset hmem => ?_
  obtain ⟨entry, hentry, rfl⟩ := List.mem_map.1 hmem
  exact congrArg Location.offset (h entry hentry)

lemma wellFormed_type {placement : Placement} (hpart : hasPart subject.member placement = true)
    (hlead : start.LeadsTo cursor)
    (hheld : ∀ entry ∈ held, subject.Made entry ∧ entry.place = start.place) :
    WellFormed subject start [] (type subject placement start.place held cursor) := by
  have hopening : Reader.Walks cursor (opening Reader.typeHeader cursor) :=
    (walking.opening walking.typeHeader).walks cursor
  unfold type
  split
  · generalize opening Reader.typeHeader cursor = result at hopening
    cases result with
    | ok opened next =>
      have hnext := hlead.trans hopening.leadsTo
      have hall : ∀ entry ∈ held ++ subject.entry placement start.place opened.2,
          subject.Made entry ∧ entry.place = start.place := fun entry hmem =>
        (List.mem_append.1 hmem).elim (hheld entry) (Subject.made_of_mem hpart)
      exact ⟨.none hnext, fun entry hmem => (hall entry hmem).1, fun ho =>
        ascending_of_place hnext ho fun entry hmem => (hall entry hmem).2⟩
    | error error next =>
      have hreports := (Reports.of_error hopening).after hlead
      refine ⟨hreports, fun entry hmem => ?_, fun ho =>
        ascending_of_place hreports.leadsTo ho fun entry hmem => ?_⟩
      · exact (hheld entry (by simpa [entries] using hmem)).1
      · exact (hheld entry (by simpa [entries] using hmem)).2
  · exact ⟨.none hlead, fun entry hmem => (hheld entry hmem).1, fun ho =>
      ascending_of_place hlead ho fun entry hmem => (hheld entry hmem).2⟩

lemma wellFormed_result (hpart : hasPart subject.member .returnType = true) :
    WellFormed subject start [] (result subject start) := by
  have hopening : Reader.Walks start (opening Reader.returnHeader start) :=
    (walking.opening walking.returnHeader).walks start
  unfold result
  split
  · rename_i place annotations next hread
    obtain ⟨middle, hheader⟩ := header_of_opening hread
    obtain rfl := Reader.place_of_returnHeader hheader
    rw [hread] at hopening
    have hall : ∀ entry ∈ subject.entry .returnType start.place annotations,
        subject.Made entry ∧ entry.place = start.place := fun entry => Subject.made_of_mem hpart
    exact ⟨.none hopening.leadsTo, fun entry hmem => (hall entry hmem).1, fun ho =>
      ascending_of_place hopening.leadsTo ho fun entry hmem => (hall entry hmem).2⟩
  · rename_i hread
    exact wellFormed_of_error (.of_error (hread ▸ hopening))

lemma wellFormed_parameter
    (hparts : ∀ position, hasPart subject.member (.parameter position) = true ∧
      hasPart subject.member (.parameterType position) = true) :
    WellFormed subject start [] (parameter subject start) := by
  have hopening : Reader.Walks start (opening Reader.parameterHeader start) :=
    (walking.opening walking.parameterHeader).walks start
  unfold parameter
  split
  · rename_i position place annotations next hread
    obtain ⟨middle, hheader⟩ := header_of_opening hread
    obtain rfl : place = start.place := Reader.place_of_parameterHeader hheader
    rw [hread] at hopening
    exact wellFormed_type (hparts position).2 hopening.leadsTo fun entry =>
      Subject.made_of_mem (hparts position).1
  · rename_i hread
    exact wellFormed_of_error (.of_error (hread ▸ hopening))

section

variable {name : String} {descriptor : MethodDescriptor}
  (hmember : subject.member = some (.method name descriptor))
include hmember

lemma wellFormed_next : WellFormed subject start [] (next subject start) := by
  unfold next
  split
  · exact wellFormed_result (by rw [hmember]; rfl)
  · split
    · exact wellFormed_parameter fun position => by rw [hmember]; exact ⟨rfl, rfl⟩
    · exact wellFormed_of_error (.unexpected _)

lemma wellFormed_following {before : List Entry} (hlead : start.LeadsTo cursor)
    (hmade : ∀ entry ∈ held, subject.Made entry)
    (hascending : start.Ordered →
      Ascending start.offset cursor.offset ((before ++ held).map (·.place.offset))) :
    WellFormed subject start before (following subject held cursor) := by
  -- by the number of tokens that are left: what is complete so far joins what was read before
  induction hlength : cursor.rest.length using Nat.strong_induction_on
    generalizing cursor held before with
  | _ length ih =>
  subst hlength
  have hnext : WellFormed subject cursor [] (next subject cursor) := wellFormed_next hmember
  rw [following]
  dsimp only
  split
  · generalize next subject cursor = read at hnext
    have hread := hlead.trans hnext.reports.leadsTo
    have hjoined : start.Ordered → Ascending start.offset read.cursor.offset
        ((before ++ held ++ read.entries).map (·.place.offset)) := fun ho => by
      rw [List.map_append]
      exact (hascending ho).append (hnext.ascending (hlead.ordered ho).1)
    have hboth : ∀ entry ∈ held ++ read.entries, subject.Made entry := fun entry hmem =>
      (List.mem_append.1 hmem).elim (hmade entry) (hnext.made entry)
    split
    · rename_i hgoes
      rw [Bool.and_eq_true, decide_eq_true_eq] at hgoes
      have hheld : ∀ entry ∈ read.held, subject.Made entry := fun entry hmem =>
        hnext.made entry (List.mem_append_right _ hmem)
      have hlater : start.Ordered → Ascending start.offset read.cursor.offset
          ((before ++ (held ++ read.complete) ++ read.held).map (·.place.offset)) := by
        simpa only [entries, List.append_assoc] using hjoined
      have hrest := ih _ hgoes.2 hread hheld hlater rfl
      refine ⟨hrest.reports, fun entry hmem => ?_, fun ho => ?_⟩
      · rw [entries_after] at hmem
        rcases List.mem_append.1 hmem with hmem | hmem
        · refine hboth entry ?_
          rw [entries, ← List.append_assoc]
          exact List.mem_append_left _ hmem
        · exact hrest.made entry hmem
      · rw [entries_after, ← List.append_assoc]
        exact hrest.ascending ho
    · split
      · refine ⟨hnext.reports.after hlead, fun entry hmem => ?_, fun ho => ?_⟩
        · exact hboth entry (entries_after held read ▸ hmem)
        · rw [entries_after, ← List.append_assoc]
          exact hjoined ho
      · refine ⟨hnext.reports.after hlead, hnext.made, fun ho => (hjoined ho).sublist ?_⟩
        exact ((List.sublist_append_left before held).append_right read.entries).map _
  · exact ⟨.none hlead, hmade, hascending⟩

end

/-- What holds of all sections of a block. -/
structure Keeps (source : String) (start : Cursor) (read : Section) : Prop where
  reports : Reports start read.failure read.cursor
  entries : ∀ entry ∈ read.entries, entry.WellFormed source
  ascending : Ascending start.offset read.cursor.offset (read.entries.map (·.place.offset))

section

variable {source owner package : String} {start : Cursor}
  (hsource : start.rest <:+ significantTokens source) (ho : start.Ordered)
  (howner : ClassNamed source package owner)

include ho in
lemma keeps_of_error {error : SyntaxError} {next : Cursor} (h : Reports start (some error) next) :
    Keeps source start { failure := some error, cursor := next } :=
  ⟨h, nofun, .nil (h.leadsTo.ordered ho).2⟩

include hsource in
lemma methodNamed_of_methodHeader {opened : Member × Location} {next : Cursor}
    (h : Reader.methodHeader start = .ok opened next) :
    ∃ name descriptor, opened.1 = .method name descriptor ∧
      ∀ offset, start.offset ≤ offset → MethodNamed source name descriptor offset := by
  obtain ⟨keyword, name, first, others, colon, descriptor, hrest, hkeyword, hname, hcolon, hchain,
    hspelled, hopened⟩ := Reader.tokens_of_methodHeader h
  obtain ⟨before, hbefore⟩ := hsource
  rw [hrest] at hbefore
  obtain ⟨text, rfl, rfl, hdescriptor⟩ :=
    MethodText.exists_of_significant hbefore.symm hkeyword hname hcolon hchain
  refine ⟨_, descriptor, hopened, fun offset hoffset => ⟨text, rfl, by rw [hdescriptor, hspelled],
    ?_, ?_⟩⟩
  · have htokens : tokens source = (text.before ++ text.keyword :: text.gap) ++ text.name ::
        (text.leading ++ text.descriptor ++ text.trailing ++ text.colon :: text.after) := by
      simp [text.tokens_eq]
    rw [extract_tokens htokens, spelled_append, spelled_append, hdescriptor, hspelled]
  · have hplace : start.place = text.keyword.start := by rw [Cursor.place, hrest]
    exact hplace ▸ hoffset

include hsource ho howner

lemma keeps_method : Keeps source start (method owner package start) := by
  have hopening : Reader.Walks start (opening Reader.methodHeader start) :=
    (walking.opening walking.methodHeader).walks start
  unfold method
  split
  · rename_i member place annotations next hread
    obtain ⟨middle, hheader⟩ := header_of_opening hread
    obtain rfl : place = start.place := Reader.place_of_methodHeader hheader
    obtain ⟨name, descriptor, hmember, hnamed⟩ := methodNamed_of_methodHeader hsource hheader
    obtain rfl : member = .method name descriptor := hmember
    rw [hread] at hopening
    have hmade : ∀ entry ∈ Subject.entry ⟨owner, package, some (.method name descriptor)⟩
        .declaration start.place annotations, Subject.Made _ entry ∧ entry.place = start.place :=
      fun entry => Subject.made_of_mem rfl
    have hread : WellFormed ⟨owner, package, some (.method name descriptor)⟩ start []
        (following _ (Subject.entry _ .declaration start.place annotations) next) :=
      wellFormed_following rfl hopening.leadsTo (fun entry hmem => (hmade entry hmem).1)
        fun ho => ascending_of_place hopening.leadsTo ho fun entry hmem => (hmade entry hmem).2
    have hascending := hread.ascending ho
    refine ⟨hread.reports, fun entry hmem => ?_, hascending⟩
    have hentry := hread.made entry hmem
    refine ⟨hentry.annotated, hentry.owner ▸ hentry.package ▸ howner, hentry.part, ?_⟩
    intro name' descriptor' hmember
    obtain ⟨rfl, rfl⟩ := Member.method.inj (Option.some.inj (hentry.member.symm.trans hmember))
    exact hnamed _ (hascending.within _ (List.mem_map_of_mem hmem)).1
  · rename_i hread
    exact keeps_of_error ho (.of_error (hread ▸ hopening))

omit hsource in
lemma keeps_field : Keeps source start (field owner package start) := by
  have hopening : Reader.Walks start (opening Reader.fieldHeader start) :=
    (walking.opening walking.fieldHeader).walks start
  unfold field
  split
  · rename_i member place annotations next hread
    obtain ⟨middle, hheader⟩ := header_of_opening hread
    obtain rfl : place = start.place := Reader.place_of_fieldHeader hheader
    obtain ⟨name, hmember⟩ := Reader.field_of_fieldHeader hheader
    obtain rfl : member = .field name := hmember
    rw [hread] at hopening
    have hread : WellFormed ⟨owner, package, some (.field name)⟩ start []
        (type _ .fieldType start.place (Subject.entry _ .declaration start.place annotations)
          next) :=
      wellFormed_type rfl hopening.leadsTo fun entry => Subject.made_of_mem rfl
    dsimp only
    generalize type _ _ _ _ next = read at hread
    have hentries : ∀ entry ∈ read.entries, entry.WellFormed source := fun entry hmem => by
      have hentry := hread.made entry hmem
      refine ⟨hentry.annotated, hentry.owner ▸ hentry.package ▸ howner, hentry.part, ?_⟩
      intro name' descriptor' hmember
      exact absurd (hentry.member.symm.trans hmember) (by simp)
    split
    · exact ⟨(Reports.unexpected _).after hread.reports.leadsTo, hentries, hread.ascending ho⟩
    · exact ⟨hread.reports, hentries, hread.ascending ho⟩
  · rename_i hread
    exact keeps_of_error ho (.of_error (hread ▸ hopening))

end

end Section

/-! ### Blocks -/

/-- The class that is open stands in the text, and in the package that is open. -/
def Scopes.Grounded (source : String) (scopes : Scopes) : Prop :=
  ∀ owner, scopes.owner = .known owner → ClassNamed source scopes.packageName owner

/-- What holds of a block that is read from a place on. -/
structure Block.WellFormed (source : String) (start : Cursor) (block : Block) : Prop where
  reports : Reports start block.failure block.cursor
  scopes : block.scopes.Grounded source
  entries : ∀ entry ∈ block.parsed.index.entries, entry.WellFormed source
  entriesAscending : Ascending start.offset block.cursor.offset
    (block.parsed.index.entries.map (·.place.offset))
  declarationsAscending : Ascending start.offset block.cursor.offset
    (block.parsed.index.declarations.map (·.place.offset))

namespace Block

variable {source : String} {start : Cursor} {scopes : Scopes}
  (hsource : start.rest <:+ significantTokens source) (ho : start.Ordered)
  (hscopes : scopes.Grounded source)

include ho in
lemma wellFormed_of_reports {failure : Option SyntaxError} {next : Cursor} {left : Scopes}
    (h : Reports start failure next) (hleft : left.Grounded source) :
    WellFormed source start { failure, cursor := next, scopes := left } := by
  have hle := (h.leadsTo.ordered ho).2
  exact ⟨h, hleft, nofun, .nil hle, .nil hle⟩

include ho in
lemma wellFormed_package : WellFormed source start (package start) := by
  have hheader : Reader.Walks start (Reader.packageHeader start) :=
    (walking.packageHeader rfl (.inl rfl)).walks
  unfold package
  split
  · rename_i hread
    exact wellFormed_of_reports ho (.none (hread ▸ hheader).leadsTo) nofun
  · rename_i hread
    exact wellFormed_of_reports ho (.of_error (hread ▸ hheader)) nofun

include hsource in
lemma classNamed_of_classHeader {opened : String × Location} {next : Cursor}
    (h : Reader.classHeader start = .ok opened next) (package : String) :
    ClassNamed source package (qualify package opened.1) := by
  obtain ⟨keyword, name, colon, hrest, hkeyword, hname, hcolon, hlexeme⟩ :=
    Reader.tokens_of_classHeader h
  obtain ⟨before, hbefore⟩ := hsource
  refine ⟨keyword, name, colon, ⟨before, next.rest, ?_⟩, hkeyword, hname, hcolon,
    by rw [hlexeme]; rfl⟩
  rw [← hbefore, hrest, List.append_assoc]
  rfl

include hsource ho in
lemma wellFormed_ofClass : WellFormed source start (ofClass scopes start) := by
  have hheader : Reader.Walks start (Reader.classHeader start) :=
    walking.classHeader.walks start
  unfold ofClass
  split
  · rename_i hread
    exact wellFormed_of_reports ho (.of_error (hread ▸ hheader)) nofun
  · rename_i name place next hread
    obtain rfl : place = start.place := Reader.place_of_classHeader hread
    have hnamed : ClassNamed source scopes.packageName (qualify scopes.packageName name) :=
      classNamed_of_classHeader hsource hread _
    have hgrounded : Scopes.Grounded source
        { scopes with owner := .known (qualify scopes.packageName name) } := by
      intro owner howner
      obtain rfl := Scope.known.inj howner
      exact hnamed
    rw [hread] at hheader
    have hannotations : Reader.Walks next (Reader.annotations next) :=
      walking.annotations.walks next
    dsimp only
    split
    · rename_i hread
      exact wellFormed_of_reports ho
        ((Reports.of_error (hread ▸ hannotations)).after hheader.leadsTo) hgrounded
    · rename_i annotations last hread
      rw [hread] at hannotations
      have hlead := hheader.leadsTo.trans hannotations.leadsTo
      have hmade : ∀ entry ∈ Subject.entry
          ⟨qualify scopes.packageName name, scopes.packageName, none⟩ .declaration start.place
            annotations, Subject.Made _ entry ∧ entry.place = start.place :=
        fun entry => Subject.made_of_mem rfl
      refine ⟨.none hlead, hgrounded, fun entry hmem => ?_,
        Section.ascending_of_place hlead ho fun entry hmem => (hmade entry hmem).2,
        .nil (hlead.ordered ho).2⟩
      have hentry := (hmade entry hmem).1
      refine ⟨hentry.annotated, hentry.owner ▸ hentry.package ▸ hnamed, hentry.part, ?_⟩
      intro name' descriptor' hmember
      exact absurd (hentry.member.symm.trans hmember) (by simp)

include ho hscopes in
lemma wellFormed_declaration : WellFormed source start (declaration scopes start) := by
  have hdeclaration : Reader.Walks start (Reader.declaration scopes.packageName start) :=
    (walking.declaration _).walks start
  unfold declaration
  split
  · rename_i hread
    exact wellFormed_of_reports ho (.of_error (hread ▸ hdeclaration)) hscopes
  · rename_i declared next hread
    have hplace := Reader.place_of_declaration hread
    rw [hread] at hdeclaration
    have hle := (hdeclaration.leadsTo.ordered ho).2
    refine ⟨.none hdeclaration.leadsTo, hscopes, nofun, .nil hle, .of_eq hle fun offset hmem => ?_⟩
    obtain rfl := List.mem_singleton.1 hmem
    exact congrArg Location.offset hplace

include ho hscopes in
lemma wellFormed_member {read : String → String → Cursor → Section}
    (hread : ∀ owner package, ClassNamed source package owner →
      (read owner package start).Keeps source start) :
    WellFormed source start (member read scopes start) := by
  unfold member
  split
  · rename_i owner howner
    have hkeeps := hread owner scopes.packageName (hscopes owner howner)
    have hkept := (read owner scopes.packageName start).kept_sublist
    exact ⟨hkeeps.reports, hscopes, fun entry hmem => hkeeps.entries entry (hkept.subset hmem),
      hkeeps.ascending.sublist (hkept.map _), .nil hkeeps.ascending.le⟩
  · exact wellFormed_of_reports ho (.none ((LeadsTo.forward start).trans (.skipToBlock _ _)))
      hscopes
  · exact wellFormed_of_reports ho (.unexpected _) hscopes

include hsource ho hscopes

lemma wellFormed_read : WellFormed source start (read scopes start) := by
  have hskipped : WellFormed source start (skipped scopes start) :=
    wellFormed_of_reports ho (.none ((LeadsTo.forward start).trans (.skipToBlock _ _))) hscopes
  unfold read
  split
  · exact wellFormed_package ho
  · split
    · exact hskipped
    · exact wellFormed_ofClass hsource ho
  · split
    · exact hskipped
    · exact wellFormed_declaration ho hscopes
  · exact wellFormed_member ho hscopes fun _ _ => Section.keeps_method hsource ho
  · exact wellFormed_member ho hscopes fun _ _ => Section.keeps_field ho
  · exact wellFormed_of_reports ho (.unexpected _) hscopes

omit hsource ho hscopes in
lemma leadsTo_resume (block : Block) : block.cursor.LeadsTo (block.resume start) := by
  unfold resume
  split
  · exact .refl _
  · refine LeadsTo.trans ?_ (.skipToBlock _ _)
    split
    · exact .forward _
    · exact .refl _

end Block

/-! ### Texts -/

/-- What the parser says from a place on is behind that place, up to some other place, and every
error is at a place that it comes to. -/
lemma parseBlocks_wellFormed {source : String} {scopes : Scopes} {cursor : Cursor}
    (hsource : cursor.rest <:+ significantTokens source) (ho : cursor.Ordered)
    (hscopes : scopes.Grounded source) :
    let parsed := parseBlocks source.toList scopes cursor
    (∀ entry ∈ parsed.index.entries, entry.WellFormed source) ∧
    ∃ last, Ascending cursor.offset last (parsed.index.entries.map (·.place.offset)) ∧
      Ascending cursor.offset last (parsed.index.declarations.map (·.place.offset)) ∧
      ∃ errors : List SyntaxError, parsed.diagnostics = errors.map (.ofSyntaxError source.toList) ∧
        Ascending cursor.offset last (errors.map (·.place.offset)) ∧
        ∀ error ∈ errors, ∃ fault, cursor.LeadsTo fault ∧ error.place = fault.place := by
  -- by the number of tokens that are left, since every block takes at least one
  induction hlength : cursor.rest.length using Nat.strong_induction_on
    generalizing scopes cursor with
  | _ length ih =>
  subst hlength
  dsimp only
  by_cases hn : cursor.rest = []
  · rw [parseBlocks_of_nil _ _ hn]
    exact ⟨nofun, cursor.offset, .nil le_rfl, .nil le_rfl, [], rfl, .nil le_rfl, nofun⟩
  · have hread := Block.wellFormed_read hsource ho hscopes
    have hlt := Block.length_resume_lt scopes hn
    have hsaid := Block.diagnostics_outcome source.toList scopes cursor
    rw [parseBlocks_of_ne_nil _ _ hn]
    generalize Block.read scopes cursor = block at hread hlt hsaid ⊢
    have hnext : block.cursor.LeadsTo (block.resume cursor) := block.leadsTo_resume
    have hordered := (hread.reports.leadsTo.ordered ho).1
    have hlead := hread.reports.leadsTo.trans hnext
    obtain ⟨hentries, last, hentriesAscending, hdeclarationsAscending, errors, herrors,
      herrorsAscending, hfaults⟩ := ih _ hlt (hlead.suffix.trans hsource)
        (hnext.ordered hordered).1 hread.scopes rfl
    have hle := (hnext.ordered hordered).2
    have hindex : (block.outcome source.toList ++
        parseBlocks source.toList block.scopes (block.resume cursor)).index =
          block.parsed.index ++
            (parseBlocks source.toList block.scopes (block.resume cursor)).index :=
      congrArg (· ++ _) (Block.index_outcome _ _)
    refine ⟨?_, last, ?_, ?_, block.failure.toList ++ errors, ?_, ?_, ?_⟩
    · intro entry hmem
      rw [hindex] at hmem
      exact (List.mem_append.1 hmem).elim (hread.entries entry) (hentries entry)
    · rw [hindex]
      exact List.map_append ▸ hread.entriesAscending.append (hentriesAscending.after hle)
    · rw [hindex]
      exact List.map_append ▸ hread.declarationsAscending.append (hdeclarationsAscending.after hle)
    · rw [List.map_append, ← hsaid, ← herrors]
      rfl
    · rw [List.map_append]
      exact (hread.reports.ascending ho).append (herrorsAscending.after hle)
    · intro error herror
      rcases List.mem_append.1 herror with herror | herror
      · obtain ⟨fault, hfault, hplace, -⟩ := hread.reports.fault error (Option.mem_toList.1 herror)
        exact ⟨fault, hfault, hplace⟩
      · obtain ⟨fault, hfault, hplace⟩ := hfaults error herror
        exact ⟨fault, hlead.trans hfault, hplace⟩

/-- **Well-formedness.** Every entry of a text has annotations, is for a class whose header stands
in the text and in the package of the entry, and goes to a part that the element has. The descriptor
of a method is written in the text between the name and the colon, with nothing but layout and
comments around it. Entries, declarations and diagnostics come in the order of the text. -/
theorem parse_wellFormed (source : String) :
    (∀ entry ∈ (parse source).index.entries,
      entry.annotations ≠ [] ∧ ClassNamed source entry.package entry.owner ∧
      hasPart entry.member entry.placement = true ∧
      ∀ name descriptor, entry.member = some (.method name descriptor) →
        MethodNamed source name descriptor entry.place.offset) ∧
    (parse source).index.entries.Pairwise (fun entry later =>
      entry.place.offset ≤ later.place.offset) ∧
    (parse source).index.declarations.Pairwise (fun declaration later =>
      declaration.place.offset ≤ later.place.offset) ∧
    ∃ errors : List SyntaxError,
      (parse source).diagnostics = errors.map (.ofSyntaxError source.toList) ∧
      errors.Pairwise fun error later => error.place.offset ≤ later.place.offset := by
  have hscopes : Scopes.none.Grounded source := nofun
  obtain ⟨hentries, last, hentriesAscending, hdeclarationsAscending, errors, herrors,
    herrorsAscending, -⟩ := parseBlocks_wellFormed List.suffix_rfl
      (Cursor.ordered_significantTokens source) hscopes
  refine ⟨fun entry hmem => ?_, List.pairwise_map.1 hentriesAscending.sorted,
    List.pairwise_map.1 hdeclarationsAscending.sorted, errors, herrors,
    List.pairwise_map.1 herrorsAscending.sorted⟩
  have hentry := hentries entry hmem
  exact ⟨hentry.annotated, hentry.owner, hentry.part, hentry.method⟩

end ExternalAnnotations
