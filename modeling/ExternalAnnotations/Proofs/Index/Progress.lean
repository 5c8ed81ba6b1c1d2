import ExternalAnnotations.Proofs.Index.Atomicity

/-!
# How the parser makes progress

The parser goes on as long as there are tokens, and each of its loops as long as another item
begins. Every round and every item takes a token at least, so the tokens run out and every loop
comes to an end. The guards by which the loops are seen to be finite never decide anything. A round
reports one thing at most, which is why there are no more diagnostics than tokens.
-/

namespace ExternalAnnotations

namespace Cursor

/-- The second place is at least one token further than the first. -/
def Precedes (cursor next : Cursor) : Prop :=
  cursor.LeadsTo next ∧ next.rest.length < cursor.rest.length

variable {cursor middle next : Cursor}

lemma Precedes.trans_leadsTo (h : cursor.Precedes middle) (h' : middle.LeadsTo next) :
    cursor.Precedes next :=
  ⟨h.1.trans h', h'.length_le.trans_lt h.2⟩

lemma precedes_forward (hn : cursor.rest ≠ []) : cursor.Precedes cursor.forward :=
  ⟨.forward cursor, length_forward_lt hn⟩

end Cursor

open Cursor (LeadsTo)
open Production
open Section (opening)

/-! ### Rounds -/

namespace Rounds

variable {source : String} {said : Parsed} {scopes : Scopes} {cursor : Cursor}

lemma grounded (h : Rounds source said scopes cursor) :
    cursor.rest <:+ significantTokens source ∧ cursor.Ordered ∧ scopes.Grounded source := by
  induction h with
  | start => exact ⟨List.suffix_rfl, Cursor.ordered_significantTokens source, nofun⟩
  | @step said scopes cursor h hn ih =>
    obtain ⟨hsource, ho, hscopes⟩ := ih
    have hread := Block.wellFormed_read hsource ho hscopes
    have hlead : cursor.LeadsTo ((Block.read scopes cursor).resume cursor) :=
      hread.reports.leadsTo.trans (Block.leadsTo_resume _)
    exact ⟨hlead.suffix.trans hsource, (hlead.ordered ho).1, hread.scopes⟩

lemma precedes (h : Rounds source said scopes cursor) (hn : cursor.rest ≠ []) :
    cursor.Precedes ((Block.read scopes cursor).resume cursor) := by
  obtain ⟨hsource, ho, hscopes⟩ := h.grounded
  have hread := Block.wellFormed_read hsource ho hscopes
  exact ⟨hread.reports.leadsTo.trans (Block.leadsTo_resume _), Block.length_resume_lt scopes hn⟩

lemma length_diagnostics_le (h : Rounds source said scopes cursor) :
    said.diagnostics.length + cursor.rest.length ≤ (significantTokens source).length := by
  induction h with
  | start => exact (Nat.zero_add _).le
  | @step said scopes cursor h hn ih =>
    have hround := Block.length_resume_lt scopes hn
    have hone : ((Block.read scopes cursor).outcome source.toList).diagnostics.length ≤ 1 := by
      rw [Block.diagnostics_outcome, List.length_map]
      exact Option.length_toList_le
    have happend : (said ++ (Block.read scopes cursor).outcome source.toList).diagnostics.length =
        said.diagnostics.length +
          ((Block.read scopes cursor).outcome source.toList).diagnostics.length :=
      List.length_append
    omega

/-- From every round on the tokens run out, and what is said then is all that the text says. -/
lemma ends (h : Rounds source said scopes cursor) :
    ∃ scopes last, Rounds source (parse source) scopes last ∧ last.rest = [] := by
  -- by the number of tokens that are left, since every round takes one
  induction hlength : cursor.rest.length using Nat.strong_induction_on
    generalizing said scopes cursor with
  | _ length ih =>
  subst hlength
  by_cases hn : cursor.rest = []
  · have hparse := h.parse_eq
    rw [parseBlocks_of_nil _ _ hn, Parsed.append_empty] at hparse
    exact ⟨scopes, cursor, hparse ▸ h, hn⟩
  · exact ih _ (Block.length_resume_lt scopes hn) (h.step hn) rfl

end Rounds

/-! ### Loops -/

namespace Reader

variable {α β : Type}

/-- If the reader succeeds at the cursor, it takes a token. -/
def Advances (reader : Reader α) (cursor : Cursor) : Prop :=
  ∀ a next, reader cursor = .ok a next → cursor.Precedes next

/-- What a loop gives that reads items as long as the cursor is where another one starts, and in
which every item takes a token. Nothing else stops it. -/
inductive Loops (more : Cursor → Bool) (item : Reader α) :
    Cursor → EStateM.Result SyntaxError Cursor (List α) → Prop
  | stops {cursor : Cursor} (hmore : more cursor = false) : Loops more item cursor (.ok [] cursor)
  | breaks {cursor next : Cursor} {error : SyntaxError} (hmore : more cursor = true)
      (herror : item cursor = .error error next) : Loops more item cursor (.error error next)
  | fails {cursor next last : Cursor} {a : α} {error : SyntaxError} (hmore : more cursor = true)
      (hread : item cursor = .ok a next) (hprogress : cursor.Precedes next)
      (hrest : Loops more item next (.error error last)) :
      Loops more item cursor (.error error last)
  | goes {cursor next last : Cursor} {a : α} {others : List α} (hmore : more cursor = true)
      (hread : item cursor = .ok a next) (hprogress : cursor.Precedes next)
      (hrest : Loops more item next (.ok others last)) :
      Loops more item cursor (.ok (a :: others) last)

section

variable {more : Cursor → Bool} {item : Reader α}

lemma manyWhile_of_stops {cursor : Cursor} (hmore : more cursor = false) :
    manyWhile more item cursor = .ok [] cursor := by
  rw [manyWhile, hmore]
  rfl

lemma manyWhile_of_breaks {cursor next : Cursor} {error : SyntaxError} (hmore : more cursor = true)
    (herror : item cursor = .error error next) :
    manyWhile more item cursor = .error error next := by
  rw [manyWhile, hmore, if_pos rfl, herror]

lemma manyWhile_of_goes {cursor next : Cursor} {a : α} (hmore : more cursor = true)
    (hread : item cursor = .ok a next) (hprogress : cursor.Precedes next) :
    manyWhile more item cursor =
      match manyWhile more item next with
      | .error error last => .error error last
      | .ok others last => .ok (a :: others) last := by
  rw [manyWhile, hmore, if_pos rfl, hread]
  exact if_pos hprogress.2

lemma Loops.of_advances (h : ∀ cursor, more cursor = true → Advances item cursor)
    (cursor : Cursor) : Loops more item cursor (manyWhile more item cursor) := by
  induction hlength : cursor.rest.length using Nat.strong_induction_on generalizing cursor with
  | _ length ih =>
  subst hlength
  cases hmore : more cursor with
  | false =>
    rw [manyWhile_of_stops hmore]
    exact .stops hmore
  | true =>
    cases hread : item cursor with
    | error error next =>
      rw [manyWhile_of_breaks hmore hread]
      exact .breaks hmore hread
    | ok a next =>
      have hprogress := h cursor hmore a next hread
      have hrest := ih _ hprogress.2 next rfl
      rw [manyWhile_of_goes hmore hread hprogress]
      generalize manyWhile more item next = result at hrest
      cases result with
      | error error last => exact .fails hmore hread hprogress hrest
      | ok others last => exact .goes hmore hread hprogress hrest

end

end Reader

namespace ReaderRelation

variable {α : Type} {l : Language Token} {same : α → α → Prop} {reader reader' : Reader α}
  {cursor : Cursor}

lemma Gives.advances {result : EStateM.Result SyntaxError Cursor α}
    (h : walking.Gives l same cursor (reader cursor) result) (hl : [] ∉ l) :
    Reader.Advances reader cursor := by
  intro a next hread
  rw [hread] at h
  exact ⟨h.past.leadsTo, h.past.length_lt hl⟩

lemma Relates.advances (h : walking.Relates l same reader reader') (hl : [] ∉ l)
    (cursor : Cursor) : Reader.Advances reader cursor := (h rfl).advances hl

end ReaderRelation

namespace Reader.Advances

variable {cursor : Cursor}

lemma token (isIn : TokenKind → Bool) (expected : String) :
    Advances (Reader.token isIn expected) cursor :=
  (walking.token_at rfl (.inl rfl)).advances nil_notMem_one

lemma annotationUse : Advances Reader.annotationUse cursor :=
  walking.annotationUse.advances (nil_notMem_mul (nil_notMem_mul nil_notMem_one)) cursor

lemma elementDeclaration : Advances Reader.elementDeclaration cursor :=
  walking.elementDeclaration.advances (nil_notMem_mul (nil_notMem_mul_right nil_notMem_one)) cursor

end Reader.Advances

/-! ### Sections -/

namespace Section

variable {subject : Subject} {held : List Entry} {cursor : Cursor}

/-- What the sections of a method come to from one of them on, if entries are held. Every section
takes a token, and nothing stops them but the end of the block or an error. -/
inductive Proceeds (subject : Subject) : List Entry → Cursor → Section → Prop
  | ends {held : List Entry} {cursor : Cursor} (hwithin : Reader.withinBlock cursor = false) :
      Proceeds subject held cursor { held, cursor }
  | strays {held : List Entry} {cursor : Cursor} (hwithin : Reader.withinBlock cursor = true)
      (hbegins : begins cursor = false) :
      Proceeds subject held cursor
        { failure := some (cursor.unexpected "'return', 'parameter', '@' or a new block"), cursor }
  | breaks {held : List Entry} {cursor : Cursor} (hwithin : Reader.withinBlock cursor = true)
      (hbegins : begins cursor = true) (hfailure : (next subject cursor).failure ≠ none) :
      Proceeds subject held cursor ((next subject cursor).after held)
  | goes {held : List Entry} {cursor : Cursor} {read : Section}
      (hwithin : Reader.withinBlock cursor = true) (hfailure : (next subject cursor).failure = none)
      (hprogress : cursor.Precedes (next subject cursor).cursor)
      (hrest : Proceeds subject (next subject cursor).held (next subject cursor).cursor read) :
      Proceeds subject held cursor (read.after (held ++ (next subject cursor).complete))

lemma precedes_next {name : String} {descriptor : MethodDescriptor}
    (hmember : subject.member = some (.method name descriptor))
    (hfailure : (next subject cursor).failure = none) :
    cursor.Precedes (next subject cursor).cursor :=
  ⟨(wellFormed_next hmember).reports.leadsTo, length_lt_of_next hfailure⟩

lemma proceeds_following {name : String} {descriptor : MethodDescriptor}
    (hmember : subject.member = some (.method name descriptor)) (held : List Entry)
    (cursor : Cursor) : Proceeds subject held cursor (following subject held cursor) := by
  induction hlength : cursor.rest.length using Nat.strong_induction_on
    generalizing held cursor with
  | _ length ih =>
  subst hlength
  cases hwithin : Reader.withinBlock cursor with
  | false =>
    rw [following, hwithin]
    exact .ends hwithin
  | true =>
    cases hbegins : begins cursor with
    | false =>
      obtain ⟨hreturn, hparameter⟩ := Bool.or_eq_false_iff.1 hbegins
      rw [following_of_strays hwithin hreturn hparameter]
      exact .strays hwithin hbegins
    | true =>
      by_cases hfailure : (next subject cursor).failure = none
      · have hprogress := precedes_next hmember hfailure
        rw [following_of_read hwithin hfailure]
        exact .goes hwithin hfailure hprogress (ih _ hprogress.2 _ _ rfl)
      · rw [following_of_failed hwithin hbegins hfailure]
        exact .breaks hwithin hbegins hfailure

end Section

open Reader in
/-- The loops inside of a block, each of them without anything that stops it early. -/
structure LoopsProgress : Prop where
  annotations : ∀ cursor, Loops (·.isAt .atSign) annotationUse cursor (annotations cursor)
  sections : ∀ subject name descriptor, subject.member = some (.method name descriptor) →
    ∀ held cursor, Section.Proceeds subject held cursor (Section.following subject held cursor)
  elements : ∀ cursor, Loops withinBlock elementDeclaration cursor
    (manyWhile withinBlock elementDeclaration cursor)
  dimensions : ∀ cursor, Loops (·.isAt .openBracket) dimension cursor
    (manyWhile (·.isAt .openBracket) dimension cursor)
  names : ∀ expected cursor, Loops continuesName (do forward; name expected) cursor
    (manyWhile continuesName (do forward; name expected) cursor)
  items : ∀ room cursor, Loops (·.isAt .comma) (do forward; value room) cursor
    (manyWhile (·.isAt .comma) (do forward; value room) cursor)
  arguments : ∀ room cursor, Loops (·.isAt .comma) (do forward; namedArgument (value room)) cursor
    (manyWhile (·.isAt .comma) (do forward; namedArgument (value room)) cursor)

lemma loopsProgress : LoopsProgress where
  annotations := .of_advances fun _ _ => .annotationUse
  sections _ _ _ hmember := Section.proceeds_following hmember
  elements := .of_advances fun _ _ => .elementDeclaration
  dimensions := .of_advances fun cursor hat =>
    (walking.dimension cursor cursor rfl hat).advances nil_notMem_one_mul
  names expected := .of_advances fun cursor hmore =>
    (walking.part expected cursor cursor rfl hmore).advances nil_notMem_one_mul
  items room := .of_advances fun _ hat =>
    (walking.forward (walking.value room) rfl hat).advances nil_notMem_one_mul
  arguments room := .of_advances fun _ hat =>
    (walking.forward (walking.namedArgument (walking.value room)) rfl hat).advances
      nil_notMem_one_mul

end ExternalAnnotations
