import ExternalAnnotations.Proofs.Index.AlikeBlocks

/-!
# What malformed headers silence

Behind a header that it cannot read the parser passes over blocks, until it comes to a header that
opens something new. `Rounds` says where it stands between two blocks and what it has said so far.
The blocks passed over behind a malformed class header say nothing. Behind a malformed package
header no class is open, so the blocks of members say that, and nothing else.
-/

namespace ExternalAnnotations

/-- Where the parser comes to after some blocks, with what these say and what they leave open. -/
inductive Rounds (source : String) : Parsed → Scopes → Cursor → Prop
  | start : Rounds source {} .none (.ofTokens (significantTokens source))
  | step {said : Parsed} {scopes : Scopes} {cursor : Cursor} (h : Rounds source said scopes cursor)
      (hn : cursor.rest ≠ []) :
      Rounds source (said ++ (Block.read scopes cursor).outcome source.toList)
        (Block.read scopes cursor).scopes ((Block.read scopes cursor).resume cursor)

lemma Rounds.parse_eq {source : String} {said : Parsed} {scopes : Scopes} {cursor : Cursor}
    (h : Rounds source said scopes cursor) :
    parse source = said ++ parseBlocks source.toList scopes cursor := by
  induction h with
  | start => exact (Parsed.empty_append _).symm
  | step h hn ih => rw [ih, parseBlocks_of_ne_nil _ _ hn, Parsed.append_assoc]

lemma Rounds.append_empty {source : String} {said : Parsed} {scopes : Scopes} {cursor : Cursor}
    (h : Rounds source said scopes cursor) : Rounds source (said ++ {}) scopes cursor := by
  rwa [Parsed.append_empty]

/-! ### Places ahead -/

namespace Cursor

/-- The places at tokens that follow one another, behind a token. -/
def placesFrom : Option Token → List Token → List Cursor
  | _, [] => []
  | previous, token :: rest => ⟨previous, token :: rest⟩ :: placesFrom (some token) rest

/-- The places at the tokens from here on. -/
def places (cursor : Cursor) : List Cursor := placesFrom cursor.previous cursor.rest

/-- The place behind all tokens. -/
def atEnd (cursor : Cursor) : Cursor := ⟨cursor.rest.getLast?.or cursor.previous, []⟩

/-- Whether a block of one of some kinds starts here. -/
def opens (kinds : TokenKind → Bool) (cursor : Cursor) : Bool :=
  cursor.startsBlock && cursor.kind?.any kinds

/-- The places before the first one where a block of one of some kinds starts. -/
def placesBefore (kinds : TokenKind → Bool) (cursor : Cursor) : List Cursor :=
  cursor.places.takeWhile (!·.opens kinds)

/-- The first place where a block of one of some kinds starts, or the end. -/
def seek (kinds : TokenKind → Bool) (cursor : Cursor) : Cursor :=
  (cursor.places.find? (·.opens kinds)).getD cursor.atEnd

/-- How many tokens come before the next block. -/
def gap (cursor : Cursor) : Nat := (cursor.places.takeWhile (!·.startsBlock)).length

variable {cursor : Cursor} {kinds : TokenKind → Bool}

lemma places_of_nil (h : cursor.rest = []) : cursor.places = [] := by
  rw [places, h, placesFrom]

lemma places_of_ne_nil (h : cursor.rest ≠ []) :
    cursor.places = cursor :: cursor.forward.places := by
  obtain ⟨previous, rest⟩ := cursor
  obtain ⟨token, rest, rfl⟩ := List.exists_cons_of_ne_nil h
  rfl

lemma atEnd_of_nil (h : cursor.rest = []) : cursor.atEnd = cursor := by
  obtain ⟨previous, rest⟩ := cursor
  obtain rfl : rest = [] := h
  rfl

lemma atEnd_forward : cursor.forward.atEnd = cursor.atEnd := by
  obtain ⟨previous, rest⟩ := cursor
  cases rest with
  | nil => rfl
  | cons token rest =>
    simp only [atEnd, forward, List.getLast?_cons]
    cases rest.getLast? <;> rfl

lemma seek_of_nil (h : cursor.rest = []) : cursor.seek kinds = cursor := by
  rw [seek, places_of_nil h, List.find?_nil, Option.getD_none, atEnd_of_nil h]

lemma seek_of_opens (hn : cursor.rest ≠ []) (h : cursor.opens kinds = true) :
    cursor.seek kinds = cursor := by
  rw [seek, places_of_ne_nil hn, List.find?_cons_of_pos h, Option.getD_some]

lemma seek_of_passed (hn : cursor.rest ≠ []) (h : cursor.opens kinds = false) :
    cursor.seek kinds = cursor.forward.seek kinds := by
  rw [seek, places_of_ne_nil hn, List.find?_cons_of_neg (by simp [h]), seek, atEnd_forward]

lemma placesBefore_of_nil (h : cursor.rest = []) : cursor.placesBefore kinds = [] := by
  rw [placesBefore, places_of_nil h, List.takeWhile_nil]

lemma placesBefore_of_opens (hn : cursor.rest ≠ []) (h : cursor.opens kinds = true) :
    cursor.placesBefore kinds = [] := by
  rw [placesBefore, places_of_ne_nil hn, List.takeWhile_cons_of_neg (by simp [h])]

lemma placesBefore_of_passed (hn : cursor.rest ≠ []) (h : cursor.opens kinds = false) :
    cursor.placesBefore kinds = cursor :: cursor.forward.placesBefore kinds := by
  rw [placesBefore, places_of_ne_nil hn, List.takeWhile_cons_of_pos (by simp [h]), placesBefore]

lemma gap_of_within (h : Reader.withinBlock cursor = true) :
    cursor.gap = cursor.forward.gap + 1 := by
  have hn := ne_nil_of_withinBlock h
  have hb : cursor.startsBlock = false := by simpa [Reader.withinBlock, hn] using h
  rw [gap, places_of_ne_nil hn, List.takeWhile_cons_of_pos (by simp [hb]), List.length_cons, gap]

lemma skipToBlock_eq {limit limit' : Nat} (h : cursor.gap ≤ limit) (h' : cursor.gap ≤ limit') :
    cursor.skipToBlock limit = cursor.skipToBlock limit' := by
  induction limit generalizing limit' cursor with
  | zero =>
    have hstops : Reader.withinBlock cursor = false := by
      by_contra hw
      have := gap_of_within (eq_true_of_ne_false hw)
      omega
    rw [skipToBlock_of_stops hstops, skipToBlock_of_stops hstops]
  | succ limit ih =>
    cases hw : Reader.withinBlock cursor with
    | false => rw [skipToBlock_of_stops hw, skipToBlock_of_stops hw]
    | true =>
      have hgap := gap_of_within hw
      obtain ⟨limit', rfl⟩ : ∃ n, limit' = n + 1 := ⟨limit' - 1, by omega⟩
      rw [skipToBlock_succ, skipToBlock_succ, if_pos hw, if_pos hw]
      exact ih (by omega) (by omega)

lemma gap_le_length (cursor : Cursor) : cursor.gap ≤ cursor.rest.length := by
  have hlength : ∀ previous rest, (placesFrom previous rest).length = rest.length := by
    intro previous rest
    induction rest generalizing previous with
    | nil => rfl
    | cons token rest ih => exact congrArg (· + 1) (ih _)
  exact (List.takeWhile_prefix _).length_le.trans_eq (hlength _ _)

lemma gap_of_stops (h : Reader.withinBlock cursor = false) : cursor.gap = 0 := by
  by_cases hn : cursor.rest = []
  · rw [gap, places_of_nil hn]
    rfl
  · have hb : cursor.startsBlock = true := by simpa [Reader.withinBlock, hn] using h
    rw [gap, places_of_ne_nil hn, List.takeWhile_cons_of_neg (by simp [hb]), List.length_nil]

lemma startsBlock_of_opens (h : cursor.opens kinds = true) : cursor.startsBlock = true :=
  (Bool.and_eq_true_iff.1 h).1

lemma gap_le_of_placesBefore {limit : Nat}
    (h : ∀ place ∈ cursor.placesBefore kinds, place.gap ≤ limit) : cursor.gap ≤ limit := by
  cases hw : Reader.withinBlock cursor with
  | false => exact (gap_of_stops hw).trans_le (Nat.zero_le _)
  | true =>
    have hn := ne_nil_of_withinBlock hw
    refine h cursor ?_
    rw [placesBefore_of_passed hn]
    · exact List.mem_cons_self
    · by_contra ho
      have hb := startsBlock_of_opens (eq_true_of_ne_false ho)
      simp [Reader.withinBlock, hb] at hw

/-- The next block, however far it is. -/
def nextBlock (cursor : Cursor) : Cursor := cursor.skipToBlock cursor.rest.length

lemma skipToBlock_eq_nextBlock {limit : Nat} (h : cursor.gap ≤ limit) :
    cursor.skipToBlock limit = cursor.nextBlock := skipToBlock_eq h cursor.gap_le_length

lemma nextBlock_of_within (h : Reader.withinBlock cursor = true) :
    cursor.nextBlock = cursor.forward.nextBlock := by
  obtain ⟨previous, rest⟩ := cursor
  obtain ⟨token, rest, rfl⟩ := List.exists_cons_of_ne_nil (ne_nil_of_withinBlock h)
  exact (skipToBlock_succ _ _).trans (if_pos h)

end Cursor

/-! ### Passing over blocks -/

/-- What is expected where a member stands without a class. -/
def classExpected : String := "a 'class' block before members"

lemma Block.resume_misplaced {scopes : Scopes} {cursor : Cursor}
    (h : cursor.forward.gap ≤ maxSkipped) (expected : String) :
    (misplaced expected scopes cursor).resume cursor = cursor.forward.nextBlock := by
  rw [← Cursor.skipToBlock_eq_nextBlock h]
  simp [resume, misplaced]

lemma Block.resume_skipped (scopes : Scopes) (cursor : Cursor) :
    (skipped scopes cursor).resume cursor = cursor.forward.nextBlock := by
  have h := cursor.forward.gap_le_length.trans cursor.length_forward_le
  rw [← Cursor.skipToBlock_eq_nextBlock h]
  rfl

/-- Where the parser passes over blocks until one of some kinds comes, it says nothing but that
no class is open, where it does not keep silent. -/
lemma Rounds.pass {source : String} {scopes : Scopes} {ends loud : TokenKind → Bool}
    (hread : ∀ place : Cursor, place.startsBlock = true → place.opens ends = false →
      Block.read scopes place = if place.opens loud then Block.misplaced classExpected scopes place
        else Block.skipped scopes place)
    {said : Parsed} {cursor : Cursor} (h : Rounds source said scopes cursor.nextBlock)
    (hgap : ∀ place ∈ cursor.placesBefore ends, place.gap ≤ Block.maxSkipped) :
    Rounds source
      (said ++ ⟨{}, ((cursor.placesBefore ends).filter (·.opens loud)).map fun place =>
        .ofSyntaxError source.toList (place.unexpected classExpected)⟩)
      scopes (cursor.seek ends) := by
  induction hlength : cursor.rest.length using Nat.strong_induction_on generalizing cursor said with
  | _ n ih =>
    cases hw : Reader.withinBlock cursor with
    | true =>
      -- In the middle of a block: the next one is the same a token further.
      have hn := Cursor.ne_nil_of_withinBlock hw
      have hb : cursor.startsBlock = false := by simpa [Reader.withinBlock, hn] using hw
      have hends : cursor.opens ends = false := by simp [Cursor.opens, hb]
      have hloud : cursor.opens loud = false := by simp [Cursor.opens, hb]
      rw [Cursor.nextBlock_of_within hw] at h
      rw [Cursor.placesBefore_of_passed hn hends] at hgap ⊢
      rw [List.filter_cons_of_neg (by simp [hloud]), Cursor.seek_of_passed hn hends]
      exact ih _ (hlength ▸ Cursor.length_forward_lt hn) h (List.forall_mem_cons.1 hgap).2 rfl
    | false =>
      rw [Cursor.nextBlock, Cursor.skipToBlock_of_stops hw] at h
      by_cases hn : cursor.rest = []
      · rw [Cursor.placesBefore_of_nil hn, Cursor.seek_of_nil hn]
        exact h.append_empty
      have hb : cursor.startsBlock = true := by simpa [Reader.withinBlock, hn] using hw
      cases hends : cursor.opens ends with
      | true =>
        rw [Cursor.placesBefore_of_opens hn hends, Cursor.seek_of_opens hn hends]
        exact h.append_empty
      | false =>
        rw [Cursor.placesBefore_of_passed hn hends] at hgap ⊢
        rw [Cursor.seek_of_passed hn hends]
        have hgap := (List.forall_mem_cons.1 hgap).2
        have hround := h.step hn
        rw [hread cursor hb hends] at hround
        have hlt := hlength ▸ Cursor.length_forward_lt hn
        cases hloud : cursor.opens loud with
        | true =>
          rw [hloud, if_pos rfl,
            Block.resume_misplaced (Cursor.gap_le_of_placesBefore hgap)] at hround
          rw [List.filter_cons_of_pos hloud, List.map_cons]
          have hrest := ih _ hlt hround hgap rfl
          rw [Parsed.append_assoc] at hrest
          exact hrest
        | false =>
          rw [hloud, if_neg Bool.false_ne_true, Block.resume_skipped] at hround
          rw [List.filter_cons_of_neg (by simp [hloud])]
          have hsaid : said ++ (Block.skipped scopes cursor).outcome source.toList = said :=
            Parsed.append_empty said
          rw [hsaid] at hround
          exact ih _ hlt hround hgap rfl

lemma Rounds.pass_silently {source : String} {scopes : Scopes} {ends : TokenKind → Bool}
    (hread : ∀ place : Cursor, place.startsBlock = true → place.opens ends = false →
      Block.read scopes place = Block.skipped scopes place)
    {said : Parsed} {cursor : Cursor} (h : Rounds source said scopes cursor.nextBlock)
    (hgap : ∀ place ∈ cursor.placesBefore ends, place.gap ≤ Block.maxSkipped) :
    Rounds source said scopes (cursor.seek ends) := by
  have hnone : ∀ place : Cursor, place.opens (fun _ => false) = false := by simp [Cursor.opens]
  have hpass := @Rounds.pass source scopes ends (fun _ => false) (fun place hb ho => by
    rw [hnone, if_neg Bool.false_ne_true, hread place hb ho]) said cursor h hgap
  rw [List.filter_eq_nil_iff.2 (by simp [hnone])] at hpass
  change Rounds source (said ++ {}) scopes _ at hpass
  rwa [Parsed.append_empty] at hpass

/-- A kind of block that is about a member of a class. -/
def opensMember (kind : TokenKind) : Bool := kind == .methodWord || kind == .fieldWord

/-- A kind of block that opens a class or declares an annotation type, or a package for them. -/
def leavesClass (kind : TokenKind) : Bool :=
  kind == .packageWord || kind == .classWord || kind == .annotationWord

lemma Cursor.opens_of_startsBlock {place : Cursor} (h : place.startsBlock = true) :
    place.kind? = some .packageWord ∨ place.kind? = some .classWord ∨
      place.kind? = some .annotationWord ∨ place.kind? = some .methodWord ∨
        place.kind? = some .fieldWord := by
  have hkind := (Bool.and_eq_true_iff.1 (Bool.and_eq_true_iff.1 h).1).1
  obtain ⟨kind, hk, ho⟩ := (Option.any_eq_true _ _).1 hkind
  rw [hk]
  cases kind <;> simp [TokenKind.opensBlock] at ho <;> simp

lemma Cursor.opens_eq {place : Cursor} (h : place.startsBlock = true) {kind : TokenKind}
    (hk : place.kind? = some kind) (kinds : TokenKind → Bool) : place.opens kinds = kinds kind := by
  rw [opens, h, hk, Bool.true_and, Option.any_some]

lemma read_of_malformedPackage {place : Cursor} (hb : place.startsBlock = true)
    (ho : place.opens (· == .packageWord) = false) :
    Block.read ⟨.malformed, .missing⟩ place =
      if place.opens opensMember then Block.misplaced classExpected ⟨.malformed, .missing⟩ place
      else Block.skipped ⟨.malformed, .missing⟩ place := by
  rcases Cursor.opens_of_startsBlock hb with hk | hk | hk | hk | hk <;>
    rw [Cursor.opens_eq hb hk] at ho ⊢ <;> simp only [Block.read, hk]
  · contradiction
  all_goals rfl

lemma read_of_malformedClass {package : Scope} {place : Cursor} (hb : place.startsBlock = true)
    (ho : place.opens leavesClass = false) :
    Block.read ⟨package, .malformed⟩ place = Block.skipped ⟨package, .malformed⟩ place := by
  rcases Cursor.opens_of_startsBlock hb with hk | hk | hk | hk | hk <;>
    rw [Cursor.opens_eq hb hk] at ho <;> simp only [Block.read, hk]
  iterate 3 contradiction
  all_goals rfl

/-! ### Malformed headers -/

lemma Reader.length_lt_of_error {α : Type} {next : Token → Reader α} {kind : TokenKind}
    {expected : String} {cursor last : Cursor} {error : SyntaxError}
    (hnext : ∀ keyword start, Walks start (next keyword start)) (hk : cursor.kind? = some kind)
    (h : (expect kind expected >>= next) cursor = .error error last) :
    last.rest.length < cursor.rest.length := by
  obtain ⟨previous, rest⟩ := cursor
  obtain ⟨keyword, hmem, rfl⟩ := Option.map_eq_some_iff.1 hk
  obtain ⟨rest, rfl⟩ := List.head?_eq_some_iff.1 hmem
  have hkeyword : expect keyword.kind expected ⟨previous, keyword :: rest⟩ =
      .ok keyword ⟨some keyword, rest⟩ := by
    simp [expect, token]
  rw [bind_ok hkeyword] at h
  have hwalks := hnext keyword ⟨some keyword, rest⟩
  rw [h] at hwalks
  cases hwalks with
  | error fault hfault hplace hlast => exact Nat.lt_succ_of_le (hfault.trans hlast).length_le

lemma length_lt_of_packageHeader_error {cursor next : Cursor} {error : SyntaxError}
    (hk : cursor.kind? = some .packageWord) (h : Reader.packageHeader cursor = .error error next) :
    next.rest.length < cursor.rest.length :=
  Reader.length_lt_of_error (fun _ => walking.packageName_relates.walks) hk h

lemma length_lt_of_classHeader_error {cursor next : Cursor} {error : SyntaxError}
    (hk : cursor.kind? = some .classWord) (h : Reader.classHeader cursor = .error error next) :
    next.rest.length < cursor.rest.length := by
  refine Reader.length_lt_of_error (fun keyword start => ?_) hk h
  have hcolon := walking.expect (show TokenKind.colon ≠ .packageWord by decide)
    "':' after class name"
  have hname := (walking.name "class name").bind fun _ _ hname => hcolon.map fun _ _ _ =>
    congrArg (·, keyword.start) hname
  exact hname.walks start

lemma Block.resume_failed {start next : Cursor} {error : SyntaxError} {scopes : Scopes}
    (hlt : next.rest.length < start.rest.length) (hgap : next.gap ≤ maxSkipped) :
    resume start { failure := some error, cursor := next, scopes } = next.nextBlock := by
  rw [← Cursor.skipToBlock_eq_nextBlock hgap]
  simp [resume, hlt.ne]

/-- **Malformed headers.** Behind a package header that cannot be read, up to the next header of a
package, there are no entries and no declarations, and each member block there reports that no
class is open. Behind a class header that cannot be read nothing at all is said of what comes before
the next package, class or declaration. The parser gives up only where it would have to pass over
too many tokens to come to a block. -/
theorem malformed_header_silences {source : String} {said : Parsed} {scopes : Scopes}
    {cursor : Cursor} (h : Rounds source said scopes cursor) :
    (∀ error next, cursor.kind? = some .packageWord →
      Reader.packageHeader cursor = .error error next →
      (∀ place ∈ next.placesBefore (· == .packageWord), place.gap ≤ Block.maxSkipped) →
      parse source = said ++ .ofDiagnostic (.ofSyntaxError source.toList error) ++
        ⟨{}, ((next.placesBefore (· == .packageWord)).filter (·.opens opensMember)).map fun place =>
          .ofSyntaxError source.toList (place.unexpected "a 'class' block before members")⟩ ++
        parseBlocks source.toList ⟨.malformed, .missing⟩ (next.seek (· == .packageWord))) ∧
    (∀ error next, cursor.kind? = some .classWord → scopes.package ≠ .malformed →
      Reader.classHeader cursor = .error error next →
      (∀ place ∈ next.placesBefore leavesClass, place.gap ≤ Block.maxSkipped) →
      parse source = said ++ .ofDiagnostic (.ofSyntaxError source.toList error) ++
        parseBlocks source.toList { scopes with owner := .malformed } (next.seek leavesClass)) := by
  constructor
  · intro error next hk herror hgap
    have hround := h.step (Cursor.ne_nil_of_kind? hk)
    have hread : Block.read scopes cursor =
        { failure := some error, cursor := next, scopes := ⟨.malformed, .missing⟩ } := by
      rw [Block.read, hk]
      simp only [Block.package, herror]
    rw [hread, Block.resume_failed (length_lt_of_packageHeader_error hk herror)
      (Cursor.gap_le_of_placesBefore hgap)] at hround
    exact (hround.pass (fun _ => read_of_malformedPackage) hgap).parse_eq
  · intro error next hk hpackage herror hgap
    have hround := h.step (Cursor.ne_nil_of_kind? hk)
    have hread : Block.read scopes cursor =
        { failure := some error
          cursor := next
          scopes := { scopes with owner := .malformed } } := by
      rw [Block.read, hk]
      simp only [if_neg hpackage, Block.ofClass, herror]
    rw [hread, Block.resume_failed (length_lt_of_classHeader_error hk herror)
      (Cursor.gap_le_of_placesBefore hgap)] at hround
    exact (hround.pass_silently (fun _ => read_of_malformedClass) hgap).parse_eq

/-- How a reader fails, if it does. -/
def failure? {α : Type} : EStateM.Result SyntaxError Cursor α → Option (SyntaxError × Cursor)
  | .ok _ _ => none
  | .error error next => some (error, next)

lemma exists_error_of_failure? {α : Type} {result : EStateM.Result SyntaxError Cursor α}
    {p : SyntaxError × Cursor → Bool} (h : (failure? result).any p = true) :
    ∃ error next, result = .error error next ∧ p (error, next) = true := by
  obtain ⟨⟨error, next⟩, hfailure, hp⟩ := (Option.any_eq_true _ _).1 h
  cases result with
  | ok a next => contradiction
  | error error next =>
    cases hfailure
    exact ⟨error, next, rfl, hp⟩

/-- A method in a malformed package is reported, and a field in a malformed class is not. -/
theorem malformed_header_silences_field :
    let text := "package 1: class C: method f()V: @A package p: class D: @X"
    let start := Cursor.ofTokens (significantTokens text)
    let text' := "package p: class 2: field g: @B class D: @X"
    let start' := Cursor.ofTokens (significantTokens text')
    let round := Block.read .none start'
    (∃ error next, Reader.packageHeader start = .error error next ∧
      ((next.placesBefore (· == .packageWord)).filter (·.opens opensMember)).length = 1 ∧
      parse text = {} ++ .ofDiagnostic (.ofSyntaxError text.toList error) ++
        ⟨{}, ((next.placesBefore (· == .packageWord)).filter (·.opens opensMember)).map fun place =>
          .ofSyntaxError text.toList (place.unexpected "a 'class' block before members")⟩ ++
        parseBlocks text.toList ⟨.malformed, .missing⟩ (next.seek (· == .packageWord))) ∧
    ∃ error next, Reader.classHeader (round.resume start') = .error error next ∧
      parse text' = {} ++ round.outcome text'.toList ++
          .ofDiagnostic (.ofSyntaxError text'.toList error) ++
        parseBlocks text'.toList { round.scopes with owner := .malformed }
          (next.seek leavesClass) := by
  intro text start text' start' round
  constructor
  · obtain ⟨error, next, herror, hplaces⟩ := exists_error_of_failure? (show
      (failure? (Reader.packageHeader start)).any (fun failure =>
        (failure.2.placesBefore (· == .packageWord)).all (·.gap ≤ Block.maxSkipped) &&
          ((failure.2.placesBefore (· == .packageWord)).filter (·.opens opensMember)).length == 1) =
        true by decide +kernel)
    obtain ⟨hgap, hmembers⟩ := Bool.and_eq_true_iff.1 hplaces
    exact ⟨error, next, herror, eq_of_beq hmembers, (malformed_header_silences .start).1 error next
      (by decide +kernel) herror (by simpa using hgap)⟩
  · obtain ⟨error, next, herror, hgap⟩ := exists_error_of_failure? (show
      (failure? (Reader.classHeader (round.resume start'))).any (fun failure =>
        (failure.2.placesBefore leavesClass).all (·.gap ≤ Block.maxSkipped)) =
        true by decide +kernel)
    have hround := (@Rounds.start text').step (by decide +kernel)
    exact ⟨error, next, herror, (malformed_header_silences hround).2 error next (by decide +kernel)
      (by decide +kernel) herror (by simpa using hgap)⟩

end ExternalAnnotations
