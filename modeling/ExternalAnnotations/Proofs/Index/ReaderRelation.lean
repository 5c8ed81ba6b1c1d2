import ExternalAnnotations.Proofs.Index.Alike
import ExternalAnnotations.Proofs.Index.Productions

/-!
# Relations that readers keep

Readers are put together in a few ways out of readers of one token. A `ReaderRelation` is a relation
between what two readers do that all of these ways keep, so it holds of the readings of an index
if it holds of its tokens. Whatever the relation is, what a reader takes is in the language of its
nonterminal, it only goes on to tokens ahead, and an error that it reports is at a place that it
came past.
-/

namespace ExternalAnnotations

open Production
open scoped Computability

namespace Cursor

/-- The second place is some tokens further than the first. -/
def LeadsTo : Cursor → Cursor → Prop :=
  Relation.ReflTransGen fun cursor next => cursor.forward = next

namespace LeadsTo

variable {cursor middle next : Cursor}

lemma refl (cursor : Cursor) : cursor.LeadsTo cursor := Relation.ReflTransGen.refl

lemma trans (h : cursor.LeadsTo middle) (h' : middle.LeadsTo next) : cursor.LeadsTo next :=
  Relation.ReflTransGen.trans h h'

lemma forward (cursor : Cursor) : cursor.LeadsTo cursor.forward := .single rfl

lemma skipToBlock (limit : Nat) (cursor : Cursor) :
    cursor.LeadsTo (cursor.skipToBlock limit) := by
  induction limit generalizing cursor with
  | zero => exact refl cursor
  | succ limit ih =>
    rw [Cursor.skipToBlock]
    split
    · exact refl cursor
    · exact (forward cursor).trans (ih cursor.forward)

lemma suffix (h : cursor.LeadsTo next) : next.rest <:+ cursor.rest := by
  induction h with
  | refl => exact List.suffix_rfl
  | @tail middle next _ hstep ih =>
    refine List.IsSuffix.trans ?_ ih
    rw [← hstep, Cursor.forward]
    split
    · rename_i token rest hrest
      rw [hrest]
      exact List.suffix_cons token rest
    · exact List.suffix_rfl

lemma length_le (h : cursor.LeadsTo next) : next.rest.length ≤ cursor.rest.length :=
  h.suffix.length_le

end LeadsTo

/-- The second place is further than the first by tokens of a language. -/
structure Past (l : Language Token) (cursor next : Cursor) : Prop where
  leadsTo : cursor.LeadsTo next
  taken : ∃ taken ∈ l, cursor.rest = taken ++ next.rest

namespace Past

variable {l m : Language Token} {cursor middle next : Cursor}

lemma refl (cursor : Cursor) : cursor.Past 1 cursor := ⟨.refl cursor, [], rfl, rfl⟩

lemma trans (h : cursor.Past l middle) (h' : middle.Past m next) : cursor.Past (l * m) next := by
  obtain ⟨taken, htaken, hrest⟩ := h.taken
  obtain ⟨taken', htaken', hrest'⟩ := h'.taken
  refine ⟨h.leadsTo.trans h'.leadsTo, taken ++ taken', Language.append_mem_mul htaken htaken', ?_⟩
  rw [hrest, hrest', List.append_assoc]

lemma mono (h : cursor.Past l next) (hl : l ≤ m) : cursor.Past m next :=
  ⟨h.leadsTo, h.taken.imp fun _ htaken => ⟨hl htaken.1, htaken.2⟩⟩

lemma forward {isIn : Token → Prop} {token : Token} {rest : List Token}
    (h : cursor.rest = token :: rest) (hin : isIn token) :
    cursor.Past (one isIn) cursor.forward := by
  refine ⟨.forward cursor, [token], ⟨token, hin, rfl⟩, ?_⟩
  rw [Cursor.forward, h]
  rfl

lemma of_isAt {kind : TokenKind} (h : cursor.isAt kind = true) :
    cursor.Past (word kind) cursor.forward := by
  obtain ⟨token, rest, hrest⟩ := List.exists_cons_of_ne_nil (ne_nil_of_isAt h)
  refine forward hrest ?_
  simpa [isAt, kind?, hrest] using h

lemma length_lt (h : cursor.Past l next) (hl : [] ∉ l) :
    next.rest.length < cursor.rest.length := by
  obtain ⟨taken, htaken, hrest⟩ := h.taken
  have hpos : 0 < taken.length := List.length_pos_iff.2 fun hnil => hl (hnil ▸ htaken)
  rw [hrest, List.length_append]
  omega

end Past

end Cursor

/-- What relates two readings. The second has the tokens of the first in front of it, perhaps at
other places and with a tail behind them. -/
structure ReaderRelation (tail : List Token) where
  /-- Where the two readings may stand. -/
  Near : Cursor → Cursor → Prop
  /-- The places of what they give. -/
  Place : Location → Location → Prop
  /-- What they report where there is no tail. -/
  Error : SyntaxError → SyntaxError → Prop
  opens : OpensPackage tail
  alike {cursor other : Cursor} : Near cursor other → cursor.Alike tail other
  near_forward {cursor other : Cursor} :
    Near cursor other → cursor.rest ≠ [] → Near cursor.forward other.forward
  near_place {cursor other : Cursor} :
    Near cursor other → cursor.rest ≠ [] → Place cursor.place other.place
  unexpected {cursor other : Cursor} (expected : String) : tail = [] → Near cursor other →
    Error (cursor.unexpected expected) (other.unexpected expected)
  unexpectedToken {place other : Location} (expected found : String) :
    Place place other →
      Error (.unexpectedToken expected found place) (.unexpectedToken expected found other)
  invalidDescriptor {place other : Location} (error : DescriptorError) :
    Place place other → Error (.invalidDescriptor error place) (.invalidDescriptor error other)
  invalidLiteral {place other : Location} (literal reason : String) :
    Place place other →
      Error (.invalidLiteral literal reason place) (.invalidLiteral literal reason other)

namespace ReaderRelation

variable {tail : List Token} {α β : Type}

/-- What two readings give from places at which they may stand. If the first misses the name of an
element at its end nothing is said, since the second may read on in the tail. -/
inductive Gives (r : ReaderRelation tail) (l : Language Token) (same : α → α → Prop)
    (start : Cursor) :
    EStateM.Result SyntaxError Cursor α → EStateM.Result SyntaxError Cursor α → Prop
  | ok {a a' : α} {next next' : Cursor} (hpast : start.Past l next) (hnear : r.Near next next')
      (hsame : same a a') : Gives r l same start (.ok a next) (.ok a' next')
  | error {error error' : SyntaxError} {fault next next' : Cursor} (hfault : start.LeadsTo fault)
      (hplace : error.place = fault.place) (hnext : fault.LeadsTo next) (hnear : r.Near next next')
      (herror : tail = [] → r.Error error error') :
      Gives r l same start (.error error next) (.error error' next')
  | cut {error : SyntaxError} {next : Cursor} {result : EStateM.Result SyntaxError Cursor α}
      (htail : tail ≠ []) (herror : error.missesElementName) :
      Gives r l same start (.error error next) result

/-- Two readers are related wherever they may stand. -/
def Relates (r : ReaderRelation tail) (l : Language Token) (same : α → α → Prop)
    (reader reader' : Reader α) : Prop :=
  ∀ ⦃cursor other⦄, r.Near cursor other → r.Gives l same cursor (reader cursor) (reader' other)

variable {r : ReaderRelation tail} {l m : Language Token} {same : α → α → Prop}
  {found : β → β → Prop} {cursor other start middle : Cursor}

/-! ### One reader after the other -/

namespace Gives

lemma mono {result result' : EStateM.Result SyntaxError Cursor α}
    (h : r.Gives l same start result result') (hl : l ≤ m) :
    r.Gives m same start result result' := by
  cases h with
  | ok hpast hnear hsame => exact .ok (hpast.mono hl) hnear hsame
  | error hfault hplace hnext hnear herror => exact .error hfault hplace hnext hnear herror
  | cut htail herror => exact .cut htail herror

lemma imp {same' : α → α → Prop} {result result' : EStateM.Result SyntaxError Cursor α}
    (h : r.Gives l same start result result') (himp : ∀ a a', same a a' → same' a a') :
    r.Gives l same' start result result' := by
  cases h with
  | ok hpast hnear hsame => exact .ok hpast hnear (himp _ _ hsame)
  | error hfault hplace hnext hnear herror => exact .error hfault hplace hnext hnear herror
  | cut htail herror => exact .cut htail herror

lemma after {result result' : EStateM.Result SyntaxError Cursor α} (hpast : start.Past l middle)
    (h : r.Gives m same middle result result') : r.Gives (l * m) same start result result' := by
  cases h with
  | ok hpast' hnear hsame => exact .ok (hpast.trans hpast') hnear hsame
  | error hfault hplace hnext hnear herror =>
    exact .error (hpast.leadsTo.trans hfault) hplace hnext hnear herror
  | cut htail herror => exact .cut htail herror

lemma bind_from {reader reader' : Reader α} {next next' : α → Reader β}
    (h : r.Gives l same start (reader cursor) (reader' other))
    (hnext : ∀ a a' middle middle', reader cursor = .ok a middle →
      reader' other = .ok a' middle' → start.Past l middle → r.Near middle middle' → same a a' →
      r.Gives m found start (next a middle) (next' a' middle')) :
    r.Gives m found start ((reader >>= next) cursor) ((reader' >>= next') other) := by
  generalize hread : reader cursor = result, hread' : reader' other = result' at h
  cases h with
  | ok hpast hnear hsame =>
    rw [Reader.bind_ok hread, Reader.bind_ok hread']
    exact hnext _ _ _ _ hread hread' hpast hnear hsame
  | error hfault hplace hlast hnear herror =>
    rw [Reader.bind_error hread, Reader.bind_error hread']
    exact .error hfault hplace hlast hnear herror
  | cut htail herror =>
    rw [Reader.bind_error hread]
    exact .cut htail herror

lemma bind {reader reader' : Reader α} {next next' : α → Reader β}
    (h : r.Gives l same cursor (reader cursor) (reader' other))
    (hnext : ∀ a a', same a a' → r.Relates m found (next a) (next' a')) :
    r.Gives (l * m) found cursor ((reader >>= next) cursor) ((reader' >>= next') other) :=
  h.bind_from fun a a' _ _ _ _ hpast hnear hsame => .after hpast (hnext a a' hsame hnear)

lemma fail (expected : String) (h : r.Near cursor other) :
    r.Gives l same cursor (Reader.fail expected cursor) (Reader.fail expected other) := by
  refine .error (.refl cursor) ?_ (.refl cursor) h fun htail => r.unexpected expected htail h
  unfold Cursor.unexpected Cursor.place
  split <;> simp [SyntaxError.place, *]

end Gives

namespace Relates

lemma mono {reader reader' : Reader α} (h : r.Relates l same reader reader') (hl : l ≤ m) :
    r.Relates m same reader reader' := fun _ _ hnear => (h hnear).mono hl

lemma pure {a a' : α} (h : same a a') : r.Relates 1 same (Pure.pure a) (Pure.pure a') :=
  fun cursor _ hnear => .ok (.refl cursor) hnear h

lemma bind {reader reader' : Reader α} {next next' : α → Reader β}
    (h : r.Relates l same reader reader')
    (hnext : ∀ a a', same a a' → r.Relates m found (next a) (next' a')) :
    r.Relates (l * m) found (reader >>= next) (reader' >>= next') :=
  fun _ _ hnear => (h hnear).bind hnext

lemma map {reader reader' : Reader α} {f f' : α → β} (h : r.Relates l same reader reader')
    (hf : ∀ a a', same a a' → found (f a) (f' a')) :
    r.Relates l found (reader >>= fun a => Pure.pure (f a))
      (reader' >>= fun a => Pure.pure (f' a)) := by
  rw [← mul_one l]
  exact h.bind fun a a' hsame => pure (hf a a' hsame)

lemma get {next next' : Cursor → Reader β}
    (h : ∀ cursor other, r.Near cursor other →
      r.Gives l found cursor (next cursor cursor) (next' other other)) :
    r.Relates l found (MonadState.get >>= next) (MonadState.get >>= next') := h

end Relates

/-! ### Single tokens -/

/-- The same token at places that are related. -/
structure SameToken (r : ReaderRelation tail) (token other : Token) : Prop where
  same : unplaced other = unplaced token
  start : r.Place token.start other.start

variable (r)

lemma token_at {isIn : TokenKind → Bool} {expected : String} (h : r.Near cursor other)
    (hthere : tail = [] ∨ cursor.rest ≠ []) :
    r.Gives (one fun token => isIn token.kind = true) r.SameToken cursor
      (Reader.token isIn expected cursor) (Reader.token isIn expected other) := by
  have hfail : r.Gives (one fun token => isIn token.kind = true) r.SameToken cursor
    (Reader.fail expected cursor) (Reader.fail expected other) := .fail expected h
  obtain ⟨previous, rest⟩ := cursor
  obtain ⟨previous', rest'⟩ := other
  cases rest with
  | nil =>
    obtain rfl : rest' = [] :=
      ((r.alike h).rest_eq_tail rfl).trans (hthere.resolve_right fun hn => hn rfl)
    exact hfail
  | cons token rest =>
    have hnext := r.near_forward h (List.cons_ne_nil token rest)
    have hplace := r.near_place h (List.cons_ne_nil token rest)
    cases r.alike h with
    | ahead hprevious htoken =>
      simp only [Reader.token, kind_of_unplaced htoken]
      split
      · rename_i hin
        exact .ok (.forward rfl hin) hnext ⟨htoken, hplace⟩
      · exact hfail

/-- A token of a class that `package` is not in, or the name of an element. -/
lemma token {isIn : TokenKind → Bool} {expected : String}
    (hp : isIn .packageWord = false ∨ expected = "element name") :
    r.Relates (one fun token => isIn token.kind = true) r.SameToken (Reader.token isIn expected)
      (Reader.token isIn expected) := by
  intro cursor other h
  by_cases hthere : tail = [] ∨ cursor.rest ≠ []
  · exact r.token_at h hthere
  obtain ⟨htail, hn⟩ := not_or.1 hthere
  have hfail : r.Gives (one fun token => isIn token.kind = true) r.SameToken cursor
    (Reader.fail expected cursor) (Reader.fail expected other) := .fail expected h
  obtain ⟨previous, rest⟩ := cursor
  obtain rfl : rest = [] := not_not.1 hn
  obtain ⟨previous', rest'⟩ := other
  obtain rfl : rest' = tail := (r.alike h).rest_eq_tail rfl
  obtain ⟨first, tail, rfl⟩ := List.exists_cons_of_ne_nil htail
  simp only [Reader.token, r.opens.first first rfl]
  rcases hp with hp | rfl
  · rw [hp]
    exact hfail
  · exact .cut htail rfl

lemma expect {kind : TokenKind} (hk : kind ≠ .packageWord) (expected : String) :
    r.Relates (word kind) r.SameToken (Reader.expect kind expected)
        (Reader.expect kind expected) := by
  refine (r.token (.inl (by simpa using hk.symm))).mono ?_
  rintro _ ⟨token, hkind, rfl⟩
  exact ⟨token, beq_iff_eq.1 hkind, rfl⟩

lemma forward {kind : TokenKind} {reader reader' : Reader β} (h : r.Relates m found reader reader')
    (hnear : r.Near cursor other) (hat : cursor.isAt kind = true) :
    r.Gives (word kind * m) found cursor ((Reader.forward >>= fun _ => reader) cursor)
      ((Reader.forward >>= fun _ => reader') other) :=
  .after (.of_isAt hat) (h (r.near_forward hnear (Cursor.ne_nil_of_isAt hat)))

lemma eat {kind : TokenKind} (hk : kind ≠ .packageWord) {next next' : Bool → Reader β}
    (hthere : r.Relates l found (next true) (next' true))
    (hnot : r.Relates m found (next false) (next' false)) :
    r.Relates (word kind * l + m) found (Reader.eat kind >>= next) (Reader.eat kind >>= next') := by
  intro cursor other h
  have hother := (r.alike h).isAt_eq r.opens hk
  cases hat : cursor.isAt kind with
  | true =>
    have heat : Reader.eat kind cursor = .ok true cursor.forward := by rw [Reader.eat, if_pos hat]
    have heat' : Reader.eat kind other = .ok true other.forward := by
      rw [Reader.eat, if_pos (hother.trans hat)]
    rw [Reader.bind_ok heat, Reader.bind_ok heat']
    exact (r.forward hthere h hat).mono le_sup_left
  | false =>
    have heat : Reader.eat kind cursor = .ok false cursor := by
      rw [Reader.eat, if_neg (Bool.eq_false_iff.1 hat)]
    have heat' : Reader.eat kind other = .ok false other := by
      rw [Reader.eat, if_neg (Bool.eq_false_iff.1 (hother.trans hat))]
    rw [Reader.bind_ok heat, Reader.bind_ok heat']
    exact (hnot h).mono le_sup_right

/-! ### Lists -/

lemma manyWhile {more : Cursor → Bool} {item item' : Reader α}
    (hmore : ∀ cursor other, r.Near cursor other → more other = more cursor)
    (hitem : ∀ cursor other, r.Near cursor other → more cursor = true →
      r.Gives l same cursor (item cursor) (item' other)) :
    r.Relates l∗ (List.Forall₂ same) (Reader.manyWhile more item)
      (Reader.manyWhile more item') := by
  intro cursor
  -- the second loop goes on just where the first does, which has tokens left only then
  induction hlength : cursor.rest.length using Nat.strong_induction_on generalizing cursor with
  | _ length ih =>
  subst hlength
  intro other h
  rw [Reader.manyWhile, Reader.manyWhile, hmore cursor other h]
  cases hm : more cursor with
  | false => exact .ok ((Cursor.Past.refl cursor).mono one_le_kstar) h .nil
  | true =>
    have hread := hitem cursor other h hm
    generalize item cursor = result, item' other = result' at hread
    cases hread with
    | error hfault hplace hnext hnear herror => exact .error hfault hplace hnext hnear herror
    | cut htail herror => exact .cut htail herror
    | @ok a a' next next' hpast hnear hsame =>
      have hone : l ≤ l∗ := le_kstar
      simp only [if_true, (r.alike h).length_lt_iff (r.alike hnear)]
      split
      · rename_i hshorter
        have hothers := ih _ hshorter rfl hnear
        have hstar : l * l∗ ≤ l∗ := mul_kstar_le_kstar
        generalize Reader.manyWhile more item next = others,
          Reader.manyWhile more item' next' = others' at hothers
        cases hothers with
        | error hfault hplace hlast hnear herror =>
          exact .error (hpast.leadsTo.trans hfault) hplace hlast hnear herror
        | cut htail herror => exact .cut htail herror
        | ok hpast' hnear hothers =>
          exact .ok ((hpast.trans hpast').mono hstar) hnear (.cons hsame hothers)
      · exact .ok (hpast.mono hone) hnear (.cons hsame .nil)

lemma commaSeparated {item item' : Reader α} (h : r.Relates l same item item') :
    r.Relates (separated l) (List.Forall₂ same) (Reader.commaSeparated item)
      (Reader.commaSeparated item') := by
  refine h.bind fun a a' hfirst => (r.manyWhile ?_ ?_).map fun _ _ hothers => .cons hfirst hothers
  · intro cursor other hnear
    exact (r.alike hnear).isAt_eq r.opens (by decide)
  · intro cursor other hnear hcomma
    exact r.forward h hnear hcomma

lemma closedBy {reader reader' : Reader α} (h : r.Relates l same reader reader') {kind : TokenKind}
    (hk : kind ≠ .packageWord) (expected : String) :
    r.Relates (l * word kind) same
      (do let a ← reader; let _ ← Reader.expect kind expected; return a)
      (do let a ← reader'; let _ ← Reader.expect kind expected; return a) :=
  h.bind fun _ _ hsame => (r.expect hk expected).map fun _ _ _ => hsame

end ReaderRelation

end ExternalAnnotations
