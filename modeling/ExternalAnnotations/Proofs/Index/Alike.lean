import ExternalAnnotations.Proofs.Index.Unplaced

/-!
# Reading the same tokens elsewhere

`Cursor.Alike tail` relates a cursor to another one that has the same tokens in front of it, perhaps
at other places, and then a tail that opens a package, or nothing. Readers started at the two do
the same, since they look at kinds, lexemes and whether tokens touch, and none reads a package
header by mistake, except where an element name is missing at the end.
-/

namespace ExternalAnnotations

/-- Whether a token starts where the one before it ends. -/
def touches (previous : Option Token) (token : Token) : Prop :=
  ∃ last, previous = some last ∧ token.start.offset = last.finish.offset

instance (previous : Option Token) (token : Token) : Decidable (touches previous token) :=
  match previous with
  | none => isFalse (by simp [touches])
  | some last => decidable_of_iff (token.start.offset = last.finish.offset) (by simp [touches])

/-- Kinds after which a block keyword is a name. -/
def TokenKind.bindsName (kind : TokenKind) : Bool := [.dot, .slash, .atSign].contains kind

/-- Tokens that are none, or the first ones of a package block. -/
structure OpensPackage (tail : List Token) : Prop where
  first : ∀ token ∈ tail.head?, token.kind = .packageWord
  second : ∀ token ∈ (tail.drop 1).head?, token.kind ≠ .equals

lemma opensPackage_nil : OpensPackage [] := ⟨by simp, by simp⟩

namespace Cursor

/-- The second cursor has the tokens of the first before it, and then a tail. -/
inductive Alike (tail : List Token) : Cursor → Cursor → Prop
  | atEnd {previous previous' : Option Token}
      (hprevious : previous'.map (·.kind) = previous.map (·.kind))
      (hlast : tail ≠ [] → ∀ last ∈ previous, last.kind.bindsName = false) :
      Alike tail ⟨previous, []⟩ ⟨previous', tail⟩
  | ahead {previous previous' : Option Token} {token token' : Token} {rest rest' : List Token}
      (hprevious : previous'.map (·.kind) = previous.map (·.kind))
      (htoken : unplaced token' = unplaced token)
      (htouches : touches previous' token' ↔ touches previous token)
      (h : Alike tail ⟨some token, rest⟩ ⟨some token', rest'⟩) :
      Alike tail ⟨previous, token :: rest⟩ ⟨previous', token' :: rest'⟩

lemma any_beq {α : Type} [BEq α] (found : Option α) (a : α) :
    found.any (· == a) = (found == some a) := by
  cases found <;> rfl

lemma ne_nil_of_isAt {cursor : Cursor} {kind : TokenKind} (h : cursor.isAt kind = true) :
    cursor.rest ≠ [] := by
  intro hn
  simp [isAt, kind?, hn] at h

lemma length_forward_le (cursor : Cursor) :
    cursor.forward.rest.length ≤ cursor.rest.length := by
  unfold forward
  split <;> simp [*]

end Cursor

lemma OpensPackage.secondKind?_ne {tail : List Token} (ht : OpensPackage tail)
    (previous : Option Token) :
    ((Cursor.mk previous tail).secondKind? == some .equals) = false := by
  have hsecond := ht.second
  rw [Cursor.secondKind?]
  cases hd : (tail.drop 1).head? with
  | none => rfl
  | some token => simpa using hsecond token hd

namespace Cursor

lemma ne_nil_of_kind? {cursor : Cursor} {kind : TokenKind} (h : cursor.kind? = some kind) :
    cursor.rest ≠ [] := by
  intro hn
  simp [kind?, hn] at h

lemma kind?_forward (cursor : Cursor) (hn : cursor.rest ≠ []) :
    cursor.forward.kind? = cursor.secondKind? := by
  obtain ⟨previous, rest⟩ := cursor
  obtain ⟨token, rest, rfl⟩ := List.exists_cons_of_ne_nil hn
  rfl

lemma startsBlock_eq_kinds (cursor : Cursor) : cursor.startsBlock =
    (cursor.kind?.any TokenKind.opensBlock
      && !((cursor.previous.map (·.kind)).any TokenKind.bindsName)
      && cursor.secondKind? != some .equals) := by
  rw [startsBlock, Option.any_map]
  rfl

lemma alike_refl (cursor : Cursor) : cursor.Alike [] cursor := by
  obtain ⟨previous, rest⟩ := cursor
  induction rest generalizing previous with
  | nil => exact .atEnd rfl (by simp)
  | cons token rest ih => exact .ahead rfl rfl .rfl (ih _)

namespace Alike

variable {tail : List Token} {cursor other : Cursor}

lemma kind?_eq (h : cursor.Alike tail other) (hn : cursor.rest ≠ []) :
    other.kind? = cursor.kind? := by
  cases h with
  | atEnd => contradiction
  | ahead _ htoken => exact congrArg some (kind_of_unplaced htoken)

lemma previous_eq (h : cursor.Alike tail other) :
    other.previous.map (·.kind) = cursor.previous.map (·.kind) := by
  cases h <;> assumption

lemma length_eq (h : cursor.Alike tail other) :
    other.rest.length = cursor.rest.length + tail.length := by
  induction h with
  | atEnd => simp
  | ahead _ _ _ _ ih =>
    simp only [List.length_cons] at ih ⊢
    omega

lemma length_lt_iff (h : cursor.Alike tail other) {next next' : Cursor}
    (hnext : next.Alike tail next') :
    next'.rest.length < other.rest.length ↔ next.rest.length < cursor.rest.length := by
  rw [h.length_eq, hnext.length_eq]
  omega

lemma rest_eq_tail (h : cursor.Alike tail other) (hn : cursor.rest = []) : other.rest = tail := by
  cases h with
  | atEnd => rfl
  | ahead => contradiction

lemma rest_ne_nil (h : cursor.Alike tail other) (hn : cursor.rest ≠ []) : other.rest ≠ [] := by
  cases h with
  | atEnd => contradiction
  | ahead => simp

lemma forward (h : cursor.Alike tail other) (hn : cursor.rest ≠ []) :
    cursor.forward.Alike tail other.forward := by
  cases h with
  | atEnd => contradiction
  | ahead _ _ _ h => exact h

lemma second (h : cursor.Alike tail other) (hn : cursor.rest ≠ []) :
    other.secondKind? = cursor.secondKind? ∨
      cursor.secondKind? = none ∧ other.secondKind? = tail.head?.map (·.kind) := by
  cases h with
  | atEnd => contradiction
  | ahead _ _ _ h =>
    cases h with
    | atEnd => exact .inr ⟨rfl, rfl⟩
    | ahead _ htoken => exact .inl (congrArg some (kind_of_unplaced htoken))

lemma unexpected_eq (h : cursor.Alike [] other) (expected : String) :
    unplaced (other.unexpected expected) = unplaced (cursor.unexpected expected) := by
  cases h with
  | atEnd => rfl
  | ahead _ htoken =>
    simp only [unexpected, lexeme_of_unplaced htoken]
    rfl

section

variable (ht : OpensPackage tail)
include ht

lemma kind?_cases (h : cursor.Alike tail other) :
    other.kind? = cursor.kind? ∨ cursor.rest = [] ∧ other.kind? = some .packageWord := by
  cases h with
  | atEnd =>
    cases tail with
    | nil => exact .inl rfl
    | cons token tail => exact .inr ⟨rfl, congrArg some (ht.first token rfl)⟩
  | ahead hprevious htoken htouches h =>
    exact .inl (congrArg some (kind_of_unplaced htoken))

lemma isAt_eq (h : cursor.Alike tail other) {kind : TokenKind} (hk : kind ≠ .packageWord) :
    other.isAt kind = cursor.isAt kind := by
  rcases h.kind?_cases ht with he | ⟨hnil, he⟩
  · rw [isAt, isAt, he]
  · rw [isAt, isAt, he, kind?, hnil]
    simpa using hk.symm

lemma secondKind?_eq (h : cursor.Alike tail other) (hn : cursor.rest ≠ []) {p : TokenKind → Bool}
    (hp : p .packageWord = false) : other.secondKind?.any p = cursor.secondKind?.any p := by
  rcases h.second hn with he | ⟨hnone, he⟩
  · rw [he]
  · rw [he, hnone]
    cases tail with
    | nil => rfl
    | cons token tail => simpa [ht.first token rfl] using hp

lemma secondKind?_isAt (h : cursor.Alike tail other) (hn : cursor.rest ≠ []) {kind : TokenKind}
    (hk : kind ≠ .packageWord) :
    (other.secondKind? == some kind) = (cursor.secondKind? == some kind) := by
  have he := h.secondKind?_eq ht hn (p := (· == kind)) (by simpa using hk.symm)
  rwa [any_beq, any_beq] at he

lemma continuesName_eq (h : cursor.Alike tail other) :
    Reader.continuesName other = Reader.continuesName cursor := by
  rw [Reader.continuesName, Reader.continuesName, h.isAt_eq ht (by decide)]
  cases hd : cursor.isAt .dot with
  | false => rfl
  | true => rw [h.secondKind?_eq ht (ne_nil_of_isAt hd) rfl]

lemma endsClassLiteral_eq (h : cursor.Alike tail other) :
    Reader.endsClassLiteral other = Reader.endsClassLiteral cursor := by
  rw [Reader.endsClassLiteral, Reader.endsClassLiteral, h.isAt_eq ht (by decide)]
  cases hd : cursor.isAt .dot with
  | false => rfl
  | true => rw [h.secondKind?_isAt ht (ne_nil_of_isAt hd) (by decide)]

lemma startsNamedArguments_eq (h : cursor.Alike tail other) :
    Reader.startsNamedArguments other = Reader.startsNamedArguments cursor := by
  by_cases hn : cursor.rest = []
  · have hsecond : (other.secondKind? == some .equals) = false := by
      obtain ⟨previous, rest⟩ := other
      obtain rfl : rest = tail := h.rest_eq_tail hn
      exact ht.secondKind?_ne previous
    simp [Reader.startsNamedArguments, hsecond, kind?, hn]
  · rw [Reader.startsNamedArguments, Reader.startsNamedArguments, h.kind?_eq hn,
      h.secondKind?_isAt ht hn (by decide)]

lemma startsBlock_eq (h : cursor.Alike tail other) (hn : cursor.rest ≠ []) :
    other.startsBlock = cursor.startsBlock := by
  rw [startsBlock_eq_kinds, startsBlock_eq_kinds, h.kind?_eq hn, h.previous_eq, bne, bne,
    h.secondKind?_isAt ht hn (by decide)]

lemma startsBlock_atEnd (h : cursor.Alike tail other) (hn : cursor.rest = [])
    (htail : tail ≠ []) : other.startsBlock = true := by
  cases h with
  | ahead => contradiction
  | @atEnd previous previous' hprevious hlast =>
    obtain ⟨token, rest, rfl⟩ := List.exists_cons_of_ne_nil htail
    have hprev : (previous'.map (·.kind)).any TokenKind.bindsName = false := by
      rw [hprevious, Option.any_map]
      cases previous with
      | none => rfl
      | some last => exact hlast htail last rfl
    have hkind : (Cursor.mk previous' (token :: rest)).kind? = some .packageWord :=
      congrArg some (ht.first token rfl)
    rw [startsBlock_eq_kinds, hprev, hkind, bne, ht.secondKind?_ne previous']
    rfl

lemma withinBlock_eq (h : cursor.Alike tail other) :
    Reader.withinBlock other = Reader.withinBlock cursor := by
  by_cases hn : cursor.rest = []
  · have hc : Reader.withinBlock cursor = false := by simp [Reader.withinBlock, hn]
    rw [hc, Reader.withinBlock]
    by_cases htail : tail = []
    · rw [h.rest_eq_tail hn, htail]
      rfl
    · rw [h.startsBlock_atEnd ht hn htail]
      simp
  · rw [Reader.withinBlock, Reader.withinBlock, h.startsBlock_eq ht hn,
      List.isEmpty_eq_false_iff.2 hn, List.isEmpty_eq_false_iff.2 (h.rest_ne_nil hn)]

end

end Alike

end Cursor

/-! ### Readers -/

/-- The text ended where the name of an element should be. -/
def SyntaxError.missesElementName : SyntaxError → Bool
  | .unexpectedEnd expected _ => expected == "element name"
  | _ => false

namespace Reader

variable {α β : Type} {cursor middle last next : Cursor}

lemma bind_ok {reader : Reader α} {next : α → Reader β} {a : α}
    (h : reader cursor = .ok a middle) : (reader >>= next) cursor = next a middle := by
  change EStateM.bind reader next cursor = _
  rw [EStateM.bind, h]

lemma bind_error {reader : Reader α} {next : α → Reader β} {error : SyntaxError}
    (h : reader cursor = .error error middle) :
    (reader >>= next) cursor = .error error middle := by
  change EStateM.bind reader next cursor = _
  rw [EStateM.bind, h]

lemma ok_of_bind {reader : Reader α} {next : α → Reader β} {b : β}
    (h : (reader >>= next) cursor = .ok b last) :
    ∃ a middle, reader cursor = .ok a middle ∧ next a middle = .ok b last := by
  cases hread : reader cursor with
  | ok a middle => exact ⟨a, middle, rfl, (bind_ok hread).symm.trans h⟩
  | error error middle =>
    rw [bind_error hread] at h
    contradiction

section

variable {isIn : TokenKind → Bool} {expected : String} {token : Token}

lemma rest_of_token (h : Reader.token isIn expected cursor = .ok token next) :
    isIn token.kind = true ∧ cursor.rest = token :: next.rest := by
  unfold Reader.token at h
  split at h
  · rename_i token' rest hrest
    split at h
    · rename_i hkind
      obtain ⟨rfl, rfl⟩ := EStateM.Result.ok.inj h
      exact ⟨hkind, hrest⟩
    · contradiction
  · contradiction

lemma cursor_of_token (h : Reader.token isIn expected cursor = .ok token next) :
    next = ⟨some token, next.rest⟩ := by
  unfold Reader.token at h
  split at h
  · split at h
    · obtain ⟨rfl, rfl⟩ := EStateM.Result.ok.inj h
      rfl
    · contradiction
  · contradiction

lemma place_of_token (h : Reader.token isIn expected cursor = .ok token next) :
    cursor.place = token.start := by
  rw [Cursor.place, (rest_of_token h).2]

end

end Reader

end ExternalAnnotations
