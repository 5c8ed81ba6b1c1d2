import ExternalAnnotations.Proofs.Index.Grammar

/-!
# Reading what the grammar spells

`Reader.Reads` says that a reader takes exactly the tokens of some terminals, and what it gives,
wherever what follows cannot be taken for more of the same.
-/

namespace ExternalAnnotations

/-! ### Tokens before a cursor -/

/-- Whether a token is read as a terminal. -/
def Terminal.Fits (terminal : Terminal) (token : Token) : Prop :=
  token.lexeme = terminal.lexeme ∧
    match terminal.kind with
    | some kind => token.kind = kind
    | none => token.kind = .identifier ∨ (token.kind, token.lexeme) ∈ softWords

lemma Terminal.Fits.kind_eq {kind : TokenKind} {token : Token} (h : (word kind).Fits token) :
    token.kind = kind := h.2

lemma Terminal.Fits.isName {text : String} {token : Token} (h : (Terminal.name text).Fits token) :
    token.kind.isName = true := by
  rcases h.2 with hkind | hsoft
  · rw [hkind]
    rfl
  · have hall : ∀ word ∈ softWords, word.1.isName = true := by decide
    exact hall _ hsoft

/-- Whether the name of an element can be read where the terminal stands. -/
def Terminal.namesElement (terminal : Terminal) : Bool :=
  terminal.kind.all fun kind => kind == .identifier || (kind.isKeyword && !kind.isLiteral)

lemma Terminal.Fits.isElementName {terminal : Terminal} {token : Token} (h : terminal.Fits token)
    (hname : terminal.namesElement = true) :
    (token.kind == .identifier || (token.kind.isKeyword && !token.kind.isLiteral)) = true := by
  obtain ⟨kind, lexeme, glued⟩ := terminal
  cases kind with
  | some kind =>
    obtain rfl : token.kind = kind := h.2
    exact hname
  | none =>
    rcases h.2 with hkind | hsoft
    · rw [hkind]
      rfl
    · have hall : ∀ word ∈ softWords,
          (word.1 == .identifier || (word.1.isKeyword && !word.1.isLiteral)) = true := by decide
      exact hall _ hsoft

namespace Cursor

/-- Between the two cursors there are tokens for the terminals. -/
inductive Spells : List Terminal → Cursor → Cursor → Prop
  | nil (cursor : Cursor) : Spells [] cursor cursor
  | cons {terminal : Terminal} {terminals : List Terminal} {previous : Option Token} {token : Token}
      {rest : List Token} {last : Cursor} (hfits : terminal.Fits token)
      (hglued : terminal.glued = true → touches previous token)
      (h : Spells terminals ⟨some token, rest⟩ last) :
      Spells (terminal :: terminals) ⟨previous, token :: rest⟩ last

/-- None of the kinds comes next. -/
def Avoids (kinds : List TokenKind) (cursor : Cursor) : Prop :=
  ∀ kind ∈ kinds, cursor.isAt kind = false

variable {cursor last : Cursor} {terminal : Terminal} {terminals others : List Terminal}

lemma Spells.of_append (h : Spells (terminals ++ others) cursor last) :
    ∃ middle, Spells terminals cursor middle ∧ Spells others middle last := by
  induction terminals generalizing cursor with
  | nil => exact ⟨cursor, .nil cursor, h⟩
  | cons terminal terminals ih =>
    cases h with
    | cons hfits hglued h =>
      obtain ⟨middle, hfirst, hsecond⟩ := ih h
      exact ⟨middle, .cons hfits hglued hfirst, hsecond⟩

lemma Spells.length_eq (h : Spells terminals cursor last) :
    cursor.rest.length = last.rest.length + terminals.length := by
  induction h with
  | nil => rfl
  | cons _ _ _ ih =>
    simp only [List.length_cons] at ih ⊢
    omega

lemma Spells.length_lt (h : Spells (terminal :: terminals) cursor last) :
    last.rest.length < cursor.rest.length := by
  rw [h.length_eq, List.length_cons]
  omega

lemma isAt_of_spells {kind : TokenKind} (h : Spells (.word kind :: terminals) cursor last) :
    cursor.isAt kind = true := by
  cases h with
  | cons hfits => simp [Cursor.isAt, Cursor.kind?, hfits.kind_eq]

end Cursor

/-- No token for the terminal is of one of the kinds. -/
def Terminal.avoids (kinds : List TokenKind) (terminal : Terminal) : Bool :=
  match terminal.kind with
  | some kind => !kinds.contains kind
  | none => kinds.all fun kind => kind != .identifier && softWords.all (·.1 != kind)

namespace Cursor

variable {cursor last : Cursor} {terminal : Terminal} {terminals : List Terminal}
  {kinds : List TokenKind}

lemma Avoids.mono (h : cursor.Avoids kinds) {others : List TokenKind}
    (hsub : ∀ kind ∈ others, kind ∈ kinds) : cursor.Avoids others :=
  fun kind hk => h kind (hsub kind hk)

end Cursor

lemma Terminal.avoids_word {kind : TokenKind} {kinds : List TokenKind} (h : kind ∉ kinds) :
    (word kind).avoids kinds = true := by
  change (!kinds.contains kind) = true
  simpa using h

lemma Terminal.Fits.kind_not_mem {terminal : Terminal} {token : Token} (h : terminal.Fits token)
    {kinds : List TokenKind} (ht : terminal.avoids kinds = true) : token.kind ∉ kinds := by
  obtain ⟨kind, lexeme, glued⟩ := terminal
  cases kind with
  | some kind =>
    obtain rfl : token.kind = kind := h.2
    simpa [avoids] using ht
  | none =>
    intro hmem
    have hkind := List.all_eq_true.1 ht _ hmem
    rw [Bool.and_eq_true, bne_iff_ne] at hkind
    rcases h.2 with hid | hsoft
    · exact hkind.1 hid
    · have hne := List.all_eq_true.1 hkind.2 _ hsoft
      simp at hne

lemma Cursor.Spells.avoids {cursor last : Cursor} {terminal : Terminal} {terminals : List Terminal}
    (h : Spells (terminal :: terminals) cursor last) {kinds : List TokenKind}
    (ht : terminal.avoids kinds = true) : cursor.Avoids kinds := by
  cases h with
  | @cons _ _ _ token _ _ hfits =>
    intro kind hk
    have hne : token.kind ≠ kind := fun he => hfits.kind_not_mem ht (he ▸ hk)
    simpa [isAt, kind?] using hne

/-! ### Readers -/

/-- A reader reads terminals: it takes exactly their tokens where the place after them is one that
can follow, and what it gives is as it should be. -/
def Reader.Reads {α : Type} (reader : Reader α) (terminals : List Terminal) (gives : α → Prop)
    (follow : Cursor → Prop) : Prop :=
  ∀ cursor last, Cursor.Spells terminals cursor last → follow last →
    ∃ a, reader cursor = .ok a last ∧ gives a

/-- No restriction on what follows. -/
def Cursor.Anywhere (_ : Cursor) : Prop := True

namespace Reader.Reads

variable {α β : Type} {terminals u : List Terminal} {P : α → Prop} {Q : β → Prop}
  {F G : Cursor → Prop} {reader : Reader α} {next : α → Reader β}

lemma pure {a : α} (ha : P a) : Reads (Pure.pure a) [] P F := by
  intro cursor last h _
  cases h
  exact ⟨a, rfl, ha⟩

lemma mono (h : Reads reader terminals P F) {P' : α → Prop} {F' : Cursor → Prop}
    (hP : ∀ a, P a → P' a) (hF : ∀ cursor, F' cursor → F cursor) :
    Reads reader terminals P' F' := by
  intro cursor last hspells hfollow
  obtain ⟨a, ha, hgives⟩ := h cursor last hspells (hF last hfollow)
  exact ⟨a, ha, hP a hgives⟩

lemma bind (h : Reads reader terminals P F) (hn : ∀ a, P a → Reads (next a) u Q G)
    (hf : ∀ middle last, Cursor.Spells u middle last → G last → F middle) :
    Reads (reader >>= next) (terminals ++ u) Q G := by
  intro cursor last hspells hfollow
  obtain ⟨middle, hfirst, hsecond⟩ := hspells.of_append
  obtain ⟨a, ha, hgives⟩ := h cursor middle hfirst (hf middle last hsecond hfollow)
  obtain ⟨b, hb, hgives'⟩ := hn a hgives middle last hsecond hfollow
  exact ⟨b, (bind_ok ha).trans hb, hgives'⟩

lemma andThen (h : Reads reader terminals P Cursor.Anywhere)
    (hn : ∀ a, P a → Reads (next a) u Q G) : Reads (reader >>= next) (terminals ++ u) Q G :=
  h.bind hn fun _ _ _ _ => trivial

lemma map {f : α → β} (h : Reads reader terminals P F) (hf : ∀ a, P a → Q (f a)) :
    Reads (reader >>= fun a => Pure.pure (f a)) terminals Q F := by
  intro cursor last hspells hfollow
  obtain ⟨a, ha, hgives⟩ := h cursor last hspells hfollow
  exact ⟨f a, bind_ok ha, hf a hgives⟩

lemma functorMap {f : α → β} (h : Reads reader terminals P F) (hf : ∀ a, P a → Q (f a)) :
    Reads (f <$> reader) terminals Q F := by
  rw [map_eq_pure_bind]
  exact h.map hf

/-! Single tokens -/

lemma token {isIn : TokenKind → Bool} {terminal : Terminal}
    (hin : ∀ token, terminal.Fits token → isIn token.kind = true) (expected : String) :
    Reads (Reader.token isIn expected) [terminal] terminal.Fits Cursor.Anywhere := by
  intro cursor last h _
  cases h with
  | @cons _ _ _ token _ _ hfits _ h =>
    cases h
    exact ⟨token, by simp [Reader.token, hin token hfits], hfits⟩

lemma expect (kind : TokenKind) (expected : String) :
    Reads (Reader.expect kind expected) [.word kind] (Terminal.word kind).Fits Cursor.Anywhere :=
  token (fun _ h => by simpa using h.kind_eq) expected

lemma name (text expected : String) :
    Reads (Reader.name expected) [.name text] (· = text) Cursor.Anywhere :=
  (token (fun _ h => h.isName) expected).map fun _ h => h.1

lemma elementName {terminal : Terminal} (h : terminal.namesElement = true) :
    Reads Reader.elementName [terminal] (· = terminal.lexeme) Cursor.Anywhere :=
  (token (fun _ hfits => hfits.isElementName h) _).map fun _ hfits => hfits.1

lemma eat (kind : TokenKind) : Reads (Reader.eat kind) [.word kind] (· = true) Cursor.Anywhere := by
  intro cursor last h _
  cases h with
  | @cons _ _ previous token rest _ hfits _ h =>
    cases h
    refine ⟨true, ?_, rfl⟩
    simp [Reader.eat, Cursor.isAt, Cursor.kind?, hfits.kind_eq, Cursor.forward]

lemma eat_absent (kind : TokenKind) :
    Reads (Reader.eat kind) [] (· = false) (Cursor.Avoids [kind]) := by
  intro cursor last h hfollow
  cases h
  exact ⟨false, by simp [Reader.eat, hfollow kind], rfl⟩

lemma forward (kind : TokenKind) :
    Reads Reader.forward [.word kind] (fun _ => True) Cursor.Anywhere := by
  intro cursor last h _
  cases h with
  | cons _ _ h =>
    cases h
    exact ⟨(), rfl, trivial⟩

lemma get {next : Cursor → Reader β}
    (h : ∀ cursor last, Cursor.Spells terminals cursor last → F last →
      ∃ b, next cursor cursor = .ok b last ∧ Q b) :
    Reads (MonadState.get >>= next) terminals Q F := h

/-! Repetition -/

lemma manyWhile [Placed α] {more : Cursor → Bool} {item : Reader α} {lead : List Terminal}
    {spelling : α → List Terminal → Prop} {items : List α}
    (hitem : ∀ a ∈ items, ∀ terminals, spelling a terminals →
      Reads item (lead ++ terminals) (unplaced · = unplaced a) F)
    (hstart : ∀ a ∈ items, ∀ terminals cursor last, spelling a terminals →
      Cursor.Spells (lead ++ terminals) cursor last →
        more cursor = true ∧ F cursor ∧ last.rest.length < cursor.rest.length)
    (hend : ∀ cursor, G cursor → more cursor = false ∧ F cursor)
    (h : Sequence lead spelling items terminals) :
    Reads (Reader.manyWhile more item) terminals (unplaced · = unplaced items) G := by
  induction h with
  | nil =>
    intro cursor last hspells hfollow
    cases hspells
    refine ⟨[], ?_, rfl⟩
    rw [Reader.manyWhile, (hend cursor hfollow).1, if_neg Bool.false_ne_true]
  | @cons a items terminals others ha h ih =>
    intro cursor last hspells hfollow
    obtain ⟨middle, hfirst, hsecond⟩ := hspells.of_append
    obtain ⟨hmore, -, hlt⟩ := hstart a List.mem_cons_self terminals cursor middle ha hfirst
    have hmiddle : F middle := by
      cases h with
      | nil =>
        cases hsecond
        exact (hend _ hfollow).2
      | @cons b _ _ _ hb h =>
        obtain ⟨between, hnext, -⟩ := hsecond.of_append
        exact (hstart b (by simp) _ middle between hb hnext).2.1
    obtain ⟨b, hb, hgives⟩ := hitem a List.mem_cons_self terminals ha cursor middle hfirst hmiddle
    obtain ⟨bs, hbs, hrest⟩ := ih (fun a ha => hitem a (List.mem_cons_of_mem _ ha))
      (fun a ha => hstart a (List.mem_cons_of_mem _ ha)) middle last hsecond hfollow
    refine ⟨b :: bs, ?_, (unplaced_cons b bs).trans (by rw [hgives, hrest, unplaced_cons])⟩
    rw [Reader.manyWhile, hmore, if_pos rfl, hb]
    simp only [hlt, if_true, hbs]

lemma commaSeparated [Placed α] {item : Reader α} {spelling : α → List Terminal → Prop}
    {items : List α} {kinds : List TokenKind} (hkinds : .comma ∉ kinds)
    (hitem : ∀ a ∈ items, ∀ terminals, spelling a terminals →
      Reads item terminals (unplaced · = unplaced a) (Cursor.Avoids kinds))
    (h : Separated spelling items terminals) :
    Reads (Reader.commaSeparated item) terminals (unplaced · = unplaced items)
      (Cursor.Avoids (.comma :: kinds)) := by
  have hcomma : ∀ {cursor last others}, Cursor.Spells (.word .comma :: others) cursor last →
      cursor.Avoids kinds := fun h => h.avoids (Terminal.avoids_word hkinds)
  have hend : ∀ cursor : Cursor, cursor.Avoids (.comma :: kinds) → cursor.Avoids kinds :=
    fun _ h => h.mono fun _ => List.mem_cons_of_mem _
  cases h with
  | @mk a items terminals others ha h =>
    refine (hitem a List.mem_cons_self terminals ha).bind (fun b hb => ?_) ?_
    · refine (manyWhile (fun a hmem terminals ha => ?_)
        (fun a hmem terminals cursor last ha hspells => ⟨?_, hcomma hspells, hspells.length_lt⟩)
        (fun cursor hg => ⟨hg .comma List.mem_cons_self, hend cursor hg⟩) h).map fun bs hbs => ?_
      · exact (forward .comma).andThen fun _ _ => hitem a (List.mem_cons_of_mem _ hmem) terminals ha
      · exact Cursor.isAt_of_spells hspells
      · rw [unplaced_cons, unplaced_cons, hb, hbs]
    · intro middle last hspells hg
      cases h with
      | nil =>
        cases hspells
        exact hend _ hg
      | cons hb h => exact hcomma hspells

lemma closedBy (kind : TokenKind) (expected : String) (h : Reads reader terminals P F)
    (hf : ∀ cursor last, Cursor.Spells [.word kind] cursor last → F cursor) :
    Reads (do let a ← reader; let _ ← Reader.expect kind expected; return a)
      (terminals ++ [.word kind]) P Cursor.Anywhere :=
  h.bind (fun _ ha => (expect kind expected).map fun _ _ => ha)
    fun middle last hspells _ => hf middle last hspells

lemma continuesName_eq_false {cursor : Cursor} (h : cursor.Avoids [.dot]) :
    Reader.continuesName cursor = false := by
  rw [Reader.continuesName, h .dot (by simp), Bool.false_and]

lemma sequence_parts (parts : List String) :
    Sequence [.word .dot] (fun part terminals => terminals = [.name part]) parts
      (parts.flatMap fun part => [.word .dot, .name part]) := by
  induction parts with
  | nil => exact .nil
  | cons part parts ih => exact .cons rfl ih

lemma foldl_parts (first : String) (others : List String) :
    others.foldl (fun dotted part => dotted ++ "." ++ part) first =
      ".".intercalate (first :: others) := by
  induction others generalizing first with
  | nil => rfl
  | cons part others ih => exact ih (first ++ "." ++ part)

lemma qualifiedName (q : QualifiedName) (expected : String) :
    Reads (Reader.qualifiedName expected) q.terminals (· = q.text)
      (Reader.continuesName · = false) := by
  refine (name q.first expected).andThen fun first hfirst => ?_
  refine (manyWhile (F := Cursor.Anywhere) (fun part _ terminals ht => ?_)
    (fun part _ terminals cursor last ht hspells => ⟨?_, trivial, hspells.length_lt⟩)
    (fun cursor h => ⟨h, trivial⟩) (sequence_parts q.others)).map ?_
  · obtain rfl := ht
    exact (forward .dot).andThen fun _ _ => name part expected
  · obtain rfl := ht
    cases hspells with
    | cons hdot _ h =>
      cases h with
      | cons hname =>
        simp [Reader.continuesName, Cursor.isAt, Cursor.kind?, Cursor.secondKind?, hdot.kind_eq,
          hname.isName]
  · intro others hothers
    rw [unplaced_strings, unplaced_strings] at hothers
    rw [hfirst, hothers]
    exact foldl_parts q.first q.others

end Reader.Reads

end ExternalAnnotations
