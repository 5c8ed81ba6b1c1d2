import ExternalAnnotations.Proofs.Index.Reading
import ExternalAnnotations.Proofs.Text.Segments
import ExternalAnnotations.Proofs.Token.Unspaced

/-!
# Texts written for terminals

A text `Writes` terminals if its tokens stand for them, wherever it is written before what can
follow it. Signs, names and literals do, and so do lists of what does, with no space anywhere.
-/

namespace ExternalAnnotations

/-! ### Writing terminals -/

/-- None but these characters come next. -/
def Ahead (ends : List Char) (rest : List Char) : Prop := ∀ c ∈ rest.head?, c ∈ ends

lemma Ahead.mono {ends more rest : List Char} (h : Ahead ends rest) (hsub : ends ⊆ more) :
    Ahead more rest := fun c hc => hsub (h c hc)

lemma Ahead.cons {ends : List Char} {c : Char} (h : c ∈ ends) (rest : List Char) :
    Ahead ends (c :: rest) := by
  rintro d ⟨⟩
  exact h

lemma Ahead.flatMap {ends rest : List Char} {sign : Char} (h : Ahead ends rest)
    (hsign : sign ∈ ends) (parts : List (List Char)) :
    Ahead ends (parts.flatMap (sign :: ·) ++ rest) := by
  cases parts with
  | nil => exact h
  | cons part parts => exact .cons hsign _

/-- The tokens of a text stand for the terminals, wherever it is written before what can follow
it. -/
def Writes (text : List Char) (terminals : List Terminal) (follow : List Char → Prop) : Prop :=
  ∀ previous place rest, follow rest → ∃ previous' place',
    Cursor.Spells terminals ⟨previous, Lexer.significantFrom place (text ++ rest)⟩
      ⟨previous', Lexer.significantFrom place' rest⟩

lemma Cursor.Spells.append {cursor middle last : Cursor} {terminals others : List Terminal}
    (h : Spells terminals cursor middle) (h' : Spells others middle last) :
    Spells (terminals ++ others) cursor last := by
  induction h with
  | nil => exact h'
  | cons hfits hglued _ ih => exact .cons hfits hglued (ih h')

namespace Writes

variable {text text' : List Char} {terminals terminals' : List Terminal}
  {follow follow' : List Char → Prop} {kind : TokenKind}

lemma nil : Writes [] [] follow := fun previous place _ _ => ⟨previous, place, .nil _⟩

lemma mono (h : Writes text terminals follow) (hfollow : ∀ rest, follow' rest → follow rest) :
    Writes text terminals follow' :=
  fun previous place rest hrest => h previous place rest (hfollow rest hrest)

lemma append (h : Writes text terminals follow) (h' : Writes text' terminals' follow')
    (hfollow : ∀ rest, follow' rest → follow (text' ++ rest)) :
    Writes (text ++ text') (terminals ++ terminals') follow' := by
  intro previous place rest hrest
  obtain ⟨previous', place', hfirst⟩ := h previous place (text' ++ rest) (hfollow rest hrest)
  obtain ⟨previous'', place'', hsecond⟩ := h' previous' place' rest hrest
  rw [List.append_assoc]
  exact ⟨previous'', place'', hfirst.append hsecond⟩

lemma token {terminal : Terminal} (hn : text ≠ [])
    (hnext : ∀ rest, follow rest → Lexer.next (text ++ rest) = (kind, text.length))
    (hkind : kind.isTrivia = false) (hglued : terminal.glued = false)
    (hfits : ∀ place, terminal.Fits ⟨kind, String.ofList text, place⟩) :
    Writes text [terminal] follow := by
  intro previous place rest hrest
  have hne : text ++ rest ≠ [] := List.append_ne_nil_of_left_ne_nil hn rest
  have htokens : Lexer.significantFrom place (text ++ rest) =
      ⟨kind, String.ofList text, place⟩ :: Lexer.significantFrom (place.advance text) rest := by
    rw [Lexer.significantFrom, Lexer.tokensFrom_of_ne_nil hne,
      hnext rest hrest, List.take_left, List.drop_left, List.filter_cons_of_pos (by simp [hkind])]
    rfl
  rw [htokens]
  exact ⟨_, _, .cons (hfits place) (by simp [hglued]) (.nil _)⟩

lemma sign {sign : TokenKind × Char} (h : sign ∈ Lexer.useSigns) :
    Writes [sign.2] [.word sign.1] fun _ => True := by
  have hwords : ∀ sign ∈ Lexer.useSigns, sign.1.isTrivia = false ∧
      String.ofList [sign.2] = (Terminal.word sign.1).lexeme := by decide
  obtain ⟨hkind, hlexeme⟩ := hwords sign h
  exact token (List.cons_ne_nil _ _) (fun rest _ => Lexer.next_sign rest sign h) hkind rfl
    fun _ => ⟨hlexeme, rfl⟩

lemma dot : Writes ['.'] [.word .dot] fun _ => True := @sign (.dot, '.') (by decide)

end Writes

/-! ### Names -/

/-- Whether a text is a single token whose kind is of a class. -/
def isToken (isIn : TokenKind → Bool) (text : String) : Bool :=
  match tokens text with
  | [token] => isIn token.kind
  | _ => false

/-- Whether a text is made of names with dots between them. -/
def isDottedName (dotted : String) : Bool :=
  (segments (· == '.') dotted.toList).all fun part => isToken TokenKind.isName (String.ofList part)

/-- Whether a text can be the name of an element. -/
def isElementName (name : String) : Bool :=
  isToken (fun kind => kind == .identifier || (kind.isKeyword && !kind.isLiteral)) name

lemma next_of_isToken {isIn : TokenKind → Bool} {text : String} (h : isToken isIn text = true) :
    text.toList ≠ [] ∧ ∃ kind, isIn kind = true ∧
      Lexer.next text.toList = (kind, text.toList.length) := by
  have hn : text.toList ≠ [] := by
    intro hnil
    rw [isToken, tokens, hnil, Lexer.tokensFrom] at h
    contradiction
  refine ⟨hn, (Lexer.next text.toList).1, ?_⟩
  rw [isToken, tokens, Lexer.tokensFrom_of_ne_nil hn] at h
  have hle := Lexer.next_le hn
  cases hrest : text.toList.drop (Lexer.next text.toList).2 with
  | nil =>
    rw [hrest, Lexer.tokensFrom] at h
    exact ⟨h, Prod.ext rfl (Nat.le_antisymm hle (List.drop_eq_nil_iff.1 hrest))⟩
  | cons c rest =>
    rw [hrest, Lexer.tokensFrom] at h
    contradiction

namespace Writes

variable {text : List Char} {kind : TokenKind} {terminal : Terminal}

lemma word (hn : text ≠ []) (hnext : Lexer.next text = (kind, text.length))
    (hkind : kind = .identifier ∨ kind.isKeyword = true) (hglued : terminal.glued = false)
    (hfits : ∀ place, terminal.Fits ⟨kind, String.ofList text, place⟩) :
    Writes text [terminal] (Ahead Lexer.wordEnds) := by
  have htrivia : kind.isTrivia = false := by
    revert hkind
    cases kind <;> decide
  exact token hn (fun rest hrest => Lexer.next_word hnext hn hkind hrest) htrivia hglued hfits

lemma name {text : String} (h : isToken TokenKind.isName text = true) :
    Writes text.toList [.name text] (Ahead Lexer.wordEnds) := by
  obtain ⟨hn, kind, hname, hnext⟩ := next_of_isToken h
  have hkinds : ∀ kind : TokenKind, kind.isName = true →
      (kind = .identifier ∨ kind.isKeyword = true) ∧ kind ≠ .unknown := by
    intro kind
    cases kind <;> decide
  obtain ⟨hkind, hknown⟩ := hkinds kind hname
  refine word hn hnext hkind rfl fun place => ⟨String.ofList_toList, ?_⟩
  refine (Lexer.word_of_longest (Lexer.longest_of_next hnext hknown) hn hkind).1.imp_right ?_
  have hsoft : ∀ form ∈ Lexer.wordForms, form.1.isName = true → form ∈ softWords := by decide
  exact fun hform => hsoft _ hform hname

lemma elementName {name : String} (h : isElementName name = true) :
    ∃ terminal : Terminal, terminal.lexeme = name ∧ terminal.namesElement = true ∧
      Writes name.toList [terminal] (Ahead Lexer.wordEnds) := by
  obtain ⟨hn, kind, hname, hnext⟩ := next_of_isToken h
  have hkind : kind = .identifier ∨ kind.isKeyword = true := by
    revert hname
    cases kind <;> decide
  exact ⟨⟨some kind, name, false⟩, rfl, hname,
    word hn hnext hkind rfl fun _ => ⟨String.ofList_toList, rfl⟩⟩

lemma parts {others : List (List Char)}
    (h : ∀ part ∈ others, isToken TokenKind.isName (String.ofList part) = true) :
    Writes (others.flatMap ('.' :: ·))
      ((others.map String.ofList).flatMap fun part => [.word .dot, .name part])
      (Ahead Lexer.wordEnds) := by
  induction others with
  | nil => exact nil
  | cons part others ih =>
    obtain ⟨hpart, hothers⟩ := List.forall_mem_cons.1 h
    have hname := name hpart
    rw [String.toList_ofList] at hname
    exact (dot.append hname fun _ _ => trivial).append (ih hothers) fun rest hrest =>
      hrest.flatMap (by decide) others

end Writes

lemma QualifiedName.toList_text (q : QualifiedName) :
    q.text.toList = q.first.toList ++ q.others.flatMap fun part => '.' :: part.toList := by
  obtain ⟨first, others⟩ := q
  rw [text, ← Reader.Reads.foldl_parts]
  induction others generalizing first with
  | nil => simp
  | cons part others ih =>
    rw [List.foldl_cons, ih, String.toList_append, String.toList_append, List.flatMap_cons]
    simp

lemma exists_qualifiedName {dotted : String} (h : isDottedName dotted = true) :
    ∃ q : QualifiedName, q.text = dotted ∧
      Writes dotted.toList q.terminals (Ahead Lexer.wordEnds) := by
  obtain ⟨first, others, hsegments⟩ :=
    List.exists_cons_of_ne_nil (segments_ne_nil (· == '.') dotted.toList)
  rw [isDottedName, hsegments, List.all_eq_true] at h
  obtain ⟨hfirst, hothers⟩ := List.forall_mem_cons.1 h
  have hdotted := segments_join hsegments
  refine ⟨⟨String.ofList first, others.map String.ofList⟩, ?_, ?_⟩
  · rw [← String.toList_inj, QualifiedName.toList_text, hdotted, List.flatMap_map]
    simp
  · have hname := Writes.name hfirst
    rw [String.toList_ofList] at hname
    rw [hdotted]
    exact hname.append (Writes.parts hothers) fun rest hrest => hrest.flatMap (by decide) others

/-! ### Literals -/

lemma isDigit_of_mem_toDigits {m : Nat} : ∀ c ∈ Nat.toDigits 10 m, c.isDigit = true :=
  fun _ hc => Nat.isDigit_of_mem_toDigits (by decide) (by decide) hc

lemma Literal.ofDigits_toDigits (m : Nat) : Literal.ofDigits 10 (Nat.toDigits 10 m) = m := by
  have hsame : Literal.ofDigits 10 (Nat.toDigits 10 m) =
      Nat.ofDigitChars 10 (Nat.toDigits 10 m) 0 := by
    refine List.foldl_ext _ _ _ fun value c hc => ?_
    rw [Literal.digitValue, if_pos (isDigit_of_mem_toDigits c hc), Nat.mul_comm]
  rw [hsame, Nat.ofDigitChars_toDigits (by decide) (by decide)]

lemma exists_digits (n : Int) : ∃ negative digits, IsRun Char.isDigit digits ∧
    (toString n).toList = signText negative ++ digits ∧
      n = signed negative (Literal.ofDigits 10 digits) := by
  have hrun (m : Nat) : IsRun Char.isDigit (Nat.toDigits 10 m) :=
    ⟨Nat.toDigits_ne_nil, isDigit_of_mem_toDigits⟩
  cases n with
  | ofNat m =>
    refine ⟨false, _, hrun m, Nat.toList_repr, ?_⟩
    rw [Literal.ofDigits_toDigits]
    rfl
  | negSucc m =>
    refine ⟨true, _, hrun (m + 1), ?_, ?_⟩
    · exact (String.toList_append).trans (congrArg ('-' :: ·) Nat.toList_repr)
    · rw [Literal.ofDigits_toDigits]
      rfl

/-- Whether a character is shown in double quotes by an escape of one letter or as it is. -/
def isShownShort (c : Char) : Bool :=
  ['"', '\\', '\n', '\r', '\t', '\x00'].contains c || isPlain c

lemma charSpelling_escape {c : Char} (h : isShownShort c = true) :
    CharSpelling '"' c (escape '"' c) := by
  by_cases hletter : c ∈ ['"', '\\', '\n', '\r', '\t', '\x00']
  · simp only [List.mem_cons, List.not_mem_nil, or_false] at hletter
    rcases hletter with rfl | rfl | rfl | rfl | rfl | rfl <;> exact .letter rfl
  · have hplain : isPlain c = true := by simpa [isShownShort, hletter] using h
    simp only [List.mem_cons, List.not_mem_nil, or_false, not_or] at hletter
    have hself : escape '"' c = [c] := by simp [escape, hletter, hplain]
    rw [hself]
    exact .plain hletter.1 hletter.2.1

lemma textSpelling_escape {text : List Char} (h : ∀ c ∈ text, isShownShort c = true) :
    TextSpelling '"' text (text.flatMap (escape '"')) := by
  induction text with
  | nil => exact .nil
  | cons c text ih =>
    obtain ⟨hc, htext⟩ := List.forall_mem_cons.1 h
    exact .cons (charSpelling_escape hc) (ih htext)

namespace Writes

variable {text : List Char} {terminals : List Terminal}

lemma literal {kind : TokenKind} {follow : List Char → Prop} (hn : text ≠ [])
    (hnext : ∀ rest, follow rest → Lexer.next (text ++ rest) = (kind, text.length))
    (hkind : kind.isLiteral = true) : Writes text [.literal kind text] follow := by
  have htrivia : kind.isTrivia = false := by
    revert hkind
    cases kind <;> decide
  exact token hn hnext htrivia rfl fun _ => ⟨rfl, rfl⟩

lemma keyword {form : TokenKind × String} (hform : form ∈ Lexer.wordForms)
    (hkeyword : form.1.isKeyword = true) :
    Writes form.2.toList [⟨some form.1, form.2, false⟩] (Ahead Lexer.wordEnds) := by
  have hnext : ∀ form ∈ Lexer.wordForms, form.1.isKeyword = true → form.2.toList ≠ [] ∧
      Lexer.next form.2.toList = (form.1, form.2.toList.length) := by decide +kernel
  obtain ⟨hn, hnext⟩ := hnext form hform hkeyword
  exact word hn hnext (.inr hkeyword) rfl fun _ => ⟨String.ofList_toList, rfl⟩

lemma dotClass (h : Writes text terminals (Ahead Lexer.wordEnds)) :
    Writes (text ++ ".class".toList) (terminals ++ [.word .dot, .word .classWord])
      (Ahead Lexer.wordEnds) := by
  have hclass : Writes "class".toList [.word .classWord] (Ahead Lexer.wordEnds) :=
    @keyword (.classWord, "class") (by decide) rfl
  exact h.append (dot.append hclass fun _ _ => trivial) fun rest _ => .cons (by decide) _

end Writes

/-! ### Lists -/

lemma intercalate_cons (sign : Char) (first : List Char) (others : List (List Char)) :
    List.intercalate [sign] (first :: others) = first ++ others.flatMap (sign :: ·) := by
  induction others generalizing first with
  | nil => simp
  | cons other others ih =>
    rw [List.intercalate_cons_cons, ih]
    simp

namespace Writes

variable {text : List Char} {texts : List (List Char)} {terminals others : List Terminal}

lemma comma (h : Writes text terminals (Ahead Lexer.valueEnds))
    (h' : Writes (texts.flatMap (',' :: ·)) others (Ahead Lexer.valueEnds)) :
    Writes ((text :: texts).flatMap (',' :: ·)) ([.word .comma] ++ terminals ++ others)
      (Ahead Lexer.valueEnds) := by
  have hcomma : Writes [','] [.word .comma] fun _ => True := @sign (.comma, ',') (by decide)
  exact (hcomma.append h fun _ _ => trivial).append h' fun rest hrest =>
    hrest.flatMap (by decide) texts

lemma between (opening closing : TokenKind × Char) (hopening : opening ∈ Lexer.useSigns)
    (hclosing : closing ∈ Lexer.useSigns) (hend : closing.2 ∈ Lexer.valueEnds)
    (h : Writes text terminals (Ahead Lexer.valueEnds))
    (h' : Writes (texts.flatMap (',' :: ·)) others (Ahead Lexer.valueEnds)) :
    Writes (opening.2 :: List.intercalate [','] (text :: texts) ++ [closing.2])
      (.word opening.1 :: (terminals ++ others) ++ [.word closing.1]) fun _ => True := by
  have hitems : Writes (text ++ texts.flatMap (',' :: ·)) (terminals ++ others)
      (Ahead Lexer.valueEnds) := h.append h' fun rest hrest => hrest.flatMap (by decide) texts
  rw [intercalate_cons]
  exact ((sign hopening).append hitems fun _ _ => trivial).append (sign hclosing) fun rest _ =>
    .cons hend rest

end Writes

end ExternalAnnotations
