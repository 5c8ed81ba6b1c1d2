import ExternalAnnotations.Proofs.Index.Numerals
import ExternalAnnotations.Proofs.Token.LongestMatch

/-!
# Tokens without space between them

A sign is a token whatever stands behind it, and so is a string or a character in quotes. A word or
a number is the token that it is by itself if one of the signs stands behind it that can follow it
in an annotation.
-/

namespace ExternalAnnotations

open Pattern

namespace Scanner

variable {scan : Scanner} {l : Language Char} {word after : List Char}

lemma EndsAt.append (h : ∀ d ∈ after.head?, scan.EndsAt d) : scan (word ++ after) = scan word := by
  cases after with
  | nil => rw [List.append_nil]
  | cons d after => exact h d rfl word after

lemma Finds.whole (h : scan.Finds l) (hword : word ∈ l) : scan word = some word.length := by
  obtain ⟨length, hscan, hle⟩ := h.longest hword []
  rw [List.append_nil] at hscan
  rw [hscan, Nat.le_antisymm (h.sound hscan).2 hle]

end Scanner

lemma TextSpelling.mem_stringBody {chars text : List Char} (h : TextSpelling '"' chars text) :
    text ∈ stringBody := by
  induction h with
  | nil => exact nil_mem_stringBody
  | cons hc h ih =>
    cases hc with
    | plain hquote hescape => exact cons_mem_stringBody.2 (.inl ⟨hquote, hescape, ih⟩)
    | @letter letter _ hletter =>
      refine cons_mem_stringBody.2 (.inr ⟨rfl, letter, _, rfl, ?_, ih⟩)
      rintro rfl
      contradiction
    | @code digits hlength hdigits hcode =>
      have hhex : digits ∈ stringBody :=
        mem_stringBody_of_hexadecimal fun c hc => (Scanner.isHexDigit_iff c).1 (hdigits c hc)
      refine cons_mem_stringBody.2 (.inr ⟨rfl, 'u', _, rfl, by decide, ?_⟩)
      rw [stringBody, ← kstar_mul_kstar]
      exact Language.append_mem_mul hhex ih

namespace Lexer

variable {c : Char} {text lexeme after : List Char} {kind : TokenKind}

/-! ### The form that a text begins with -/

lemma next_of_uncut (hopen : leftOpen (lexeme ++ after) = none)
    (hlongest : longest (lexeme ++ after) = (kind, lexeme.length))
    (hword : cutsHyphenatedWord kind after = false) (hnumber : cutsNumber lexeme after = false) :
    next (lexeme ++ after) = (kind, lexeme.length) := by
  rw [next_of_longest hopen hlongest, List.drop_left, List.take_left, hword, hnumber]
  rfl

lemma kinds_nodup : (forms.map Prod.fst).Nodup := by decide

lemma longest_of_form {form : TokenKind × Scanner} (hform : form ∈ forms) (hn : lexeme ≠ [])
    (hscan : form.2 text = some lexeme.length)
    (hothers : ∀ other ∈ forms, other.1 ≠ form.1 → other.2 text = none) :
    longest text = (form.1, lexeme.length) := by
  rcases longest_cases text with ⟨-, hless⟩ | ⟨found, hfound, hkind, hscan', -⟩
  · have hzero := hless form hform _ hscan
    exact absurd (List.length_pos_iff.2 hn) (by omega)
  · have hsame : found.1 = form.1 := by
      by_contra hne
      rw [hothers found hfound hne] at hscan'
      contradiction
    obtain rfl := List.inj_on_of_nodup_map kinds_nodup hfound hform hsame
    exact Prod.ext hkind.symm (Option.some.inj (hscan'.symm.trans hscan))

lemma scan_eq_none_of_lead (hlead : lead c ∈ [.decimalInteger, .stringLiteral, .charLiteral])
    {form : TokenKind × Scanner} (hform : form ∈ forms) (hfamily : family form.1 ≠ lead c) :
    form.2 (c :: text) = none := by
  by_contra hscan
  obtain ⟨length, hlength⟩ := Option.ne_none_iff_exists'.1 hscan
  have hmem := ((forms_find form hform).sound hlength).1
  cases length with
  | zero => exact nil_notMem_pattern form hform hmem
  | succ length =>
    rw [List.take_succ_cons] at hmem
    rw [forms_eq, List.mem_append] at hform
    rcases hform with hform | hform
    · exact hfamily (beginsWith_family form hform c _ hmem).symm
    · obtain ⟨word, hword, rfl⟩ := List.mem_map.1 hform
      rw [pattern_of_mem_wordForms word hword, mem_spelling] at hmem
      have hwords : ∀ word ∈ wordForms, word.2.toList.head?.map lead ∉
          [some .decimalInteger, some .stringLiteral, some .charLiteral] := by decide
      refine hwords word hword ?_
      rw [← hmem]
      simpa using hlead

/-! ### Texts in quotes -/

lemma next_of_quote {scan : Scanner} (hkind : kind = .stringLiteral ∨ kind = .charLiteral)
    (hform : (kind, scan) ∈ forms) (hlead : lead c = kind) (hsteady : scan.Steady)
    (hopen : leftOpen (c :: text ++ after) = none) (hmem : c :: text ∈ pattern kind) :
    next (c :: text ++ after) = (kind, (c :: text).length) := by
  have hscan : scan (c :: text ++ after) = some (c :: text).length :=
    hsteady _ _ after ((forms_find _ hform).whole hmem)
  have hfamily : ∀ form ∈ forms, form.1 ≠ kind → family form.1 ≠ kind := by
    rcases hkind with rfl | rfl <;> decide
  have hlongest : longest (c :: text ++ after) = (kind, (c :: text).length) := by
    refine longest_of_form hform (List.cons_ne_nil c text) hscan fun other hother hne => ?_
    refine scan_eq_none_of_lead (by rcases hkind with rfl | rfl <;> simp [hlead]) hother ?_
    rw [hlead]
    exact hfamily other hother hne
  have hword : cutsHyphenatedWord kind after = false := by
    rcases hkind with rfl | rfl <;> rfl
  have hnumber : cutsNumber (c :: text) after = false := by
    have hc : c ≠ '-' := by
      rintro rfl
      rcases hkind with rfl | rfl <;> exact absurd hlead (by decide)
    simp [cutsNumber, hc]
  exact next_of_uncut hopen hlongest hword hnumber

lemma next_string {chars : List Char} (h : TextSpelling '"' chars text) (after : List Char) :
    next ('"' :: text ++ ['"'] ++ after) = (.stringLiteral, ('"' :: text ++ ['"']).length) := by
  have hquote : ['"'] ∈ spelling "\"" := rfl
  have hmem : '"' :: (text ++ ['"']) ∈ pattern .stringLiteral :=
    Language.append_mem_mul (Language.append_mem_mul hquote h.mem_stringBody) hquote
  have hsteady : Scanner.stringLiteral.Steady := .andThen .one .one .stringBody
  refine next_of_quote (.inl rfl) (by simp [forms]) rfl hsteady (if_neg fun hnone => ?_) hmem
  exact (Scanner.beginsNone_stringLiteral _).2 hnone _ hmem (List.prefix_append _ after)

lemma next_char (hc : c ≠ '\'' ∧ c ≠ '\\') (after : List Char) :
    next (['\'', c, '\''] ++ after) = (.charLiteral, 3) := by
  have hquote : ['\''] ∈ spelling "'" := rfl
  have hplain : [c] ∈ oneOf (fun c => c ≠ '\'' ∧ c ≠ '\\') + unicodeEscape + shortEscape :=
    .inl (.inl ⟨c, hc, rfl⟩)
  exact next_of_quote (.inr rfl) (by simp [forms]) rfl Scanner.charLiteral_steady rfl
    (Language.append_mem_mul (Language.append_mem_mul hquote hplain) hquote)

/-! ### Numbers -/

lemma mem_numberForms {form : TokenKind × Scanner} (hform : form ∈ forms)
    (hfamily : family form.1 = .decimalInteger) : form ∈ numberForms := by
  have hkinds : ∀ form ∈ forms, family form.1 = .decimalInteger →
      ∃ number ∈ numberForms, number.1 = form.1 := by decide
  obtain ⟨number, hnumber, hkind⟩ := hkinds form hform hfamily
  have hmem : number ∈ forms := by
    simp only [numberForms, List.mem_cons, List.not_mem_nil, or_false] at hnumber
    rcases hnumber with rfl | rfl | rfl <;> simp [forms]
  obtain rfl := List.inj_on_of_nodup_map kinds_nodup hmem hform hkind
  exact hnumber

lemma mem_decimalInteger (negative : Bool) {digits : List Char} (h : IsRun Char.isDigit digits) :
    signText negative ++ digits ∈ pattern .decimalInteger := by
  have hspelling := (@IntegerSpelling.decimal negative digits [] h (.head _)).mem_pattern
  rwa [List.append_nil] at hspelling

lemma scan_eq_none_of_decimal {form : TokenKind × Scanner} (hform : form ∈ numberForms)
    (hne : form.1 ≠ .decimalInteger) (hmem : lexeme ∈ pattern .decimalInteger) :
    form.2 lexeme = none := by
  have hnone {other : TokenKind} {p : Char → Prop} (hhas : Has (pattern other) p)
      (hchars : ∀ c ∈ lexeme, ¬ p c) : BeginsNone lexeme (pattern other) := by
    intro word hword hbegins
    obtain ⟨c, hc, hp⟩ := hhas word hword
    exact hchars c (hbegins.subset hc) hp
  have hchars := decimalInteger_madeOf lexeme hmem
  simp only [numberForms, List.mem_cons, List.not_mem_nil, or_false] at hform
  rcases hform with rfl | rfl | rfl
  · exact absurd rfl hne
  · exact Scanner.Finds.hexInteger.beginsNone_iff.1
      (hnone hexInteger_has fun c hc => (hchars c hc).1)
  · exact Scanner.Finds.floatLiteral.beginsNone_iff.1
      (hnone floatLiteral_has fun c hc => (hchars c hc).2)

/-- The characters that can follow a value in an annotation. -/
def valueEnds : List Char := [',', ')', '\x7d']

lemma next_decimal {negative : Bool} {digits : List Char} (hdigits : IsRun Char.isDigit digits)
    (hafter : ∀ d ∈ after.head?, d ∈ valueEnds) :
    next (signText negative ++ digits ++ after) =
      (.decimalInteger, (signText negative ++ digits).length) := by
  have hmem := mem_decimalInteger negative hdigits
  obtain ⟨c, rest, hlexeme, hlead⟩ : ∃ c rest, signText negative ++ digits = c :: rest ∧
      lead c = .decimalInteger := by
    cases negative with
    | true => exact ⟨'-', digits, rfl, rfl⟩
    | false =>
      obtain ⟨c, rest, rfl⟩ := List.exists_cons_of_ne_nil hdigits.ne_nil
      exact ⟨c, rest, rfl,
        lead_of_isDecimal ((Scanner.isDigit_iff c).1 (hdigits.all c List.mem_cons_self))⟩
  rw [hlexeme] at hmem ⊢
  have hsame : ∀ form ∈ numberForms, form.2 (c :: rest ++ after) = form.2 (c :: rest) :=
    fun form hform => Scanner.EndsAt.append fun d hd =>
      endsAt_of_mem_numberForms (List.mem_cons_of_mem _ (hafter d hd)) form hform
  have hlongest : longest (c :: rest ++ after) = (.decimalInteger, (c :: rest).length) := by
    refine @longest_of_form (c :: rest ++ after) (c :: rest)
      (.decimalInteger, Scanner.decimalInteger) (by simp [forms]) (List.cons_ne_nil _ _) ?_ ?_
    · exact (hsame _ (.head _)).trans (Scanner.Finds.decimalInteger.whole hmem)
    · intro other hother hne
      by_cases hfamily : family other.1 = .decimalInteger
      · have hnumber := mem_numberForms hother hfamily
        exact (hsame other hnumber).trans (scan_eq_none_of_decimal hnumber hne hmem)
      · exact scan_eq_none_of_lead (by simp [hlead]) hother (hlead ▸ hfamily)
  have hopen : leftOpen (c :: rest ++ after) = none := by
    refine leftOpen_eq_none ?_ ?_ _ <;> rintro rfl <;> contradiction
  have hnumber : cutsNumber (c :: rest) after = false := by
    cases after with
    | nil => exact Bool.and_false _
    | cons d after =>
      have hsigns : ∀ d ∈ valueEnds, (d == 'x' || d == 'X' || d == '.') = false := by
        simp [valueEnds]
      exact Bool.and_eq_false_iff.2 (.inr (hsigns d (hafter d rfl)))
  exact next_of_uncut hopen hlongest rfl hnumber

/-! ### Signs and words -/

/-- The signs of annotations. -/
def useSigns : List (TokenKind × Char) :=
  [(.atSign, '@'), (.openParen, '('), (.closeParen, ')'), (.openBrace, '\x7b'),
    (.closeBrace, '\x7d'), (.comma, ','), (.equals, '='), (.dot, '.')]

lemma next_sign (after : List Char) :
    ∀ sign ∈ useSigns, next (sign.2 :: after) = (sign.1, 1) := by
  simp only [useSigns, List.forall_mem_cons, List.not_mem_nil, false_implies, implies_true,
    and_true]
  exact ⟨rfl, rfl, rfl, rfl, rfl, rfl, rfl, rfl⟩

lemma longest_of_next (h : next text = (kind, text.length)) (hknown : kind ≠ .unknown) :
    longest text = (kind, text.length) := by
  cases hopen : leftOpen text with
  | some length =>
    rw [next_of_leftOpen hopen] at h
    exact absurd (Prod.mk.inj h).1.symm hknown
  | none =>
    obtain ⟨⟨found, length⟩, hlongest⟩ : ∃ found, longest text = found := ⟨_, rfl⟩
    rw [next_of_longest hopen hlongest] at h
    split at h
    · rename_i hcut
      rw [(Prod.mk.inj h).2, List.drop_length] at hcut
      simp [cutsHyphenatedWord] at hcut
    · split at h
      · exact absurd (Prod.mk.inj h).1.symm hknown
      · rw [hlongest, h]

lemma word_of_longest (h : longest text = (kind, text.length)) (hn : text ≠ [])
    (hkind : kind = .identifier ∨ kind.isKeyword = true) :
    (kind = .identifier ∨ (kind, String.ofList text) ∈ wordForms) ∧
      ∃ c rest, text = c :: rest ∧ Scanner.isIdentifierStart c = true := by
  have hmem := (longest_longestMatch hn).mem
  rw [h, List.take_length] at hmem
  rcases hkind with rfl | hkeyword
  · obtain ⟨c, rest, rfl, hc, -⟩ := mem_oneOf_mul.1 hmem
    exact ⟨.inl rfl, c, rest, rfl, (Scanner.isIdentifierStart_iff c).2 hc⟩
  · obtain ⟨form, hform, rfl⟩ : ∃ form ∈ wordForms, form.1 = kind := by
      revert hkeyword
      cases kind <;> decide
    rw [pattern_of_mem_wordForms form hform] at hmem
    obtain rfl : text = form.2.toList := hmem
    have hstart : ∀ form ∈ wordForms, form.1.isKeyword = true →
        form.2.toList.head?.any Scanner.isIdentifierStart = true := by decide
    obtain ⟨c, rest, hspelling⟩ := List.exists_cons_of_ne_nil hn
    have hc := hstart form hform hkeyword
    rw [hspelling] at hc
    exact ⟨.inr (by rwa [String.ofList_toList]), c, rest, hspelling, hc⟩

/-- The characters that can follow a word in an annotation. -/
def wordEnds : List Char := [',', ')', '\x7d', '(', '=', '.']

lemma word_congr {d : Char} (hd : d ∈ wordEnds) (hc : Scanner.isIdentifierStart c = true)
    {form : TokenKind × Scanner} (hform : form ∈ forms) :
    form.2 (c :: text ++ d :: after) = form.2 (c :: text) := by
  have hends : ∀ d ∈ wordEnds, Scanner.isIdentifierStart d = false ∧
      (Scanner.isIdentifierStart d || d.isDigit) = false := by
    simp only [wordEnds, List.forall_mem_cons, List.not_mem_nil, false_implies, implies_true]
    decide
  obtain ⟨hstart, hpart⟩ := hends d hd
  rw [← List.cons_head_tail (l := forms) (List.cons_ne_nil _ _), forms_tail_eq, List.mem_cons,
    List.mem_append] at hform
  rcases hform with rfl | hform | hform
  · exact Scanner.EndsAt.andThen .one (.one hstart) (.span hpart) (c :: text) after
  · have hother := List.mem_map_of_mem (f := Prod.snd) hform
    exact (Scanner.otherForms_eq_none hc form.2 hother).trans
      (Scanner.otherForms_eq_none hc form.2 hother).symm
  · obtain ⟨word, hword, rfl⟩ := List.mem_map.1 hform
    by_cases hmem : d ∈ word.2.toList
    · -- A word with the sign in it is the sign, with which the text does not begin.
      have hsign : ∀ d ∈ wordEnds, ∀ word ∈ wordForms, d ∈ word.2.toList →
          word.2 = String.ofList [d] := by
        simp only [wordEnds, List.forall_mem_cons, List.not_mem_nil, false_implies, implies_true]
        decide
      have hne : (c == d) = false := by
        rw [beq_eq_false_iff_ne]
        rintro rfl
        exact Bool.false_ne_true (hstart.symm.trans hc)
      dsimp only
      rw [hsign d hd word hword hmem, List.cons_append, Scanner.word_eq_none hne,
        Scanner.word_eq_none hne]
    · exact Scanner.EndsAt.word hmem (c :: text) after

/-- A word is one token up to a sign that can follow it. -/
lemma next_word (h : next text = (kind, text.length)) (hn : text ≠ [])
    (hkind : kind = .identifier ∨ kind.isKeyword = true)
    (hafter : ∀ d ∈ after.head?, d ∈ wordEnds) : next (text ++ after) = (kind, text.length) := by
  have hknown : kind ≠ .unknown := by
    rintro rfl
    exact absurd hkind (by decide)
  have hlongest := longest_of_next h hknown
  obtain ⟨-, c, rest, rfl, hc⟩ := word_of_longest hlongest hn hkind
  cases after with
  | nil => rwa [List.append_nil]
  | cons d after =>
    have hd := hafter d rfl
    have hsame : longest (c :: rest ++ d :: after) = (kind, (c :: rest).length) :=
      (longest_congr fun form hform => word_congr hd hc hform).trans hlongest
    have hhyphen : cutsHyphenatedWord kind (d :: after) = false := by
      have hne : ∀ d ∈ wordEnds, (some d == some '-') = false := by simp [wordEnds]
      exact Bool.and_eq_false_iff.2 (.inr (hne d hd))
    have hnumber : cutsNumber (c :: rest) (d :: after) = false := by
      have hne : c ≠ '-' := by
        rintro rfl
        exact absurd hc (by decide)
      simp [cutsNumber, hne]
    have hopen : leftOpen (c :: rest ++ d :: after) = none := leftOpen_of_start hc _
    exact next_of_uncut hopen hsame hhyphen hnumber

end Lexer

end ExternalAnnotations
