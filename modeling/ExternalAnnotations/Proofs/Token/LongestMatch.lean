import ExternalAnnotations.Proofs.Token.Overlap
import ExternalAnnotations.Proofs.Token.Lossless

/-!
# The longest match

A token is the longest word of any pattern that its text begins with. Four kinds of texts are
exceptions (`Deviates`): comments and strings that are never closed, `annotation` with a hyphen
behind it, and a negative zero that nearly goes on as another number.
-/

namespace ExternalAnnotations

open scoped Computability

open Pattern

/-- A longest lexeme that a text begins with. Keywords go before identifiers, and every other
kind before lone characters. -/
structure LongestMatch (text : List Char) (kind : TokenKind) (lexeme : List Char) : Prop where
  begins : lexeme <+: text
  mem : lexeme ∈ pattern kind
  longest : ∀ other, ∀ word ∈ pattern other, word <+: text → word.length ≤ lexeme.length
  first : ∀ other, other ≠ kind → lexeme ∈ pattern other →
    other = .unknown ∨ (other = .identifier ∧ kind.isKeyword = true)

/-- A text begins with no word of a language. -/
def BeginsNone (text : List Char) (l : Language Char) : Prop := ∀ word ∈ l, ¬ word <+: text

/-- What the inside of a string literal can begin with. -/
def Continues (taken : List Char) : Prop := ∃ rest, taken ++ rest ∈ stringBody

/-- An escape that breaks off before its fourth digit. -/
def brokenEscape : Language Char :=
  {word | ∃ digits, word = '\\' :: 'u' :: digits ∧ digits.length < 4 ∧
    ∀ c ∈ digits, isHexadecimal c}

/-- The tokens of texts that leave something incomplete. -/
inductive Deviates : List Char → TokenKind → List Char → Prop
  /-- A comment that is not closed takes the whole text. -/
  | openComment (text : List Char) (hopens : "/*".toList <+: text)
      (hopen : BeginsNone text (pattern .blockComment)) :
      Deviates text .unknown text
  /-- A string that is not closed takes all that can stand in one. -/
  | openString (body taken : List Char) (hopen : BeginsNone ('"' :: body) (pattern .stringLiteral))
      (hbroken : body ∉ stringBody * brokenEscape) (htaken : taken <+: body)
      (hcontinues : Continues taken)
      (hlongest : ∀ other, other <+: body → Continues other → other.length ≤ taken.length) :
      Deviates ('"' :: body) .unknown ('"' :: taken)
  /-- If the text ends in the middle of an escape, the string ends behind the backslash. -/
  | brokenString (body escape : List Char) (hbody : body ∈ stringBody)
      (hescape : '\\' :: escape ∈ brokenEscape) :
      Deviates ('"' :: (body ++ '\\' :: escape)) .unknown ('"' :: (body ++ ['\\']))
  | hyphenated (text : List Char) (hhyphen : "annotation-".toList <+: text)
      (hfield : ¬ "annotation-field".toList <+: text) :
      Deviates text .identifier "annotation".toList
  | negativeZero (c : Char) (rest : List Char) (hc : c = 'x' ∨ c = 'X' ∨ c = '.')
      (hhex : BeginsNone ('-' :: '0' :: c :: rest) (pattern .hexInteger))
      (hfloat : BeginsNone ('-' :: '0' :: c :: rest) (pattern .floatLiteral)) :
      Deviates ('-' :: '0' :: c :: rest) .unknown ['-', '0']

/-- The token at the start of a text. -/
def Lexes (text : List Char) (kind : TokenKind) (lexeme : List Char) : Prop :=
  Deviates text kind lexeme ∨
    ((∀ kind lexeme, ¬ Deviates text kind lexeme) ∧ LongestMatch text kind lexeme)

/-! ### What stands in a string -/

variable {c : Char} {text word body escape : List Char}

lemma nil_mem_stringBody : [] ∈ stringBody := Language.nil_mem_kstar _

lemma cons_mem_stringBody : c :: word ∈ stringBody ↔
    (c ≠ '"' ∧ c ≠ '\\' ∧ word ∈ stringBody) ∨
      (c = '\\' ∧ ∃ d rest, word = d :: rest ∧ d ≠ '\n' ∧ rest ∈ stringBody) := by
  have hempty : c :: word ∉ (1 : Language Char) := nofun
  rw [← mul_one stringBody, cons_mem_stringBody_mul, or_iff_right hempty]

lemma continues_cons : Continues (c :: word) ↔ (c ≠ '"' ∧ c ≠ '\\' ∧ Continues word) ∨
    (c = '\\' ∧ (word = [] ∨ ∃ d rest, word = d :: rest ∧ d ≠ '\n' ∧ Continues rest)) := by
  unfold Continues
  simp only [List.cons_append, cons_mem_stringBody]
  constructor
  · rintro ⟨rest, ⟨hquote, hbackslash, hrest⟩ | ⟨hc, d, after, heq, hd, hafter⟩⟩
    · exact .inl ⟨hquote, hbackslash, rest, hrest⟩
    · cases word with
      | nil => exact .inr ⟨hc, .inl rfl⟩
      | cons e word =>
        obtain ⟨rfl, rfl⟩ := List.cons.inj heq
        exact .inr ⟨hc, .inr ⟨_, word, rfl, hd, rest, hafter⟩⟩
  · rintro (⟨hquote, hbackslash, rest, hrest⟩ | ⟨hc, rfl | ⟨d, word, rfl, hd, rest, hrest⟩⟩)
    · exact ⟨rest, .inl ⟨hquote, hbackslash, hrest⟩⟩
    · exact ⟨['n'], .inr ⟨hc, 'n', [], rfl, by decide, nil_mem_stringBody⟩⟩
    · exact ⟨rest, .inr ⟨hc, d, _, rfl, hd, hrest⟩⟩

lemma continues_nil : Continues [] := ⟨[], nil_mem_stringBody⟩

lemma stringBody_of_continues (h : Continues text) : Scanner.stringBody text = none := by
  fun_induction Scanner.stringBody text with
  | case1 => rfl
  | case2 rest => simp [continues_cons] at h
  | case3 rest => rfl
  | case4 c rest hc ih => simp_all [continues_cons]
  | case5 c rest hc hescape ih =>
    rcases continues_cons.1 h with ⟨-, -, hrest⟩ | ⟨hbackslash, rfl | ⟨d, after, rfl, -, -⟩⟩
    · rw [ih hrest]
      rfl
    · rfl
    · exact (hescape d after hbackslash rfl).elim

lemma mem_stringBody_of_hexadecimal (h : ∀ c ∈ word, isHexadecimal c) : word ∈ stringBody := by
  induction word with
  | nil => exact nil_mem_stringBody
  | cons c word ih =>
    obtain ⟨hc, hword⟩ := List.forall_mem_cons.1 h
    refine cons_mem_stringBody.2 (.inl ⟨?_, ?_, ih hword⟩)
    all_goals
      rintro rfl
      exact absurd hc (by decide)

lemma continues_of_brokenEscape (hbody : body ∈ stringBody) (hescape : escape ∈ brokenEscape) :
    Continues (body ++ escape) := by
  obtain ⟨digits, rfl, -, hdigits⟩ := hescape
  have hescape : '\\' :: 'u' :: digits ∈ stringBody :=
    cons_mem_stringBody.2 (.inr ⟨rfl, 'u', digits, rfl, by decide,
      mem_stringBody_of_hexadecimal hdigits⟩)
  refine ⟨[], ?_⟩
  rw [List.append_nil, stringBody, ← kstar_mul_kstar]
  exact Language.append_mem_mul hbody hescape

lemma openStringBody_of_brokenEscape (hbody : body ∈ stringBody)
    (hescape : '\\' :: escape ∈ brokenEscape) :
    Scanner.openStringBody (body ++ '\\' :: escape) = body.length + 1 := by
  obtain ⟨digits, heq, hshort, hdigits⟩ := hescape
  obtain ⟨-, rfl⟩ := List.cons.inj heq
  induction hlength : body.length using Nat.strong_induction_on generalizing body with
  | _ length ih =>
  subst hlength
  cases body with
  | nil =>
    have hall : digits.all isHexDigit = true :=
      List.all_eq_true.2 fun c hc => (Scanner.isHexDigit_iff c).2 (hdigits c hc)
    simp [Scanner.openStringBody, hshort, hall]
  | cons c body =>
    rcases cons_mem_stringBody.1 hbody with ⟨-, hbackslash, hrest⟩ | ⟨rfl, d, rest, rfl, hd, hrest⟩
    · rw [List.cons_append, Scanner.openStringBody.eq_4 _ _ ?_ ?_, ih _ (by simp) hrest rfl]
      · rfl
      · exact fun h => absurd h hbackslash
      · exact fun _ _ h => absurd h hbackslash
    · -- The backslash further on is no digit, so that this escape is none that breaks off.
      have hnone : ¬ (rest ++ '\\' :: 'u' :: digits).all isHexDigit = true := by
        rw [List.all_append]
        simp [isHexDigit]
      rw [List.cons_append, List.cons_append, Scanner.openStringBody, if_neg hd,
        if_neg fun h => hnone h.2.2, ih _ (by simp) hrest rfl]
      rfl

lemma openStringBody_le (text : List Char) : Scanner.openStringBody text ≤ text.length := by
  fun_induction Scanner.openStringBody text <;> grind

lemma openStringBody_spec (hopen : Scanner.stringBody text = none)
    (hbroken : text ∉ stringBody * brokenEscape) :
    Continues (text.take (Scanner.openStringBody text)) ∧
    ∀ other, other <+: text → Continues other → other.length ≤ Scanner.openStringBody text := by
  fun_induction Scanner.openStringBody text with
  | case1 => exact ⟨continues_nil, fun other hother _ => hother.length_le⟩
  | case2 => exact ⟨continues_cons.2 (.inr ⟨rfl, .inl rfl⟩), fun other hother _ => hother.length_le⟩
  | case3 rest =>
    refine ⟨continues_cons.2 (.inr ⟨rfl, .inl rfl⟩), fun other hother hcontinues => ?_⟩
    rcases List.prefix_cons_iff.1 hother with rfl | ⟨more, rfl, hmore⟩
    · exact Nat.zero_le _
    · rcases List.prefix_cons_iff.1 hmore with rfl | ⟨more, rfl, -⟩
      · exact le_rfl
      · simp [continues_cons] at hcontinues
  | case4 c rest hc h =>
    obtain ⟨rfl, hshort, hall⟩ := h
    have hescape : '\\' :: 'u' :: rest ∈ brokenEscape :=
      ⟨rest, rfl, hshort, fun d hd => (Scanner.isHexDigit_iff d).1 (List.all_eq_true.1 hall d hd)⟩
    exact absurd (Language.mem_mul.2 ⟨[], nil_mem_stringBody, _, hescape, rfl⟩) hbroken
  | case5 c rest hc h ih =>
    have hrest : Scanner.stringBody rest = none := by
      simpa [Scanner.stringBody, hc] using hopen
    obtain ⟨htake, hlongest⟩ := ih hrest fun hmem =>
      hbroken (cons_mem_stringBody_mul.2 (.inr (.inr ⟨rfl, c, rest, rfl, hc, hmem⟩)))
    refine ⟨continues_cons.2 (.inr ⟨rfl, .inr ⟨c, _, rfl, hc, htake⟩⟩),
      fun other hother hcontinues => ?_⟩
    rcases List.prefix_cons_iff.1 hother with rfl | ⟨more, rfl, hmore⟩
    · exact Nat.zero_le _
    · rcases List.prefix_cons_iff.1 hmore with rfl | ⟨last, rfl, hlast⟩
      · exact Nat.le_add_left 1 _
      · refine Nat.add_le_add_right (hlongest last hlast ?_) 2
        simpa [continues_cons, hc] using hcontinues
  | case6 c rest hend hescape ih =>
    have hbackslash : c ≠ '\\' := by
      rintro rfl
      cases rest with
      | nil => exact hend rfl rfl
      | cons d rest => exact hescape d rest rfl rfl
    have hquote : c ≠ '"' := by
      rintro rfl
      simp [Scanner.stringBody] at hopen
    have hrest : Scanner.stringBody rest = none := by
      rw [Scanner.stringBody.eq_4 _ _ hquote hescape] at hopen
      simpa using hopen
    obtain ⟨htake, hlongest⟩ := ih hrest fun hmem =>
      hbroken (cons_mem_stringBody_mul.2 (.inr (.inl ⟨hquote, hbackslash, hmem⟩)))
    refine ⟨continues_cons.2 (.inl ⟨hquote, hbackslash, htake⟩), fun other hother hcontinues => ?_⟩
    rcases List.prefix_cons_iff.1 hother with rfl | ⟨more, rfl, hmore⟩
    · exact Nat.zero_le _
    · refine Nat.add_le_add_right (hlongest more hmore ?_) 1
      simpa [continues_cons, hquote, hbackslash] using hcontinues

/-! ### The longest match -/

lemma LongestMatch.unique {kind kind' : TokenKind} {lexeme lexeme' : List Char}
    (h : LongestMatch text kind lexeme) (h' : LongestMatch text kind' lexeme') :
    kind = kind' ∧ lexeme = lexeme' := by
  have hlexeme : lexeme = lexeme' := by
    have hlength : lexeme.length = lexeme'.length :=
      Nat.le_antisymm (h'.longest kind lexeme h.mem h.begins)
        (h.longest kind' lexeme' h'.mem h'.begins)
    rw [List.prefix_iff_eq_take.1 h.begins, List.prefix_iff_eq_take.1 h'.begins, hlength]
  subst hlexeme
  refine ⟨?_, rfl⟩
  by_contra hne
  rcases h.first kind' (Ne.symm hne) h'.mem with rfl | ⟨rfl, hkeyword⟩
  · rcases h'.first kind hne h.mem with rfl | ⟨-, hkeyword⟩
    · exact hne rfl
    · contradiction
  · rcases h'.first kind hne h.mem with rfl | ⟨rfl, -⟩
    · contradiction
    · exact hne rfl

namespace Lexer

lemma foldl_better_wins (candidates : List (TokenKind × Scanner)) (best : TokenKind × Nat) :
    (candidates.foldl (better text) best = best ∧
      ∀ form ∈ candidates, ∀ length, form.2 text = some length → length < best.2) ∨
    ∃ before form after, candidates = before ++ form :: after ∧
      form.1 = (candidates.foldl (better text) best).1 ∧
      form.2 text = some (candidates.foldl (better text) best).2 ∧
      (∀ other ∈ before, ∀ length, other.2 text = some length →
        length ≤ (candidates.foldl (better text) best).2) ∧
      ∀ other ∈ after, ∀ length, other.2 text = some length →
        length < (candidates.foldl (better text) best).2 := by
  induction candidates generalizing best with
  | nil => exact .inl ⟨rfl, nofun⟩
  | cons first candidates ih =>
    rw [List.foldl_cons]
    have hfirst : ∀ length, first.2 text = some length → length ≤ (better text best first).2 := by
      intro length hlength
      unfold better
      rw [hlength]
      dsimp only
      split
      · exact le_rfl
      · omega
    rcases ih (better text best first) with ⟨heq, hless⟩ | ⟨before, form, after, rfl, hkind, hform,
      hbefore, hafter⟩
    · rw [heq]
      by_cases hwins : ∃ length, first.2 text = some length ∧ best.2 ≤ length
      · obtain ⟨length, hlength, hle⟩ := hwins
        have hbetter : better text best first = (first.1, length) := by
          rw [better, hlength]
          exact if_pos hle
        rw [hbetter] at hless ⊢
        exact .inr ⟨[], first, candidates, rfl, rfl, hlength, nofun, hless⟩
      · have hbetter : better text best first = best := by
          unfold better
          split
          · rename_i length hlength
            exact if_neg fun hle => hwins ⟨length, hlength, hle⟩
          · rfl
        rw [hbetter] at hless ⊢
        refine .inl ⟨rfl, List.forall_mem_cons.2 ⟨fun length hlength => ?_, hless⟩⟩
        exact Nat.lt_of_not_le fun hle => hwins ⟨length, hlength, hle⟩
    · refine .inr ⟨first :: before, form, after, rfl, hkind, hform, ?_, hafter⟩
      exact List.forall_mem_cons.2
        ⟨fun length hlength => (hfirst length hlength).trans (le_foldl_better _ _ _), hbefore⟩

lemma longest_cases (text : List Char) :
    (longest text = (.unknown, 1) ∧
      ∀ form ∈ forms, ∀ length, form.2 text = some length → length < 1) ∨
    ∃ form ∈ forms, form.1 = (longest text).1 ∧ form.2 text = some (longest text).2 ∧
      (∀ other ∈ forms, ∀ length, other.2 text = some length → length ≤ (longest text).2) ∧
      (form.1 = .identifier → ∀ other ∈ forms, other.1 ≠ .identifier →
        ∀ length, other.2 text = some length → length < (longest text).2) := by
  rcases @foldl_better_wins text forms (.unknown, 1) with hnone | ⟨before, form, after,
    hforms, hkind, hform, hbefore, hafter⟩
  · exact .inl hnone
  refine .inr ⟨form, hforms ▸ List.mem_append_right _ List.mem_cons_self, hkind, hform, ?_, ?_⟩
  · intro other hother length hscan
    rw [hforms, List.mem_append, List.mem_cons] at hother
    rcases hother with hother | rfl | hother
    · exact hbefore other hother length hscan
    · exact (Option.some.inj (hscan.symm.trans hform)).le
    · exact (hafter other hother length hscan).le
  · intro hidentifier other hother hne
    have htail : ∀ form ∈ forms.tail, form.1 ≠ .identifier := by decide
    cases before with
    | nil =>
      rw [hforms, List.nil_append, List.mem_cons] at hother
      rcases hother with rfl | hother
      · exact absurd hidentifier hne
      · exact hafter other hother
    | cons first before =>
      have hlater : form ∈ forms.tail := by
        rw [hforms, List.cons_append, List.tail_cons]
        exact List.mem_append_right _ List.mem_cons_self
      exact absurd hidentifier (htail form hlater)

lemma unknown_notMem_forms : ∀ form ∈ forms, form.1 ≠ .unknown := by decide

lemma longest_longestMatch (hn : text ≠ []) :
    LongestMatch text (longest text).1 (text.take (longest text).2) := by
  have hlength : (text.take (longest text).2).length = (longest text).2 :=
    List.length_take_of_le (longest_le hn)
  have hlongest (hfound : ∀ form ∈ forms, ∀ length, form.2 text = some length →
      length ≤ (longest text).2) : ∀ other, ∀ word ∈ pattern other, word <+: text →
        word.length ≤ (text.take (longest text).2).length := by
    rintro other word hword ⟨rest, rfl⟩
    rw [hlength]
    rcases form_of_kind other with rfl | ⟨form, hform, rfl⟩
    · exact (length_of_mem_oneOf hword).trans_le (longest_pos _)
    · obtain ⟨length, hscan, hle⟩ := (forms_find form hform).longest hword rest
      exact hle.trans (hfound form hform length hscan)
  have hfinds {form : TokenKind × Scanner} (hform : form ∈ forms)
      (hmem : text.take (longest text).2 ∈ pattern form.1) :
      ∃ length, form.2 text = some length ∧ (longest text).2 ≤ length := by
    obtain ⟨length, hscan, hle⟩ := (forms_find form hform).longest hmem
      (text.drop (longest text).2)
    rw [List.take_append_drop] at hscan
    exact ⟨length, hscan, hlength ▸ hle⟩
  rcases longest_cases text with ⟨heq, hless⟩ | ⟨form, hmem, hkind, hform, hmost, hothers⟩
  · have hnone : ∀ form ∈ forms, text.take (longest text).2 ∉ pattern form.1 := by
      intro form hform hmem
      obtain ⟨length, hscan, hle⟩ := hfinds hform hmem
      rw [heq] at hle
      exact absurd (hless form hform length hscan) (Nat.not_lt.2 hle)
    refine ⟨List.take_prefix _ _, ?_, ?_, ?_⟩
    · obtain ⟨c, rest, rfl⟩ := List.exists_cons_of_ne_nil hn
      rw [heq] at hnone ⊢
      refine ⟨c, fun hspacing => hnone (.whitespace, Scanner.whitespace) (by simp [forms]) ?_,
        rfl⟩
      exact cons_mem_oneOf_mul.2 ⟨hspacing, Language.nil_mem_kstar _⟩
    · exact hlongest fun form hform length hscan => heq ▸ (hless form hform length hscan).le
    · intro other _ hother
      rcases form_of_kind other with hunknown | ⟨form, hform, rfl⟩
      · exact .inl hunknown
      · exact absurd hother (hnone form hform)
  · have hlexeme := ((forms_find form hmem).sound hform).1
    refine ⟨List.take_prefix _ _, hkind ▸ hlexeme, hlongest hmost, ?_⟩
    rw [← hkind]
    intro other hne hother
    rcases overlap hlexeme hother with
      heq | hunknown | hunknown | ⟨hidentifier, hkeyword⟩ | hkeyword
    · exact absurd heq.symm hne
    · exact absurd hunknown (unknown_notMem_forms form hmem)
    · exact .inl hunknown
    · rcases form_of_kind other with hunknown | ⟨form', hmem', rfl⟩
      · exact .inl hunknown
      · obtain ⟨length, hscan, hle⟩ := hfinds hmem' hother
        have hless := hothers hidentifier form' hmem' (hidentifier ▸ hne) length hscan
        exact absurd hle (Nat.not_le.2 hless)
    · exact .inr hkeyword

end Lexer

/-! ### Deviations -/

namespace Scanner

variable {scan : Scanner} {l : Language Char}

lemma Finds.beginsNone_iff (h : scan.Finds l) : BeginsNone text l ↔ scan text = none := by
  constructor
  · intro hnone
    by_contra hscan
    obtain ⟨length, hlength⟩ := Option.ne_none_iff_exists'.1 hscan
    exact hnone _ (h.sound hlength).1 (List.take_prefix _ _)
  · rintro hscan word hword ⟨rest, rfl⟩
    obtain ⟨length, hlength, -⟩ := h.longest hword rest
    rw [hscan] at hlength
    contradiction

lemma beginsNone_blockComment (body : List Char) :
    BeginsNone ('/' :: '*' :: body) (pattern .blockComment) ↔ commentBody body = none := by
  have hmark : word "/*" ('/' :: '*' :: body) = some 2 := rfl
  rw [Finds.blockComment.beginsNone_iff, blockComment, andThen_of_some hmark,
    Option.map_eq_none_iff]
  rfl

lemma beginsNone_stringLiteral (body : List Char) :
    BeginsNone ('"' :: body) (pattern .stringLiteral) ↔ stringBody body = none := by
  have hmark : char '"' ('"' :: body) = some 1 := rfl
  rw [Finds.stringLiteral.beginsNone_iff, stringLiteral, andThen_of_some hmark,
    Option.map_eq_none_iff]
  rfl

end Scanner

namespace Lexer

variable {kind : TokenKind} {lexeme : List Char}

lemma next_of_leftOpen {length : Nat} (h : leftOpen text = some length) :
    next text = (.unknown, length) := by
  rw [next, h]

lemma better_of_none {form : TokenKind × Scanner} {best : TokenKind × Nat}
    (h : form.2 text = none) : better text best form = best := by
  rw [better, h]

lemma longest_of_hyphen
    (h : Scanner.word "annotation-field" ("annotation-".toList ++ text) = none) :
    longest ("annotation-".toList ++ text) = (.annotationWord, 10) := by
  have hforms : forms = forms.take 14 ++ (.annotationFieldWord, .word "annotation-field") ::
      forms.drop 15 := rfl
  have hbetter : better ("annotation-".toList ++ text) (.annotationWord, 10)
      (.annotationFieldWord, .word "annotation-field") = (.annotationWord, 10) := better_of_none h
  have hbefore : (forms.take 14).foldl (better ("annotation-".toList ++ text)) (.unknown, 1) =
      (.annotationWord, 10) := rfl
  have hafter :
    (forms.drop 15).foldl (better ("annotation-".toList ++ text)) (.annotationWord, 10) =
      (.annotationWord, 10) := rfl
  rw [longest, hforms, List.foldl_append, hbefore, List.foldl_cons, hbetter, hafter]

lemma longest_of_negativeZero {c : Char} (hc : c = 'x' ∨ c = 'X' ∨ c = '.')
    (hhex : Scanner.hexInteger ('-' :: '0' :: c :: text) = none)
    (hfloat : Scanner.floatLiteral ('-' :: '0' :: c :: text) = none) :
    longest ('-' :: '0' :: c :: text) = (.decimalInteger, 2) := by
  have hforms : forms = forms.take 5 ++ (.hexInteger, Scanner.hexInteger) ::
      (.floatLiteral, Scanner.floatLiteral) :: forms.drop 7 := rfl
  have hbefore : (forms.take 5).foldl (better ('-' :: '0' :: c :: text)) (.unknown, 1) =
      (.decimalInteger, 2) := by
    rcases hc with rfl | rfl | rfl <;> rfl
  have hafter : (forms.drop 7).foldl (better ('-' :: '0' :: c :: text)) (.decimalInteger, 2) =
      (.decimalInteger, 2) := rfl
  have hhex : better ('-' :: '0' :: c :: text) (.decimalInteger, 2)
      (.hexInteger, Scanner.hexInteger) = (.decimalInteger, 2) := better_of_none hhex
  have hfloat : better ('-' :: '0' :: c :: text) (.decimalInteger, 2)
      (.floatLiteral, Scanner.floatLiteral) = (.decimalInteger, 2) := better_of_none hfloat
  rw [longest, hforms, List.foldl_append, hbefore, List.foldl_cons, List.foldl_cons, hhex, hfloat,
    hafter]

lemma next_of_longest {length : Nat} (hopen : leftOpen text = none)
    (hlongest : longest text = (kind, length)) :
    next text = if cutsHyphenatedWord kind (text.drop length) then (.identifier, length)
      else if cutsNumber (text.take length) (text.drop length) then (.unknown, length)
      else (kind, length) := by
  rw [next, hopen]
  dsimp only
  rw [hlongest]

lemma next_of_deviates (h : Deviates text kind lexeme) :
    next text = (kind, lexeme.length) ∧ lexeme <+: text := by
  cases h with
  | openComment _ hopens hopen =>
    obtain ⟨body, rfl⟩ := hopens
    refine ⟨next_of_leftOpen ?_, List.prefix_rfl⟩
    exact if_pos ((Scanner.beginsNone_blockComment body).1 hopen)
  | openString body taken hopen hbroken htaken hcontinues hlongest =>
    have hopen := (Scanner.beginsNone_stringLiteral body).1 hopen
    obtain ⟨hmost, hmost'⟩ := openStringBody_spec hopen hbroken
    have hlength : Scanner.openStringBody body = taken.length := by
      refine Nat.le_antisymm ?_ (hmost' taken htaken hcontinues)
      rw [← List.length_take_of_le (openStringBody_le body)]
      exact hlongest _ (List.take_prefix _ _) hmost
    refine ⟨next_of_leftOpen ?_, List.cons_prefix_cons.2 ⟨rfl, htaken⟩⟩
    rw [List.length_cons, ← hlength]
    exact if_pos hopen
  | brokenString body escape hbody hescape =>
    have hopen := stringBody_of_continues (continues_of_brokenEscape hbody hescape)
    refine ⟨next_of_leftOpen ?_, List.cons_prefix_cons.2 ⟨rfl, ?_⟩⟩
    · rw [List.length_cons, List.length_append, List.length_singleton,
        ← openStringBody_of_brokenEscape hbody hescape]
      exact if_pos hopen
    · exact (List.prefix_append_right_inj body).2 (List.cons_prefix_cons.2 ⟨rfl, List.nil_prefix⟩)
  | hyphenated _ hhyphen hfield =>
    obtain ⟨rest, rfl⟩ := hhyphen
    have hword : Scanner.word "annotation-field" ("annotation-".toList ++ rest) = none :=
      if_neg fun h => hfield (List.isPrefixOf_iff_prefix.1 h)
    refine ⟨next_of_longest rfl (longest_of_hyphen hword), ?_⟩
    exact List.IsPrefix.trans (by decide) (List.prefix_append _ _)
  | negativeZero c rest hc hhex hfloat =>
    rw [Scanner.Finds.hexInteger.beginsNone_iff] at hhex
    rw [Scanner.Finds.floatLiteral.beginsNone_iff] at hfloat
    have hcut : cutsNumber ['-', '0'] (c :: rest) = true := by
      rcases hc with rfl | rfl | rfl <;> rfl
    refine ⟨?_, List.prefix_append ['-', '0'] (c :: rest)⟩
    rw [next_of_longest rfl (longest_of_negativeZero hc hhex hfloat)]
    simpa [cutsHyphenatedWord] using hcut

/-! ### Everything else -/

lemma deviates_of_leftOpen {length : Nat} (h : leftOpen text = some length) :
    ∃ kind lexeme, Deviates text kind lexeme := by
  unfold leftOpen at h
  split at h
  · rename_i body
    split at h
    · rename_i hopen
      exact ⟨_, _, .openComment _ (List.prefix_append _ _)
        ((Scanner.beginsNone_blockComment body).2 hopen)⟩
    · contradiction
  · rename_i body
    split at h
    · rename_i hopen
      by_cases hbroken : body ∈ stringBody * brokenEscape
      · obtain ⟨first, hfirst, _, hescape, rfl⟩ := Language.mem_mul.1 hbroken
        obtain ⟨digits, rfl, -⟩ := id hescape
        exact ⟨_, _, .brokenString first _ hfirst hescape⟩
      · obtain ⟨hcontinues, hlongest⟩ := openStringBody_spec hopen hbroken
        refine ⟨_, _, .openString body _ ((Scanner.beginsNone_stringLiteral body).2 hopen) hbroken
          (List.take_prefix _ _) hcontinues fun other hother hcontinues => ?_⟩
        rw [List.length_take_of_le (openStringBody_le body)]
        exact hlongest other hother hcontinues
    · contradiction
  · contradiction

lemma deviates_of_hyphen (h : LongestMatch text .annotationWord lexeme)
    (hhyphen : (text.drop lexeme.length).head? = some '-') :
    Deviates text .identifier "annotation".toList := by
  obtain ⟨rest, rfl⟩ := h.begins
  obtain rfl := mem_spelling.1 h.mem
  rw [List.drop_left] at hhyphen
  obtain ⟨rest, rfl⟩ := List.head?_eq_some_iff.1 hhyphen
  refine .hyphenated _ (List.prefix_append "annotation-".toList rest) fun hfield => ?_
  exact absurd (h.longest .annotationFieldWord _ rfl hfield) (by decide)

lemma deviates_of_negativeZero {c : Char} {rest : List Char} (hc : c = 'x' ∨ c = 'X' ∨ c = '.')
    (h : LongestMatch ('-' :: '0' :: c :: rest) kind ['-', '0']) :
    Deviates ('-' :: '0' :: c :: rest) .unknown ['-', '0'] := by
  have hnone {other : TokenKind} {p : Char → Prop} (hhas : Has (pattern other) p)
      (hminus : ¬ p '-') (hzero : ¬ p '0') :
      BeginsNone ('-' :: '0' :: c :: rest) (pattern other) := by
    intro word hword hbegins
    obtain ⟨d, hd, hp⟩ := hhas word hword
    have hshort := List.prefix_of_prefix_length_le hbegins h.begins (h.longest _ _ hword hbegins)
    have hd := hshort.subset hd
    simp only [List.mem_cons, List.not_mem_nil, or_false] at hd
    rcases hd with rfl | rfl
    · exact hminus hp
    · exact hzero hp
  exact .negativeZero c rest hc (hnone hexInteger_has (by decide) (by decide))
    (hnone floatLiteral_has (by decide) (by decide))

/-- What does not deviate is lexed as its longest match. -/
lemma next_of_not_deviates (hn : text ≠ []) (h : ∀ kind lexeme, ¬ Deviates text kind lexeme) :
    next text = longest text := by
  have hmatch := longest_longestMatch hn
  have hlength := List.length_take_of_le (longest_le hn)
  have hopen : leftOpen text = none := by
    by_contra hsome
    obtain ⟨length, hsome⟩ := Option.ne_none_iff_exists'.1 hsome
    obtain ⟨kind, lexeme, hdeviates⟩ := deviates_of_leftOpen hsome
    exact h kind lexeme hdeviates
  obtain ⟨⟨kind, length⟩, hlongest⟩ : ∃ found, longest text = found := ⟨_, rfl⟩
  rw [hlongest] at hmatch hlength ⊢
  rw [next_of_longest hopen hlongest, if_neg, if_neg]
  · intro hcut
    rw [cutsNumber, Bool.and_eq_true, beq_iff_eq] at hcut
    obtain ⟨htake, hcut⟩ := hcut
    cases hdrop : text.drop length with
    | nil => simp [hdrop] at hcut
    | cons c rest =>
      have hc : c = 'x' ∨ c = 'X' ∨ c = '.' := by
        simpa [hdrop, or_assoc] using hcut
      have htext : text = '-' :: '0' :: c :: rest := by
        rw [← List.take_append_drop length text, htake, hdrop]
        rfl
      rw [htake, htext] at hmatch
      exact h _ _ (htext ▸ deviates_of_negativeZero hc hmatch)
  · intro hcut
    rw [cutsHyphenatedWord, Bool.and_eq_true, beq_iff_eq, beq_iff_eq] at hcut
    obtain ⟨rfl, hhyphen⟩ := hcut
    exact h _ _ (deviates_of_hyphen hmatch (hlength.symm ▸ hhyphen))

lemma next_le (hn : text ≠ []) : (next text).2 ≤ text.length := by
  by_cases hdeviates : ∃ kind lexeme, Deviates text kind lexeme
  · obtain ⟨kind, lexeme, hdeviates⟩ := hdeviates
    obtain ⟨hnext, hbegins⟩ := next_of_deviates hdeviates
    rw [hnext]
    exact hbegins.length_le
  · push Not at hdeviates
    rw [next_of_not_deviates hn hdeviates]
    exact longest_le hn

/-- **The rule of the lexer.** -/
lemma lexes_iff (hn : text ≠ []) :
    Lexes text kind lexeme ↔ next text = (kind, lexeme.length) ∧ lexeme <+: text := by
  constructor
  · rintro (hdeviates | ⟨hnone, hmatch⟩)
    · exact next_of_deviates hdeviates
    · obtain ⟨hkind, hlexeme⟩ := hmatch.unique (longest_longestMatch hn)
      refine ⟨?_, hmatch.begins⟩
      rw [next_of_not_deviates hn hnone, hlexeme, List.length_take_of_le (longest_le hn), hkind]
  · rintro ⟨hnext, hbegins⟩
    have hlexeme := List.prefix_iff_eq_take.1 hbegins
    by_cases hdeviates : ∃ kind lexeme, Deviates text kind lexeme
    · obtain ⟨kind', lexeme', hdeviates⟩ := hdeviates
      obtain ⟨hnext', hbegins'⟩ := next_of_deviates hdeviates
      obtain ⟨rfl, hlength⟩ := Prod.mk.inj (hnext.symm.trans hnext')
      rw [hlexeme, hlength, ← List.prefix_iff_eq_take.1 hbegins']
      exact .inl hdeviates
    · push Not at hdeviates
      refine .inr ⟨hdeviates, ?_⟩
      have hmatch := longest_longestMatch hn
      rw [← next_of_not_deviates hn hdeviates, hnext, ← hlexeme] at hmatch
      exact hmatch

end Lexer

/-! ### Ends of comments and strings -/

lemma Lexes.mem {kind : TokenKind} {lexeme : List Char} (h : Lexes text kind lexeme)
    (hkind : kind ≠ .unknown ∧ kind ≠ .identifier) : lexeme ∈ pattern kind := by
  rcases h with hdeviates | ⟨-, hmatch⟩
  · cases hdeviates <;> simp at hkind
  · exact hmatch.mem

lemma commentBody_first {length : Nat} (h : Scanner.commentBody text = some length) :
    ∃ body, text.take length = body ++ "*/".toList ∧ ¬ "*/".toList <:+: body ++ ['*'] := by
  fun_induction Scanner.commentBody text generalizing length with
  | case1 => contradiction
  | case2 rest =>
    obtain rfl := Option.some.inj h
    exact ⟨[], rfl, by decide⟩
  | case3 c rest hend ih =>
    obtain ⟨inner, hinner, rfl⟩ := Option.map_eq_some_iff.1 h
    obtain ⟨body, htake, hnone⟩ := ih hinner
    refine ⟨c :: body, by rw [List.take_succ_cons, htake]; rfl, fun hinfix => ?_⟩
    rcases List.infix_cons_iff.1 hinfix with hbegins | hinfix
    · -- The comment would have ended here.
      obtain ⟨rfl, hslash⟩ := List.cons_prefix_cons.1 hbegins
      cases body with
      | nil => exact absurd hslash (by decide)
      | cons d body =>
        obtain ⟨rfl, -⟩ := List.cons_prefix_cons.1 hslash
        have hrest := List.take_append_drop inner rest
        rw [htake] at hrest
        exact hend _ rfl hrest.symm
    · exact hnone hinfix

lemma stringBody_units (h : word ∈ stringBody) :
    ∃ units : List (List Char), word = units.flatten ∧ ∀ unit ∈ units,
      (∃ c, unit = [c] ∧ c ≠ '"' ∧ c ≠ '\\') ∨ ∃ c, unit = ['\\', c] ∧ c ≠ '\n' := by
  rw [stringBody_eq] at h
  obtain ⟨units, rfl, hunits⟩ := Language.mem_kstar.1 h
  refine ⟨units, rfl, fun unit hunit => ?_⟩
  rcases hunits unit hunit with ⟨c, hc, rfl⟩ | hescape
  · exact .inl ⟨c, rfl, hc⟩
  · obtain ⟨_, rfl, _, ⟨c, hc, rfl⟩, rfl⟩ := Language.mem_mul.1 hescape
    exact .inr ⟨c, rfl, hc⟩

/-- **Tokens follow the patterns.** Wherever a token starts in a text, the rest of the text decides
its kind and lexeme: they are the longest match of the patterns, but for the deviations. A block
comment ends where it first can, and so does a string literal if escapes are taken whole. -/
theorem tokens_follow_patterns {source : String} {before after : List Token} {token : Token}
    (h : tokens source = before ++ token :: after) :
    ∃ rest, source.toList = (String.join (before.map (·.lexeme))).toList ++ rest ∧
      (∀ kind lexeme, Lexes rest kind lexeme ↔
        kind = token.kind ∧ lexeme = token.lexeme.toList) ∧
      (token.kind = .blockComment → ∃ body,
        token.lexeme.toList = "/*".toList ++ body ++ "*/".toList ∧
          ¬ "*/".toList <:+: body ++ ['*']) ∧
      (token.kind = .stringLiteral → ∃ units : List (List Char),
        token.lexeme.toList = ['"'] ++ units.flatten ++ ['"'] ∧ ∀ unit ∈ units,
          (∃ c, unit = [c] ∧ c ≠ '"' ∧ c ≠ '\\') ∨ ∃ c, unit = ['\\', c] ∧ c ≠ '\n') := by
  obtain ⟨rest, hn, hsource, hkind, hlexeme⟩ := Lexer.next_of_tokensFrom h
  have hlength : (rest.take (Lexer.next rest).2).length = (Lexer.next rest).2 :=
    List.length_take_of_le (Lexer.next_le hn)
  have hlexes : ∀ kind lexeme, Lexes rest kind lexeme ↔
      kind = token.kind ∧ lexeme = token.lexeme.toList := by
    intro kind lexeme
    rw [Lexer.lexes_iff hn, hkind, hlexeme, String.toList_ofList]
    constructor
    · rintro ⟨hnext, hbegins⟩
      rw [hnext]
      exact ⟨rfl, List.prefix_iff_eq_take.1 hbegins⟩
    · rintro ⟨rfl, rfl⟩
      exact ⟨by rw [hlength], List.take_prefix _ _⟩
  have hmem (hkind : token.kind ≠ .unknown ∧ token.kind ≠ .identifier) :=
    ((hlexes _ _).2 ⟨rfl, rfl⟩).mem hkind
  refine ⟨rest, hsource, hlexes, fun hcomment => ?_, fun hstring => ?_⟩
  · rw [hcomment] at hmem
    have hword := hmem ⟨by decide, by decide⟩
    rw [pattern, mul_assoc, mul_assoc] at hword
    obtain ⟨_, rfl, inside, hinside, hword⟩ := Language.mem_mul.1 hword
    rw [← hword]
    have hscan := (Scanner.commentBody_eq_some_iff inside).1 inside.length
    rw [List.take_length] at hscan
    obtain ⟨body, hbody, hnone⟩ := commentBody_first (hscan.2 ⟨le_rfl, hinside⟩)
    rw [List.take_length] at hbody
    exact ⟨body, by rw [hbody, List.append_assoc], hnone⟩
  · rw [hstring] at hmem
    have hword := hmem ⟨by decide, by decide⟩
    obtain ⟨_, hword, _, rfl, hlexeme⟩ := Language.mem_mul.1 hword
    obtain ⟨_, rfl, inside, hinside, rfl⟩ := Language.mem_mul.1 hword
    obtain ⟨units, rfl, hunits⟩ := stringBody_units hinside
    exact ⟨units, hlexeme.symm, hunits⟩

/-- The text ends in the middle of an escape, and the rest of it is lexed anew behind the
backslash. -/
theorem tokens_follow_patterns_brokenString :
    tokens "x\"\\u00" = [⟨.identifier, "x", ⟨1, 1, 0⟩⟩] ++
      ⟨.unknown, "\"\\", ⟨1, 2, 1⟩⟩ :: [⟨.identifier, "u00", ⟨1, 4, 3⟩⟩] ∧
    ∀ kind lexeme, Lexes "\"\\u00".toList kind lexeme ↔ kind = .unknown ∧ lexeme = ['"', '\\'] := by
  have htokens : tokens "x\"\\u00" = [⟨.identifier, "x", ⟨1, 1, 0⟩⟩] ++
      ⟨.unknown, "\"\\", ⟨1, 2, 1⟩⟩ :: [⟨.identifier, "u00", ⟨1, 4, 3⟩⟩] := by decide +kernel
  refine ⟨htokens, ?_⟩
  obtain ⟨rest, hsource, hlexes, -⟩ := tokens_follow_patterns htokens
  have hrest : rest = "\"\\u00".toList := (List.cons.inj hsource).2.symm
  exact hrest ▸ hlexes

end ExternalAnnotations
