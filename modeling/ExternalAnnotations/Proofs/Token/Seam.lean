import ExternalAnnotations.Proofs.Token.Names
import ExternalAnnotations.Proofs.Index.Moved
import Mathlib.Data.List.TakeWhile

/-!
# Where two texts meet

If every token of a text is known, a line feed behind the text ends its last token, and the text
after the line feed has the tokens that it has alone, moved. Most scanners never get past a line
feed. Those for strings, characters and block comments do, but only if something is left open.
-/

namespace ExternalAnnotations

namespace Scanner

/-! ### What a scanner takes -/

/-- A scanner takes no more than there is. -/
def Bounded (scan : Scanner) : Prop := ∀ text length, scan text = some length → length ≤ text.length

/-- From a character on it does not matter what comes. -/
def EndsAt (scan : Scanner) (d : Char) : Prop := ∀ text after, scan (text ++ d :: after) = scan text

/-- What is behind a lexeme does not matter. -/
def Steady (scan : Scanner) : Prop :=
  ∀ text length after, scan text = some length → scan (text ++ after) = some length

variable {scan first second : Scanner} {isIn : Char → Bool} {text : List Char} {length : Nat}

lemma one_eq_some (h : one isIn text = some length) :
    ∃ c rest, text = c :: rest ∧ isIn c = true ∧ length = 1 := by
  cases text with
  | nil => contradiction
  | cons c rest =>
    change (if isIn c = true then some 1 else none) = some length at h
    split at h
    · rename_i hc
      exact ⟨c, rest, rfl, hc, (Option.some.inj h).symm⟩
    · contradiction

lemma andThen_eq_some (h : first.andThen second text = some length) :
    ∃ taken more, first text = some taken ∧ second (text.drop taken) = some more ∧
      length = taken + more := by
  obtain ⟨taken, htaken, h⟩ := Option.bind_eq_some_iff.1 h
  obtain ⟨more, hmore, h⟩ := Option.bind_eq_some_iff.1 h
  exact ⟨taken, more, htaken, hmore, (Option.some.inj h).symm⟩

lemma andThen_of_some {taken : Nat} (h : first text = some taken) :
    first.andThen second text = (second (text.drop taken)).map (taken + ·) := by
  rw [andThen, h]
  cases hsecond : second (text.drop taken) <;> simp [hsecond]

namespace Bounded

lemma one : (one isIn).Bounded := by
  intro text length h
  obtain ⟨c, rest, rfl, -, rfl⟩ := one_eq_some h
  exact Nat.le_add_left 1 rest.length

lemma span : (span isIn).Bounded := by
  intro text length h
  obtain rfl := Option.some.inj h
  exact (List.takeWhile_prefix isIn).length_le

lemma andThen (hfirst : first.Bounded) (hsecond : second.Bounded) :
    (first.andThen second).Bounded := by
  intro text length h
  obtain ⟨taken, more, htaken, hmore, rfl⟩ := andThen_eq_some h
  have hle := hfirst _ _ htaken
  have hmore := hsecond _ _ hmore
  rw [List.length_drop] at hmore
  omega

lemma optional (h : scan.Bounded) : (optional scan).Bounded := by
  intro text length hscan
  obtain rfl := Option.some.inj hscan
  cases hfound : scan text with
  | none => exact Nat.zero_le _
  | some length => exact h _ _ hfound

lemma orElse (hfirst : first.Bounded) (hsecond : second.Bounded) :
    (orElse first second).Bounded := by
  intro text length h
  unfold Scanner.orElse at h
  cases hfound : first text with
  | none =>
    rw [hfound] at h
    exact hsecond _ _ h
  | some taken =>
    rw [hfound] at h
    obtain rfl := Option.some.inj h
    exact hfirst _ _ hfound

lemma run : (run isIn).Bounded := one.andThen span

lemma word (spelling : String) : (word spelling).Bounded := by
  intro text length h
  unfold Scanner.word at h
  split at h
  · rename_i hprefix
    obtain rfl := Option.some.inj h
    exact (List.isPrefixOf_iff_prefix.1 hprefix).length_le
  · contradiction

lemma exactly (count : Nat) : (exactly isIn count).Bounded := by
  induction count with
  | zero =>
    intro text length h
    obtain rfl := Option.some.inj h
    exact Nat.zero_le _
  | succ count ih => exact one.andThen ih

lemma stringBody : Scanner.Bounded stringBody := by
  intro text
  fun_induction Scanner.stringBody text with
  | case1 => nofun
  | case2 rest =>
    intro length h
    obtain rfl := Option.some.inj h
    exact Nat.le_add_left 1 _
  | case3 rest => nofun
  | case4 c rest hc ih =>
    intro length h
    obtain ⟨inner, hinner, rfl⟩ := Option.map_eq_some_iff.1 h
    exact Nat.add_le_add_right (ih inner hinner) 2
  | case5 c rest hc hescape ih =>
    intro length h
    obtain ⟨inner, hinner, rfl⟩ := Option.map_eq_some_iff.1 h
    exact Nat.add_le_add_right (ih inner hinner) 1

lemma commentBody : Scanner.Bounded commentBody := by
  intro text
  fun_induction Scanner.commentBody text with
  | case1 => nofun
  | case2 rest =>
    intro length h
    obtain rfl := Option.some.inj h
    exact Nat.le_add_left 2 _
  | case3 c rest hc ih =>
    intro length h
    obtain ⟨inner, hinner, rfl⟩ := Option.map_eq_some_iff.1 h
    exact Nat.add_le_add_right (ih inner hinner) 1

end Bounded

namespace EndsAt

variable {d : Char}

lemma one (h : isIn d = false) : (one isIn).EndsAt d := by
  intro text after
  cases text with
  | nil => simp [Scanner.one, h]
  | cons c rest => rfl

lemma span (h : isIn d = false) : (span isIn).EndsAt d := by
  intro text after
  induction text with
  | nil => simp [Scanner.span, h]
  | cons c rest ih =>
    have ih := Option.some.inj ih
    unfold Scanner.span
    rw [List.cons_append, List.takeWhile_cons, List.takeWhile_cons]
    split
    · rw [List.length_cons, List.length_cons, ih]
    · rfl

lemma andThen (hbounded : first.Bounded) (hfirst : first.EndsAt d)
    (hsecond : second.EndsAt d) : (first.andThen second).EndsAt d := by
  intro text after
  have hsame := hfirst text after
  cases htaken : first text with
  | none =>
    rw [htaken] at hsame
    rw [andThen_eq_none htaken, andThen_eq_none hsame]
  | some taken =>
    rw [htaken] at hsame
    rw [andThen_of_some htaken, andThen_of_some hsame,
      List.drop_append_of_le_length (hbounded _ _ htaken), hsecond]

lemma optional (h : scan.EndsAt d) : (optional scan).EndsAt d := by
  intro text after
  rw [Scanner.optional, Scanner.optional, h]

lemma orElse (hfirst : first.EndsAt d) (hsecond : second.EndsAt d) :
    (orElse first second).EndsAt d := by
  intro text after
  rw [Scanner.orElse, Scanner.orElse, hfirst, hsecond]

lemma run (h : isIn d = false) : (run isIn).EndsAt d := andThen .one (one h) (span h)

lemma word {spelling : String} (h : d ∉ spelling.toList) : (word spelling).EndsAt d := by
  intro text after
  have hprefix : spelling.toList <+: text ++ d :: after ↔ spelling.toList <+: text := by
    constructor
    · intro hspelling
      have hshort : spelling.toList.length ≤ text.length := by
        by_contra hlong
        obtain ⟨rest, hrest⟩ := hspelling
        have hat : spelling.toList[text.length]? = some d := by
          rw [← List.getElem?_append_left (by omega), hrest, List.getElem?_append_right le_rfl,
            Nat.sub_self]
          rfl
        exact h (List.mem_of_getElem? hat)
      exact List.prefix_of_prefix_length_le hspelling (List.prefix_append _ _) hshort
    · exact fun hspelling => hspelling.trans (List.prefix_append _ _)
  rw [← List.isPrefixOf_iff_prefix, ← List.isPrefixOf_iff_prefix] at hprefix
  rw [Scanner.word, Scanner.word, if_congr hprefix rfl rfl]

end EndsAt

namespace Steady

lemma one : (one isIn).Steady := by
  intro text length after h
  obtain ⟨c, rest, rfl, hc, rfl⟩ := one_eq_some h
  exact if_pos hc

lemma word (spelling : String) : (word spelling).Steady := by
  intro text length after h
  unfold Scanner.word at h ⊢
  split at h
  · rename_i hprefix
    have hspelling := List.isPrefixOf_iff_prefix.1 hprefix
    rw [if_pos (List.isPrefixOf_iff_prefix.2 (hspelling.trans (List.prefix_append _ _)))]
    exact h
  · contradiction

lemma andThen (hbounded : first.Bounded) (hfirst : first.Steady) (hsecond : second.Steady) :
    (first.andThen second).Steady := by
  intro text length after h
  obtain ⟨taken, more, htaken, hmore, rfl⟩ := andThen_eq_some h
  rw [andThen_of_some (hfirst _ _ _ htaken),
    List.drop_append_of_le_length (hbounded _ _ htaken), hsecond _ _ _ hmore]
  rfl

lemma orElse (hfirst : first.Steady) (hsecond : second.Steady)
    (hexcluded : ∀ text length after, second text = some length → first (text ++ after) = none) :
    (orElse first second).Steady := by
  intro text length after h
  unfold Scanner.orElse at h ⊢
  cases hfound : first text with
  | some taken =>
    rw [hfound] at h
    rw [hfirst _ _ _ hfound]
    exact h
  | none =>
    rw [hfound] at h
    rw [hexcluded _ _ _ h, hsecond _ _ _ h]
    rfl

lemma exactly (count : Nat) : (exactly isIn count).Steady := by
  induction count with
  | zero => exact fun _ _ _ h => h
  | succ count ih => exact andThen .one one ih

lemma stringBody : Scanner.Steady stringBody := by
  intro text
  fun_induction Scanner.stringBody text with
  | case1 => nofun
  | case2 rest => exact fun _ _ h => h
  | case3 rest => nofun
  | case4 c rest hc ih =>
    intro length after h
    obtain ⟨inner, hinner, rfl⟩ := Option.map_eq_some_iff.1 h
    simp only [List.cons_append, Scanner.stringBody, if_neg hc, ih _ after hinner, Option.map_some]
  | case5 c rest hc hescape ih =>
    intro length after h
    obtain ⟨inner, hinner, rfl⟩ := Option.map_eq_some_iff.1 h
    rw [List.cons_append, Scanner.stringBody.eq_4 _ _ hc, ih _ after hinner]
    · rfl
    · -- A backslash at the end leaves the string open.
      intro d tail hbackslash hrest
      cases rest with
      | nil => contradiction
      | cons e rest => exact hescape e rest hbackslash rfl

lemma commentBody : Scanner.Steady commentBody := by
  intro text
  fun_induction Scanner.commentBody text with
  | case1 => nofun
  | case2 rest => exact fun _ _ h => h
  | case3 c rest hc ih =>
    intro length after h
    obtain ⟨inner, hinner, rfl⟩ := Option.map_eq_some_iff.1 h
    rw [List.cons_append, Scanner.commentBody.eq_3, ih _ after hinner]
    · rfl
    · intro tail hstar hrest
      cases rest with
      | nil => contradiction
      | cons d rest =>
        obtain ⟨rfl, -⟩ := List.cons.inj hrest
        exact hc rest hstar rfl

end Steady

lemma charLiteral_steady : charLiteral.Steady := by
  have hquote : (char '\'').Steady := Steady.one
  have hplain : ((one fun c => c != '\'' && c != '\\').andThen (char '\'')).Steady :=
    .andThen .one .one hquote
  have hunicode : ((word "\\u").andThen ((exactly isHexDigit 4).andThen (char '\''))).Steady :=
    .andThen (.word _) (.word _) (.andThen (.exactly 4) (.exactly 4) hquote)
  have hescape : ((char '\\').andThen ((one (· != '\n')).andThen (char '\''))).Steady :=
    .andThen .one .one (.andThen .one .one hquote)
  refine Steady.andThen .one hquote (hplain.orElse (hunicode.orElse hescape ?_) ?_)
  · intro text length after h
    obtain ⟨taken, more, htaken, hmore, -⟩ := andThen_eq_some h
    obtain ⟨c, rest, rfl, hc, rfl⟩ := one_eq_some htaken
    obtain rfl := eq_of_beq hc
    obtain ⟨taken, more, htaken, hmore, -⟩ := andThen_eq_some hmore
    obtain ⟨d, rest, hrest, -, rfl⟩ := one_eq_some htaken
    obtain rfl : _ = d :: rest := hrest
    obtain ⟨e, rest, hrest, he, -⟩ := one_eq_some hmore
    obtain rfl : _ = e :: rest := hrest
    obtain rfl := eq_of_beq he
    -- After `\u` there is the quote where four digits should be.
    by_cases hd : d = 'u'
    · subst hd
      rfl
    · have hword : word "\\u" ('\\' :: d :: '\'' :: (rest ++ after)) = none := by
        simp [word, Ne.symm hd]
      exact andThen_eq_none hword
  · intro text length after h
    obtain ⟨rest, rfl⟩ : ∃ rest, text = '\\' :: rest := by
      unfold orElse at h
      cases hfound : (word "\\u").andThen ((exactly isHexDigit 4).andThen (char '\'')) text with
      | some length =>
        obtain ⟨taken, more, htaken, -, -⟩ := andThen_eq_some hfound
        have hspelling := take_of_word htaken
        cases text with
        | nil => simp at hspelling
        | cons c rest =>
          cases taken with
          | zero => simp at hspelling
          | succ taken => exact ⟨rest, congrArg (· :: rest) (List.cons.inj hspelling).1⟩
      | none =>
        rw [hfound] at h
        obtain ⟨taken, more, htaken, -, -⟩ := andThen_eq_some h
        obtain ⟨c, rest, rfl, hc, -⟩ := one_eq_some htaken
        obtain rfl := eq_of_beq hc
        exact ⟨rest, rfl⟩
    exact andThen_eq_none rfl

end Scanner

namespace Lexer

lemma forms_bounded : ∀ form ∈ forms, form.2.Bounded := by
  have hminus : Scanner.minus.Bounded := .optional .one
  have hsuffix : Scanner.longSuffix.Bounded := .optional .one
  have hquote : (Scanner.char '\'').Bounded := .one
  have hexponent : Scanner.exponent.Bounded := .andThen .one (.andThen (.optional .one) .run)
  simp only [forms, List.forall_mem_cons, List.not_mem_nil, false_implies, implies_true, and_true,
    Scanner.Bounded.word]
  refine ⟨.andThen .one .span, .orElse (.word _) (.word _), .andThen .one .stringBody,
    .andThen .one (.orElse (.andThen .one hquote) (.orElse
      (.andThen (.word _) (.andThen (.exactly 4) hquote)) (.andThen .one (.andThen .one hquote)))),
    .andThen hminus (.andThen .run hsuffix),
    .andThen hminus (.andThen .one (.andThen .one (.andThen .run hsuffix))),
    .andThen hminus (.andThen .run (.andThen .one (.andThen .run
      (.andThen (.optional hexponent) (.optional .one))))),
    .andThen (.word _) .span, .andThen (.word _) .commentBody, .run, .one⟩

/-- The forms of lexemes that can go on behind the end of a line. -/
def multilineForms : List (TokenKind × Scanner) := [
  (.stringLiteral, Scanner.stringLiteral),
  (.charLiteral, Scanner.charLiteral),
  (.blockComment, Scanner.blockComment),
  (.whitespace, Scanner.whitespace)]

/-- The forms of numbers. -/
def numberForms : List (TokenKind × Scanner) := [
  (.decimalInteger, Scanner.decimalInteger),
  (.hexInteger, Scanner.hexInteger),
  (.floatLiteral, Scanner.floatLiteral)]

lemma endsAt_of_mem_numberForms {d : Char} (hd : d ∈ ['\n', ',', ')', '\x7d']) :
    ∀ form ∈ numberForms, form.2.EndsAt d := by
  have hchars : ∀ d ∈ ['\n', ',', ')', '\x7d'], (d == '-') = false ∧ d.isDigit = false ∧
      isHexDigit d = false ∧ (d == '0') = false ∧ (d == '.') = false ∧
      (d == 'l' || d == 'L') = false ∧ (d == 'x' || d == 'X') = false ∧
      (d == 'e' || d == 'E') = false ∧ (d == '+' || d == '-') = false ∧
      (d == 'f' || d == 'F' || d == 'd' || d == 'D') = false := by
    simp only [List.forall_mem_cons, List.not_mem_nil, false_implies, implies_true]
    decide
  obtain ⟨hhyphen, hdigit, hhex, hzero, hpoint, hlong, hmark, hpower, hsign, htype⟩ := hchars d hd
  have hminus : Scanner.minus.EndsAt d := .optional (.one hhyphen)
  have hsuffix : Scanner.longSuffix.EndsAt d := .optional (.one hlong)
  have hdigits : (Scanner.run Char.isDigit).EndsAt d := .run hdigit
  have hexponent : Scanner.exponent.EndsAt d :=
    .andThen .one (.one hpower) (.andThen (.optional .one) (.optional (.one hsign)) hdigits)
  simp only [numberForms, List.forall_mem_cons, List.not_mem_nil, false_implies, implies_true,
    and_true]
  refine ⟨.andThen (.optional .one) hminus (.andThen .run hdigits hsuffix),
    .andThen (.optional .one) hminus (.andThen .one (.one hzero)
      (.andThen .one (.one hmark) (.andThen .run (.run hhex) hsuffix))),
    .andThen (.optional .one) hminus (.andThen .run hdigits
      (.andThen .one (.one hpoint) (.andThen .run hdigits (.andThen
        (.optional (.andThen .one (.andThen (.optional .one) .run))) (.optional hexponent)
          (.optional (.one htype))))))⟩

lemma endsAtLine_or_mem_multilineForms : ∀ form ∈ forms,
    form.2.EndsAt '\n' ∨ form ∈ multilineForms := by
  have hnumber := @endsAt_of_mem_numberForms '\n' (by decide)
  have hword : ∀ form ∈ wordForms, (Scanner.word form.2).EndsAt '\n' := by
    intro form hform
    have hspelling : ∀ form ∈ wordForms, '\n' ∉ form.2.toList := by decide
    exact .word (hspelling form hform)
  have hothers : ∀ form ∈ [(TokenKind.specialName, Scanner.specialName),
      (.stringLiteral, Scanner.stringLiteral), (.charLiteral, Scanner.charLiteral),
      (.decimalInteger, Scanner.decimalInteger), (.hexInteger, Scanner.hexInteger),
      (.floatLiteral, Scanner.floatLiteral), (.lineComment, Scanner.lineComment),
      (.blockComment, Scanner.blockComment), (.whitespace, Scanner.whitespace),
      (.byteOrderMark, Scanner.byteOrderMark)],
      form.2.EndsAt '\n' ∨ form ∈ multilineForms := by
    simp only [List.forall_mem_cons, List.not_mem_nil, false_implies, implies_true, and_true]
    refine ⟨.inl (.orElse (.word (by decide)) (.word (by decide))), .inr (.head _),
      .inr (.tail _ (.head _)), .inl (hnumber _ (.head _)), .inl (hnumber _ (.tail _ (.head _))),
      .inl (hnumber _ (.tail _ (.tail _ (.head _)))),
      .inl (.andThen (.word _) (.word (by decide)) (.span rfl)), .inr (.tail _ (.tail _ (.head _))),
      .inr (.tail _ (.tail _ (.tail _ (.head _)))), .inl (.one rfl)⟩
  intro form hform
  rw [← List.cons_head_tail (l := forms) (List.cons_ne_nil _ _), forms_tail_eq, List.mem_cons,
    List.mem_append] at hform
  obtain rfl | hform | hform := hform
  · exact .inl (.andThen .one (.one rfl) (.span rfl))
  · exact hothers form hform
  · obtain ⟨word, hmem, rfl⟩ := List.mem_map.1 hform
    exact .inl (hword word hmem)

variable {text : List Char}

lemma longest_congr {text' : List Char} (h : ∀ form ∈ forms, form.2 text' = form.2 text) :
    longest text' = longest text := by
  refine List.foldl_ext _ _ _ fun best form hform => ?_
  rw [better, better, h form hform]

lemma longest_le (h : text ≠ []) : (longest text).2 ≤ text.length := by
  have hfold : ∀ (candidates : List (TokenKind × Scanner)) (best : TokenKind × Nat),
      best.2 ≤ text.length → (∀ form ∈ candidates, form.2.Bounded) →
        (candidates.foldl (better text) best).2 ≤ text.length := by
    intro candidates
    induction candidates with
    | nil => exact fun _ hbest _ => hbest
    | cons form candidates ih =>
      intro best hbest hbounded
      obtain ⟨hform, hbounded⟩ := List.forall_mem_cons.1 hbounded
      refine ih _ ?_ hbounded
      unfold better
      split
      · rename_i length hlength
        split
        · exact hform _ _ hlength
        · exact hbest
      · exact hbest
  exact hfold forms _ (List.length_pos_iff.2 h) forms_bounded

lemma foldl_better_of_none {candidates : List (TokenKind × Scanner)} (best : TokenKind × Nat)
    (h : ∀ form ∈ candidates, form.2 text = none) : candidates.foldl (better text) best = best := by
  induction candidates with
  | nil => rfl
  | cons form candidates ih =>
    obtain ⟨hform, h⟩ := List.forall_mem_cons.1 h
    have hbetter : better text best form = best := by rw [better, hform]
    rw [List.foldl_cons, hbetter, ih h]

lemma longest_of_quote (h : Scanner.charLiteral ('\'' :: text) = none) :
    longest ('\'' :: text) = (.unknown, 1) := by
  apply foldl_better_of_none
  simp only [forms, List.forall_mem_cons, List.not_mem_nil, false_implies, implies_true, and_true]
  refine ⟨rfl, rfl, rfl, h, ?_⟩
  repeat' constructor

lemma next_of_isLayout {c : Char} (h : Scanner.isLayout c = true) :
    next (c :: text) = (.whitespace, ((c :: text).takeWhile Scanner.isLayout).length) := by
  have hwhitespace : Scanner.whitespace (c :: text) =
      some ((c :: text).takeWhile Scanner.isLayout).length := by
    simp [Scanner.whitespace, Scanner.run, Scanner.andThen, Scanner.one, Scanner.span, h,
      Nat.add_comm]
  have hc : c = ' ' ∨ c = '\t' ∨ c = '\n' ∨ c = '\r' := by
    simpa [Scanner.isLayout, or_assoc] using h
  have hbefore : ∀ form ∈ forms.take 9, form.2 (c :: text) = none := by
    simp only [forms, List.take, List.forall_mem_cons, List.not_mem_nil, false_implies,
      implies_true, and_true]
    obtain rfl | rfl | rfl | rfl := hc <;> repeat' constructor
  have hafter : ∀ form ∈ forms.drop 10, form.2 (c :: text) = none := by
    simp only [forms, List.drop, List.forall_mem_cons, List.not_mem_nil, false_implies,
      implies_true, and_true]
    obtain rfl | rfl | rfl | rfl := hc <;> repeat' constructor
  have hlongest : longest (c :: text) =
      (.whitespace, ((c :: text).takeWhile Scanner.isLayout).length) := by
    have hforms : forms = forms.take 9 ++ (.whitespace, Scanner.whitespace) :: forms.drop 10 := rfl
    rw [longest, hforms, List.foldl_append, foldl_better_of_none _ hbefore, List.foldl_cons,
      foldl_better_of_none _ hafter, better]
    simp [hwhitespace, h]
  have hopen : leftOpen (c :: text) = none := by
    obtain rfl | rfl | rfl | rfl := hc <;> rfl
  have hnumber : cutsNumber ((c :: text).take (longest (c :: text)).2)
      ((c :: text).drop (longest (c :: text)).2) = false := by
    have hminus : c ≠ '-' := by
      rintro rfl
      contradiction
    obtain ⟨length, hlength⟩ := Nat.exists_eq_succ_of_ne_zero (longest_pos (c :: text)).ne'
    rw [hlength, List.take_succ_cons, cutsNumber, Bool.and_eq_false_iff]
    left
    simp [hminus]
  rw [next, hopen]
  dsimp only
  rw [hnumber, hlongest]
  rfl

/-! ### A line feed behind a text -/

lemma leftOpen_append (h : leftOpen text = none) (after : List Char) :
    leftOpen (text ++ '\n' :: after) = none := by
  unfold leftOpen at h
  split at h
  · rename_i body
    split at h
    · contradiction
    · rename_i hbody
      obtain ⟨length, hlength⟩ := Option.ne_none_iff_exists'.1 hbody
      have hafter := Scanner.Steady.commentBody _ _ ('\n' :: after) hlength
      simp [leftOpen, hafter]
  · rename_i body
    split at h
    · contradiction
    · rename_i hbody
      obtain ⟨length, hlength⟩ := Option.ne_none_iff_exists'.1 hbody
      have hafter := Scanner.Steady.stringBody _ _ ('\n' :: after) hlength
      simp [leftOpen, hafter]
  · rename_i hcomment hstring
    unfold leftOpen
    split
    · rename_i body heq
      match text, heq with
      | [_], heq => exact absurd (List.cons.inj (List.cons.inj heq).2).1 (by decide)
      | c :: d :: rest, heq =>
        obtain ⟨hc, heq⟩ := List.cons.inj heq
        obtain ⟨hd, -⟩ := List.cons.inj heq
        rw [hc, hd] at hcomment
        exact absurd rfl (hcomment rest)
    · rename_i body heq
      match text, heq with
      | _ :: rest, heq =>
        obtain ⟨rfl, -⟩ := List.cons.inj heq
        exact absurd rfl (hstring rest)
    · rfl

lemma stringLiteral_append (h : leftOpen text = none) (hne : text ≠ []) (after : List Char) :
    Scanner.stringLiteral (text ++ '\n' :: after) = Scanner.stringLiteral text := by
  have hsteady : Scanner.stringLiteral.Steady := .andThen .one .one .stringBody
  cases hfound : Scanner.stringLiteral text with
  | some length => exact hsteady _ _ _ hfound
  | none =>
    obtain ⟨c, rest, rfl⟩ := List.exists_cons_of_ne_nil hne
    by_cases hc : c = '"'
    · subst hc
      have hbody : Scanner.stringBody rest ≠ none := by
        intro hnone
        simp [leftOpen, hnone] at h
      rw [Scanner.stringLiteral, Scanner.andThen_of_some rfl, Option.map_eq_none_iff] at hfound
      exact absurd hfound hbody
    · exact Scanner.andThen_eq_none (Scanner.one_eq_none (beq_eq_false_iff_ne.2 hc))

lemma charLiteral_append (h : leftOpen text = none) (hne : text ≠ [])
    (hknown : (next text).1 ≠ .unknown) (after : List Char) :
    Scanner.charLiteral (text ++ '\n' :: after) = Scanner.charLiteral text := by
  cases hfound : Scanner.charLiteral text with
  | some length => exact Scanner.charLiteral_steady _ _ _ hfound
  | none =>
    obtain ⟨c, rest, rfl⟩ := List.exists_cons_of_ne_nil hne
    by_cases hc : c = '\''
    · subst hc
      rw [next, h, longest_of_quote hfound] at hknown
      exact absurd rfl hknown
    · exact Scanner.andThen_eq_none (Scanner.one_eq_none (beq_eq_false_iff_ne.2 hc))

lemma blockComment_append (h : leftOpen text = none) (after : List Char) :
    Scanner.blockComment (text ++ '\n' :: after) = Scanner.blockComment text := by
  have hsteady : Scanner.blockComment.Steady := .andThen (.word _) (.word _) .commentBody
  cases hfound : Scanner.blockComment text with
  | some length => exact hsteady _ _ _ hfound
  | none =>
    have hword : (Scanner.word "/*").EndsAt '\n' := .word (by decide)
    cases hopening : Scanner.word "/*" text with
    | none => exact Scanner.andThen_eq_none ((hword text after).trans hopening)
    | some length =>
      -- A comment that is opened is closed, or else the text is left open.
      have hspelling := Scanner.take_of_word hopening
      obtain rfl : length = 2 := by
        unfold Scanner.word at hopening
        split at hopening
        · exact (Option.some.inj hopening).symm
        · contradiction
      obtain ⟨body, rfl⟩ : ∃ body, text = '/' :: '*' :: body := by
        refine ⟨text.drop 2, ?_⟩
        conv_lhs => rw [← List.take_append_drop 2 text, hspelling]
        rfl
      have hbody : Scanner.commentBody body ≠ none := by
        intro hnone
        simp [leftOpen, hnone] at h
      rw [Scanner.blockComment, Scanner.andThen_of_some hopening,
        Option.map_eq_none_iff] at hfound
      exact absurd hfound hbody

lemma takeWhile_append_of_exists {isIn : Char → Bool} (h : ∃ c ∈ text, isIn c = false)
    (after : List Char) : (text ++ after).takeWhile isIn = text.takeWhile isIn := by
  rw [List.takeWhile_append, if_neg]
  intro hall
  obtain ⟨c, hmem, hc⟩ := h
  have htext := (List.takeWhile_prefix (l := text) isIn).eq_of_length hall
  rw [← htext] at hmem
  have hin := List.mem_takeWhile_imp hmem
  rw [hc] at hin
  contradiction

lemma whitespace_append (h : ∃ c ∈ text, Scanner.isLayout c = false) (after : List Char) :
    Scanner.whitespace (text ++ after) = Scanner.whitespace text := by
  obtain ⟨c, hmem, hc⟩ := h
  cases text with
  | nil => contradiction
  | cons first rest =>
    cases hfirst : Scanner.isLayout first with
    | false =>
      have hnone : ∀ text, Scanner.whitespace (first :: text) = none :=
        fun _ => Scanner.run_eq_none hfirst
      rw [List.cons_append, hnone, hnone]
    | true =>
      have hrest : c ∈ rest := by
        refine (List.mem_cons.1 hmem).resolve_left ?_
        rintro rfl
        rw [hfirst] at hc
        contradiction
      have hone : ∀ text, Scanner.one Scanner.isLayout (first :: text) = some 1 :=
        fun _ => if_pos hfirst
      rw [Scanner.whitespace, Scanner.run, List.cons_append, Scanner.andThen_of_some (hone _),
        Scanner.andThen_of_some (hone _), List.drop_succ_cons, List.drop_succ_cons, Scanner.span,
        Scanner.span, List.drop_zero, List.drop_zero, takeWhile_append_of_exists ⟨c, hrest, hc⟩]

lemma next_append {after : List Char} (hlayout : ∃ c ∈ text, Scanner.isLayout c = false)
    (hknown : (next text).1 ≠ .unknown) : next (text ++ '\n' :: after) = next text ∧
      (next text).2 ≤ text.length := by
  have hne : text ≠ [] := by
    obtain ⟨c, hc, -⟩ := hlayout
    exact List.ne_nil_of_mem hc
  have hopen : leftOpen text = none := by
    cases hfound : leftOpen text with
    | none => rfl
    | some length =>
      rw [next, hfound] at hknown
      contradiction
  have hlongest : longest (text ++ '\n' :: after) = longest text :=
    longest_congr fun form hform => by
      obtain hends | hmultiline := endsAtLine_or_mem_multilineForms form hform
      · exact hends _ _
      · simp only [multilineForms, List.mem_cons, List.not_mem_nil, or_false] at hmultiline
        obtain rfl | rfl | rfl | rfl := hmultiline
        · exact stringLiteral_append hopen hne _
        · exact charLiteral_append hopen hne hknown _
        · exact blockComment_append hopen _
        · exact whitespace_append hlayout _
  have hle := longest_le hne
  have hword : ∀ kind rest, cutsHyphenatedWord kind (rest ++ '\n' :: after) =
      cutsHyphenatedWord kind rest := by
    intro kind rest
    cases rest with
    | nil => cases kind <;> rfl
    | cons c rest => rfl
  have hnumber : ∀ lexeme rest, cutsNumber lexeme (rest ++ '\n' :: after) =
      cutsNumber lexeme rest := by
    intro lexeme rest
    cases rest with
    | nil => rfl
    | cons c rest => rfl
  constructor
  · rw [next, next, hopen, leftOpen_append hopen, hlongest]
    dsimp only
    rw [List.drop_append_of_le_length hle, List.take_append_of_le_length hle, hword, hnumber]
  · rw [next, hopen]
    dsimp only
    split
    · exact hle
    · split
      · exact hle
      · exact hle

/-! ### Tokens -/

variable {place : Location}

lemma tokensFrom_of_ne_nil (h : text ≠ []) : tokensFrom place text =
    ⟨(next text).1, String.ofList (text.take (next text).2), place⟩ ::
      tokensFrom (place.advance (text.take (next text).2)) (text.drop (next text).2) := by
  obtain ⟨c, rest, rfl⟩ := List.exists_cons_of_ne_nil h
  rw [tokensFrom]

lemma length_drop_next_lt (h : text ≠ []) : (text.drop (next text).2).length < text.length := by
  have hpos := next_pos h
  have hlength := List.length_pos_iff.2 h
  rw [List.length_drop]
  omega

/-- A text has the same tokens wherever it stands. -/
lemma tokensFrom_moved (shift : Shift) (place : Location) (text : List Char) :
    tokensFrom (moved shift place) text = moved shift (tokensFrom place text) := by
  induction hlength : text.length using Nat.strong_induction_on generalizing place text with
  | _ length ih =>
  subst hlength
  by_cases hn : text = []
  · subst hn
    rw [tokensFrom, tokensFrom]
    rfl
  · rw [tokensFrom_of_ne_nil hn, tokensFrom_of_ne_nil hn, ← moved_advance,
      ih _ (length_drop_next_lt hn) _ _ rfl]
    rfl

/-- The tokens that mean something. -/
def significantFrom (place : Location) (text : List Char) : List Token :=
  (tokensFrom place text).filter (!·.kind.isTrivia)

lemma significantFrom_nil : significantFrom place [] = [] := by
  rw [significantFrom, tokensFrom]
  rfl

lemma significantFrom_layout (place : Location) (text : List Char) :
    significantFrom place text = significantFrom (place.advance (text.takeWhile Scanner.isLayout))
      (text.dropWhile Scanner.isLayout) := by
  cases text with
  | nil => rfl
  | cons c rest =>
    cases hc : Scanner.isLayout c with
    | false =>
      rw [List.takeWhile_cons_of_neg (by simp [hc]), List.dropWhile_cons_of_neg (by simp [hc]),
        Location.advance_nil]
    | true =>
      have hnext : next (c :: rest) = _ := next_of_isLayout hc
      have htake : (c :: rest).take (next (c :: rest)).2 =
          (c :: rest).takeWhile Scanner.isLayout := by
        rw [hnext]
        exact (List.prefix_iff_eq_take.1 (List.takeWhile_prefix _)).symm
      have hdrop : (c :: rest).drop (next (c :: rest)).2 =
          (c :: rest).dropWhile Scanner.isLayout := by
        have hdropped := List.take_append_drop (next (c :: rest)).2 (c :: rest)
        rw [htake] at hdropped
        exact List.append_cancel_left (hdropped.trans List.takeWhile_append_dropWhile.symm)
      rw [significantFrom, tokensFrom_of_ne_nil (List.cons_ne_nil c rest),
        List.filter_cons_of_neg (by simp [hnext, TokenKind.isTrivia]), htake, hdrop]
      rfl

/-- Behind a text of known tokens and a line feed, a text has the tokens that it has alone. -/
lemma significantFrom_append (first second : List Char)
    (h : ∀ token ∈ significantFrom place first, token.kind ≠ .unknown) :
    significantFrom place (first ++ '\n' :: second) = significantFrom place first ++
      significantFrom (place.advance (first ++ ['\n'])) second := by
  induction hlength : first.length using Nat.strong_induction_on generalizing place first with
  | _ length ih =>
  subst hlength
  by_cases hlayout : ∃ c ∈ first, Scanner.isLayout c = false
  · have hn : first ≠ [] := by
      obtain ⟨c, hc, -⟩ := hlayout
      exact List.ne_nil_of_mem hc
    have hkept : significantFrom place first =
        [Token.mk (next first).1 (String.ofList (first.take (next first).2)) place].filter
          (!·.kind.isTrivia) ++ significantFrom (place.advance (first.take (next first).2))
            (first.drop (next first).2) := by
      rw [significantFrom, tokensFrom_of_ne_nil hn, ← List.singleton_append, List.filter_append]
      rfl
    have hknown : (next first).1 ≠ .unknown := by
      intro hunknown
      refine h ⟨(next first).1, String.ofList (first.take (next first).2), place⟩ ?_ hunknown
      rw [hkept]
      refine List.mem_append_left _ (List.mem_filter.2 ⟨List.mem_singleton_self _, ?_⟩)
      rw [hunknown]
      rfl
    obtain ⟨hsame, hle⟩ : next (first ++ '\n' :: second) = next first ∧ _ :=
      next_append hlayout hknown
    have hrest := ih _ (length_drop_next_lt hn) _ (fun token htoken => by
      rw [hkept] at h
      exact h token (List.mem_append_right _ htoken)) rfl
    have hplace : (place.advance (first.take (next first).2)).advance
        (first.drop (next first).2 ++ ['\n']) = place.advance (first ++ ['\n']) := by
      rw [← Location.advance_append, ← List.append_assoc, List.take_append_drop]
    rw [hplace] at hrest
    rw [hkept, List.append_assoc, ← hrest, significantFrom,
      tokensFrom_of_ne_nil (List.append_ne_nil_of_left_ne_nil hn _), hsame,
      List.take_append_of_le_length hle, List.drop_append_of_le_length hle,
      ← List.singleton_append, List.filter_append]
    rfl
  · -- What is left of the text is layout, which the line feed continues.
    have hall : ∀ c ∈ first, Scanner.isLayout c = true := by
      simpa using hlayout
    have hnone : significantFrom place first = [] := by
      rw [significantFrom_layout, List.dropWhile_eq_nil_iff.2 hall, significantFrom_nil]
    rw [hnone, List.nil_append, significantFrom_layout place (first ++ _),
      significantFrom_layout _ second, List.takeWhile_append_of_pos hall,
      List.dropWhile_append_of_pos hall, List.takeWhile_cons_of_pos (by decide),
      List.dropWhile_cons_of_pos (by decide), ← Location.advance_append, List.append_assoc]
    rfl

end Lexer

/-- **The seam.** A text whose tokens are all known and the text on the line after it have
together the tokens that each has alone. -/
theorem significantTokens_append {first second : String}
    (h : ∀ token ∈ significantTokens first, token.kind ≠ .unknown) :
    significantTokens (first ++ "\n" ++ second) = significantTokens first ++
      moved (Shift.past (first ++ "\n")) (significantTokens second) := by
  have hjoined : (first ++ "\n" ++ second).toList = first.toList ++ '\n' :: second.toList := by
    rw [String.toList_append, String.toList_append, List.append_assoc]
    rfl
  have hplace : Location.start.advance (first.toList ++ ['\n']) =
      moved (Shift.past (first ++ "\n")) Location.start := by
    rw [← advance_eq_moved_past, String.toList_append]
    rfl
  change (Lexer.tokensFrom _ _).filter _ = _
  rw [hjoined]
  change Lexer.significantFrom _ _ = _
  rw [Lexer.significantFrom_append _ _ h, hplace]
  refine congrArg (significantTokens first ++ ·) ?_
  rw [Lexer.significantFrom, Lexer.tokensFrom_moved]
  exact List.filter_map

end ExternalAnnotations
