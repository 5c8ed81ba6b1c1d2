import ExternalAnnotations.Proofs.Token.Seam
import ExternalAnnotations.Proofs.Token.Patterns

/-!
# Scanners find patterns

A scanner `Finds` a language if it takes the longest word of it at the start of every text. Scanners
are put together as their languages are, so long as the first part knows where to end (`Delimits`),
and so every form of lexemes finds its pattern.
-/

namespace ExternalAnnotations

open scoped Computability

namespace Scanner

open Pattern

/-- A scanner takes the longest word of a language that is at the start of a text. -/
structure Finds (scan : Scanner) (l : Language Char) : Prop where
  sound : ∀ {text length}, scan text = some length → text.take length ∈ l ∧ length ≤ text.length
  longest : ∀ {word}, word ∈ l → ∀ rest, ∃ length, scan (word ++ rest) = some length ∧
    word.length ≤ length

/-- No character with which a word of the first language goes on begins a word of the second. -/
def Delimits (l m : Language Char) : Prop :=
  ∀ word c rest next, word ∈ l → word ++ c :: rest ∈ l → c :: next ∉ m

namespace Delimits

variable {l m : Language Char} {p : Char → Prop}

lemma of_length {length : Nat} (h : ∀ word ∈ l, word.length = length) : Delimits l m := by
  intro word c rest next hword hlonger
  have hlength := h _ hlonger
  rw [List.length_append, h _ hword, List.length_cons] at hlength
  omega

lemma of_madeOf (hl : MadeOf l p) (hm : BeginsWith m fun c => ¬ p c) : Delimits l m :=
  fun _ c _ next _ hlonger hnext => hm c next hnext (hl _ hlonger c (by simp))

end Delimits

namespace Finds

variable {scan first second : Scanner} {l m : Language Char} {isIn : Char → Bool} {p : Char → Prop}

lemma of_eq (h : scan.Finds l) (heq : l = m) : scan.Finds m := heq ▸ h

lemma one (h : ∀ c, isIn c = true ↔ p c) : (one isIn).Finds (oneOf p) where
  sound := by
    intro text length hscan
    obtain ⟨c, rest, rfl, hc, rfl⟩ := one_eq_some hscan
    exact ⟨⟨c, (h c).1 hc, rfl⟩, Nat.le_add_left 1 _⟩
  longest := by
    rintro _ ⟨c, hc, rfl⟩ rest
    exact ⟨1, if_pos ((h c).2 hc), le_rfl⟩

lemma char {c : Char} {text : String} (h : text.toList = [c]) : (char c).Finds (spelling text) :=
  (one fun _ => beq_iff_eq).of_eq (spelling_eq_oneOf h).symm

lemma word (text : String) : (word text).Finds (spelling text) where
  sound := by
    intro text' length hscan
    exact ⟨take_of_word hscan, Bounded.word text _ _ hscan⟩
  longest := by
    rintro _ rfl rest
    have hprefix : text.toList.isPrefixOf (text.toList ++ rest) = true :=
      List.isPrefixOf_iff_prefix.2 (List.prefix_append _ _)
    exact ⟨text.length, if_pos hprefix, le_of_eq String.length_toList⟩

lemma span (h : ∀ c, isIn c = true ↔ p c) : (span isIn).Finds (oneOf p)∗ where
  sound := by
    intro text length hscan
    obtain rfl := Option.some.inj hscan
    have htake : text.take (text.takeWhile isIn).length = text.takeWhile isIn :=
      (List.prefix_iff_eq_take.1 (List.takeWhile_prefix isIn)).symm
    refine ⟨?_, (List.takeWhile_prefix isIn).length_le⟩
    rw [htake]
    refine Language.mem_kstar.2 ⟨(text.takeWhile isIn).map fun c => [c], ?_, ?_⟩
    · simp [← List.flatMap_def]
    · intro single hsingle
      obtain ⟨c, hc, rfl⟩ := List.mem_map.1 hsingle
      exact ⟨c, (h c).1 (List.mem_takeWhile_imp hc), rfl⟩
  longest := by
    intro word hword rest
    have hall : ∀ c ∈ word, isIn c = true := fun c hc =>
      (h c).2 ((MadeOf.oneOf fun _ => id).kstar word hword c hc)
    refine ⟨_, rfl, ?_⟩
    rw [List.takeWhile_append_of_pos hall, List.length_append]
    exact Nat.le_add_right _ _

lemma andThen (hfirst : first.Finds l) (hsecond : second.Finds m) (h : Delimits l m) :
    (first.andThen second).Finds (l * m) where
  sound := by
    intro text length hscan
    obtain ⟨taken, more, htaken, hmore, rfl⟩ := andThen_eq_some hscan
    obtain ⟨htake, hle⟩ := hfirst.sound htaken
    obtain ⟨hnext, hle'⟩ := hsecond.sound hmore
    refine ⟨?_, ?_⟩
    · rw [List.take_add]
      exact Language.mem_mul.2 ⟨_, htake, _, hnext, rfl⟩
    · rw [List.length_drop] at hle'
      omega
  longest := by
    intro word hword rest
    obtain ⟨u, hu, v, hv, rfl⟩ := Language.mem_mul.1 hword
    rw [List.append_assoc]
    obtain ⟨taken, htaken, hle⟩ := hfirst.longest hu (v ++ rest)
    rw [andThen_of_some htaken]
    rcases Nat.lt_or_eq_of_le hle with hlt | rfl
    · -- The first language has a longer word, so the second one gave the empty word.
      obtain ⟨htake, hbound⟩ := hfirst.sound htaken
      obtain ⟨more, hmore⟩ := Nat.exists_eq_add_of_lt hlt
      rw [hmore, Nat.add_assoc, List.take_append, List.take_of_length_le (by omega)] at htake
      have hv : v = [] := by
        cases v with
        | nil => rfl
        | cons c v =>
          rw [Nat.add_sub_cancel_left, List.cons_append, List.take_succ_cons] at htake
          exact absurd hv (h u c _ v hu htake)
      subst hv
      obtain ⟨length, hlength, -⟩ := hsecond.longest hv (List.drop taken (u ++ rest))
      rw [List.nil_append] at hlength ⊢
      rw [hlength]
      refine ⟨_, rfl, ?_⟩
      rw [List.append_nil]
      exact hle.trans (Nat.le_add_right _ _)
    · rw [List.drop_left]
      obtain ⟨length, hlength, hle⟩ := hsecond.longest hv rest
      rw [hlength]
      refine ⟨_, rfl, ?_⟩
      rw [List.length_append]
      exact Nat.add_le_add_left hle _

lemma run (h : ∀ c, isIn c = true ↔ p c) : (run isIn).Finds (plus (oneOf p)) :=
  (one h).andThen (span h) (.of_length fun _ => length_of_mem_oneOf)

lemma optional (h : scan.Finds l) : (optional scan).Finds (opt l) where
  sound := by
    intro text length hscan
    obtain rfl := Option.some.inj hscan
    cases hfound : scan text with
    | none => exact ⟨.inl rfl, Nat.zero_le _⟩
    | some length =>
      obtain ⟨hmem, hle⟩ := h.sound hfound
      exact ⟨.inr hmem, hle⟩
  longest := by
    rintro word (hword | hword) rest
    · obtain rfl := (Language.mem_one word).1 hword
      exact ⟨_, rfl, Nat.zero_le _⟩
    · obtain ⟨length, hlength, hle⟩ := h.longest hword rest
      refine ⟨length, ?_, hle⟩
      rw [Scanner.optional, hlength]
      rfl

lemma orElse (hfirst : first.Finds l) (hsecond : second.Finds m)
    (h : ∀ word ∈ m, ∀ rest, first (word ++ rest) = none) :
    (orElse first second).Finds (l + m) where
  sound := by
    intro text length hscan
    unfold Scanner.orElse at hscan
    cases hfound : first text with
    | none =>
      rw [hfound] at hscan
      obtain ⟨hmem, hle⟩ := hsecond.sound hscan
      exact ⟨.inr hmem, hle⟩
    | some taken =>
      rw [hfound] at hscan
      obtain rfl := Option.some.inj hscan
      obtain ⟨hmem, hle⟩ := hfirst.sound hfound
      exact ⟨.inl hmem, hle⟩
  longest := by
    rintro word (hword | hword) rest
    · obtain ⟨length, hlength, hle⟩ := hfirst.longest hword rest
      refine ⟨length, ?_, hle⟩
      rw [Scanner.orElse, hlength]
      rfl
    · rw [Scanner.orElse, h word hword rest]
      exact hsecond.longest hword rest

lemma exactly (h : ∀ c, isIn c = true ↔ p c) (count : Nat) :
    (exactly isIn count).Finds (oneOf p ^ count) := by
  induction count with
  | zero =>
    rw [pow_zero]
    refine ⟨fun hscan => ?_, fun hword rest => ?_⟩
    · obtain rfl := Option.some.inj hscan
      exact ⟨rfl, Nat.zero_le _⟩
    · obtain rfl := (Language.mem_one _).1 hword
      exact ⟨0, rfl, le_rfl⟩
  | succ count ih =>
    rw [pow_succ']
    exact (one h).andThen ih (.of_length fun _ => length_of_mem_oneOf)

lemma of_iff (h : ∀ text length, scan text = some length ↔
    length ≤ text.length ∧ text.take length ∈ l) : scan.Finds l where
  sound := fun hscan => ((h _ _).1 hscan).symm
  longest := by
    intro word hword rest
    refine ⟨word.length, (h _ _).2 ⟨?_, ?_⟩, le_rfl⟩
    · exact List.length_append ▸ Nat.le_add_right _ _
    · rwa [List.take_left]

end Finds

/-! ### Strings and comments -/

lemma stringBody_eq_some_iff (text : List Char) (length : Nat) : stringBody text = some length ↔
    length ≤ text.length ∧ text.take length ∈ Pattern.stringBody * spelling "\"" := by
  have hquote : ∀ c word, c :: word ∈ spelling "\"" ↔ c = '"' ∧ word = [] :=
    fun c word => List.cons_eq_cons
  have hempty : [] ∉ Pattern.stringBody * spelling "\"" :=
    nil_notMem_mul (nil_notMem_spelling (by decide))
  fun_induction stringBody text generalizing length with
  | case1 => simp [hempty]
  | case2 rest =>
    cases length with
    | zero => simp [hempty]
    | succ length =>
      rw [List.take_succ_cons, cons_mem_stringBody_mul, hquote]
      have hshort : length = 0 ↔ length ≤ rest.length ∧ (length = 0 ∨ rest = []) := by
        cases rest <;> simp +contextual
      simpa [eq_comm (a := 0)] using hshort
  | case3 rest =>
    cases length with
    | zero => simp [hempty]
    | succ length =>
      rw [List.take_succ_cons, cons_mem_stringBody_mul, hquote]
      cases length <;> simp
  | case4 c rest hc ih =>
    cases length with
    | zero => simp [hempty]
    | succ length =>
      rw [List.take_succ_cons, cons_mem_stringBody_mul, hquote]
      cases length with
      | zero => simp
      | succ length => simp [ih, hc]
  | case5 c rest hc hescape ih =>
    cases length with
    | zero => simp [hempty]
    | succ length =>
      rw [List.take_succ_cons, cons_mem_stringBody_mul, hquote]
      by_cases hbackslash : c = '\\'
      · -- A backslash at the end takes nothing with it.
        have hrest : rest = [] := by
          cases rest with
          | nil => rfl
          | cons d rest => exact (hescape d rest hbackslash rfl).elim
        subst hbackslash hrest
        simp [Scanner.stringBody, hempty]
      · have hc : c ≠ '"' := hc
        simp [ih, hc, hbackslash]

lemma commentBody_eq_some_iff (text : List Char) :
    (∀ length, commentBody text = some length ↔
      length ≤ text.length ∧ text.take length ∈ Pattern.commentBody) ∧
    ∀ length, commentBody ('*' :: text) = some (length + 1) ↔
      length ≤ text.length ∧ text.take length ∈ afterStar := by
  have hzero : ∀ text, commentBody text ≠ some 0 := by
    intro text
    fun_cases commentBody text <;> simp
  induction text with
  | nil => simp [commentBody, nil_notMem_commentBody, nil_notMem_afterStar]
  | cons c text ih =>
    obtain ⟨hinside, hafter⟩ := ih
    have hcomment : ∀ length, commentBody (c :: text) = some length ↔
        length ≤ (c :: text).length ∧ (c :: text).take length ∈ Pattern.commentBody := by
      rintro (_ | length)
      · simp [hzero, nil_notMem_commentBody]
      · rw [List.take_succ_cons, cons_mem_commentBody]
        by_cases hc : c = '*'
        · subst hc
          simp [hafter]
        · have hskip : commentBody (c :: text) = (commentBody text).map (· + 1) := by
            rw [commentBody.eq_3 _ _ fun _ hstar => absurd hstar hc]
          simp [hskip, hinside, hc]
    refine ⟨hcomment, fun length => ?_⟩
    by_cases hslash : c = '/'
    · subst hslash
      cases length with
      | zero => simp [commentBody, nil_notMem_afterStar]
      | succ length =>
        rw [List.take_succ_cons, cons_mem_afterStar]
        have hshort : length = 0 ↔ length ≤ text.length ∧ (length = 0 ∨ text = []) := by
          cases text <;> simp +contextual
        simpa [commentBody, eq_comm (a := 0)] using hshort
    · have hskip : commentBody ('*' :: c :: text) = (commentBody (c :: text)).map (· + 1) := by
        rw [commentBody.eq_3 _ _ fun _ _ hrest => hslash (List.cons.inj hrest).1]
      have hsame : commentBody ('*' :: c :: text) = some (length + 1) ↔
          commentBody (c :: text) = some length := by
        simp [hskip]
      rw [hsame, hcomment]
      cases length with
      | zero => simp [nil_notMem_commentBody, nil_notMem_afterStar]
      | succ length =>
        rw [List.take_succ_cons, cons_mem_commentBody, cons_mem_afterStar]
        simp [hslash, or_comm]

lemma Finds.stringLiteral : Scanner.stringLiteral.Finds (pattern .stringLiteral) :=
  ((Finds.char rfl).andThen (.of_iff stringBody_eq_some_iff)
    (.of_length fun _ h => congrArg List.length h)).of_eq (mul_assoc _ _ _).symm

lemma Finds.blockComment : Scanner.blockComment.Finds (pattern .blockComment) :=
  ((Finds.word "/*").andThen (.of_iff fun text => (commentBody_eq_some_iff text).1)
    (.of_length fun _ h => congrArg List.length h)).of_eq (by
      simp only [pattern, Pattern.commentBody, mul_assoc])

/-! ### Characters -/

lemma isDigit_iff (c : Char) : c.isDigit = true ↔ isDecimal c := by
  simp [Char.isDigit, isDecimal, between, Char.le_def]

lemma isHexDigit_iff (c : Char) : isHexDigit c = true ↔ isHexadecimal c := by
  simp [isHexDigit, isHexadecimal, isDigit_iff, between, or_assoc]

lemma isIdentifierStart_iff (c : Char) : isIdentifierStart c = true ↔ startsName c := by
  unfold isIdentifierStart Char.isAlpha Char.isUpper Char.isLower
  simp [startsName, between, Char.le_def]
  tauto

lemma isLayout_iff (c : Char) : isLayout c = true ↔ isSpacing c := by
  simp [isLayout, isSpacing, or_assoc]

/-! ### Names and numbers -/

lemma length_of_mem_spelling {text : String} {word : List Char} (h : word ∈ spelling text) :
    word.length = text.length :=
  (congrArg List.length h).trans String.length_toList

lemma Finds.identifier : Scanner.identifier.Finds (pattern .identifier) :=
  (one isIdentifierStart_iff).andThen (span fun c => by
    rw [Bool.or_eq_true, isIdentifierStart_iff, isDigit_iff, continuesName])
    (.of_length fun _ => length_of_mem_oneOf)

lemma Finds.specialName : Scanner.specialName.Finds (pattern .specialName) := by
  refine (orElse (word "<init>") (word "<clinit>") ?_).of_eq ?_
  · rintro _ rfl rest
    rfl
  · rw [pattern, opt, mul_add, add_mul, mul_one, ← spelling_append, ← spelling_append,
      ← spelling_append]
    rfl

lemma Finds.whitespace : Scanner.whitespace.Finds (pattern .whitespace) := run isLayout_iff

lemma Finds.lineComment : Scanner.lineComment.Finds (pattern .lineComment) :=
  (word "//").andThen (span fun _ => bne_iff_ne) (.of_length fun _ => length_of_mem_spelling)

lemma Finds.minus : Scanner.minus.Finds sign := (char rfl).optional

lemma Finds.either (c d : Char) :
    (Scanner.one fun e => e == c || e == d).Finds (oneOf fun e => e = c ∨ e = d) :=
  one fun e => by rw [Bool.or_eq_true, beq_iff_eq, beq_iff_eq]

lemma Finds.longSuffix : Scanner.longSuffix.Finds Pattern.longSuffix := (either 'l' 'L').optional

lemma Delimits.sign {m : Language Char} (h : BeginsWith m (· ≠ '-')) : Delimits sign m :=
  .of_madeOf (p := (· = '-')) (MadeOf.spelling (by decide)).opt h

lemma ne_of_isDecimal {c d : Char} (hd : ¬ isDecimal d) (hc : isDecimal c) : c ≠ d := by
  rintro rfl
  exact hd hc

lemma Delimits.digits {m : Language Char} (h : BeginsWith m (¬ isDecimal ·)) :
    Delimits (plus (oneOf isDecimal)) m :=
  .of_madeOf (MadeOf.oneOf fun _ => id).plus h

lemma beginsWith_digits {m : Language Char} {p : Char → Prop} (h : ∀ c, isDecimal c → p c) :
    BeginsWith (plus (oneOf isDecimal) * m) p :=
  ((BeginsWith.oneOf h).mul nil_notMem_oneOf).mul nil_notMem_oneOf_mul

lemma beginsWith_longSuffix {p : Char → Prop} (hlower : p 'l') (hupper : p 'L') :
    BeginsWith Pattern.longSuffix p := by
  refine (BeginsWith.oneOf fun c hc => ?_).opt
  rcases hc with rfl | rfl
  · exact hlower
  · exact hupper

lemma Finds.digits : (Scanner.run Char.isDigit).Finds (plus (oneOf isDecimal)) := run isDigit_iff

lemma Finds.decimalInteger : Scanner.decimalInteger.Finds (pattern .decimalInteger) := by
  have hdigits :=
    digits.andThen longSuffix (.digits (beginsWith_longSuffix (by decide) (by decide)))
  refine (minus.andThen hdigits (.sign ?_)).of_eq (mul_assoc _ _ _).symm
  exact beginsWith_digits fun _ => ne_of_isDecimal (by decide)

lemma Finds.hexInteger : Scanner.hexInteger.Finds (pattern .hexInteger) := by
  have hdigits := (run isHexDigit_iff).andThen longSuffix
    (.of_madeOf (MadeOf.oneOf fun _ => id).plus (beginsWith_longSuffix (by decide) (by decide)))
  have hx := (either 'x' 'X').andThen hdigits (.of_length fun _ => length_of_mem_oneOf)
  have hzero : (Scanner.char '0').Finds (spelling "0") := char rfl
  refine (minus.andThen (hzero.andThen hx (.of_length fun _ => length_of_mem_spelling))
    (.sign ?_)).of_eq ?_
  · exact (BeginsWith.spelling (by decide)).mul (nil_notMem_spelling (by decide))
  · simp only [pattern, mul_assoc]

lemma Finds.exponent : Scanner.exponent.Finds Pattern.exponent := by
  have hdigits := (either '+' '-').optional.andThen digits
    (.of_madeOf (MadeOf.oneOf fun _ => id).opt
      ((BeginsWith.oneOf fun c hc => ?_).mul nil_notMem_oneOf))
  · refine ((either 'e' 'E').andThen hdigits (.of_length fun _ => length_of_mem_oneOf)).of_eq ?_
    rw [Pattern.exponent, mul_assoc]
  · rintro (rfl | rfl) <;> exact absurd hc (by decide)

lemma Finds.floatLiteral : Scanner.floatLiteral.Finds (pattern .floatLiteral) := by
  have hsuffix : (Scanner.one fun c => c == 'f' || c == 'F' || c == 'd' || c == 'D').Finds
      (oneOf fun c => c = 'f' ∨ c = 'F' ∨ c = 'd' ∨ c = 'D') :=
    one fun c => by simp [or_assoc]
  -- An exponent has no letter of a suffix in it, and neither of them begins with a digit.
  have hend := exponent.optional.andThen hsuffix.optional (.of_madeOf (p := fun c =>
      c ≠ 'f' ∧ c ≠ 'F' ∧ c ≠ 'd' ∧ c ≠ 'D') ?_ ?_)
  · have hfraction := digits.andThen hend (.digits (BeginsWith.mul_of_empty ?_ ?_))
    · have hpoint : (Scanner.char '.').Finds (spelling ".") := char rfl
      have hwhole := digits.andThen (hpoint.andThen hfraction
        (.of_length fun _ => length_of_mem_spelling)) (.digits
        ((BeginsWith.spelling (by decide)).mul (nil_notMem_spelling (by decide))))
      refine (minus.andThen hwhole (.sign ?_)).of_eq ?_
      · exact beginsWith_digits fun _ => ne_of_isDecimal (by decide)
      · simp only [pattern, mul_assoc]
    · refine (((BeginsWith.oneOf ?_).mul nil_notMem_oneOf).mul nil_notMem_oneOf_mul).opt
      rintro _ (rfl | rfl) <;> decide
    · refine (BeginsWith.oneOf ?_).opt
      rintro _ (rfl | rfl | rfl | rfl) <;> decide
  · have hdigit : ∀ c, isDecimal c → c ≠ 'f' ∧ c ≠ 'F' ∧ c ≠ 'd' ∧ c ≠ 'D' := by
      rintro c hc
      refine ⟨?_, ?_, ?_, ?_⟩ <;> exact ne_of_isDecimal (by decide) hc
    refine (((MadeOf.oneOf ?_).mul (MadeOf.oneOf ?_).opt).mul (MadeOf.oneOf hdigit).plus).opt
    all_goals rintro _ (rfl | rfl) <;> decide
  · refine (BeginsWith.oneOf ?_).opt
    rintro _ (rfl | rfl | rfl | rfl) <;> decide

lemma Finds.charLiteral : Scanner.charLiteral.Finds (pattern .charLiteral) := by
  have hquote : (Scanner.char '\'').Finds (spelling "'") := char rfl
  have hone {isIn : Char → Prop} : Delimits (oneOf isIn) (spelling "'") :=
    .of_length fun _ => length_of_mem_oneOf
  have hplain : (Scanner.one fun c => c != '\'' && c != '\\').Finds
      (oneOf fun c => c ≠ '\'' ∧ c ≠ '\\') := one fun c => by simp
  have hunicode := (word "\\u").andThen (((exactly isHexDigit_iff 4)).andThen hquote
    (.of_length fun _ => length_of_mem_pow 4)) (.of_length fun _ => length_of_mem_spelling)
  have hbackslash : (Scanner.char '\\').Finds (spelling "\\") := char rfl
  have hescape :=
    hbackslash.andThen ((one (p := (· ≠ '\n')) fun _ => bne_iff_ne).andThen hquote hone)
    (.of_length fun _ => length_of_mem_spelling)
  refine (hquote.andThen ((hplain.andThen hquote hone).orElse (hunicode.orElse hescape ?_) ?_)
    (.of_length fun _ => length_of_mem_spelling)).of_eq ?_
  · -- After `\u` there is the quote where four digits should be.
    intro word hword rest
    obtain ⟨_, rfl, _, hescaped, rfl⟩ := Language.mem_mul.1 hword
    obtain ⟨_, ⟨d, -, rfl⟩, _, rfl, rfl⟩ := Language.mem_mul.1 hescaped
    by_cases hd : d = 'u'
    · subst hd
      rfl
    · have hword : Scanner.word "\\u" ('\\' :: d :: '\'' :: rest) = none := by
        simp [Scanner.word, Ne.symm hd]
      exact andThen_eq_none hword
  · rintro word (hword | hword) rest
    all_goals
      obtain ⟨_, rfl, _, -, rfl⟩ := Language.mem_mul.1 hword
      exact andThen_eq_none rfl
  · simp only [pattern, unicodeEscape, shortEscape, add_mul, mul_add, mul_assoc, add_assoc]

end Scanner

namespace Lexer

/-- The forms of lexemes that are not words. -/
def variedForms : List (TokenKind × Scanner) := [
  (.identifier, Scanner.identifier),
  (.specialName, Scanner.specialName),
  (.stringLiteral, Scanner.stringLiteral),
  (.charLiteral, Scanner.charLiteral),
  (.decimalInteger, Scanner.decimalInteger),
  (.hexInteger, Scanner.hexInteger),
  (.floatLiteral, Scanner.floatLiteral),
  (.lineComment, Scanner.lineComment),
  (.blockComment, Scanner.blockComment),
  (.whitespace, Scanner.whitespace),
  (.byteOrderMark, Scanner.byteOrderMark)]

lemma forms_eq :
    forms = variedForms ++ wordForms.map fun form => (form.1, Scanner.word form.2) := rfl

lemma pattern_of_mem_wordForms : ∀ form ∈ wordForms, pattern form.1 = Pattern.spelling form.2 := by
  simp only [wordForms, List.forall_mem_cons, pattern, List.not_mem_nil, false_implies,
    implies_true, and_true]

lemma forms_find : ∀ form ∈ forms, form.2.Finds (pattern form.1) := by
  rw [forms_eq, List.forall_mem_append]
  constructor
  · simp only [variedForms, List.forall_mem_cons, List.not_mem_nil, false_implies, implies_true,
      and_true]
    exact ⟨.identifier, .specialName, .stringLiteral, .charLiteral, .decimalInteger, .hexInteger,
      .floatLiteral, .lineComment, .blockComment, .whitespace, .char rfl⟩
  · rw [List.forall_mem_map]
    exact fun form hform =>
      (Scanner.Finds.word form.2).of_eq (pattern_of_mem_wordForms form hform).symm

end Lexer

end ExternalAnnotations
