import ExternalAnnotations.Proofs.Token.Finding

/-!
# Where patterns overlap

Keywords are identifiers too. Otherwise the first character of a lexeme, the second one of a
comment or the letters and the point in a number leave one kind for it.
-/

namespace ExternalAnnotations

open scoped Computability

namespace Pattern

variable {l m : Language Char} {p : Char → Prop} {word : List Char}

/-! ### The first character -/

/-- The kind of lexemes that begin with a character, where several kinds do one of them. -/
def lead (c : Char) : TokenKind :=
  if startsName c then .identifier
  else if c = '-' ∨ isDecimal c then .decimalInteger
  else if isSpacing c then .whitespace
  else if c = '/' then .lineComment
  else if c = '<' then .specialName
  else if c = '"' then .stringLiteral
  else if c = '\'' then .charLiteral
  else if c = '\uFEFF' then .byteOrderMark
  else .unknown

/-- The kind that stands for all that begin alike. -/
def family : TokenKind → TokenKind
  | .hexInteger | .floatLiteral => .decimalInteger
  | .blockComment => .lineComment
  | kind => kind

lemma lead_of_isDecimal {c : Char} (hc : isDecimal c) : lead c = .decimalInteger := by
  have hname : ¬ startsName c := by
    rw [← Scanner.isIdentifierStart_iff]
    intro hname
    have hdigit := Scanner.isDigit_of_start hname
    rw [(Scanner.isDigit_iff c).2 hc] at hdigit
    contradiction
  rw [lead, if_neg hname, if_pos (.inr hc)]

lemma sign_beginsWith : BeginsWith sign (lead · = .decimalInteger) :=
  (BeginsWith.spelling (by decide)).opt

lemma spelling_mul_beginsWith {text : String} (hn : text ≠ "") (h : (text.toList.take 1).Forall p) :
    BeginsWith (spelling text * l) p :=
  (BeginsWith.spelling h).mul (nil_notMem_spelling hn)

open Lexer in
lemma beginsWith_family : ∀ form ∈ variedForms,
    BeginsWith (pattern form.1) (lead · = family form.1) := by
  have hdigits : BeginsWith (plus (oneOf isDecimal)) (lead · = .decimalInteger) :=
    (BeginsWith.oneOf fun _ => lead_of_isDecimal).mul nil_notMem_oneOf
  simp only [variedForms, List.forall_mem_cons, List.not_mem_nil, false_implies, implies_true,
    and_true]
  refine ⟨(BeginsWith.oneOf fun c hc => if_pos hc).mul nil_notMem_oneOf, ?_, ?_, ?_, ?_, ?_, ?_, ?_,
    ?_, ?_, ?_⟩
  all_goals simp only [pattern, mul_assoc]
  · exact spelling_mul_beginsWith (by decide) (by decide)
  · exact spelling_mul_beginsWith (by decide) (by decide)
  · exact spelling_mul_beginsWith (by decide) (by decide)
  · exact sign_beginsWith.mul_of_empty (hdigits.mul nil_notMem_oneOf_mul)
  · exact sign_beginsWith.mul_of_empty (spelling_mul_beginsWith (by decide) (by decide))
  · exact sign_beginsWith.mul_of_empty (hdigits.mul nil_notMem_oneOf_mul)
  · exact spelling_mul_beginsWith (by decide) (by decide)
  · exact spelling_mul_beginsWith (by decide) (by decide)
  · refine BeginsWith.mul (.oneOf ?_) nil_notMem_oneOf
    rintro _ (rfl | rfl | rfl | rfl) <;> decide
  · exact BeginsWith.spelling (by decide)

/-! ### Numbers -/

/-- Every word of a language has a character of a class. -/
def Has (l : Language Char) (p : Char → Prop) : Prop := ∀ word ∈ l, ∃ c ∈ word, p c

namespace Has

lemma oneOf : Has (oneOf p) p := by
  rintro _ ⟨c, hc, rfl⟩
  exact ⟨c, List.mem_singleton_self c, hc⟩

lemma mul_left (h : Has l p) : Has (l * m) p := by
  intro word hword
  obtain ⟨first, hfirst, second, -, rfl⟩ := Language.mem_mul.1 hword
  obtain ⟨c, hc, hp⟩ := h first hfirst
  exact ⟨c, List.mem_append_left _ hc, hp⟩

lemma mul_right (h : Has m p) : Has (l * m) p := by
  intro word hword
  obtain ⟨first, -, second, hsecond, rfl⟩ := Language.mem_mul.1 hword
  obtain ⟨c, hc, hp⟩ := h second hsecond
  exact ⟨c, List.mem_append_right _ hc, hp⟩

end Has

/-- The `x` of hexadecimal digits. -/
def isHexMark (c : Char) : Prop := c = 'x' ∨ c = 'X'

instance : DecidablePred isHexMark := fun c => inferInstanceAs (Decidable (c = 'x' ∨ c = 'X'))

lemma not_isHexMark_of_isDecimal {c : Char} (hc : isDecimal c) : ¬ isHexMark c := by
  rintro (rfl | rfl) <;> exact absurd hc (by decide)

lemma longSuffix_madeOf {p : Char → Prop} (hlower : p 'l') (hupper : p 'L') :
    MadeOf longSuffix p := by
  refine (MadeOf.oneOf ?_).opt
  rintro _ (rfl | rfl)
  · exact hlower
  · exact hupper

lemma decimalInteger_madeOf :
    MadeOf (pattern .decimalInteger) fun c => ¬ isHexMark c ∧ c ≠ '.' :=
  ((MadeOf.spelling (by decide)).opt.mul (MadeOf.oneOf fun _ hc =>
    ⟨not_isHexMark_of_isDecimal hc, Scanner.ne_of_isDecimal (by decide) hc⟩).plus).mul
      (longSuffix_madeOf (by decide) (by decide))

lemma hexInteger_madeOf : MadeOf (pattern .hexInteger) (· ≠ '.') := by
  have hmark : MadeOf (oneOf fun c => c = 'x' ∨ c = 'X') (· ≠ '.') := by
    refine MadeOf.oneOf ?_
    rintro _ (rfl | rfl) <;> decide
  have hdigit : MadeOf (oneOf isHexadecimal) (· ≠ '.') := by
    refine MadeOf.oneOf ?_
    rintro _ hc rfl
    exact absurd hc (by decide)
  exact ((((MadeOf.spelling (by decide)).opt.mul (.spelling (by decide))).mul hmark).mul
    hdigit.plus).mul (longSuffix_madeOf (by decide) (by decide))

lemma floatLiteral_madeOf : MadeOf (pattern .floatLiteral) (¬ isHexMark ·) := by
  have hdigits : MadeOf (plus (oneOf isDecimal)) (¬ isHexMark ·) :=
    (MadeOf.oneOf fun _ => not_isHexMark_of_isDecimal).plus
  have hexponent : MadeOf exponent (¬ isHexMark ·) := by
    refine ((MadeOf.oneOf ?_).mul (MadeOf.oneOf ?_).opt).mul hdigits
    all_goals rintro _ (rfl | rfl) <;> decide
  have hsuffix : MadeOf (oneOf fun c => c = 'f' ∨ c = 'F' ∨ c = 'd' ∨ c = 'D') (¬ isHexMark ·) := by
    refine MadeOf.oneOf ?_
    rintro _ (rfl | rfl | rfl | rfl) <;> decide
  exact (((((MadeOf.spelling (by decide)).opt.mul hdigits).mul (.spelling (by decide))).mul
    hdigits).mul hexponent.opt).mul hsuffix.opt

lemma hexInteger_has : Has (pattern .hexInteger) isHexMark :=
  Has.oneOf.mul_right.mul_left.mul_left

lemma floatLiteral_has : Has (pattern .floatLiteral) (· = '.') := by
  have hpoint : Has (spelling ".") (· = '.') := by
    rintro _ rfl
    exact ⟨'.', by decide, rfl⟩
  exact hpoint.mul_right.mul_left.mul_left.mul_left

lemma number_marks : ∀ kind ∈ [TokenKind.decimalInteger, .hexInteger, .floatLiteral],
    ∀ word ∈ pattern kind, ((∃ c ∈ word, isHexMark c) ↔ kind = .hexInteger) ∧
      ((∃ c ∈ word, c = '.') ↔ kind = .floatLiteral) := by
  have hnone {l : Language Char} {p : Char → Prop} {word : List Char} (h : MadeOf l (¬ p ·))
      (hword : word ∈ l) : ¬ ∃ c ∈ word, p c := fun ⟨c, hc, hp⟩ => h word hword c hc hp
  simp only [List.forall_mem_cons, List.not_mem_nil, false_implies, implies_true, and_true]
  refine ⟨fun word hword => ?_, fun word hword => ?_, fun word hword => ?_⟩
  · exact ⟨iff_of_false (hnone (decimalInteger_madeOf.mono fun _ => And.left) hword) nofun,
      iff_of_false (hnone (decimalInteger_madeOf.mono fun _ => And.right) hword) nofun⟩
  · exact ⟨iff_of_true (hexInteger_has word hword) trivial,
      iff_of_false (hnone hexInteger_madeOf hword) nofun⟩
  · exact ⟨iff_of_false (hnone floatLiteral_madeOf hword) nofun,
      iff_of_true (floatLiteral_has word hword) trivial⟩

lemma eq_of_number {a b : TokenKind}
    (ha : a ∈ [TokenKind.decimalInteger, .hexInteger, .floatLiteral])
    (hb : b ∈ [TokenKind.decimalInteger, .hexInteger, .floatLiteral])
    (hword : word ∈ pattern a) (hword' : word ∈ pattern b) : a = b := by
  obtain ⟨hmark, hpoint⟩ := number_marks a ha word hword
  obtain ⟨hmark', hpoint'⟩ := number_marks b hb word hword'
  have hhex : a = .hexInteger ↔ b = .hexInteger := hmark.symm.trans hmark'
  have hfloat : a = .floatLiteral ↔ b = .floatLiteral := hpoint.symm.trans hpoint'
  simp only [List.mem_cons, List.not_mem_nil, or_false] at ha hb
  rcases ha with rfl | rfl | rfl <;> rcases hb with rfl | rfl | rfl <;> simp_all

/-! ### Overlaps -/

lemma comments_disjoint (hline : word ∈ pattern .lineComment)
    (hblock : word ∈ pattern .blockComment) : False := by
  obtain ⟨_, rfl, line, -, rfl⟩ := Language.mem_mul.1 hline
  rw [pattern, mul_assoc, mul_assoc] at hblock
  obtain ⟨_, rfl, block, -, heq⟩ := Language.mem_mul.1 hblock
  have heq := (List.cons.inj heq).2
  exact absurd (List.cons.inj heq).1 (by decide)

open Lexer

lemma nil_notMem_pattern : ∀ form ∈ forms, [] ∉ pattern form.1 := by
  intro form hform hempty
  have hnone : ∀ form ∈ forms, form.2 [] = none := by
    decide
  obtain ⟨length, hlength, -⟩ := (forms_find form hform).longest hempty []
  rw [List.append_nil, hnone form hform] at hlength
  contradiction

lemma eq_of_mem_variedForms {a b : TokenKind × Scanner} (ha : a ∈ variedForms)
    (hb : b ∈ variedForms) (hword : word ∈ pattern a.1) (hword' : word ∈ pattern b.1) :
    a.1 = b.1 := by
  cases word with
  | nil => exact absurd hword (nil_notMem_pattern a (forms_eq ▸ List.mem_append_left _ ha))
  | cons c word =>
    have hfamily : family a.1 = family b.1 :=
      (beginsWith_family a ha c word hword).symm.trans (beginsWith_family b hb c word hword')
    have hcases : ∀ a ∈ variedForms, ∀ b ∈ variedForms, family a.1 = family b.1 →
        a.1 = b.1 ∨
        (a.1 ∈ [TokenKind.decimalInteger, .hexInteger, .floatLiteral] ∧
          b.1 ∈ [TokenKind.decimalInteger, .hexInteger, .floatLiteral]) ∨
        (a.1 = .lineComment ∧ b.1 = .blockComment) ∨
          (a.1 = .blockComment ∧ b.1 = .lineComment) := by decide
    rcases hcases a ha b hb hfamily with heq | ⟨ha, hb⟩ | ⟨ha, hb⟩ | ⟨ha, hb⟩
    · exact heq
    · exact eq_of_number ha hb hword hword'
    · rw [ha] at hword
      rw [hb] at hword'
      exact (comments_disjoint hword hword').elim
    · rw [ha] at hword
      rw [hb] at hword'
      exact (comments_disjoint hword' hword).elim

lemma eq_of_mem_wordForms : ∀ a ∈ wordForms, ∀ b ∈ forms, a.2.toList ∈ pattern b.1 →
    b.1 = a.1 ∨ (b.1 = .identifier ∧ a.1.isKeyword = true) := by
  intro a ha b hb hword
  have hcases : ∀ a ∈ wordForms, ∀ b ∈ forms, b.2 a.2.toList = some a.2.length →
      b.1 = a.1 ∨ (b.1 = .identifier ∧ a.1.isKeyword = true) := by
    decide +kernel
  obtain ⟨length, hlength, hle⟩ := (forms_find b hb).longest hword []
  rw [List.append_nil] at hlength
  have hbound := ((forms_find b hb).sound hlength).2
  rw [String.length_toList] at hle hbound
  exact hcases a ha b hb (Nat.le_antisymm hbound hle ▸ hlength)

lemma form_of_kind (kind : TokenKind) : kind = .unknown ∨ ∃ form ∈ forms, form.1 = kind := by
  cases kind <;> decide

/-- Two kinds that have a lexeme in common. -/
lemma overlap {a b : TokenKind} (hword : word ∈ pattern a) (hword' : word ∈ pattern b) :
    a = b ∨ a = .unknown ∨ b = .unknown ∨ (a = .identifier ∧ b.isKeyword = true) ∨
      (b = .identifier ∧ a.isKeyword = true) := by
  rcases form_of_kind a with ha | ⟨a, ha, rfl⟩
  · exact .inr (.inl ha)
  rcases form_of_kind b with hb | ⟨b, hb, rfl⟩
  · exact .inr (.inr (.inl hb))
  rw [forms_eq, List.mem_append] at ha hb
  rcases ha with ha' | ha'
  · rcases hb with hb' | hb'
    · exact .inl (eq_of_mem_variedForms ha' hb' hword hword')
    · obtain ⟨spelled, hspelled, rfl⟩ := List.mem_map.1 hb'
      rw [pattern_of_mem_wordForms spelled hspelled, mem_spelling] at hword'
      subst hword'
      rcases eq_of_mem_wordForms spelled hspelled a
        (forms_eq ▸ List.mem_append_left _ ha') hword with
        h | h
      · exact .inl h
      · exact .inr (.inr (.inr (.inl h)))
  · obtain ⟨spelled, hspelled, rfl⟩ := List.mem_map.1 ha'
    rw [pattern_of_mem_wordForms spelled hspelled, mem_spelling] at hword
    subst hword
    rcases eq_of_mem_wordForms spelled hspelled b
      (forms_eq ▸ List.mem_append.2 hb) hword' with h | h
    · exact .inl h.symm
    · exact .inr (.inr (.inr (.inr h)))

end Pattern

end ExternalAnnotations
