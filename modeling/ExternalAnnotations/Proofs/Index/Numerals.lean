import ExternalAnnotations.Index.ValueReader
import ExternalAnnotations.Proofs.Index.Literals
import ExternalAnnotations.Proofs.Token.Finding

/-!
# Numerals

A lexeme of the two integer patterns spells one number, however many digits it has, and reading it
gives that number or nothing.
-/

namespace ExternalAnnotations

open scoped Computability

/-! ### Numbers and their spellings -/

/-- The digits of the bases up to sixteen, each at the position that it counts. -/
def digitOrder : List Char := "0123456789abcdef".toList

def digitRank (c : Char) : Nat := digitOrder.idxOf c.toLower

/-- The number that a run of digits stands for in a base. -/
def numeral (base : Nat) (digits : List Char) : Nat :=
  Nat.ofDigits base (digits.reverse.map digitRank)

/-- A lexeme of a kind spells a number: a sign, the mark of hexadecimal digits, digits and a suffix
for the type, which says nothing about the number. -/
inductive IntegerSpelling : TokenKind → List Char → Int → Prop
  | decimal {negative : Bool} {digits suffix : List Char} (hdigits : IsRun Char.isDigit digits)
      (hsuffix : suffix ∈ [[], ['l'], ['L']]) :
      IntegerSpelling .decimalInteger (signText negative ++ digits ++ suffix)
        (signed negative (numeral 10 digits))
  | hex {negative : Bool} {mark : Char} {digits suffix : List Char}
      (hmark : mark = 'x' ∨ mark = 'X') (hdigits : IsRun isHexDigit digits)
      (hsuffix : suffix ∈ [[], ['l'], ['L']]) :
      IntegerSpelling .hexInteger (signText negative ++ '0' :: mark :: digits ++ suffix)
        (signed negative (numeral 16 digits))

namespace Pattern

lemma mem_sign {word : List Char} : word ∈ sign ↔ ∃ negative, word = signText negative := by
  rw [sign, opt, Language.mem_add, Language.mem_one, mem_spelling, Bool.exists_bool]
  rfl

lemma mem_longSuffix {word : List Char} : word ∈ longSuffix ↔ word ∈ [[], ['l'], ['L']] := by
  rw [longSuffix, opt, Language.mem_add, Language.mem_one]
  constructor
  · rintro (rfl | ⟨c, rfl | rfl, rfl⟩) <;> decide
  · intro h
    fin_cases h
    · exact .inl rfl
    · exact .inr ⟨'l', .inl rfl, rfl⟩
    · exact .inr ⟨'L', .inr rfl, rfl⟩

lemma mem_run {isIn : Char → Bool} {p : Char → Prop} (h : ∀ c, isIn c = true ↔ p c)
    {word : List Char} : word ∈ plus (oneOf p) ↔ IsRun isIn word := by
  rw [plus, mem_oneOf_mul]
  constructor
  · rintro ⟨c, rest, rfl, hc, hrest⟩
    refine ⟨List.cons_ne_nil _ _, List.forall_mem_cons.2 ⟨(h c).2 hc, fun d hd => (h d).2 ?_⟩⟩
    exact (MadeOf.oneOf fun _ => id).kstar rest hrest d hd
  · rintro ⟨hne, hall⟩
    obtain ⟨c, rest, rfl⟩ := List.exists_cons_of_ne_nil hne
    obtain ⟨hc, hrest⟩ := List.forall_mem_cons.1 hall
    refine ⟨c, rest, rfl, (h c).1 hc, Language.mem_kstar.2 ⟨rest.map fun c => [c], ?_, ?_⟩⟩
    · simp [← List.flatMap_def]
    · intro single hsingle
      obtain ⟨d, hd, rfl⟩ := List.mem_map.1 hsingle
      exact ⟨d, (h d).1 (hrest d hd), rfl⟩

end Pattern

namespace IntegerSpelling

lemma of_mem_decimal {lexeme : List Char} (h : lexeme ∈ pattern .decimalInteger) :
    ∃ v, IntegerSpelling .decimalInteger lexeme v := by
  obtain ⟨front, hfront, suffix, hsuffix, rfl⟩ := Language.mem_mul.1 h
  obtain ⟨sign, hsign, digits, hdigits, rfl⟩ := Language.mem_mul.1 hfront
  obtain ⟨negative, rfl⟩ := Pattern.mem_sign.1 hsign
  exact ⟨_, .decimal ((Pattern.mem_run Scanner.isDigit_iff).1 hdigits)
    (Pattern.mem_longSuffix.1 hsuffix)⟩

lemma of_mem_hex {lexeme : List Char} (h : lexeme ∈ pattern .hexInteger) :
    ∃ v, IntegerSpelling .hexInteger lexeme v := by
  obtain ⟨front, hfront, suffix, hsuffix, rfl⟩ := Language.mem_mul.1 h
  obtain ⟨marked, hmarked, digits, hdigits, rfl⟩ := Language.mem_mul.1 hfront
  obtain ⟨start, hstart, _, ⟨mark, hmark, rfl⟩, rfl⟩ := Language.mem_mul.1 hmarked
  obtain ⟨sign, hsign, _, rfl, rfl⟩ := Language.mem_mul.1 hstart
  obtain ⟨negative, rfl⟩ := Pattern.mem_sign.1 hsign
  have hspelling := @IntegerSpelling.hex negative mark digits suffix hmark
    ((Pattern.mem_run Scanner.isHexDigit_iff).1 hdigits) (Pattern.mem_longSuffix.1 hsuffix)
  have hlexeme : signText negative ++ "0".toList ++ [mark] ++ digits =
      signText negative ++ '0' :: mark :: digits := by
    simp only [List.append_assoc]
    rfl
  exact ⟨_, (congrArg (· ++ suffix) hlexeme) ▸ hspelling⟩

lemma mem_pattern {kind : TokenKind} {lexeme : List Char} {v : Int}
    (h : IntegerSpelling kind lexeme v) : lexeme ∈ pattern kind := by
  cases h with
  | decimal hdigits hsuffix =>
    exact Language.append_mem_mul
      (Language.append_mem_mul (Pattern.mem_sign.2 ⟨_, rfl⟩)
        ((Pattern.mem_run Scanner.isDigit_iff).2 hdigits))
      (Pattern.mem_longSuffix.2 hsuffix)
  | @hex negative mark digits suffix hmark hdigits hsuffix =>
    have hstart : signText negative ++ "0".toList ++ [mark] ∈
        Pattern.sign * Pattern.spelling "0" * Pattern.oneOf fun c => c = 'x' ∨ c = 'X' :=
      Language.append_mem_mul (Language.append_mem_mul (Pattern.mem_sign.2 ⟨_, rfl⟩) rfl)
        ⟨mark, hmark, rfl⟩
    have hlexeme : signText negative ++ '0' :: mark :: digits =
        signText negative ++ "0".toList ++ [mark] ++ digits := by
      simp only [List.append_assoc]
      rfl
    rw [hlexeme]
    exact Language.append_mem_mul
      (Language.append_mem_mul hstart ((Pattern.mem_run Scanner.isHexDigit_iff).2 hdigits))
      (Pattern.mem_longSuffix.2 hsuffix)

end IntegerSpelling

/-! ### Reading an integer -/

namespace Literal

open Pattern

lemma of_between (property : Char → Prop) {low high c : Char} (h : between low high c)
    (hall : ∀ code ∈ List.range' low.toNat (high.toNat + 1 - low.toNat),
      property (Char.ofNat code)) : property c := by
  have hlow : low.toNat ≤ c.toNat := h.1
  have hhigh : c.toNat ≤ high.toNat := h.2
  rw [← c.ofNat_toNat]
  exact hall c.toNat (List.mem_range'_1.2 ⟨hlow, by omega⟩)

lemma digitValue_eq_rank {c : Char} (h : isHexDigit c = true) : digitValue c = digitRank c := by
  rcases (Scanner.isHexDigit_iff c).1 h with h | h | h
  all_goals exact of_between (fun c => digitValue c = digitRank c) h (by decide)

lemma ofDigits_eq_numeral (base : Nat) {digits : List Char}
    (h : ∀ c ∈ digits, isHexDigit c = true) : ofDigits base digits = numeral base digits := by
  rw [numeral, Nat.ofDigits_eq_foldr, List.map_reverse, List.foldr_reverse, List.foldl_map]
  refine List.foldl_ext _ _ _ fun value c hc => ?_
  rw [digitValue_eq_rank (h c hc), Nat.cast_id, Nat.mul_comm, Nat.add_comm]

/-- The number of an integer lexeme, whatever its size. -/
def number : List Char → Int
  | '-' :: body => signed true (magnitude body)
  | body => signed false (magnitude body)

lemma integer?_eq (lexeme : List Char) : integer? lexeme = int64? (number lexeme) := by
  unfold number
  split
  · rfl
  · rename_i hne
    unfold integer?
    split
    rename_i negative body heq
    split at heq
    · exact absurd rfl (hne _)
    · obtain ⟨rfl, rfl⟩ := Prod.mk.inj heq
      rfl

lemma number_of_sign (negative : Bool) {body : List Char} (h : ∀ c ∈ body.head?, c ≠ '-') :
    number (signText negative ++ body) = signed negative (magnitude body) := by
  cases negative with
  | true => rfl
  | false =>
    change number body = _
    unfold number
    split
    · exact absurd rfl (h '-' rfl)
    · rfl

lemma number_of_spelling {kind : TokenKind} {lexeme : List Char} {v : Int}
    (h : IntegerSpelling kind lexeme v) : number lexeme = v := by
  cases h with
  | @decimal negative digits suffix hdigits hsuffix =>
    have hhex : ∀ c ∈ digits, isHexDigit c = true := fun c hc => by
      simp [isHexDigit, hdigits.all c hc]
    rw [List.append_assoc, number_of_sign negative (head_ne_minus hdigits suffix),
      magnitude_decimal hdigits hsuffix, ofDigits_eq_numeral 10 hhex]
  | @hex negative mark digits suffix hmark hdigits hsuffix =>
    have hstart : ∀ c ∈ ('0' :: mark :: digits ++ suffix).head?, c ≠ '-' := by
      rintro _ ⟨⟩
      decide
    rw [List.append_assoc, number_of_sign negative hstart, magnitude_hex hmark hdigits hsuffix,
      ofDigits_eq_numeral 16 hdigits.all]

end Literal

/-- Every lexeme of the integer patterns spells one number. -/
lemma IntegerSpelling.exists_unique {kind : TokenKind} {lexeme : List Char}
    (hkind : kind = .decimalInteger ∨ kind = .hexInteger) (hlexeme : lexeme ∈ pattern kind) :
    ∃ v, ∀ v', IntegerSpelling kind lexeme v' ↔ v' = v := by
  obtain ⟨v, hv⟩ : ∃ v, IntegerSpelling kind lexeme v := by
    rcases hkind with rfl | rfl
    · exact of_mem_decimal hlexeme
    · exact of_mem_hex hlexeme
  refine ⟨v, fun v' => ⟨fun h => ?_, ?_⟩⟩
  · rw [← Literal.number_of_spelling h, Literal.number_of_spelling hv]
  · rintro rfl
    exact hv

/-- The signed numbers of so many bits. -/
def InWidth (width : Nat) (v : Int) : Prop := -2 ^ (width - 1) ≤ v ∧ v < 2 ^ (width - 1)

namespace Literal

lemma int64?_eq_some_iff {v : Int} {n : Int64} : int64? v = some n ↔ n.toInt = v := by
  constructor
  · intro h
    rw [int64?] at h
    split at h
    · rename_i hrange
      obtain rfl := Option.some.inj h
      exact Int64.toInt_ofInt_of_le hrange.1 (Int.lt_add_one_of_le hrange.2)
    · contradiction
  · rintro rfl
    exact int64?_toInt n

lemma int64?_eq_none_iff {v : Int} : int64? v = none ↔ ¬ InWidth 64 v := by
  have hmin : Int64.minValue.toInt = -2 ^ 63 := by decide
  have hmax : Int64.maxValue.toInt = 2 ^ 63 - 1 := by decide
  rw [int64?, hmin, hmax, InWidth]
  split
  · simp only [reduceCtorEq, false_iff, not_not]
    omega
  · simp only [true_iff]
    omega

lemma value_of_integer {token : Token}
    (h : token.kind = .decimalInteger ∨ token.kind = .hexInteger) : Literal.value token =
      match integer? token.lexeme.toList with
      | some n => .ok (.int n)
      | none => .error .outOfRange := by
  cases token
  rcases h with rfl | rfl <;> rfl

end Literal

lemma Reader.value_of_literal {token : Token} {cursor : Cursor} {rest : List Token}
    (hcursor : cursor.rest = token :: rest) (hliteral : token.kind.isLiteral = true) (room : Nat) :
    Reader.value (room + 1) cursor = literal token cursor := by
  have hvalueOf : ∀ item argument, valueOf item argument cursor = literal token cursor := by
    intro item argument
    rw [valueOf, hcursor]
    exact if_pos hliteral
  cases room with
  | zero => exact hvalueOf tooDeep tooDeep
  | succ room => exact hvalueOf (Reader.value (room + 1)) (Reader.value room)

/-- The value read where an integer token stands, or the error. -/
def Reader.integerResult (token : Token) (cursor : Cursor) :
    Option Int64 → EStateM.Result SyntaxError Cursor WrittenValue
  | some n => .ok (.int n) cursor.forward
  | none => .error (.invalidLiteral token.lexeme "integer out of range" token.start) cursor.forward

lemma Reader.value_of_integer {token : Token} {cursor : Cursor} {rest : List Token}
    (hcursor : cursor.rest = token :: rest)
    (hkind : token.kind = .decimalInteger ∨ token.kind = .hexInteger) (room : Nat) :
    Reader.value (room + 1) cursor =
      Reader.integerResult token cursor (Literal.integer? token.lexeme.toList) := by
  have hliteral : token.kind.isLiteral = true := by
    rcases hkind with h | h <;> rw [h] <;> rfl
  rw [value_of_literal hcursor hliteral, literal, Literal.value_of_integer hkind]
  cases Literal.integer? token.lexeme.toList <;> rfl

end ExternalAnnotations
