import ExternalAnnotations.Index.Literal
import Mathlib.Data.List.TakeWhile
import Mathlib.Tactic

/-!
# How literals are spelled

The texts that spell an integer, a number with a point, a character or a string, and that reading
such a text gives the value back.
-/

namespace ExternalAnnotations

/-- Some characters of a class, at least one. -/
structure IsRun (isIn : Char → Bool) (text : List Char) : Prop where
  ne_nil : text ≠ []
  all : ∀ c ∈ text, isIn c = true

/-- The minus sign of a negative number. -/
def signText (negative : Bool) : List Char := if negative then ['-'] else []

def signed (negative : Bool) (magnitude : Nat) : Int :=
  if negative then -(magnitude : Int) else magnitude

/-- The exponent of a number with a point, if it has one. -/
inductive ExponentSpelling : Int → List Char → Prop
  | none : ExponentSpelling 0 []
  | unsigned {mark : Char} {digits : List Char} (hmark : mark = 'e' ∨ mark = 'E')
      (hdigits : IsRun Char.isDigit digits) :
      ExponentSpelling (Literal.ofDigits 10 digits) (mark :: digits)
  | signed {mark sign : Char} {digits : List Char} (hmark : mark = 'e' ∨ mark = 'E')
      (hsign : sign = '+' ∨ sign = '-') (hdigits : IsRun Char.isDigit digits) :
      ExponentSpelling (signed (sign == '-') (Literal.ofDigits 10 digits)) (mark :: sign :: digits)

/-- A character in quotes: itself, or escaped by a letter or by its code. -/
inductive CharSpelling (quote : Char) : Char → List Char → Prop
  | plain {c : Char} (hquote : c ≠ quote) (hescape : c ≠ '\\') : CharSpelling quote c [c]
  | letter {letter c : Char} (hletter : Literal.simpleEscape? letter = some c) :
      CharSpelling quote c ['\\', letter]
  | code {digits : List Char} (hlength : digits.length = 4)
    (hdigits : ∀ c ∈ digits, isHexDigit c = true)
      (hcode : (Literal.ofDigits 16 digits).isValidChar) :
      CharSpelling quote (Char.ofNat (Literal.ofDigits 16 digits)) ('\\' :: 'u' :: digits)

/-- Characters in quotes one after the other. -/
inductive TextSpelling (quote : Char) : List Char → List Char → Prop
  | nil : TextSpelling quote [] []
  | cons {c : Char} {text spelling spellings : List Char} (hc : CharSpelling quote c spelling)
      (h : TextSpelling quote text spellings) :
      TextSpelling quote (c :: text) (spelling ++ spellings)

/-- The lexemes, and their kinds, that stand for a value by themselves. -/
inductive LiteralSpelling : WrittenValue → TokenKind → List Char → Prop
  | true : LiteralSpelling (.bool true) .trueWord "true".toList
  | false : LiteralSpelling (.bool false) .falseWord "false".toList
  | decimal {n : Int64} {negative : Bool} {digits suffix : List Char}
      (hdigits : IsRun Char.isDigit digits)
      (hsuffix : suffix ∈ [[], ['l'], ['L']])
      (hn : n.toInt = signed negative (Literal.ofDigits 10 digits)) :
      LiteralSpelling (.int n) .decimalInteger (signText negative ++ digits ++ suffix)
  | hex {n : Int64} {negative : Bool} {mark : Char} {digits suffix : List Char}
      (hmark : mark = 'x' ∨ mark = 'X') (hdigits : IsRun isHexDigit digits)
      (hsuffix : suffix ∈ [[], ['l'], ['L']])
      (hn : n.toInt = signed negative (Literal.ofDigits 16 digits)) :
      LiteralSpelling (.int n) .hexInteger (signText negative ++ '0' :: mark :: digits ++ suffix)
  | float {negative : Bool} {whole fraction power suffix : List Char} {exponent : Int}
      (hwhole : IsRun Char.isDigit whole)
      (hfraction : IsRun Char.isDigit fraction)
      (hpower : ExponentSpelling exponent power)
      (hsuffix : suffix ∈ [[], ['f'], ['F'], ['d'], ['D']]) :
      LiteralSpelling
        (.float (.ofDecimal negative (Literal.ofDigits 10 (whole ++ fraction))
          (exponent - fraction.length)))
        .floatLiteral (signText negative ++ whole ++ '.' :: fraction ++ power ++ suffix)
  | char {c : Char} {text : List Char} (h : CharSpelling '\'' c text) :
      LiteralSpelling (.char c) .charLiteral ('\'' :: text ++ ['\''])
  | string {chars text : List Char} (h : TextSpelling '"' chars text) :
      LiteralSpelling (.string (String.ofList chars)) .stringLiteral ('"' :: text ++ ['"'])

namespace Literal

lemma int64?_toInt (n : Int64) : int64? n.toInt = some n := by
  rw [int64?, if_pos ⟨n.minValue_le_toInt, n.toInt_le⟩, Int64.ofInt_toInt]

lemma takeWhile_append_of_stops {isIn : Char → Bool} {digits rest : List Char}
    (hdigits : ∀ c ∈ digits, isIn c = true) (hrest : ∀ c ∈ rest.head?, isIn c = false) :
    (digits ++ rest).takeWhile isIn = digits := by
  rw [List.takeWhile_append_of_pos hdigits]
  cases rest with
  | nil => simp
  | cons c rest => simp [hrest c rfl]

lemma dropWhile_append_of_stops {isIn : Char → Bool} {digits rest : List Char}
    (hdigits : ∀ c ∈ digits, isIn c = true) (hrest : ∀ c ∈ rest.head?, isIn c = false) :
    (digits ++ rest).dropWhile isIn = rest := by
  rw [List.dropWhile_append_of_pos hdigits]
  cases rest with
  | nil => rfl
  | cons c rest => simp [hrest c rfl]

lemma head_ne_minus {digits : List Char} (hdigits : IsRun Char.isDigit digits)
    (rest : List Char) : ∀ c ∈ (digits ++ rest).head?, c ≠ '-' := by
  obtain ⟨d, digits, rfl⟩ := List.exists_cons_of_ne_nil hdigits.ne_nil
  rintro c ⟨⟩ rfl
  exact absurd (hdigits.all '-' List.mem_cons_self) (by decide)

/-- The number that follows the sign of an integer. -/
def magnitude (body : List Char) : Nat :=
  match body with
  | '0' :: 'x' :: digits | '0' :: 'X' :: digits => ofDigits 16 (digits.takeWhile isHexDigit)
  | digits => ofDigits 10 (digits.takeWhile Char.isDigit)

lemma integer?_of_sign (negative : Bool) {body : List Char} (h : ∀ c ∈ body.head?, c ≠ '-') :
    integer? (signText negative ++ body) = int64? (signed negative (magnitude body)) := by
  cases negative with
  | true => rfl
  | false =>
    change integer? body = _
    unfold integer?
    split
    rename_i negative' body' heq
    split at heq
    · rename_i c
      exact absurd rfl (h '-' rfl)
    · obtain ⟨rfl, rfl⟩ := Prod.mk.inj heq
      rfl

lemma magnitude_decimal {digits suffix : List Char}
    (hdigits : IsRun Char.isDigit digits) (hsuffix : suffix ∈ [[], ['l'], ['L']]) :
    magnitude (digits ++ suffix) = ofDigits 10 digits := by
  have hstops : ∀ c ∈ suffix.head?, c.isDigit = false := by
    fin_cases hsuffix <;> simp
  have hne : ∀ d rest, (d = 'x' ∨ d = 'X') → digits ++ suffix ≠ '0' :: d :: rest := by
    intro d rest hd heq
    have hmem : d ∈ digits ++ suffix := heq ▸ by simp
    rcases List.mem_append.1 hmem with hmem | hmem
    · rcases hd with rfl | rfl <;> exact absurd (hdigits.all _ hmem) (by decide)
    · rcases hd with rfl | rfl <;> fin_cases hsuffix <;> simp at hmem
  unfold magnitude
  split
  · rename_i heq
    exact absurd heq (hne _ _ (.inl rfl))
  · rename_i heq
    exact absurd heq (hne _ _ (.inr rfl))
  · rw [takeWhile_append_of_stops hdigits.all hstops]

lemma magnitude_hex {mark : Char} {digits suffix : List Char} (hmark : mark = 'x' ∨ mark = 'X')
    (hdigits : IsRun isHexDigit digits)
    (hsuffix : suffix ∈ [[], ['l'], ['L']]) :
    magnitude ('0' :: mark :: digits ++ suffix) = ofDigits 16 digits := by
  have hstops : ∀ c ∈ suffix.head?, isHexDigit c = false := by
    fin_cases hsuffix <;> simp [isHexDigit]
  have htake := takeWhile_append_of_stops hdigits.all hstops
  rcases hmark with rfl | rfl <;> exact congrArg (ofDigits 16) htake

/-- The exponent at the end of a number with a point. -/
def exponentOf (text : List Char) : Int :=
  match text with
  | _ :: '-' :: digits => -(ofDigits 10 (digits.takeWhile Char.isDigit) : Int)
  | _ :: '+' :: digits => ofDigits 10 (digits.takeWhile Char.isDigit)
  | _ :: digits => ofDigits 10 (digits.takeWhile Char.isDigit)
  | [] => 0

lemma float_of_sign (negative : Bool) {body : List Char} (h : ∀ c ∈ body.head?, c ≠ '-') :
    float (signText negative ++ body) =
      .ofDecimal negative
        (ofDigits 10 (body.takeWhile Char.isDigit ++
          ((body.dropWhile Char.isDigit).drop 1).takeWhile Char.isDigit))
        (exponentOf (((body.dropWhile Char.isDigit).drop 1).dropWhile Char.isDigit) -
          (((body.dropWhile Char.isDigit).drop 1).takeWhile Char.isDigit).length) := by
  cases negative with
  | true => rfl
  | false =>
    change float body = _
    unfold float
    split
    rename_i negative' body' heq
    split at heq
    · exact absurd rfl (h '-' rfl)
    · obtain ⟨rfl, rfl⟩ := Prod.mk.inj heq
      rfl

lemma exponentOf_spelling {exponent : Int} {power suffix : List Char}
    (h : ExponentSpelling exponent power) (hsuffix : suffix ∈ [[], ['f'], ['F'], ['d'], ['D']]) :
    exponentOf (power ++ suffix) = exponent := by
  have hstops : ∀ c ∈ suffix.head?, c.isDigit = false := by
    fin_cases hsuffix <;> simp
  cases h with
  | none => fin_cases hsuffix <;> rfl
  | @unsigned mark digits hmark hdigits =>
    have htake := takeWhile_append_of_stops hdigits.all hstops
    obtain ⟨c, digits, rfl⟩ := List.exists_cons_of_ne_nil hdigits.ne_nil
    have hc := hdigits.all c List.mem_cons_self
    rw [List.cons_append, exponentOf]
    · rw [htake]
    · rintro _ heq
      obtain ⟨rfl, -⟩ := List.cons.inj heq
      exact absurd hc (by decide)
    · rintro _ heq
      obtain ⟨rfl, -⟩ := List.cons.inj heq
      exact absurd hc (by decide)
  | @signed mark sign digits hmark hsign hdigits =>
    have htake := takeWhile_append_of_stops hdigits.all hstops
    rcases hsign with rfl | rfl
    · exact congrArg (fun digits => (ofDigits 10 digits : Int)) htake
    · exact congrArg (fun digits => -(ofDigits 10 digits : Int)) htake

lemma escapeCode?_of_digits {digits : List Char}
    (hlength : digits.length = 4) (hdigits : ∀ c ∈ digits, isHexDigit c = true) :
    escapeCode? digits = some (ofDigits 16 digits) := by
  have hall : digits.all isHexDigit = true := List.all_eq_true.2 hdigits
  have hempty : digits.isEmpty = false := by
    cases digits with
    | nil => exact absurd hlength (by decide)
    | cons => rfl
  unfold escapeCode?
  split
  · exact absurd (hdigits '+' List.mem_cons_self) (by decide)
  · simp [hall, hempty]

lemma decodeEscapes_append {quote c : Char} {spelling : List Char}
    (h : CharSpelling quote c spelling)
    (rest : List Char) :
    decodeEscapes (spelling ++ rest) = (decodeEscapes rest).map (c :: ·) := by
  cases h with
  | plain hquote hescape =>
    rw [List.singleton_append, decodeEscapes]
    · rintro rfl
      contradiction
    · rintro _ _ rfl
      contradiction
    · rintro _ _ rfl
      contradiction
  | @letter letter _ hletter =>
    rw [List.cons_append, List.singleton_append, decodeEscapes, hletter]
    rintro rfl
    simp [simpleEscape?] at hletter
  | @code digits hlength hdigits hcode =>
    have htake : (digits ++ rest).take 4 = digits := by rw [← hlength, List.take_left]
    have hdrop : (digits ++ rest).drop 4 = rest := by rw [← hlength, List.drop_left]
    rw [List.cons_append, List.cons_append, decodeEscapes, htake, hdrop,
      escapeCode?_of_digits hlength hdigits]
    exact if_pos hcode

lemma decodeEscapes_of_spelling {quote : Char} {text spelling : List Char}
    (h : TextSpelling quote text spelling) : decodeEscapes spelling = .ok text := by
  induction h with
  | nil => rw [decodeEscapes]
  | cons hc h ih =>
    rw [decodeEscapes_append hc, ih]
    rfl

lemma inside_quoted (quote : Char) (text : List Char) :
    inside (String.ofList (quote :: text ++ [quote])) = text := by
  simp [inside]

lemma stops_of_exponent {exponent : Int} {power suffix : List Char}
    (h : ExponentSpelling exponent power) (hsuffix : suffix ∈ [[], ['f'], ['F'], ['d'], ['D']]) :
    ∀ c ∈ (power ++ suffix).head?, c.isDigit = false := by
  cases h with
  | none => fin_cases hsuffix <;> simp
  | unsigned hmark hdigits => rcases hmark with rfl | rfl <;> simp
  | signed hmark hsign hdigits => rcases hmark with rfl | rfl <;> simp

/-- Reading a literal gives the value that it spells. -/
theorem value_of_spelling {value : WrittenValue} {kind : TokenKind} {lexeme : List Char}
    (h : LiteralSpelling value kind lexeme) {token : Token} (hkind : token.kind = kind)
    (hlexeme : token.lexeme = String.ofList lexeme) : Literal.value token = .ok value := by
  unfold Literal.value
  rw [hkind, hlexeme]
  cases h with
  | true => rfl
  | false => rfl
  | @decimal _ negative digits suffix hdigits hsuffix hn =>
    have hread := integer?_of_sign negative (head_ne_minus hdigits suffix)
    rw [magnitude_decimal hdigits hsuffix, ← hn, int64?_toInt, ← List.append_assoc] at hread
    dsimp only
    rw [String.toList_ofList, hread]
  | @hex _ negative mark digits suffix hmark hdigits hsuffix hn =>
    have hstart : ∀ c ∈ ('0' :: mark :: digits ++ suffix).head?, c ≠ '-' := by
      rintro _ ⟨⟩
      decide
    have hread := integer?_of_sign negative hstart
    rw [magnitude_hex hmark hdigits hsuffix, ← hn, int64?_toInt, ← List.append_assoc] at hread
    dsimp only
    rw [String.toList_ofList, hread]
  | @float negative whole fraction power suffix exponent hwhole hfraction hpower hsuffix =>
    have hread := float_of_sign negative (head_ne_minus hwhole ('.' :: fraction ++ power ++ suffix))
    have hstops := stops_of_exponent hpower hsuffix
    rw [takeWhile_append_of_stops hwhole.all (by simp),
      dropWhile_append_of_stops hwhole.all (by simp), List.cons_append, List.cons_append,
      List.drop_one, List.tail_cons, List.append_assoc,
      takeWhile_append_of_stops hfraction.all hstops,
      dropWhile_append_of_stops hfraction.all hstops,
      exponentOf_spelling hpower hsuffix] at hread
    dsimp only
    rw [String.toList_ofList, ← hread]
    simp
  | char h =>
    dsimp only
    have hdecode := decodeEscapes_append h []
    rw [List.append_nil, decodeEscapes] at hdecode
    rw [inside_quoted, hdecode]
    rfl
  | string h =>
    dsimp only
    rw [inside_quoted, decodeEscapes_of_spelling h]
    rfl

/-- Reading plain digits gives a position. -/
theorem position_of_digits {digits : List Char}
    (hdigits : IsRun Char.isDigit digits)
    (hlimit : ofDigits 10 digits ≤ maxPosition) : position digits = .ok (ofDigits 10 digits) := by
  have htake : digits.takeWhile Char.isDigit = digits := List.takeWhile_eq_self_iff.2 hdigits.all
  rw [position, htake, if_neg (Nat.not_lt.2 hlimit), if_neg (by simpa using hdigits.ne_nil)]

end Literal

end ExternalAnnotations
