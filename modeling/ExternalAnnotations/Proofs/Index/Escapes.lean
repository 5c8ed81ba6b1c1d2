import ExternalAnnotations.Proofs.Index.Numerals

/-!
# Escapes in literals

The text between the quotes of a literal is a sequence of units, each of which denotes a character:
the character itself, or an escape by a letter or by four hexadecimal digits. The decoder takes all
of these, and besides them a few escapes whose digits are not four or follow a plus sign.
-/

namespace ExternalAnnotations

open Pattern

/-! ### Units -/

/-- The characters that can follow a backslash, each with the character that is meant. -/
def escapeLetters : List (Char × Char) :=
  [('n', '\n'), ('t', '\t'), ('r', '\r'), ('b', '\x08'), ('f', '\x0c'), ('0', '\x00'), ('"', '"'),
    ('\'', '\''), ('\\', '\\')]

/-- Codes that stand for no character. -/
def IsSurrogate (code : Nat) : Prop := 0xd800 ≤ code ∧ code ≤ 0xdfff

instance : DecidablePred IsSurrogate :=
  fun code => inferInstanceAs (Decidable (0xd800 ≤ code ∧ code ≤ 0xdfff))

/-- A unit of the text between quotes and the character that it denotes. -/
inductive EscapeUnit : List Char → Char → Prop
  | plain {c : Char} (h : c ≠ '\\') : EscapeUnit [c] c
  | letter {letter c : Char} (h : (letter, c) ∈ escapeLetters) : EscapeUnit ['\\', letter] c
  | code {digits : List Char} (hlength : digits.length = 4)
      (hdigits : ∀ c ∈ digits, isHexadecimal c) (hcode : ¬ IsSurrogate (numeral 16 digits)) :
      EscapeUnit ('\\' :: 'u' :: digits) (Char.ofNat (numeral 16 digits))

/-- A text between quotes is made of units, and denotes what these denote. -/
inductive Denotes : List Char → List Char → Prop
  | nil : Denotes [] []
  | cons {unit body text : List Char} {c : Char} (hunit : EscapeUnit unit c)
      (h : Denotes body text) : Denotes (unit ++ body) (c :: text)

/-- What the decoder takes for an escape although it is none, by what follows it: a plus sign stands
for one of the digits, or digits are missing at the end of the text. -/
inductive LooseUnit : List Char → Char → List Char → Prop
  | plus {digits rest : List Char} (hne : digits ≠ []) (hdigits : ∀ c ∈ digits, isHexadecimal c)
      (hlength : digits.length = 3 ∨ digits.length < 3 ∧ rest = []) :
      LooseUnit ('\\' :: 'u' :: '+' :: digits) (Char.ofNat (numeral 16 digits)) rest
  | short {digits : List Char} (hne : digits ≠ []) (hdigits : ∀ c ∈ digits, isHexadecimal c)
      (hlength : digits.length < 4) :
      LooseUnit ('\\' :: 'u' :: digits) (Char.ofNat (numeral 16 digits)) []

/-- What the decoder makes of a text between quotes. -/
inductive Decoded : List Char → List Char → Prop
  | nil : Decoded [] []
  | unit {unit body text : List Char} {c : Char} (hunit : EscapeUnit unit c)
      (h : Decoded body text) : Decoded (unit ++ body) (c :: text)
  | loose {unit body text : List Char} {c : Char} (hunit : LooseUnit unit c body)
      (h : Decoded body text) : Decoded (unit ++ body) (c :: text)

/-- Behind some units something stands that is taken for an escape although it is none. -/
def MeetsLoose (body : List Char) : Prop :=
  ∃ before text unit c rest, body = before ++ (unit ++ rest) ∧ Denotes before text ∧
    LooseUnit unit c rest

/-! ### Escapes by code -/

namespace Literal

lemma simpleEscape?_eq_some_iff {letter c : Char} :
    simpleEscape? letter = some c ↔ (letter, c) ∈ escapeLetters := by
  constructor
  · intro h
    unfold simpleEscape? at h
    split at h
    all_goals first
      | contradiction
      | obtain rfl := Option.some.inj h
        decide
  · intro h
    simp only [escapeLetters, List.mem_cons, Prod.mk.injEq, List.not_mem_nil, or_false] at h
    rcases h with h | h | h | h | h | h | h | h | h <;> obtain ⟨rfl, rfl⟩ := h <;> rfl

lemma u_notMem_escapeLetters (c : Char) : ('u', c) ∉ escapeLetters := by
  rw [← simpleEscape?_eq_some_iff]
  nofun

lemma codeOfDigits?_eq_some_iff {digits : List Char} {code : Nat} :
    (if !digits.isEmpty && digits.all isHexDigit then some (ofDigits 16 digits) else none) =
        some code ↔
      digits ≠ [] ∧ (∀ c ∈ digits, isHexadecimal c) ∧ numeral 16 digits = code := by
  have hcondition : (!digits.isEmpty && digits.all isHexDigit) = true ↔
      digits ≠ [] ∧ ∀ c ∈ digits, isHexadecimal c := by
    simp [Scanner.isHexDigit_iff]
  rw [Option.ite_none_right_eq_some, hcondition, and_assoc]
  refine and_congr_right fun _ => and_congr_right fun hdigits => ?_
  have hhex := fun c hc => (Scanner.isHexDigit_iff c).2 (hdigits c hc)
  rw [Option.some_inj, ofDigits_eq_numeral 16 hhex]

lemma escapeCode?_eq_some_iff {chars : List Char} {code : Nat} :
    escapeCode? chars = some code ↔
      ∃ digits, (chars = digits ∨ chars = '+' :: digits) ∧ digits ≠ [] ∧
        (∀ c ∈ digits, isHexadecimal c) ∧ numeral 16 digits = code := by
  unfold escapeCode?
  split
  · rename_i digits
    rw [codeOfDigits?_eq_some_iff]
    constructor
    · intro h
      exact ⟨digits, .inr rfl, h⟩
    · rintro ⟨_, rfl | heq, hne, hdigits, hcode⟩
      · exact absurd (hdigits '+' List.mem_cons_self) (by decide)
      · obtain ⟨-, rfl⟩ := List.cons.inj heq
        exact ⟨hne, hdigits, hcode⟩
  · rename_i hplus
    rw [codeOfDigits?_eq_some_iff]
    constructor
    · intro h
      exact ⟨chars, .inl rfl, h⟩
    · rintro ⟨digits, rfl | rfl, h⟩
      · exact h
      · exact absurd rfl (hplus digits)

lemma numeral_lt {digits : List Char} (h : ∀ c ∈ digits, isHexadecimal c) :
    numeral 16 digits < 16 ^ digits.length := by
  have hrank : ∀ rank ∈ digits.reverse.map digitRank, rank < 16 := by
    intro rank hrank
    obtain ⟨c, hc, rfl⟩ := List.mem_map.1 hrank
    rcases h c (List.mem_reverse.1 hc) with h | h | h
    all_goals exact of_between (fun c => digitRank c < 16) h (by decide)
  have hlt := Nat.ofDigits_lt_base_pow_length (by decide) hrank
  rwa [List.length_map, List.length_reverse] at hlt

lemma isValidChar_iff {code : Nat} (h : code < 0x110000) :
    code.isValidChar ↔ ¬ IsSurrogate code := by
  unfold Nat.isValidChar IsSurrogate
  omega

/-- Characters of an escape by code: four of them, or what is left of the text. -/
def TakesUp (chars rest : List Char) : Prop := chars.length = 4 ∨ chars.length < 4 ∧ rest = []

lemma takesUp_take (text : List Char) : TakesUp (text.take 4) (text.drop 4) := by
  rcases Nat.lt_or_ge text.length 4 with h | h
  · exact .inr ⟨by rw [List.length_take]; omega, List.drop_eq_nil_of_le h.le⟩
  · exact .inl (List.length_take_of_le h)

lemma decodeEscapes_code {chars rest : List Char} {code : Nat} (hchars : TakesUp chars rest)
    (hcode : escapeCode? chars = some code) (hvalid : code.isValidChar) :
    decodeEscapes ('\\' :: 'u' :: chars ++ rest) =
      (decodeEscapes rest).map (Char.ofNat code :: ·) := by
  have hcut : (chars ++ rest).take 4 = chars ∧ (chars ++ rest).drop 4 = rest := by
    rcases hchars with h | ⟨h, rfl⟩
    · exact ⟨List.take_left' h, List.drop_left' h⟩
    · rw [List.append_nil]
      exact ⟨List.take_of_length_le h.le, List.drop_eq_nil_of_le h.le⟩
  rw [List.cons_append, List.cons_append, decodeEscapes, hcut.1, hcut.2, hcode]
  exact if_pos hvalid

lemma isValidChar_of_short {digits : List Char} (hdigits : ∀ c ∈ digits, isHexadecimal c)
    (hlength : digits.length ≤ 3) : (numeral 16 digits).isValidChar := by
  have hlt := (numeral_lt hdigits).trans_le (Nat.pow_le_pow_right (by decide) hlength)
  exact (isValidChar_iff (by omega)).2 (by unfold IsSurrogate; omega)

lemma isValidChar_of_four {digits : List Char} (hdigits : ∀ c ∈ digits, isHexadecimal c)
    (hlength : digits.length = 4) :
    (numeral 16 digits).isValidChar ↔ ¬ IsSurrogate (numeral 16 digits) := by
  have hlt := numeral_lt hdigits
  rw [hlength] at hlt
  exact isValidChar_iff (by omega)

lemma unit_of_code {chars rest : List Char} {code : Nat} (hchars : TakesUp chars rest)
    (hcode : escapeCode? chars = some code) (hvalid : code.isValidChar) :
    EscapeUnit ('\\' :: 'u' :: chars) (Char.ofNat code) ∨
      LooseUnit ('\\' :: 'u' :: chars) (Char.ofNat code) rest := by
  obtain ⟨digits, rfl | rfl, hne, hdigits, rfl⟩ := escapeCode?_eq_some_iff.1 hcode
  · rcases hchars with hlength | ⟨hlength, rfl⟩
    · exact .inl (.code hlength hdigits ((isValidChar_of_four hdigits hlength).1 hvalid))
    · exact .inr (.short hne hdigits hlength)
  · refine .inr (.plus hne hdigits ?_)
    rcases hchars with hlength | ⟨hlength, rfl⟩
    · exact .inl (Nat.succ.inj hlength)
    · exact .inr ⟨Nat.lt_of_succ_lt_succ hlength, rfl⟩

end Literal

/-! ### Decoding a text -/

lemma EscapeUnit.spelling {unit : List Char} {c : Char} (h : EscapeUnit unit c) :
    CharSpelling '\\' c unit := by
  cases h with
  | plain h => exact .plain h h
  | letter h => exact .letter (Literal.simpleEscape?_eq_some_iff.2 h)
  | code hlength hdigits hcode =>
    have hhex := fun c hc => (Scanner.isHexDigit_iff c).2 (hdigits c hc)
    rw [← Literal.isValidChar_of_four hdigits hlength] at hcode
    rw [← Literal.ofDigits_eq_numeral 16 hhex] at hcode ⊢
    exact .code hlength hhex hcode

lemma LooseUnit.decodes {unit rest : List Char} {c : Char} (h : LooseUnit unit c rest) :
    Literal.decodeEscapes (unit ++ rest) = (Literal.decodeEscapes rest).map (c :: ·) := by
  cases h with
  | @plus digits _ hne hdigits hlength =>
    refine Literal.decodeEscapes_code ?_
      (Literal.escapeCode?_eq_some_iff.2 ⟨digits, .inr rfl, hne, hdigits, rfl⟩)
      (Literal.isValidChar_of_short hdigits (by omega))
    rcases hlength with hlength | ⟨hlength, hrest⟩
    · exact .inl (congrArg Nat.succ hlength)
    · exact .inr ⟨Nat.succ_lt_succ hlength, hrest⟩
  | @short digits hne hdigits hlength =>
    exact Literal.decodeEscapes_code (.inr ⟨hlength, rfl⟩)
      (Literal.escapeCode?_eq_some_iff.2 ⟨digits, .inl rfl, hne, hdigits, rfl⟩)
      (Literal.isValidChar_of_short hdigits (by omega))

namespace Decoded

lemma decodeEscapes_eq {body text : List Char} (h : Decoded body text) :
    Literal.decodeEscapes body = .ok text := by
  induction h with
  | nil => rw [Literal.decodeEscapes]
  | unit hunit _ ih =>
    rw [Literal.decodeEscapes_append hunit.spelling, ih]
    rfl
  | loose hunit _ ih =>
    rw [hunit.decodes, ih]
    rfl

lemma exists_of_map {c : Char} {result : Except LiteralFault (List Char)} {text : List Char}
    (h : result.map (c :: ·) = .ok text) : ∃ rest, result = .ok rest ∧ text = c :: rest := by
  cases result with
  | error => contradiction
  | ok rest => exact ⟨rest, rfl, (Except.ok.inj h).symm⟩

lemma of_decodeEscapes {body text : List Char} (h : Literal.decodeEscapes body = .ok text) :
    Decoded body text := by
  fun_induction Literal.decodeEscapes body generalizing text with
  | case1 =>
    obtain rfl := Except.ok.inj h
    exact .nil
  | case2 | case3 | case5 | case7 => contradiction
  | case4 rest digits code hcode hvalid =>
    rename_i ih
    obtain ⟨text, hrest, rfl⟩ := exists_of_map h
    have heq : '\\' :: 'u' :: rest = '\\' :: 'u' :: rest.take 4 ++ rest.drop 4 := by
      rw [List.cons_append, List.cons_append, List.take_append_drop]
    rw [heq]
    rcases Literal.unit_of_code (Literal.takesUp_take rest) hcode hvalid with hunit | hunit
    · exact .unit hunit (ih hrest)
    · exact .loose hunit (ih hrest)
  | case6 c rest _ meant hmeant ih =>
    obtain ⟨text, hrest, rfl⟩ := exists_of_map h
    exact .unit (.letter (Literal.simpleEscape?_eq_some_iff.1 hmeant)) (ih hrest)
  | case8 c rest hlast hcode hletter ih =>
    obtain ⟨text, hrest, rfl⟩ := exists_of_map h
    have hc : c ≠ '\\' := by
      rintro rfl
      cases rest with
      | nil => exact hlast rfl rfl
      | cons letter rest => exact hletter letter rest rfl rfl
    exact .unit (.plain hc) (ih hrest)

end Decoded

/-! ### Units and what stands behind them -/

lemma EscapeUnit.length_eq {unit unit' rest rest' : List Char} {c c' : Char}
    (h : EscapeUnit unit c) (h' : EscapeUnit unit' c') (heq : unit ++ rest = unit' ++ rest') :
    unit.length = unit'.length := by
  cases h with
  | plain hplain =>
    cases h' with
    | plain => rfl
    | letter | code => exact absurd (List.cons.inj heq).1 hplain
  | letter hletter =>
    cases h' with
    | plain hplain => exact absurd (List.cons.inj heq).1.symm hplain
    | letter => rfl
    | code =>
      obtain ⟨rfl, -⟩ := List.cons.inj (List.cons.inj heq).2
      exact absurd hletter (Literal.u_notMem_escapeLetters c)
  | code hlength =>
    cases h' with
    | plain hplain => exact absurd (List.cons.inj heq).1.symm hplain
    | letter hletter =>
      obtain ⟨rfl, -⟩ := List.cons.inj (List.cons.inj heq).2
      exact absurd hletter (Literal.u_notMem_escapeLetters c')
    | code hlength' => rw [List.length_cons, List.length_cons, hlength, List.length_cons,
        List.length_cons, hlength']

namespace Denotes

lemma decoded {body text : List Char} (h : Denotes body text) : Decoded body text := by
  induction h with
  | nil => exact .nil
  | cons hunit _ ih => exact .unit hunit ih

lemma of_cons {unit rest text : List Char} {c : Char} (hunit : EscapeUnit unit c)
    (h : Denotes (unit ++ rest) text) : ∃ text', Denotes rest text' := by
  generalize hbody : unit ++ rest = body at h
  cases h with
  | nil =>
    obtain ⟨rfl, -⟩ := List.append_eq_nil_iff.1 hbody
    cases hunit
  | cons hunit' h =>
    obtain ⟨-, rfl⟩ := List.append_inj hbody (hunit.length_eq hunit' hbody)
    exact ⟨_, h⟩

lemma of_append {before rest text text' : List Char} (hbefore : Denotes before text')
    (h : Denotes (before ++ rest) text) : ∃ text', Denotes rest text' := by
  induction hbefore generalizing text with
  | nil => exact ⟨text, h⟩
  | cons hunit _ ih =>
    rw [List.append_assoc] at h
    obtain ⟨text', h⟩ := h.of_cons hunit
    exact ih h

end Denotes

lemma LooseUnit.not_denotes {unit rest : List Char} {c : Char} (h : LooseUnit unit c rest)
    (text : List Char) : ¬ Denotes (unit ++ rest) text := by
  intro hdenotes
  generalize hbody : unit ++ rest = body at hdenotes
  cases hdenotes with
  | nil =>
    obtain ⟨rfl, -⟩ := List.append_eq_nil_iff.1 hbody
    cases h
  | cons hunit _ =>
    cases hunit with
    | plain hplain => cases h <;> exact absurd (List.cons.inj hbody).1.symm hplain
    | @letter letter _ hletter =>
      have hu : letter = 'u' := by
        cases h <;> exact (List.cons.inj (List.cons.inj hbody).2).1.symm
      exact Literal.u_notMem_escapeLetters _ (hu ▸ hletter)
    | @code digits hlength hdigits _ =>
      cases h with
      | plus =>
        have hchars := (List.cons.inj (List.cons.inj hbody).2).2
        cases digits with
        | nil => contradiction
        | cons d digits =>
          obtain ⟨rfl, -⟩ := List.cons.inj hchars
          exact absurd (hdigits '+' List.mem_cons_self) (by decide)
      | short _ _ hshort =>
        have hchars := congrArg List.length (List.cons.inj (List.cons.inj hbody).2).2
        rw [List.append_eq, List.append_nil, List.append_eq, List.length_append, hlength] at hchars
        omega

lemma MeetsLoose.cons {unit body : List Char} {c : Char} (hunit : EscapeUnit unit c)
    (h : MeetsLoose body) : MeetsLoose (unit ++ body) := by
  obtain ⟨before, text, loose, d, rest, rfl, hbefore, hloose⟩ := h
  exact ⟨unit ++ before, c :: text, loose, d, rest, (List.append_assoc _ _ _).symm,
    .cons hunit hbefore, hloose⟩

/-- The units of a text account for all that the decoder makes of it unless it takes something for
an escape that is none. -/
lemma denotes_iff {body text : List Char} :
    Denotes body text ↔ Literal.decodeEscapes body = .ok text ∧ ¬ MeetsLoose body := by
  constructor
  · intro h
    refine ⟨h.decoded.decodeEscapes_eq, ?_⟩
    rintro ⟨before, _, loose, c, rest, rfl, hbefore, hloose⟩
    obtain ⟨text', hrest⟩ := hbefore.of_append h
    exact hloose.not_denotes text' hrest
  · rintro ⟨hdecode, hstrict⟩
    have h := Decoded.of_decodeEscapes hdecode
    clear hdecode
    induction h with
    | nil => exact .nil
    | unit hunit _ ih => exact .cons hunit (ih fun h => hstrict (h.cons hunit))
    | @loose unit body _ c hunit _ _ =>
      exact absurd ⟨[], [], unit, c, body, rfl, .nil, hunit⟩ hstrict

/-! ### Reading a text between quotes -/

namespace Reader

/-- The value read where a string literal stands, or the error. -/
def stringResult (token : Token) (cursor : Cursor) :
    Except LiteralFault (List Char) → EStateM.Result SyntaxError Cursor WrittenValue
  | .ok text => .ok (.string (String.ofList text)) cursor.forward
  | .error fault =>
    .error (.invalidLiteral token.lexeme fault.message token.start) cursor.forward

/-- The value read where a character literal stands, or the error. -/
def charResult (token : Token) (cursor : Cursor) :
    Except LiteralFault (List Char) → EStateM.Result SyntaxError Cursor WrittenValue
  | .ok [c] => .ok (.char c) cursor.forward
  | .ok _ =>
    .error (.invalidLiteral token.lexeme "expected a single character" token.start) cursor.forward
  | .error fault =>
    .error (.invalidLiteral token.lexeme fault.message token.start) cursor.forward

variable {token : Token} {cursor : Cursor} {rest : List Token} {body : List Char}
  (hcursor : cursor.rest = token :: rest)
include hcursor

lemma value_of_string (hkind : token.kind = .stringLiteral)
    (hlexeme : token.lexeme = String.ofList ('"' :: body ++ ['"'])) (room : Nat) :
    Reader.value (room + 1) cursor = stringResult token cursor (Literal.decodeEscapes body) := by
  have hinside : Literal.inside token.lexeme = body := by rw [hlexeme, Literal.inside_quoted]
  rw [Reader.value_of_literal hcursor (by rw [hkind]; rfl), literal, Literal.value, hkind]
  dsimp only
  rw [hinside]
  cases Literal.decodeEscapes body <;> rfl

lemma value_of_char (hkind : token.kind = .charLiteral)
    (hlexeme : token.lexeme = String.ofList ('\'' :: body ++ ['\''])) (room : Nat) :
    Reader.value (room + 1) cursor = charResult token cursor (Literal.decodeEscapes body) := by
  have hinside : Literal.inside token.lexeme = body := by rw [hlexeme, Literal.inside_quoted]
  rw [Reader.value_of_literal hcursor (by rw [hkind]; rfl), literal, Literal.value, hkind]
  dsimp only
  rw [hinside]
  rcases Literal.decodeEscapes body with fault | text
  · rfl
  · rcases text with _ | ⟨c, _ | ⟨d, text⟩⟩ <;> rfl

end Reader

/-- **Escapes.** A text between quotes denotes something just if it is made of units, and this is
what the decoder makes of it, unless the decoder meets something that it takes for an escape
although it is none. All that it accepts is made of units and of these. What it does not accept is
an invalid literal, of a string as well as of a character, which has to be a single one. -/
theorem escapes_decoded (body : List Char) :
    (∀ text, Denotes body text ↔ Literal.decodeEscapes body = .ok text ∧ ¬ MeetsLoose body) ∧
      (∀ text, Literal.decodeEscapes body = .ok text ↔ Decoded body text) ∧
      ((∀ text, ¬ Denotes body text) → ¬ MeetsLoose body →
        ∃ fault, Literal.decodeEscapes body = .error fault) ∧
      ∀ (token : Token) (cursor : Cursor) (rest : List Token) (room : Nat),
        cursor.rest = token :: rest →
        (token.kind = .stringLiteral → token.lexeme = String.ofList ('"' :: body ++ ['"']) →
          Reader.value (room + 1) cursor =
            Reader.stringResult token cursor (Literal.decodeEscapes body)) ∧
        (token.kind = .charLiteral → token.lexeme = String.ofList ('\'' :: body ++ ['\'']) →
          Reader.value (room + 1) cursor =
            Reader.charResult token cursor (Literal.decodeEscapes body)) := by
  refine ⟨fun _ => denotes_iff, fun _ => ⟨Decoded.of_decodeEscapes, Decoded.decodeEscapes_eq⟩, ?_,
    fun token cursor rest room hcursor =>
      ⟨fun hkind hlexeme => Reader.value_of_string hcursor hkind hlexeme room,
        fun hkind hlexeme => Reader.value_of_char hcursor hkind hlexeme room⟩⟩
  intro hnone hstrict
  rcases hdecode : Literal.decodeEscapes body with fault | text
  · exact ⟨fault, rfl⟩
  · exact absurd (denotes_iff.2 ⟨hdecode, hstrict⟩) (hnone text)

/-- A letter, an escape by code and one by letter. -/
theorem escapes_decoded_threeUnits :
    Literal.decodeEscapes "a\\u0041\\n".toList = .ok "aA\n".toList ∧
      ¬ MeetsLoose "a\\u0041\\n".toList :=
  have hdigits : ∀ c ∈ "0041".toList, isHexadecimal c := fun c hc =>
    (Scanner.isHexDigit_iff c).1 (List.all_eq_true.1 (by decide) c hc)
  ((escapes_decoded _).1 _).1 <| .cons (.plain (by decide)) <|
    .cons (.code rfl hdigits (by decide)) <| .cons (.letter (by decide)) .nil

/-- A plus sign and three digits are taken for four digits. -/
theorem escapes_decoded_plusSign :
    Literal.decodeEscapes "\\u+041".toList = .ok ['A'] ∧
      ∀ text, ¬ Denotes "\\u+041".toList text := by
  have hdigits : ∀ c ∈ "041".toList, isHexadecimal c := fun c hc =>
    (Scanner.isHexDigit_iff c).1 (List.all_eq_true.1 (by decide) c hc)
  have hunit : LooseUnit "\\u+041".toList 'A' [] := .plus (by decide) hdigits (.inl rfl)
  exact ⟨(Decoded.loose hunit .nil).decodeEscapes_eq, hunit.not_denotes⟩

end ExternalAnnotations
