import ExternalAnnotations.Token.Lexer
import Mathlib.Tactic

/-!
# Names among the tokens

An ASCII Java identifier that is none of the reserved words is a name wherever it is a token of a
text, also if it is spelled like a keyword that is not reserved.
-/

namespace ExternalAnnotations

/-- Whether a text is an ASCII Java identifier. -/
def isJavaIdentifier (text : String) : Bool :=
  match text.toList with
  | [] => false
  | c :: text =>
    Scanner.isIdentifierStart c && text.all fun c => Scanner.isIdentifierStart c || c.isDigit

/-- The words that are keywords everywhere. -/
def reservedWords : List String := ["package", "class", "return", "enum", "true", "false"]

/-- Whether a text can be a name. -/
def isPlainName (text : String) : Bool := isJavaIdentifier text && !reservedWords.contains text

/-- The keywords that are also names. -/
def softWords : List (TokenKind × String) :=
  [(.annotationWord, "annotation"), (.methodWord, "method"), (.fieldWord, "field"),
    (.parameterWord, "parameter"), (.typeWord, "type")]

namespace Scanner

variable {c : Char} {text : List Char}

lemma take_of_word {spelling : String} {length : Nat} (h : word spelling text = some length) :
    text.take length = spelling.toList := by
  unfold word at h
  split at h
  · rename_i hprefix
    cases h
    rw [← String.length_toList]
    exact (List.prefix_iff_eq_take.1 (List.isPrefixOf_iff_prefix.1 hprefix)).symm
  · contradiction

lemma one_eq_none {isIn : Char → Bool} (h : isIn c = false) : one isIn (c :: text) = none := by
  simp [one, h]

lemma andThen_eq_none {first second : Scanner} (h : first text = none) :
    first.andThen second text = none := by
  simp [andThen, h]

lemma orElse_eq_none {first second : Scanner} (h : first text = none) (hs : second text = none) :
    first.orElse second text = none := by
  rw [orElse, h, hs]
  rfl

lemma run_eq_none {isIn : Char → Bool} (h : isIn c = false) : run isIn (c :: text) = none :=
  andThen_eq_none (one_eq_none h)

lemma minus_andThen_eq_none {second : Scanner} (hc : (c == '-') = false)
    (h : second (c :: text) = none) : minus.andThen second (c :: text) = none := by
  simp [andThen, minus, optional, char, one, hc, h]

lemma word_eq_none {d : Char} {spelling : List Char} (h : (c == d) = false) :
    word (String.ofList (d :: spelling)) (c :: text) = none := by
  have hne : d ≠ c := by
    rintro rfl
    simp at h
  simp [word, hne]

lemma isDigit_of_start (hc : isIdentifierStart c = true) : c.isDigit = false := by
  rw [Bool.eq_false_iff]
  intro hd
  obtain ⟨hlow, hhigh⟩ := Char.isDigit_iff_toNat.1 hd
  change 48 ≤ c.toNat at hlow
  change c.toNat ≤ 57 at hhigh
  rw [← Char.ofNat_toNat c] at hc
  interval_cases c.toNat <;> exact absurd hc (by decide)

lemma otherForms_eq_none (hc : isIdentifierStart c = true) :
    ∀ scan ∈ [specialName, stringLiteral, charLiteral, decimalInteger, hexInteger, floatLiteral,
      lineComment, blockComment, whitespace, byteOrderMark], scan (c :: text) = none := by
  have hne : ∀ d, isIdentifierStart d = false → (c == d) = false := by
    intro d hd
    rw [beq_eq_false_iff_ne]
    rintro rfl
    rw [hc] at hd
    contradiction
  have hdigit := isDigit_of_start hc
  simp only [List.forall_mem_cons, List.not_mem_nil, false_implies, implies_true, and_true]
  refine ⟨?_, ?_, ?_, ?_, ?_, ?_, ?_, ?_, ?_, ?_⟩
  · exact orElse_eq_none (word_eq_none (hne '<' rfl)) (word_eq_none (hne '<' rfl))
  · exact andThen_eq_none (one_eq_none (hne _ rfl))
  · exact andThen_eq_none (one_eq_none (hne _ rfl))
  · exact minus_andThen_eq_none (hne _ rfl) (andThen_eq_none (run_eq_none hdigit))
  · exact minus_andThen_eq_none (hne _ rfl) (andThen_eq_none (one_eq_none (hne _ rfl)))
  · exact minus_andThen_eq_none (hne _ rfl) (andThen_eq_none (run_eq_none hdigit))
  · exact andThen_eq_none (word_eq_none (hne '/' rfl))
  · exact andThen_eq_none (word_eq_none (hne '/' rfl))
  · refine run_eq_none ?_
    rw [isLayout, hne ' ' rfl, hne '\t' rfl, hne '\n' rfl, hne '\r' rfl]
    rfl
  · rw [byteOrderMark, char]
    exact one_eq_none (hne _ rfl)

end Scanner

namespace Lexer

/-- The words among the forms of lexemes. -/
def wordForms : List (TokenKind × String) := [
  (.packageWord, "package"),
  (.classWord, "class"),
  (.annotationWord, "annotation"),
  (.annotationFieldWord, "annotation-field"),
  (.methodWord, "method"),
  (.fieldWord, "field"),
  (.returnWord, "return"),
  (.parameterWord, "parameter"),
  (.typeWord, "type"),
  (.enumWord, "enum"),
  (.trueWord, "true"),
  (.falseWord, "false"),
  (.colon, ":"),
  (.atSign, "@"),
  (.openParen, "("),
  (.closeParen, ")"),
  (.openBrace, "\x7b"),
  (.closeBrace, "\x7d"),
  (.openBracket, "["),
  (.closeBracket, "]"),
  (.comma, ","),
  (.equals, "="),
  (.dot, "."),
  (.hash, "#"),
  (.semicolon, ";"),
  (.slash, "/")]

lemma forms_tail_eq : forms.tail =
    [(.specialName, Scanner.specialName), (.stringLiteral, Scanner.stringLiteral),
      (.charLiteral, Scanner.charLiteral), (.decimalInteger, Scanner.decimalInteger),
      (.hexInteger, Scanner.hexInteger), (.floatLiteral, Scanner.floatLiteral),
      (.lineComment, Scanner.lineComment), (.blockComment, Scanner.blockComment),
      (.whitespace, Scanner.whitespace), (.byteOrderMark, Scanner.byteOrderMark)] ++
    wordForms.map fun form => (form.1, Scanner.word form.2) := rfl

lemma mem_softWords_of_mem_wordForms : ∀ form ∈ wordForms, isPlainName form.2 = true →
    form ∈ softWords := by decide

lemma foldl_better_cases (text : List Char) (candidates : List (TokenKind × Scanner))
    (best : TokenKind × Nat) :
    candidates.foldl (better text) best = best ∨
      ∃ form ∈ candidates, form.1 = (candidates.foldl (better text) best).1 ∧
        form.2 text = some (candidates.foldl (better text) best).2 := by
  induction candidates generalizing best with
  | nil => exact .inl rfl
  | cons form candidates ih =>
    rw [List.foldl_cons]
    rcases ih (better text best form) with h | ⟨other, hmem, h⟩
    · rw [h]
      unfold better
      split
      · rename_i length hlength
        split
        · exact .inr ⟨form, List.mem_cons_self, rfl, hlength⟩
        · exact .inl rfl
      · exact .inl rfl
    · exact .inr ⟨other, List.mem_cons_of_mem _ hmem, h⟩

lemma longest_of_start {c : Char} (hc : Scanner.isIdentifierStart c = true) (text : List Char) :
    (longest (c :: text)).1 = .identifier ∨
      ∃ form ∈ wordForms, form.1 = (longest (c :: text)).1 ∧
        (c :: text).take (longest (c :: text)).2 = form.2.toList := by
  obtain ⟨length, hlength⟩ : ∃ length, better (c :: text) (.unknown, 1)
      (.identifier, Scanner.identifier) = (.identifier, length) := by
    simp [better, Scanner.identifier, Scanner.andThen, Scanner.one, Scanner.span, hc]
  have hlongest : longest (c :: text) =
      forms.tail.foldl (better (c :: text)) (.identifier, length) := by
    rw [← hlength]
    rfl
  rw [hlongest]
  rcases foldl_better_cases (c :: text) forms.tail (.identifier, length) with
    h | ⟨form, hmem, hkind, hscan⟩
  · exact .inl (congrArg Prod.fst h)
  · rw [forms_tail_eq, List.mem_append] at hmem
    rcases hmem with hother | hword
    · have hnone : form.2 (c :: text) = none :=
        Scanner.otherForms_eq_none hc form.2 (List.mem_map_of_mem (f := Prod.snd) hother)
      rw [hnone] at hscan
      contradiction
    · obtain ⟨word, hmem, rfl⟩ := List.mem_map.1 hword
      exact .inr ⟨word, hmem, hkind, Scanner.take_of_word hscan⟩

lemma leftOpen_eq_none {c : Char} (hslash : c ≠ '/') (hquote : c ≠ '"') (text : List Char) :
    leftOpen (c :: text) = none := by
  unfold leftOpen
  split
  · rename_i heq
    exact absurd (List.cons.inj heq).1 hslash
  · rename_i heq
    exact absurd (List.cons.inj heq).1 hquote
  · rfl

lemma leftOpen_of_start {c : Char} (hc : Scanner.isIdentifierStart c = true) (text : List Char) :
    leftOpen (c :: text) = none := by
  refine leftOpen_eq_none ?_ ?_ text
  all_goals
    rintro rfl
    exact absurd hc (by decide)

lemma next_of_isPlainName {text : List Char}
    (h : isPlainName (String.ofList (text.take (next text).2)) = true) :
    (next text).1 = .identifier ∨
      ((next text).1, String.ofList (text.take (next text).2)) ∈ softWords := by
  cases text with
  | nil =>
    rw [List.take_nil] at h
    exact absurd h (by decide)
  | cons c text =>
    have hc : Scanner.isIdentifierStart c = true := by
      obtain ⟨length, hlength⟩ :=
        Nat.exists_eq_succ_of_ne_zero (next_pos (List.cons_ne_nil c text)).ne'
      rw [hlength, List.take_succ_cons, isPlainName, isJavaIdentifier, String.toList_ofList] at h
      simp only [Bool.and_eq_true] at h
      exact h.1.1
    revert h
    rw [next, leftOpen_of_start hc]
    dsimp only
    split
    · exact fun _ => .inl rfl
    · split
      · rename_i hcut
        intro h
        rw [cutsNumber, Bool.and_eq_true, beq_iff_eq] at hcut
        rw [hcut.1] at h
        exact absurd h (by decide)
      · intro h
        rcases longest_of_start hc text with hkind | ⟨form, hform, hkind, htake⟩
        · exact .inl hkind
        · dsimp only at h ⊢
          rw [htake, String.ofList_toList] at h ⊢
          rw [← hkind]
          exact .inr (mem_softWords_of_mem_wordForms form hform h)

lemma kind_of_mem_tokensFrom {place : Location} {text : List Char} {token : Token}
    (h : token ∈ tokensFrom place text) : ∃ text, token.kind = (next text).1 ∧
      token.lexeme = String.ofList (text.take (next text).2) := by
  induction hn : text.length using Nat.strong_induction_on generalizing place text with
  | _ n ih =>
    cases text with
    | nil =>
      rw [tokensFrom] at h
      contradiction
    | cons c text =>
      rw [tokensFrom] at h
      rcases List.mem_cons.1 h with rfl | h
      · exact ⟨c :: text, rfl, rfl⟩
      · have hpos := next_pos (List.cons_ne_nil c text)
        refine ih _ ?_ h rfl
        rw [List.length_drop, ← hn, List.length_cons]
        omega

end Lexer

/-- A token whose lexeme can be a name is an identifier or one of the keywords that are names. -/
theorem kind_of_isPlainName {source : String} {token : Token} (h : token ∈ significantTokens source)
    (hname : isPlainName token.lexeme = true) :
    token.kind = .identifier ∨ (token.kind, token.lexeme) ∈ softWords := by
  obtain ⟨text, hkind, hlexeme⟩ := Lexer.kind_of_mem_tokensFrom (List.mem_filter.1 h).1
  rw [hlexeme] at hname
  rw [hkind, hlexeme]
  exact Lexer.next_of_isPlainName hname

end ExternalAnnotations
