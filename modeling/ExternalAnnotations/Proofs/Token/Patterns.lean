import ExternalAnnotations.Token
import ExternalAnnotations.Proofs.Index.Productions

/-!
# The patterns of lexemes

The lexemes of each kind as a regular language, `pattern`, and what its words begin with and are
made of. The languages of strings and comments are also read character by character.
-/

namespace ExternalAnnotations

open scoped Computability

namespace Pattern

/-! ### Characters -/

/-- The characters from one to another. -/
def between (low high c : Char) : Prop := low ≤ c ∧ c ≤ high

def isDecimal (c : Char) : Prop := between '0' '9' c

def isHexadecimal (c : Char) : Prop := isDecimal c ∨ between 'a' 'f' c ∨ between 'A' 'F' c

def startsName (c : Char) : Prop :=
  between 'a' 'z' c ∨ between 'A' 'Z' c ∨ c = '_' ∨ c = '$'

def continuesName (c : Char) : Prop := startsName c ∨ isDecimal c

def isSpacing (c : Char) : Prop := c = ' ' ∨ c = '\t' ∨ c = '\n' ∨ c = '\r'

instance (low high : Char) : DecidablePred (between low high) :=
  fun c => inferInstanceAs (Decidable (low ≤ c ∧ c ≤ high))

instance : DecidablePred isDecimal := fun c => inferInstanceAs (Decidable (between '0' '9' c))

instance : DecidablePred isHexadecimal :=
  fun c => inferInstanceAs (Decidable (isDecimal c ∨ between 'a' 'f' c ∨ between 'A' 'F' c))

instance : DecidablePred startsName :=
  fun c => inferInstanceAs (Decidable (between 'a' 'z' c ∨ between 'A' 'Z' c ∨ c = '_' ∨ c = '$'))

instance : DecidablePred continuesName :=
  fun c => inferInstanceAs (Decidable (startsName c ∨ isDecimal c))

instance : DecidablePred isSpacing :=
  fun c => inferInstanceAs (Decidable (c = ' ' ∨ c = '\t' ∨ c = '\n' ∨ c = '\r'))

/-! ### Languages -/

/-- One character of a class. -/
def oneOf (isIn : Char → Prop) : Language Char := {word | ∃ c, isIn c ∧ word = [c]}

/-- One given text. -/
def spelling (text : String) : Language Char := {word | word = text.toList}

def opt (l : Language Char) : Language Char := 1 + l

/-- A word or more. -/
def plus (l : Language Char) : Language Char := l * l∗

def sign : Language Char := opt (spelling "-")

def longSuffix : Language Char := opt (oneOf fun c => c = 'l' ∨ c = 'L')

def exponent : Language Char :=
  oneOf (fun c => c = 'e' ∨ c = 'E') * opt (oneOf fun c => c = '+' ∨ c = '-') *
    plus (oneOf isDecimal)

/-- A backslash, `u` and four hexadecimal digits. -/
def unicodeEscape : Language Char := spelling "\\u" * oneOf isHexadecimal ^ 4

/-- A backslash and any character that does not end the line. -/
def shortEscape : Language Char := spelling "\\" * oneOf (· ≠ '\n')

/-- What can stand between the quotes of a string literal. -/
def stringBody : Language Char :=
  (oneOf (fun c => c ≠ '"' ∧ c ≠ '\\') + unicodeEscape + shortEscape)∗

/-- Other characters than stars, then stars. -/
def starred : Language Char := (oneOf (· ≠ '*'))∗ * plus (spelling "*")

end Pattern

open Pattern in
/-- The lexemes of a kind. -/
def pattern : TokenKind → Language Char
  | .packageWord => spelling "package"
  | .classWord => spelling "class"
  | .annotationWord => spelling "annotation"
  | .annotationFieldWord => spelling "annotation-field"
  | .methodWord => spelling "method"
  | .fieldWord => spelling "field"
  | .returnWord => spelling "return"
  | .parameterWord => spelling "parameter"
  | .typeWord => spelling "type"
  | .enumWord => spelling "enum"
  | .trueWord => spelling "true"
  | .falseWord => spelling "false"
  | .colon => spelling ":"
  | .atSign => spelling "@"
  | .openParen => spelling "("
  | .closeParen => spelling ")"
  | .openBrace => spelling "\x7b"
  | .closeBrace => spelling "\x7d"
  | .openBracket => spelling "["
  | .closeBracket => spelling "]"
  | .comma => spelling ","
  | .equals => spelling "="
  | .dot => spelling "."
  | .hash => spelling "#"
  | .semicolon => spelling ";"
  | .slash => spelling "/"
  | .stringLiteral => spelling "\"" * stringBody * spelling "\""
  | .charLiteral =>
    spelling "'" *
      (oneOf (fun c => c ≠ '\'' ∧ c ≠ '\\') + unicodeEscape + shortEscape) * spelling "'"
  | .hexInteger =>
    sign * spelling "0" * oneOf (fun c => c = 'x' ∨ c = 'X') * plus (oneOf isHexadecimal) *
      longSuffix
  | .decimalInteger => sign * plus (oneOf isDecimal) * longSuffix
  | .floatLiteral =>
    sign * plus (oneOf isDecimal) * spelling "." * plus (oneOf isDecimal) * opt exponent *
      opt (oneOf fun c => c = 'f' ∨ c = 'F' ∨ c = 'd' ∨ c = 'D')
  | .identifier => oneOf startsName * (oneOf continuesName)∗
  | .specialName => spelling "<" * opt (spelling "cl") * spelling "init>"
  | .lineComment => spelling "//" * (oneOf (· ≠ '\n'))∗
  | .blockComment =>
    spelling "/*" * starred * (oneOf (fun c => c ≠ '/' ∧ c ≠ '*') * starred)∗ * spelling "/"
  | .whitespace => plus (oneOf isSpacing)
  | .byteOrderMark => spelling "\uFEFF"
  | .unknown => oneOf fun c => ¬ isSpacing c

namespace Pattern

variable {l m : Language Char} {isIn p : Char → Prop} {c : Char} {word : List Char}

lemma mem_spelling {text : String} : word ∈ spelling text ↔ word = text.toList := Iff.rfl

lemma length_of_mem_oneOf (h : word ∈ oneOf isIn) : word.length = 1 := by
  obtain ⟨c, -, rfl⟩ := h
  rfl

lemma length_of_mem_pow (count : Nat) (h : word ∈ oneOf isIn ^ count) : word.length = count := by
  induction count generalizing word with
  | zero =>
    rw [pow_zero, Language.mem_one] at h
    exact congrArg List.length h
  | succ count ih =>
    rw [pow_succ', Language.mem_mul] at h
    obtain ⟨first, hfirst, rest, hrest, rfl⟩ := h
    rw [List.length_append, length_of_mem_oneOf hfirst, ih hrest, Nat.add_comm]

lemma spelling_append (first second : String) :
    spelling (first ++ second) = spelling first * spelling second := by
  ext word
  simp only [Language.mem_mul, mem_spelling, String.toList_append, exists_eq_left, eq_comm]

/-! ### The characters of words -/

/-- The words of a language are made of characters of a class. -/
def MadeOf (l : Language Char) (p : Char → Prop) : Prop := ∀ word ∈ l, ∀ c ∈ word, p c

/-- The words of a language that are not empty begin with characters of a class. -/
def BeginsWith (l : Language Char) (p : Char → Prop) : Prop := ∀ c word, c :: word ∈ l → p c

lemma MadeOf.beginsWith (h : MadeOf l p) : BeginsWith l p :=
  fun c _ hword => h _ hword c List.mem_cons_self

namespace MadeOf

lemma mono {q : Char → Prop} (h : MadeOf l p) (hpq : ∀ c, p c → q c) : MadeOf l q :=
  fun _ hword c hc => hpq c (h _ hword c hc)

lemma oneOf (h : ∀ c, isIn c → p c) : MadeOf (oneOf isIn) p := by
  rintro _ ⟨c, hc, rfl⟩ d hd
  obtain rfl := List.mem_singleton.1 hd
  exact h d hc

lemma spelling {text : String} (h : text.toList.Forall p) : MadeOf (spelling text) p := by
  rintro _ rfl
  exact List.forall_iff_forall_mem.1 h

lemma mul (hl : MadeOf l p) (hm : MadeOf m p) : MadeOf (l * m) p := by
  intro word hword c hc
  obtain ⟨first, hfirst, second, hsecond, rfl⟩ := Language.mem_mul.1 hword
  rcases List.mem_append.1 hc with hc | hc
  · exact hl first hfirst c hc
  · exact hm second hsecond c hc

lemma kstar (h : MadeOf l p) : MadeOf l∗ p := by
  intro word hword c hc
  obtain ⟨words, rfl, hwords⟩ := Language.mem_kstar.1 hword
  obtain ⟨part, hpart, hc⟩ := List.mem_flatten.1 hc
  exact h part (hwords part hpart) c hc

lemma plus (h : MadeOf l p) : MadeOf (plus l) p := h.mul h.kstar

lemma opt (h : MadeOf l p) : MadeOf (opt l) p := by
  rintro _ (rfl | hword)
  · simp
  · exact h _ hword

end MadeOf

namespace BeginsWith

lemma oneOf (h : ∀ c, isIn c → p c) : BeginsWith (oneOf isIn) p := (MadeOf.oneOf h).beginsWith

lemma spelling {text : String} (h : (text.toList.take 1).Forall p) :
    BeginsWith (spelling text) p := by
  intro c word hword
  rw [← mem_spelling.1 hword] at h
  exact h

lemma opt (h : BeginsWith l p) : BeginsWith (opt l) p := by
  rintro c word (hword | hword)
  · contradiction
  · exact h c word hword

lemma mul (hl : BeginsWith l p) (hempty : [] ∉ l) : BeginsWith (l * m) p := by
  intro c word hword
  obtain ⟨first, hfirst, second, -, heq⟩ := Language.mem_mul.1 hword
  cases first with
  | nil => contradiction
  | cons d first =>
    obtain ⟨rfl, -⟩ := List.cons.inj heq
    exact hl d first hfirst

lemma mul_of_empty (hl : BeginsWith l p) (hm : BeginsWith m p) : BeginsWith (l * m) p := by
  intro c word hword
  obtain ⟨first, hfirst, second, hsecond, heq⟩ := Language.mem_mul.1 hword
  cases first with
  | nil => exact hm c word (heq ▸ hsecond)
  | cons d first =>
    obtain ⟨rfl, -⟩ := List.cons.inj heq
    exact hl d first hfirst

end BeginsWith

/-! ### Membership, character by character -/

lemma cons_mem_oneOf_mul : c :: word ∈ oneOf isIn * l ↔ isIn c ∧ word ∈ l := by
  rw [Language.mem_mul]
  constructor
  · rintro ⟨_, ⟨d, hd, rfl⟩, rest, hrest, heq⟩
    obtain ⟨rfl, rfl⟩ := List.cons.inj heq
    exact ⟨hd, hrest⟩
  · rintro ⟨hc, hword⟩
    exact ⟨[c], ⟨c, hc, rfl⟩, word, hword, rfl⟩

lemma nil_notMem_mul (h : [] ∉ m) : [] ∉ l * m := by
  rw [Language.mem_mul]
  rintro ⟨first, -, second, hsecond, heq⟩
  obtain ⟨-, rfl⟩ := List.append_eq_nil_iff.1 heq
  exact h hsecond

lemma nil_notMem_oneOf_mul : [] ∉ oneOf isIn * l := by
  rw [Language.mem_mul]
  rintro ⟨_, ⟨c, -, rfl⟩, rest, -, heq⟩
  contradiction

lemma spelling_eq_oneOf {text : String} (h : text.toList = [c]) :
    spelling text = oneOf (· = c) := by
  ext word
  exact ⟨fun hword => ⟨c, rfl, hword.trans h⟩, fun ⟨_, hd, hword⟩ => hword.trans (hd ▸ h.symm)⟩

lemma cons_mem_spelling_mul {d : Char} {text : String} (h : text.toList = [d]) :
    c :: word ∈ spelling text * l ↔ c = d ∧ word ∈ l := by
  rw [spelling_eq_oneOf h, cons_mem_oneOf_mul]

/-- The digits of an escape would do as plain characters. -/
lemma stringBody_eq : stringBody = (oneOf (fun c => c ≠ '"' ∧ c ≠ '\\') + shortEscape)∗ := by
  generalize hplain : oneOf (fun c => c ≠ '"' ∧ c ≠ '\\') = plain
  have hp : plain ≤ (plain + shortEscape)∗ := (le_add_right le_rfl).trans le_kstar
  have hs : shortEscape ≤ (plain + shortEscape)∗ := (le_add_left le_rfl).trans le_kstar
  have hdigit : oneOf isHexadecimal ≤ plain := by
    rw [← hplain]
    rintro _ ⟨c, hc, rfl⟩
    refine ⟨c, ⟨?_, ?_⟩, rfl⟩
    all_goals
      rintro rfl
      exact absurd hc (by decide)
  have hdigits : oneOf isHexadecimal ^ 4 ≤ (plain + shortEscape)∗ := by
    simpa only [kstar_idem] using (pow_le_kstar (n := 4)).trans (kstar_mono (hdigit.trans hp))
  have hu : spelling "\\u" ≤ shortEscape := by
    rintro _ rfl
    exact Language.mem_mul.2 ⟨['\\'], rfl, ['u'], ⟨'u', by decide, rfl⟩, rfl⟩
  have hunicode : unicodeEscape ≤ (plain + shortEscape)∗ :=
    (mul_le_mul' (hu.trans hs) hdigits).trans_eq (kstar_mul_kstar _)
  rw [stringBody, hplain]
  refine le_antisymm ?_ (kstar_mono (add_le_add (le_add_right le_rfl) le_rfl))
  exact (kstar_mono (add_le (add_le hp hunicode) hs)).trans_eq (kstar_idem _)

lemma nil_notMem_oneOf : [] ∉ oneOf isIn := by
  rintro ⟨c, -, heq⟩
  contradiction

lemma mem_oneOf_mul : word ∈ oneOf isIn * l ↔ ∃ c rest, word = c :: rest ∧ isIn c ∧ rest ∈ l := by
  cases word with
  | nil => simp [nil_notMem_oneOf_mul]
  | cons c word => simp [cons_mem_oneOf_mul]

lemma cons_mem_stringBody_mul : c :: word ∈ stringBody * l ↔ c :: word ∈ l ∨
    (c ≠ '"' ∧ c ≠ '\\' ∧ word ∈ stringBody * l) ∨
      (c = '\\' ∧ ∃ d rest, word = d :: rest ∧ d ≠ '\n' ∧ rest ∈ stringBody * l) := by
  rw [stringBody_eq, Production.mem_kstar_mul, add_mul, Language.mem_add, cons_mem_oneOf_mul,
    shortEscape, mul_assoc, cons_mem_spelling_mul (d := '\\') rfl, mem_oneOf_mul, and_assoc]

/-- What can follow a star inside a block comment. -/
def afterStar : Language Char :=
  (spelling "*")∗ * ((oneOf (fun c => c ≠ '/' ∧ c ≠ '*') * starred)∗ * spelling "/")

/-- What can follow the opening of a block comment. -/
def commentBody : Language Char :=
  starred * ((oneOf (fun c => c ≠ '/' ∧ c ≠ '*') * starred)∗ * spelling "/")

lemma cons_mem_commentBody : c :: word ∈ commentBody ↔
    (c = '*' ∧ word ∈ afterStar) ∨ (c ≠ '*' ∧ word ∈ commentBody) := by
  have heq : commentBody = (oneOf (· ≠ '*'))∗ * (spelling "*" * afterStar) := by
    simp only [commentBody, afterStar, starred, plus, mul_assoc]
  rw [heq, Production.mem_kstar_mul, cons_mem_spelling_mul (d := '*') rfl, cons_mem_oneOf_mul]

lemma cons_mem_afterStar : c :: word ∈ afterStar ↔ (c = '/' ∧ word = []) ∨
    (c ≠ '/' ∧ c ≠ '*' ∧ word ∈ commentBody) ∨ (c = '*' ∧ word ∈ afterStar) := by
  have hslash : c :: word ∈ spelling "/" ↔ c = '/' ∧ word = [] := List.cons_eq_cons
  rw [afterStar, Production.mem_kstar_mul, Production.mem_kstar_mul, mul_assoc,
    cons_mem_spelling_mul (d := '*') rfl, cons_mem_oneOf_mul, or_assoc, and_assoc, hslash]
  rfl

lemma nil_notMem_spelling {text : String} (h : text ≠ "") : [] ∉ spelling text :=
  fun hempty => h (String.toList_eq_nil_iff.1 (mem_spelling.1 hempty).symm)

lemma nil_notMem_afterStar : [] ∉ afterStar :=
  nil_notMem_mul (nil_notMem_mul (nil_notMem_spelling (by decide)))

lemma nil_notMem_commentBody : [] ∉ commentBody :=
  nil_notMem_mul (nil_notMem_mul (nil_notMem_spelling (by decide)))

end Pattern

end ExternalAnnotations
