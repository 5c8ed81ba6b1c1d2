import ExternalAnnotations.Index.Parser
import Mathlib

/-!
# The productions of an index

The sequences of tokens that the grammar of an index derives, as a language for each nonterminal.
A `Dialect` says what the grammar leaves to its readers: `Dialect.documented` is the grammar as it
is documented, and `Dialect.accepted` has what the parser takes besides.
-/

namespace ExternalAnnotations

open scoped Computability

namespace Production

/-! ### Names and literals -/

/-- One token of a class. -/
def one (isIn : Token → Prop) : Language Token := {tokens | ∃ token, isIn token ∧ tokens = [token]}

def word (kind : TokenKind) : Language Token := one fun token => token.kind = kind

def opt (l : Language Token) : Language Token := 1 + l

/-- One item or more, with commas between them. -/
def separated (item : Language Token) : Language Token := item * (word .comma * item)∗

def name : Language Token := one fun token => token.kind.isName = true

def qualifiedName : Language Token := name * (word .dot * name)∗

def literal : Language Token :=
  one fun token => token.kind.isLiteral = true ∧ ∃ value, Literal.value token = .ok value

/-- The names in some tokens, with dots between them. -/
def joinedNames (tokens : List Token) : String :=
  ".".intercalate ((tokens.filter (·.kind.isName)).map (·.lexeme))

end Production

/-! ### Dialects -/

/-- What can differ between readers of the grammar. -/
structure Dialect where
  /-- What can name an element. -/
  elementName : Language Token
  /-- What can stand between the parentheses of an annotation in place of its arguments. -/
  noArguments : Language Token
  /-- What names a primitive type, `String` or `Class`. -/
  typeName : Language Token

namespace Dialect

open Production

/-- The element types that are names. -/
def typeNames : List String :=
  ["boolean", "byte", "char", "short", "int", "long", "float", "double", "String", "Class"]

/-- The grammar as it is documented. -/
def documented : Dialect where
  elementName := name
  noArguments := 0
  typeName := one fun token => token.kind.isName = true ∧ token.lexeme ∈ typeNames

/-- The grammar with what the parser takes besides: any keyword but a literal as the name of an
element, parentheses with nothing in them, and the qualified names of `String` and `Class`. -/
def accepted : Dialect where
  elementName := one fun token =>
    token.kind = .identifier ∨ (token.kind.isKeyword = true ∧ token.kind.isLiteral = false)
  noArguments := 1
  typeName := {tokens | tokens ∈ qualifiedName ∧
    joinedNames tokens ∈ typeNames ++ ["java.lang.String", "java.lang.Class"]}

end Dialect

namespace Production

variable (dialect : Dialect)

/-! ### Annotations and values -/

/-- An annotation, given what its arguments can be. -/
def useOf (value : Language Token) : Language Token :=
  word .atSign * qualifiedName * opt (word .openParen *
    (value + separated (dialect.elementName * word .equals * value) + dialect.noArguments) *
      word .closeParen)

/-- A value, given what can be nested in it. -/
def valueOf (value : Language Token) : Language Token :=
  literal + qualifiedName * opt (word .dot * word .classWord) +
    word .openBrace * opt (separated value) * word .closeBrace + useOf dialect value

variable {dialect} in
lemma separated_mono {item item' : Language Token} (h : item ≤ item') :
    separated item ≤ separated item' :=
  mul_le_mul' h (kstar_mono (mul_le_mul' le_rfl h))

lemma useOf_mono : Monotone (useOf dialect) := by
  intro value value' h
  have harguments : value + separated (dialect.elementName * word .equals * value) ≤
      value' + separated (dialect.elementName * word .equals * value') :=
    add_le_add h (separated_mono (mul_le_mul' le_rfl h))
  exact mul_le_mul' le_rfl (add_le_add le_rfl (mul_le_mul' (mul_le_mul' le_rfl
    (add_le_add harguments le_rfl)) le_rfl))

lemma valueOf_mono : Monotone (valueOf dialect) := by
  intro value value' h
  have hitems : opt (separated value) ≤ opt (separated value') :=
    add_le_add le_rfl (separated_mono h)
  exact add_le_add (add_le_add le_rfl (mul_le_mul' (mul_le_mul' le_rfl hitems) le_rfl))
    (useOf_mono dialect h)

/-- A value: the least language that has every value with nested values from it. -/
def value : Language Token := OrderHom.lfp ⟨valueOf dialect, valueOf_mono dialect⟩

lemma value_eq : valueOf dialect (value dialect) = value dialect :=
  OrderHom.map_lfp ⟨valueOf dialect, valueOf_mono dialect⟩

def use : Language Token := useOf dialect (value dialect)

def uses : Language Token := (use dialect)∗

/-! ### Declarations -/

def elementType : Language Token :=
  (dialect.typeName + word .enumWord * qualifiedName + word .annotationFieldWord * qualifiedName) *
    (word .openBracket * word .closeBracket)∗

def element : Language Token :=
  elementType dialect * dialect.elementName * opt (word .equals * value dialect)

def declaration : Language Token :=
  word .annotationWord * word .atSign * name * word .colon * uses dialect * (element dialect)∗

/-! ### Members -/

/-- A descriptor, whose tokens touch one another. -/
def descriptor : Language Token :=
  {tokens | (∃ opening parts, tokens = opening :: parts ∧ opening.kind = .openParen ∧
      ∀ part ∈ parts, part.kind.fitsDescriptor = true) ∧
    tokens.IsChain (fun last token => token.start.offset = last.finish.offset) ∧
    ∃ d, MethodDescriptor.decode (String.join (tokens.map (·.lexeme))) = .ok d}

/-- The position of a parameter. -/
def position : Language Token :=
  one fun token => token.kind = .decimalInteger ∧
    ∃ position, Literal.position token.lexeme.toList = .ok position

def resultSection : Language Token := word .returnWord * word .colon * uses dialect

def typeSection : Language Token := word .typeWord * word .colon * uses dialect

def parameterSection : Language Token :=
  word .parameterWord * word .hash * position * word .colon * uses dialect *
    opt (typeSection dialect)

def method : Language Token :=
  word .methodWord * (name + word .specialName) * descriptor * word .colon * uses dialect *
    (resultSection dialect + parameterSection dialect)∗

def field : Language Token :=
  word .fieldWord * name * word .colon * uses dialect * opt (typeSection dialect)

def member : Language Token := method dialect + field dialect

/-! ### Classes and packages -/

def classHead : Language Token := word .classWord * name * word .colon * uses dialect

def classBlock : Language Token := classHead dialect * (member dialect)∗

def packageHead : Language Token := word .packageWord * opt qualifiedName * word .colon

def packageBlock : Language Token := packageHead * (classBlock dialect + declaration dialect)∗

def file : Language Token := (packageBlock dialect)∗

/-! ### Membership, token by token -/

lemma mem_kstar_mul {α : Type} {l m : Language α} {word : List α} :
    word ∈ l∗ * m ↔ word ∈ m ∨ word ∈ l * (l∗ * m) := by
  conv_lhs => rw [← one_add_mul_kstar (a := l)]
  rw [add_mul, one_mul, Language.mem_add, mul_assoc]

lemma mem_kstar_cases {α : Type} {l : Language α} {word : List α} :
    word ∈ l∗ ↔ word = [] ∨ word ∈ l * l∗ := by
  conv_lhs => rw [← one_add_mul_kstar (a := l)]
  rw [Language.mem_add, Language.mem_one]

section

variable {l m : Language Token} {isIn : Token → Prop} {token : Token} {tokens : List Token}

lemma cons_mem_one_mul : token :: tokens ∈ one isIn * l ↔ isIn token ∧ tokens ∈ l := by
  rw [Language.mem_mul]
  constructor
  · rintro ⟨_, ⟨token', hin, rfl⟩, tokens', htokens, heq⟩
    obtain ⟨rfl, rfl⟩ := List.cons.inj heq
    exact ⟨hin, htokens⟩
  · rintro ⟨hin, htokens⟩
    exact ⟨[token], ⟨token, hin, rfl⟩, tokens, htokens, rfl⟩

lemma nil_notMem_one : [] ∉ one isIn := by
  rintro ⟨token, -, heq⟩
  contradiction

lemma nil_notMem_mul (h : [] ∉ l) : [] ∉ l * m := by
  rw [Language.mem_mul]
  rintro ⟨first, hfirst, second, -, heq⟩
  obtain ⟨rfl, -⟩ := List.append_eq_nil_iff.1 heq
  exact h hfirst

lemma nil_notMem_mul_right (h : [] ∉ m) : [] ∉ l * m := by
  rw [Language.mem_mul]
  rintro ⟨first, -, second, hsecond, heq⟩
  obtain ⟨-, rfl⟩ := List.append_eq_nil_iff.1 heq
  exact h hsecond

lemma nil_notMem_one_mul : [] ∉ one isIn * l := nil_notMem_mul nil_notMem_one

lemma mem_opt_mul : tokens ∈ opt l * m ↔ tokens ∈ m ∨ tokens ∈ l * m := by
  rw [opt, add_mul, one_mul, Language.mem_add]

lemma cons_mem_word_mul {kind : TokenKind} :
    token :: tokens ∈ word kind * l ↔ token.kind = kind ∧ tokens ∈ l := cons_mem_one_mul

lemma cons_mem_name_mul : token :: tokens ∈ name * l ↔ token.kind.isName = true ∧ tokens ∈ l :=
  cons_mem_one_mul

lemma cons_mem_qualifiedName_mul : token :: tokens ∈ qualifiedName * l ↔
    token.kind.isName = true ∧ tokens ∈ (word .dot * name)∗ * l := by
  rw [qualifiedName, mul_assoc, cons_mem_name_mul]

variable {dialect}

lemma cons_mem_use_mul : token :: tokens ∈ use dialect * l ↔ token.kind = .atSign ∧
    tokens ∈ qualifiedName * (opt (word .openParen * ((value dialect +
      separated (dialect.elementName * word .equals * value dialect) + dialect.noArguments) *
        word .closeParen)) * l) := by
  rw [use, useOf, mul_assoc, mul_assoc, mul_assoc, cons_mem_word_mul]

lemma cons_mem_uses_mul : token :: tokens ∈ uses dialect * l ↔
    token :: tokens ∈ l ∨ token :: tokens ∈ use dialect * (uses dialect * l) := mem_kstar_mul

lemma cons_mem_declaration_mul : token :: tokens ∈ declaration dialect * l ↔
    token.kind = .annotationWord ∧
      tokens ∈ word .atSign *
          (name * (word .colon * (uses dialect * ((element dialect)∗ * l)))) := by
  simp only [declaration, mul_assoc, cons_mem_word_mul]

lemma cons_mem_classHead_mul : token :: tokens ∈ classHead dialect * l ↔
    token.kind = .classWord ∧ tokens ∈ name * (word .colon * (uses dialect * l)) := by
  simp only [classHead, mul_assoc, cons_mem_word_mul]

lemma cons_mem_classBlock_mul : token :: tokens ∈ classBlock dialect * l ↔
    token.kind = .classWord ∧
      tokens ∈ name * (word .colon * (uses dialect * ((member dialect)∗ * l))) := by
  rw [classBlock, mul_assoc, cons_mem_classHead_mul]

lemma cons_mem_packageBlock_mul : token :: tokens ∈ packageBlock dialect * l ↔
    token.kind = .packageWord ∧ tokens ∈ opt qualifiedName *
      (word .colon * ((classBlock dialect + declaration dialect)∗ * l)) := by
  simp only [packageBlock, packageHead, mul_assoc, cons_mem_word_mul]

lemma cons_mem_file : token :: tokens ∈ file dialect ↔
    token :: tokens ∈ packageBlock dialect * file dialect := by
  rw [file, mem_kstar_cases, or_iff_right (List.cons_ne_nil token tokens)]

end

end Production

end ExternalAnnotations
