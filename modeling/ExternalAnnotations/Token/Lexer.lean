import ExternalAnnotations.Token
import ExternalAnnotations.Token.Scanner

/-!
# Splitting a text into tokens

`Lexer.next` chooses the token at the start of a text: the longest lexeme of any form, with the
rules for what is left open. `tokens` repeats it over a whole text and loses nothing of it, and
`significantTokens` leaves out what only keeps tokens apart.
-/

namespace ExternalAnnotations

namespace Lexer

/-- The forms of lexemes. Of two forms with lexemes of one length the later one names the token. -/
def forms : List (TokenKind × Scanner) := [
  (.identifier, Scanner.identifier),
  (.specialName, Scanner.specialName),
  (.stringLiteral, Scanner.stringLiteral),
  (.charLiteral, Scanner.charLiteral),
  (.decimalInteger, Scanner.decimalInteger),
  (.hexInteger, Scanner.hexInteger),
  (.floatLiteral, Scanner.floatLiteral),
  (.lineComment, Scanner.lineComment),
  (.blockComment, Scanner.blockComment),
  (.whitespace, Scanner.whitespace),
  (.byteOrderMark, Scanner.byteOrderMark),
  (.packageWord, .word "package"),
  (.classWord, .word "class"),
  (.annotationWord, .word "annotation"),
  (.annotationFieldWord, .word "annotation-field"),
  (.methodWord, .word "method"),
  (.fieldWord, .word "field"),
  (.returnWord, .word "return"),
  (.parameterWord, .word "parameter"),
  (.typeWord, .word "type"),
  (.enumWord, .word "enum"),
  (.trueWord, .word "true"),
  (.falseWord, .word "false"),
  (.colon, .word ":"),
  (.atSign, .word "@"),
  (.openParen, .word "("),
  (.closeParen, .word ")"),
  (.openBrace, .word "\x7b"),
  (.closeBrace, .word "\x7d"),
  (.openBracket, .word "["),
  (.closeBracket, .word "]"),
  (.comma, .word ","),
  (.equals, .word "="),
  (.dot, .word "."),
  (.hash, .word "#"),
  (.semicolon, .word ";"),
  (.slash, .word "/")]

/-- The better of a lexeme found so far and what a form finds. -/
def better (text : List Char) (best : TokenKind × Nat) (form : TokenKind × Scanner) :
    TokenKind × Nat :=
  match form.2 text with
  | some length => if best.2 ≤ length then (form.1, length) else best
  | none => best

/-- The kind and length of the longest lexeme at the start of a text. A character with which no
lexeme starts is a token by itself. -/
def longest (text : List Char) : TokenKind × Nat :=
  forms.foldl (better text) (.unknown, 1)

/-- The length of a comment or string that is opened at the start of a text and never closed. -/
def leftOpen (text : List Char) : Option Nat :=
  match text with
  | '/' :: '*' :: body => if Scanner.commentBody body = none then some text.length else none
  | '"' :: body =>
    if Scanner.stringBody body = none then some (Scanner.openStringBody body + 1) else none
  | _ => none

/-- Whether the word `annotation` has a hyphen after it that does not make it
`annotation-field`. -/
def cutsHyphenatedWord (kind : TokenKind) (after : List Char) : Bool :=
  kind == .annotationWord && after.head? == some '-'

/-- Whether a negative zero runs into the start of a hexadecimal or fractional part that does not
come about. -/
def cutsNumber (lexeme after : List Char) : Bool :=
  lexeme == ['-', '0'] && after.head?.any fun c => c == 'x' || c == 'X' || c == '.'

/-- The kind and length of the token at the start of a text that is not empty. -/
def next (text : List Char) : TokenKind × Nat :=
  match leftOpen text with
  | some length => (.unknown, length)
  | none =>
    let (kind, length) := longest text
    let after := text.drop length
    if cutsHyphenatedWord kind after then (.identifier, length)
    else if cutsNumber (text.take length) after then (.unknown, length)
    else (kind, length)

theorem le_foldl_better (text : List Char) (candidates : List (TokenKind × Scanner))
    (best : TokenKind × Nat) : best.2 ≤ (candidates.foldl (better text) best).2 := by
  induction candidates generalizing best with
  | nil => exact Nat.le_refl _
  | cons form candidates ih =>
    refine Nat.le_trans ?_ (ih _)
    unfold better
    split
    · split <;> simp_all
    · exact Nat.le_refl _

theorem longest_pos (text : List Char) : 0 < (longest text).2 :=
  le_foldl_better text forms (.unknown, 1)

theorem next_pos {text : List Char} (nonempty : text ≠ []) : 0 < (next text).2 := by
  have positive := longest_pos text
  unfold next
  split
  · rename_i length found
    unfold leftOpen at found
    split at found <;> (try split at found) <;> simp_all <;> omega
  · dsimp only
    split
    · exact positive
    · split <;> exact positive

/-- The tokens of a text that starts at a place. -/
def tokensFrom (place : Location) : List Char → List Token
  | [] => []
  | c :: text =>
    let token := next (c :: text)
    let lexeme := (c :: text).take token.2
    have : 0 < (next (c :: text)).2 := next_pos (List.cons_ne_nil c text)
    ⟨token.1, String.ofList lexeme, place⟩
      :: tokensFrom (place.advance lexeme) ((c :: text).drop token.2)
termination_by text => text.length
decreasing_by
  simp only [List.length_drop, List.length_cons]
  omega

end Lexer

/-- All tokens of a text, trivia included. -/
def tokens (source : String) : List Token :=
  Lexer.tokensFrom .start source.toList

/-- The tokens of a text that mean something. -/
def significantTokens (source : String) : List Token :=
  (tokens source).filter (!·.kind.isTrivia)

end ExternalAnnotations
