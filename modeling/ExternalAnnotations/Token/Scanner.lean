/-!
# Scanners

A scanner finds a lexeme of one form at the start of a text and gives its length. Every form of
the index format can be read without turning back, so a scanner takes as much as it can at each
step, and what it finds is the longest lexeme of its form.
-/

namespace ExternalAnnotations

/-- The length of the longest lexeme of some form at the start of a text, if there is one. -/
abbrev Scanner := List Char → Option Nat

def isHexDigit (c : Char) : Bool :=
  c.isDigit || ('a' ≤ c && c ≤ 'f') || ('A' ≤ c && c ≤ 'F')

namespace Scanner

/-- One character of a class. -/
def one (isIn : Char → Bool) : Scanner
  | c :: _ => if isIn c then some 1 else none
  | [] => none

/-- As many characters of a class as there are, perhaps none. -/
def span (isIn : Char → Bool) : Scanner :=
  fun text => some (text.takeWhile isIn).length

/-- One form, then another. -/
def andThen (first second : Scanner) : Scanner := fun text => do
  let taken ← first text
  return taken + (← second (text.drop taken))

/-- The form or nothing. -/
def optional (scan : Scanner) : Scanner :=
  fun text => some ((scan text).getD 0)

/-- The first form, or else the second. -/
def orElse (first second : Scanner) : Scanner :=
  fun text => first text <|> second text

/-- At least one character of a class. -/
def run (isIn : Char → Bool) : Scanner :=
  (one isIn).andThen (span isIn)

/-- One given spelling. -/
def word (spelling : String) : Scanner := fun text =>
  if spelling.toList.isPrefixOf text then some spelling.length else none

/-- One given character. -/
def char (c : Char) : Scanner := one (· == c)

/-- A fixed number of characters of a class. -/
def exactly (isIn : Char → Bool) : Nat → Scanner
  | 0 => fun _ => some 0
  | count + 1 => (one isIn).andThen (exactly isIn count)

def minus : Scanner := optional (char '-')

def longSuffix : Scanner := optional (one fun c => c == 'l' || c == 'L')

/-- Decimal digits with an optional sign and an optional `L`. -/
def decimalInteger : Scanner :=
  minus.andThen ((run Char.isDigit).andThen longSuffix)

/-- `0x` and hexadecimal digits with an optional sign and an optional `L`. -/
def hexInteger : Scanner :=
  minus.andThen <| (char '0').andThen <| (one fun c => c == 'x' || c == 'X').andThen <|
    (run isHexDigit).andThen longSuffix

def exponent : Scanner :=
  (one fun c => c == 'e' || c == 'E').andThen <|
    (optional (one fun c => c == '+' || c == '-')).andThen (run Char.isDigit)

/-- Digits on both sides of a point, then perhaps an exponent, then perhaps a type suffix. -/
def floatLiteral : Scanner :=
  minus.andThen <| (run Char.isDigit).andThen <| (char '.').andThen <|
    (run Char.isDigit).andThen <| (optional exponent).andThen <|
      optional (one fun c => c == 'f' || c == 'F' || c == 'd' || c == 'D')

def isIdentifierStart (c : Char) : Bool :=
  c.isAlpha || c == '_' || c == '$'

/-- An ASCII Java identifier. A `$` separates the names of nested classes. -/
def identifier : Scanner :=
  (one isIdentifierStart).andThen (span fun c => isIdentifierStart c || c.isDigit)

/-- `<init>` or `<clinit>`. -/
def specialName : Scanner :=
  orElse (word "<init>") (word "<clinit>")

/-- What follows the opening quote of a string literal, through the quote that closes it.
A backslash takes the next character with it, which must not be a line feed. -/
def stringBody : Scanner
  | [] => none
  | '"' :: _ => some 1
  | '\\' :: c :: text => if c = '\n' then none else (stringBody text).map (· + 2)
  | _ :: text => (stringBody text).map (· + 1)

def stringLiteral : Scanner :=
  (char '"').andThen stringBody

/-- A character, an escape of four hexadecimal digits, or a backslash and a character. -/
def charLiteral : Scanner :=
  (char '\'').andThen <|
    orElse ((one fun c => c != '\'' && c != '\\').andThen (char '\'')) <|
    orElse ((word "\\u").andThen ((exactly isHexDigit 4).andThen (char '\'')))
      ((char '\\').andThen ((one (· != '\n')).andThen (char '\'')))

def lineComment : Scanner :=
  (word "//").andThen (span (· != '\n'))

/-- What follows the opening of a block comment, through the first `*/`. -/
def commentBody : Scanner
  | [] => none
  | '*' :: '/' :: _ => some 2
  | _ :: text => (commentBody text).map (· + 1)

def blockComment : Scanner :=
  (word "/*").andThen commentBody

def isLayout (c : Char) : Bool :=
  c == ' ' || c == '\t' || c == '\n' || c == '\r'

def whitespace : Scanner := run isLayout

def byteOrderMark : Scanner := char '\uFEFF'

/-- How much of a text the inside of a string literal can take when no quote closes it: all of it,
or what comes before a line feed that a backslash stands before. An escape that the text breaks
off after `\u` and less than four digits gives back all but its backslash. -/
def openStringBody : List Char → Nat
  | [] => 0
  | ['\\'] => 1
  | '\\' :: c :: text =>
    if c = '\n' then 1
    else if c = 'u' ∧ text.length < 4 ∧ text.all isHexDigit then 1
    else openStringBody text + 2
  | _ :: text => openStringBody text + 1

end Scanner

end ExternalAnnotations
