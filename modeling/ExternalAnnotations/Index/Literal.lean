import ExternalAnnotations.Index.Written
import ExternalAnnotations.Token
import ExternalAnnotations.Token.Scanner

/-!
# Literals

The values that literal tokens stand for, and what is wrong with those that stand for none.
-/

namespace ExternalAnnotations

/-- Why a literal has no value. -/
inductive LiteralFault
  | outOfRange
  | invalidDigit
  | tooLarge
  | notOneCharacter
  | badUnicodeEscape (digits : List Char)
  | invalidCodePoint (code : Nat)
  | unknownEscape (c : Char)
  | danglingBackslash
  deriving DecidableEq, Repr

def LiteralFault.message : LiteralFault → String
  | outOfRange => "integer out of range"
  | invalidDigit => "invalid digit found in string"
  | tooLarge => "number too large to fit in target type"
  | notOneCharacter => "expected a single character"
  | badUnicodeEscape digits => "bad unicode escape '\\u" ++ String.ofList digits ++ "'"
  | invalidCodePoint code => "invalid code point 0x" ++ String.ofList (Nat.toDigits 16 code)
  | unknownEscape c => "unknown escape '\\" ++ c.toString ++ "'"
  | danglingBackslash => "dangling '\\'"

namespace Literal

/-- The value of a digit, hexadecimal ones included. -/
def digitValue (c : Char) : Nat :=
  if c.isDigit then c.toNat - '0'.toNat
  else if 'a' ≤ c then c.toNat - 'a'.toNat + 10
  else c.toNat - 'A'.toNat + 10

/-- The value of a run of digits. -/
def ofDigits (base : Nat) (digits : List Char) : Nat :=
  digits.foldl (fun value c => value * base + digitValue c) 0

/-- The integer that fits into 64 bits, if it does. -/
def int64? (n : Int) : Option Int64 :=
  if Int64.minValue.toInt ≤ n ∧ n ≤ Int64.maxValue.toInt then some (Int64.ofInt n) else none

/-- The value of a decimal or hexadecimal integer literal, which may end in `L`. -/
def integer? (lexeme : List Char) : Option Int64 :=
  let (negative, body) := match lexeme with
    | '-' :: body => (true, body)
    | body => (false, body)
  let magnitude := match body with
    | '0' :: 'x' :: digits | '0' :: 'X' :: digits => ofDigits 16 (digits.takeWhile isHexDigit)
    | digits => ofDigits 10 (digits.takeWhile Char.isDigit)
  int64? (if negative then -(magnitude : Int) else magnitude)

/-- The value of a floating-point literal. A type suffix says nothing about it. -/
def float (lexeme : List Char) : Double :=
  let (negative, body) := match lexeme with
    | '-' :: body => (true, body)
    | body => (false, body)
  let whole := body.takeWhile Char.isDigit
  let afterPoint := (body.dropWhile Char.isDigit).drop 1
  let fraction := afterPoint.takeWhile Char.isDigit
  let exponent : Int := match afterPoint.dropWhile Char.isDigit with
    | _ :: '-' :: digits => -(ofDigits 10 (digits.takeWhile Char.isDigit) : Int)
    | _ :: '+' :: digits => ofDigits 10 (digits.takeWhile Char.isDigit)
    | _ :: digits => ofDigits 10 (digits.takeWhile Char.isDigit)
    | [] => 0
  .ofDecimal negative (ofDigits 10 (whole ++ fraction)) (exponent - fraction.length)

/-- The code that the characters of a Unicode escape give. One sign is passed over, and fewer than
four digits will do where the literal ends. -/
def escapeCode? (digits : List Char) : Option Nat :=
  let digits := match digits with
    | '+' :: digits => digits
    | digits => digits
  if !digits.isEmpty && digits.all isHexDigit then some (ofDigits 16 digits) else none

/-- The character that a letter stands for after a backslash. -/
def simpleEscape? : Char → Option Char
  | 'n' => some '\n'
  | 't' => some '\t'
  | 'r' => some '\r'
  | 'b' => some '\x08'
  | 'f' => some '\x0c'
  | '0' => some '\x00'
  | '"' => some '"'
  | '\'' => some '\''
  | '\\' => some '\\'
  | _ => none

/-- The text that the inside of a string or character literal stands for. -/
def decodeEscapes : List Char → Except LiteralFault (List Char)
  | [] => .ok []
  | ['\\'] => .error .danglingBackslash
  | '\\' :: 'u' :: text =>
    let digits := text.take 4
    match escapeCode? digits with
    | none => .error (.badUnicodeEscape digits)
    | some code =>
      if code.isValidChar then (decodeEscapes (text.drop 4)).map (Char.ofNat code :: ·)
      else .error (.invalidCodePoint code)
  | '\\' :: c :: text =>
    match simpleEscape? c with
    | some meant => (decodeEscapes text).map (meant :: ·)
    | none => .error (.unknownEscape c)
  | c :: text => (decodeEscapes text).map (c :: ·)
termination_by text => text.length
decreasing_by
  all_goals simp only [List.length_drop, List.length_cons]
  all_goals omega

/-- The text between the first and the last character of a quoted literal. -/
def inside (lexeme : String) : List Char := (lexeme.toList.drop 1).dropLast

def value (token : Token) : Except LiteralFault WrittenValue :=
  match token.kind with
  | .trueWord => .ok (.bool true)
  | .falseWord => .ok (.bool false)
  | .stringLiteral =>
    (decodeEscapes (inside token.lexeme)).map fun text => .string (String.ofList text)
  | .charLiteral => do
    match ← decodeEscapes (inside token.lexeme) with
    | [c] => .ok (.char c)
    | _ => .error .notOneCharacter
  | .floatLiteral => .ok (.float (float token.lexeme.toList))
  | _ =>
    match integer? token.lexeme.toList with
    | some n => .ok (.int n)
    | none => .error .outOfRange

/-- The largest position that a parameter can have. -/
def maxPosition : Nat := UInt64.size - 1

/-- The position that a decimal literal gives. It has no sign and no suffix. -/
def position (lexeme : List Char) : Except LiteralFault Nat :=
  let digits := lexeme.takeWhile Char.isDigit
  let value := ofDigits 10 digits
  if maxPosition < value then .error .tooLarge
  else if digits.isEmpty || digits.length < lexeme.length then .error .invalidDigit
  else .ok value

end Literal

end ExternalAnnotations
