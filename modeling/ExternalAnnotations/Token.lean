import ExternalAnnotations.Text.Location

/-!
# Tokens of an annotation index

A token is a lexeme with its kind and the place where it starts. The kinds fall into the classes
that the grammar speaks of: keywords, names, literals, what may stand in a method descriptor, and
trivia, which separates tokens and means nothing.
-/

namespace ExternalAnnotations

inductive TokenKind
  | packageWord
  | classWord
  | annotationWord
  | annotationFieldWord
  | methodWord
  | fieldWord
  | returnWord
  | parameterWord
  | typeWord
  | enumWord
  | trueWord
  | falseWord
  | colon
  | atSign
  | openParen
  | closeParen
  | openBrace
  | closeBrace
  | openBracket
  | closeBracket
  | comma
  | equals
  | dot
  | hash
  | semicolon
  | slash
  | stringLiteral
  | charLiteral
  | hexInteger
  | decimalInteger
  | floatLiteral
  | identifier
  | specialName
  | lineComment
  | blockComment
  | whitespace
  | byteOrderMark
  | unknown
  deriving DecidableEq, Repr

namespace TokenKind

/-- Reserved words of the format. -/
def isKeyword : TokenKind → Bool
  | packageWord | classWord | annotationWord | annotationFieldWord | methodWord | fieldWord
  | returnWord | parameterWord | typeWord | enumWord | trueWord | falseWord => true
  | _ => false

/-- Keywords that open a block. -/
def opensBlock : TokenKind → Bool
  | packageWord | classWord | annotationWord | methodWord | fieldWord => true
  | _ => false

/-- Tokens that spell a name: besides identifiers the keywords that Java does not reserve. -/
def isName : TokenKind → Bool
  | identifier | annotationWord | methodWord | fieldWord | parameterWord | typeWord => true
  | _ => false

def isLiteral : TokenKind → Bool
  | stringLiteral | charLiteral | hexInteger | decimalInteger | floatLiteral
  | trueWord | falseWord => true
  | _ => false

/-- Tokens of which a method descriptor is made. -/
def fitsDescriptor : TokenKind → Bool
  | semicolon | slash | openBracket | openParen | closeParen => true
  | kind => kind.isName

/-- Tokens that only keep other tokens apart. -/
def isTrivia : TokenKind → Bool
  | whitespace | byteOrderMark | lineComment | blockComment => true
  | _ => false

/-- The name under which a listing of tokens shows the kind. -/
def label : TokenKind → String
  | packageWord => "Package"
  | classWord => "Class"
  | annotationWord => "Annotation"
  | annotationFieldWord => "AnnotationField"
  | methodWord => "Method"
  | fieldWord => "Field"
  | returnWord => "Return"
  | parameterWord => "Parameter"
  | typeWord => "Type"
  | enumWord => "Enum"
  | trueWord => "True"
  | falseWord => "False"
  | colon => "Colon"
  | atSign => "At"
  | openParen => "LParen"
  | closeParen => "RParen"
  | openBrace => "LBrace"
  | closeBrace => "RBrace"
  | openBracket => "LBracket"
  | closeBracket => "RBracket"
  | comma => "Comma"
  | equals => "Assign"
  | dot => "Dot"
  | hash => "Hash"
  | semicolon => "Semicolon"
  | slash => "Slash"
  | stringLiteral => "StringLiteral"
  | charLiteral => "CharLiteral"
  | hexInteger => "HexInteger"
  | decimalInteger => "DecimalInteger"
  | floatLiteral => "FloatLiteral"
  | identifier => "Identifier"
  | specialName => "SpecialName"
  | lineComment => "LineComment"
  | blockComment => "BlockComment"
  | whitespace => "Whitespace"
  | byteOrderMark => "Bom"
  | unknown => "Unknown"

end TokenKind

/-- A lexeme at its place in a text. -/
structure Token where
  kind : TokenKind
  lexeme : String
  start : Location
  deriving DecidableEq, Repr

/-- The place just past a token. -/
def Token.finish (token : Token) : Location :=
  token.start.advance token.lexeme.toList

end ExternalAnnotations
