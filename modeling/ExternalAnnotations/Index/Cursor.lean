import ExternalAnnotations.Index.SyntaxError
import ExternalAnnotations.Token

/-!
# Reading tokens

A `Cursor` stands between two tokens. A `Reader` moves it forward and gives a value, or fails and
leaves the cursor where it failed, from where the parser looks for the next block.
-/

namespace ExternalAnnotations

/-- A place between two tokens: the last token read, and those that follow. -/
structure Cursor where
  previous : Option Token
  rest : List Token

namespace Cursor

def ofTokens (tokens : List Token) : Cursor := ⟨none, tokens⟩

def kind? (cursor : Cursor) : Option TokenKind := cursor.rest.head?.map (·.kind)

/-- The kind of the token after the next. -/
def secondKind? (cursor : Cursor) : Option TokenKind := (cursor.rest.drop 1).head?.map (·.kind)

def isAt (cursor : Cursor) (kind : TokenKind) : Bool := cursor.kind? == some kind

/-- The place of the next token, or the end of the last one. -/
def place (cursor : Cursor) : Location :=
  match cursor.rest with
  | token :: _ => token.start
  | [] => cursor.previous.elim .start (·.finish)

/-- One token further. -/
def forward (cursor : Cursor) : Cursor :=
  match cursor.rest with
  | token :: rest => ⟨some token, rest⟩
  | [] => cursor

/-- Whether a block starts here. A block keyword within a dotted name, in a descriptor, after `@`
or before `=` is a name. -/
def startsBlock (cursor : Cursor) : Bool :=
  cursor.kind?.any TokenKind.opensBlock
    && !(cursor.previous.any fun token => [.dot, .slash, .atSign].contains token.kind)
    && cursor.secondKind? != some .equals

/-- What is wrong when something else is expected here. -/
def unexpected (cursor : Cursor) (expected : String) : SyntaxError :=
  match cursor.rest with
  | token :: _ => .unexpectedToken expected token.lexeme token.start
  | [] => .unexpectedEnd expected cursor.place

/-- Passes over at most so many tokens, up to the next block. -/
def skipToBlock : Nat → Cursor → Cursor
  | 0, cursor => cursor
  | limit + 1, cursor =>
    if cursor.rest.isEmpty || cursor.startsBlock then cursor else skipToBlock limit cursor.forward

end Cursor

/-- A step of reading. -/
abbrev Reader := EStateM SyntaxError Cursor

namespace Reader

/-- Fails because something else is expected here. -/
def fail {α : Type} (expected : String) : Reader α :=
  fun cursor => .error (cursor.unexpected expected) cursor

/-- Moves past the next token. -/
def forward : Reader Unit := fun cursor => .ok () cursor.forward

/-- Reads a token of a class. -/
def token (isIn : TokenKind → Bool) (expected : String) : Reader Token := fun cursor =>
  match cursor.rest with
  | token :: rest => if isIn token.kind then .ok token ⟨some token, rest⟩ else fail expected cursor
  | [] => fail expected cursor

def expect (kind : TokenKind) (expected : String) : Reader Token := token (· == kind) expected

/-- Reads a token of a kind if it comes next. -/
def eat (kind : TokenKind) : Reader Bool := fun cursor =>
  if cursor.isAt kind then .ok true cursor.forward else .ok false cursor

/-- Reads items as long as the cursor is where another one starts. Every item takes at least one
token, which is why this ends. -/
def manyWhile {α : Type} (more : Cursor → Bool) (item : Reader α) (cursor : Cursor) :
    EStateM.Result SyntaxError Cursor (List α) :=
  if more cursor then
    match item cursor with
    | .error error next => .error error next
    | .ok a next =>
      if next.rest.length < cursor.rest.length then
        match manyWhile more item next with
        | .error error last => .error error last
        | .ok others last => .ok (a :: others) last
      else .ok [a] next
  else .ok [] cursor
termination_by cursor.rest.length

/-- Reads one item or more, with commas between them. -/
def commaSeparated {α : Type} (item : Reader α) : Reader (List α) := do
  let first ← item
  let others ← manyWhile (·.isAt .comma) do
    forward
    item
  return first :: others

end Reader

end ExternalAnnotations
