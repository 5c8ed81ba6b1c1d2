import ExternalAnnotations.Proofs.Index.Alike
import ExternalAnnotations.Proofs.Index.Literals
import ExternalAnnotations.Proofs.Token.Names

/-!
# The grammar of an index

What an index can say, as a tree of its blocks, and the sequences of terminals that spell it. A
terminal stands for one token, so what separates the tokens of a text is left to the text.
-/

namespace ExternalAnnotations

/-! ### Terminals -/

/-- What a token is in the grammar: a token of a kind, or a name. -/
structure Terminal where
  /-- The kind of the token. A name has none, since many keywords are names as well. -/
  kind : Option TokenKind
  lexeme : String
  /-- Whether nothing separates the token from the one before it. -/
  glued : Bool := false
  deriving DecidableEq, Repr

namespace Terminal

/-- A keyword or sign. -/
def word (kind : TokenKind) : Terminal :=
  ⟨some kind, ((Lexer.wordForms.find? (·.1 == kind)).map (·.2)).getD "", false⟩

def name (text : String) : Terminal := ⟨none, text, false⟩

def literal (kind : TokenKind) (lexeme : List Char) : Terminal :=
  ⟨some kind, String.ofList lexeme, false⟩

def joined (terminal : Terminal) : Terminal := { terminal with glued := true }

/-- Whether a token stands for a terminal. -/
def Spells (terminal : Terminal) (token : Token) : Prop :=
  token.lexeme = terminal.lexeme ∧
    terminal.kind.elim (isPlainName terminal.lexeme) (token.kind == ·) = true

instance (terminal : Terminal) (token : Token) : Decidable (terminal.Spells token) :=
  inferInstanceAs (Decidable (_ ∧ _))

end Terminal

/-- Tokens that spell terminals one by one, the first of them after another token. -/
def SpelledBy : Option Token → List Terminal → List Token → Prop
  | _, [], [] => True
  | previous, terminal :: terminals, token :: tokens =>
    terminal.Spells token ∧ (terminal.glued = true → touches previous token) ∧
      SpelledBy (some token) terminals tokens
  | _, [], _ :: _ => False
  | _, _ :: _, [] => False

/-- Whether tokens spell terminals can be found by looking at them one by one. -/
def decideSpelledBy : (previous : Option Token) → (terminals : List Terminal) →
    (tokens : List Token) → Decidable (SpelledBy previous terminals tokens)
  | _, [], [] => isTrue trivial
  | _, _ :: terminals, token :: tokens =>
    have := decideSpelledBy (some token) terminals tokens
    inferInstanceAs (Decidable (_ ∧ _ ∧ _))
  | _, [], _ :: _ => isFalse id
  | _, _ :: _, [] => isFalse id

instance (previous : Option Token) (terminals : List Terminal) (tokens : List Token) :
    Decidable (SpelledBy previous terminals tokens) :=
  decideSpelledBy previous terminals tokens

/-! ### Repetition -/

/-- Items one after the other, each with the same terminals before it. -/
inductive Sequence {α : Type} (lead : List Terminal) (spelling : α → List Terminal → Prop) :
    List α → List Terminal → Prop
  | nil : Sequence lead spelling [] []
  | cons {a : α} {items : List α} {terminals others : List Terminal} (ha : spelling a terminals)
      (h : Sequence lead spelling items others) :
      Sequence lead spelling (a :: items) (lead ++ terminals ++ others)

/-- One item or more, with commas between them. -/
inductive Separated {α : Type} (spelling : α → List Terminal → Prop) : List α → List Terminal → Prop
  | mk {a : α} {items : List α} {terminals others : List Terminal} (ha : spelling a terminals)
      (h : Sequence [.word .comma] spelling items others) :
      Separated spelling (a :: items) (terminals ++ others)

/-! ### Names and values -/

/-- A name of parts with dots between them. -/
structure QualifiedName where
  first : String
  others : List String

namespace QualifiedName

def text (q : QualifiedName) : String := ".".intercalate (q.first :: q.others)

def terminals (q : QualifiedName) : List Terminal :=
  .name q.first :: q.others.flatMap fun part => [.word .dot, .name part]

end QualifiedName

mutual

/-- The terminals that spell a value. -/
inductive ValueSpelling : WrittenValue → List Terminal → Prop
  | literal {value : WrittenValue} {kind : TokenKind} {lexeme : List Char}
      (h : LiteralSpelling value kind lexeme) : ValueSpelling value [.literal kind lexeme]
  | name (q : QualifiedName) : ValueSpelling (.name q.text) q.terminals
  | classLiteral (q : QualifiedName) :
      ValueSpelling (.classLiteral q.text) (q.terminals ++ [.word .dot, .word .classWord])
  | emptyArray : ValueSpelling (.array []) [.word .openBrace, .word .closeBrace]
  | array {items : List WrittenValue} {terminals : List Terminal}
      (h : Separated ValueSpelling items terminals) :
      ValueSpelling (.array items) (.word .openBrace :: terminals ++ [.word .closeBrace])
  | nested {use : AnnotationUse} {terminals : List Terminal} (h : UseSpelling use terminals) :
      ValueSpelling (.nested use) terminals

/-- The terminals that spell the value of an element that is given by name. -/
inductive FieldSpelling : String × WrittenValue → List Terminal → Prop
  | mk {name : String} {value : WrittenValue} {terminals : List Terminal}
      (h : ValueSpelling value terminals) :
      FieldSpelling (name, value) (.name name :: .word .equals :: terminals)

/-- The terminals that spell an annotation. -/
inductive UseSpelling : AnnotationUse → List Terminal → Prop
  | bare (q : QualifiedName) (place : Location) :
      UseSpelling ⟨q.text, [], place⟩ (.word .atSign :: q.terminals)
  | sole (q : QualifiedName) (place : Location) {value : WrittenValue} {terminals : List Terminal}
      (h : ValueSpelling value terminals) :
      UseSpelling ⟨q.text, [(soleElement, value)], place⟩
        (.word .atSign :: q.terminals ++ (.word .openParen :: terminals ++ [.word .closeParen]))
  | named (q : QualifiedName) (place : Location) {fields : List (String × WrittenValue)}
      {terminals : List Terminal} (h : Separated FieldSpelling fields terminals) :
      UseSpelling ⟨q.text, fields, place⟩
        (.word .atSign :: q.terminals ++ (.word .openParen :: terminals ++ [.word .closeParen]))

end

mutual

/-- How deeply a value is nested, itself included. An annotation and its values are a level each. -/
def WrittenValue.height : WrittenValue → Nat
  | .array items => WrittenValue.maxHeight items + 1
  | .nested use => use.height + 1
  | _ => 1

def WrittenValue.maxHeight : List WrittenValue → Nat
  | [] => 0
  | value :: values => max value.height (WrittenValue.maxHeight values)

def AnnotationUse.height : AnnotationUse → Nat
  | ⟨_, fields, _⟩ => AnnotationUse.fieldsHeight fields

def AnnotationUse.fieldsHeight : List (String × WrittenValue) → Nat
  | [] => 0
  | (_, value) :: fields => max (value.height + 1) (AnnotationUse.fieldsHeight fields)

end

/-- Annotations, one after the other, none nested too deeply. -/
def UsesSpelling : List AnnotationUse → List Terminal → Prop :=
  Sequence [] fun use terminals => UseSpelling use terminals ∧ use.height ≤ maxValueDepth + 1

/-! ### Declarations -/

/-- The terminals that spell the type of an element without its dimensions. -/
inductive InnermostTypeSpelling : ElementType → List Terminal → Prop
  | primitive (p : Primitive) : InnermostTypeSpelling (.primitive p) [.name p.keyword]
  | string : InnermostTypeSpelling .string [.name "String"]
  | classLiteral : InnermostTypeSpelling .classLiteral [.name "Class"]
  | enum (q : QualifiedName) : InnermostTypeSpelling (.enum q.text) (.word .enumWord :: q.terminals)
  | annotationType (q : QualifiedName) :
      InnermostTypeSpelling (.annotationType q.text) (.word .annotationFieldWord :: q.terminals)

/-- The brackets of so many dimensions. -/
def brackets : Nat → List Terminal
  | 0 => []
  | dimensions + 1 => .word .openBracket :: .word .closeBracket :: brackets dimensions

/-- The terminals that spell the type of an element. -/
inductive ElementTypeSpelling : ElementType → List Terminal → Prop
  | mk {type : ElementType} {terminals : List Terminal} (h : InnermostTypeSpelling type terminals)
      (dimensions : Nat) :
      ElementTypeSpelling (ElementType.array^[dimensions] type) (terminals ++ brackets dimensions)

/-- The terminals that spell an element of an annotation type. -/
inductive ElementSpelling : ElementDeclaration → List Terminal → Prop
  | plain {type : ElementType} {name : String} {terminals : List Terminal}
      (h : ElementTypeSpelling type terminals) :
      ElementSpelling ⟨name, type, none⟩ (terminals ++ [.name name])
  | withDefault {type : ElementType} {name : String} {value : WrittenValue}
      {terminals others : List Terminal} (h : ElementTypeSpelling type terminals)
      (hvalue : ValueSpelling value others) (hheight : value.height ≤ maxValueDepth + 1) :
      ElementSpelling ⟨name, type, some value⟩ (terminals ++ .name name :: .word .equals :: others)

/-- A block that declares an annotation type. -/
structure AnnotationBlock where
  name : String
  uses : List AnnotationUse
  elements : List ElementDeclaration

inductive AnnotationBlock.Spelling : AnnotationBlock → List Terminal → Prop
  | mk {name : String} {uses : List AnnotationUse} {elements : List ElementDeclaration}
      {terminals others : List Terminal} (huses : UsesSpelling uses terminals)
      (helements : Sequence [] ElementSpelling elements others) :
      Spelling ⟨name, uses, elements⟩
        (.word .annotationWord :: .word .atSign :: .name name :: .word .colon ::
          terminals ++ others)

/-! ### Members -/

/-- Annotations of what a method returns or of a parameter. -/
inductive MethodPart
  | result (uses : List AnnotationUse)
  | parameter (position : Nat) (uses : List AnnotationUse) (typeUses : List AnnotationUse)

/-- A block about a member of a class. -/
inductive MemberBlock
  | method (name : String) (descriptor : MethodDescriptor) (uses : List AnnotationUse)
    (parts : List MethodPart)
  | field (name : String) (uses : List AnnotationUse) (typeUses : List AnnotationUse)

/-- The annotations of a type, in a section that can be left out if there are none. -/
inductive TypeSpelling : List AnnotationUse → List Terminal → Prop
  | absent : TypeSpelling [] []
  | present {uses : List AnnotationUse} {terminals : List Terminal}
    (h : UsesSpelling uses terminals) :
      TypeSpelling uses (.word .typeWord :: .word .colon :: terminals)

inductive MethodPart.Spelling : MethodPart → List Terminal → Prop
  | result {uses : List AnnotationUse} {terminals : List Terminal}
      (h : UsesSpelling uses terminals) :
      Spelling (.result uses) (.word .returnWord :: .word .colon :: terminals)
  | parameter {digits : List Char} {uses typeUses : List AnnotationUse}
      {terminals others : List Terminal} (hdigits : IsRun Char.isDigit digits)
      (hlimit : Literal.ofDigits 10 digits ≤ Literal.maxPosition) (h : UsesSpelling uses terminals)
      (htype : TypeSpelling typeUses others) :
      Spelling (.parameter (Literal.ofDigits 10 digits) uses typeUses)
        (.word .parameterWord :: .word .hash :: .literal .decimalInteger digits :: .word .colon ::
          terminals ++ others)

/-- The name of a method, a constructor or a class initialiser. -/
inductive MethodNameSpelling : String → Terminal → Prop
  | plain (name : String) : MethodNameSpelling name (.name name)
  | special {name : String} (h : name = "<init>" ∨ name = "<clinit>") :
      MethodNameSpelling name ⟨some .specialName, name, false⟩

/-- A sign or name within a descriptor, which follows the token before it at once. -/
inductive DescriptorPart : Terminal → Prop
  | sign {kind : TokenKind}
      (h : kind ∈ [.semicolon, .slash, .openBracket, .openParen, .closeParen]) :
      DescriptorPart (Terminal.word kind).joined
  | name (text : String) : DescriptorPart (Terminal.name text).joined

/-- The terminals that spell a descriptor after its opening parenthesis. -/
def DescriptorSpelling (descriptor : MethodDescriptor) (terminals : List Terminal) : Prop :=
  (∀ terminal ∈ terminals, DescriptorPart terminal) ∧
    MethodDescriptor.decode (String.join ("(" :: terminals.map (·.lexeme))) = .ok descriptor

inductive MemberBlock.Spelling : MemberBlock → List Terminal → Prop
  | method {name : String} {descriptor : MethodDescriptor} {uses : List AnnotationUse}
      {parts : List MethodPart} {nameTerminal : Terminal}
      {descriptorTerminals terminals others : List Terminal}
      (hname : MethodNameSpelling name nameTerminal)
      (hdescriptor : DescriptorSpelling descriptor descriptorTerminals)
      (huses : UsesSpelling uses terminals)
      (hparts : Sequence [] MethodPart.Spelling parts others) :
      Spelling (.method name descriptor uses parts)
        (.word .methodWord :: nameTerminal :: .word .openParen :: descriptorTerminals ++
          [.word .colon] ++ terminals ++ others)
  | field {name : String} {uses typeUses : List AnnotationUse} {terminals others : List Terminal}
      (huses : UsesSpelling uses terminals) (htype : TypeSpelling typeUses others) :
      Spelling (.field name uses typeUses)
        (.word .fieldWord :: .name name :: .word .colon :: terminals ++ others)

/-! ### Packages -/

/-- A block about a class. -/
structure ClassBlock where
  name : String
  uses : List AnnotationUse
  members : List MemberBlock

inductive ClassBlock.Spelling : ClassBlock → List Terminal → Prop
  | mk {name : String} {uses : List AnnotationUse} {members : List MemberBlock}
      {terminals others : List Terminal} (huses : UsesSpelling uses terminals)
      (hmembers : Sequence [] MemberBlock.Spelling members others) :
      Spelling ⟨name, uses, members⟩
        (.word .classWord :: .name name :: .word .colon :: terminals ++ others)

/-- What stands in a package. -/
inductive PackageItem
  | ofClass (block : ClassBlock)
  | ofDeclaration (block : AnnotationBlock)

inductive PackageItem.Spelling : PackageItem → List Terminal → Prop
  | ofClass {block : ClassBlock} {terminals : List Terminal} (h : block.Spelling terminals) :
      Spelling (.ofClass block) terminals
  | ofDeclaration {block : AnnotationBlock} {terminals : List Terminal}
    (h : block.Spelling terminals) :
      Spelling (.ofDeclaration block) terminals

/-- A block about a package, which has no name if its name is empty. -/
structure PackageBlock where
  name : String
  items : List PackageItem

inductive PackageBlock.Spelling : PackageBlock → List Terminal → Prop
  | unnamed {items : List PackageItem} {terminals : List Terminal}
      (h : Sequence [] PackageItem.Spelling items terminals) :
      Spelling ⟨"", items⟩ (.word .packageWord :: .word .colon :: terminals)
  | named (q : QualifiedName) {items : List PackageItem} {terminals : List Terminal}
      (h : Sequence [] PackageItem.Spelling items terminals) :
      Spelling ⟨q.text, items⟩ (.word .packageWord :: q.terminals ++ [.word .colon] ++ terminals)

/-- The terminals that spell the text of an index. -/
def FileSpelling : List PackageBlock → List Terminal → Prop := Sequence [] PackageBlock.Spelling

/-! ### What the blocks say -/

def MethodPart.entries (subject : Subject) : MethodPart → List Entry
  | .result uses => subject.entry .returnType .start uses
  | .parameter position uses typeUses =>
    subject.entry (.parameter position) .start uses ++
      subject.entry (.parameterType position) .start typeUses

def MemberBlock.entries (owner package : String) : MemberBlock → List Entry
  | .method name descriptor uses parts =>
    let subject : Subject := ⟨owner, package, some (.method name descriptor)⟩
    subject.entry .declaration .start uses ++ parts.flatMap (·.entries subject)
  | .field name uses typeUses =>
    let subject : Subject := ⟨owner, package, some (.field name)⟩
    subject.entry .declaration .start uses ++ subject.entry .fieldType .start typeUses

def ClassBlock.entries (package : String) (block : ClassBlock) : List Entry :=
  let owner := qualify package block.name
  Subject.entry ⟨owner, package, none⟩ .declaration .start block.uses ++
    block.members.flatMap (·.entries owner package)

def AnnotationBlock.declaration (package : String) (block : AnnotationBlock) : Declaration :=
  ⟨qualify package block.name, block.uses, block.elements, .start⟩

def PackageItem.index (package : String) : PackageItem → Index
  | .ofClass block => .of (block.entries package) []
  | .ofDeclaration block => .of [] [block.declaration package]

def PackageBlock.index (block : PackageBlock) : Index :=
  .of (block.items.flatMap fun item => (item.index block.name).entries)
    (block.items.flatMap fun item => (item.index block.name).declarations)

/-- Everything that the blocks say, in their order. -/
def Index.ofBlocks (blocks : List PackageBlock) : Index :=
  .of (blocks.flatMap (·.index.entries)) (blocks.flatMap (·.index.declarations))

end ExternalAnnotations
