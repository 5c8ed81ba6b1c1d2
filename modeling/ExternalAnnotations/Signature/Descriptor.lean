import ExternalAnnotations.Signature.Type
import ExternalAnnotations.Text.Blank
import ExternalAnnotations.Text.Location

/-!
# Descriptors

The compact form of types and method signatures in class files, such as `(Ljava/lang/String;I)V`.
Reading is strict: what it accepts is exactly what `ErasedType.descriptor` and
`MethodDescriptor.encode` write.
-/

namespace ExternalAnnotations

/-- What is wrong with a descriptor. A character that is out of place is given with what remains
of the descriptor from it on. -/
inductive DescriptorFault
  | empty
  | expected (c : Char) (remaining : List Char)
  | invalidTypeCode (c : Char) (remaining : List Char)
  | unterminatedClassName
  | emptyClassName
  | tooManyDimensions
  | misplacedVoid
  | trailing
  deriving DecidableEq, Repr

/-- A descriptor that cannot be read, and why. -/
structure DescriptorError where
  descriptor : String
  fault : DescriptorFault
  deriving DecidableEq, Repr

namespace DescriptorError

/-- The byte offset at which the last part of the descriptor starts. -/
def offset (error : DescriptorError) (remaining : List Char) : Nat :=
  byteLength error.descriptor.toList - byteLength remaining

def message (error : DescriptorError) : String :=
  let inDescriptor := " in descriptor '" ++ error.descriptor ++ "'"
  match error.fault with
  | .empty => "empty descriptor"
  | .expected c remaining =>
    "expected '" ++ c.toString ++ "' at offset " ++ toString (error.offset remaining)
      ++ inDescriptor
  | .invalidTypeCode c remaining =>
    "invalid type code '" ++ c.toString ++ "' at offset " ++ toString (error.offset remaining)
      ++ inDescriptor
  | .unterminatedClassName => "unterminated class name" ++ inDescriptor
  | .emptyClassName => "empty class name" ++ inDescriptor
  | .tooManyDimensions => "too many array dimensions" ++ inDescriptor
  | .misplacedVoid => "void is only allowed as a return type" ++ inDescriptor
  | .trailing => "trailing characters after descriptor '" ++ error.descriptor ++ "'"

end DescriptorError

/-- The most dimensions an array type may have. -/
def maxDimensions : Nat := 255

namespace ErasedType

/-- Characters that cannot stand in the name of a class. -/
def endsClassName (c : Char) : Bool :=
  c == ';' || c == '.' || c == '[' || c == '(' || c == ')' || isBlank c

/-- Reads the name of a class through its semicolon. -/
def readClassName (text : List Char) : Except DescriptorFault (String × List Char) :=
  let name := text.takeWhile (!endsClassName ·)
  match text.dropWhile (!endsClassName ·) with
  | ';' :: rest =>
    if (segments (· == '/') name).any List.isEmpty then .error .emptyClassName
    else .ok (String.ofList (name.map fun c => if c = '/' then '.' else c), rest)
  | _ => .error .unterminatedClassName

/-- Reads a type that is neither an array nor `void`. -/
def readBase : List Char → Except DescriptorFault (ErasedType × List Char)
  | [] => .error .unterminatedClassName
  | c :: rest =>
    if c = 'L' then (readClassName rest).map fun (name, rest) => (named name, rest)
    else if c = 'V' then .error .misplacedVoid
    else
      match Primitive.ofCode? c with
      | some p => .ok (primitive p, rest)
      | none => .error (.invalidTypeCode c (c :: rest))

/-- Reads a type other than `void` from the start of a text. -/
def read (text : List Char) : Except DescriptorFault (ErasedType × List Char) :=
  let dimensions := (text.takeWhile (· == '[')).length
  if maxDimensions < dimensions then .error .tooManyDimensions
  else
    (readBase (text.dropWhile (· == '['))).map fun (type, rest) =>
      (arrayOf dimensions type, rest)

theorem length_dropWhile_le (p : Char → Bool) (text : List Char) :
    (text.dropWhile p).length ≤ text.length :=
  (List.dropWhile_sublist p).length_le

theorem readClassName_length {text rest : List Char} {name : String}
    (h : readClassName text = .ok (name, rest)) : rest.length < text.length := by
  unfold readClassName at h
  have shorter := length_dropWhile_le (!endsClassName ·) text
  split at h
  · rename_i rest' found
    dsimp only at h
    split at h
    · contradiction
    · rw [found, List.length_cons] at shorter
      obtain ⟨-, rfl⟩ := Prod.mk.inj (Except.ok.inj h)
      omega
  · contradiction

theorem readBase_length {text rest : List Char} {type : ErasedType}
    (h : readBase text = .ok (type, rest)) : rest.length < text.length := by
  cases text with
  | nil => contradiction
  | cons c text =>
    simp only [readBase] at h
    split at h
    · cases found : readClassName text with
      | error fault => rw [found] at h; contradiction
      | ok result =>
        rw [found] at h
        obtain ⟨-, rfl⟩ := Prod.mk.inj (Except.ok.inj h)
        exact Nat.lt_succ_of_lt (readClassName_length found)
    · split at h
      · contradiction
      · split at h
        · obtain ⟨-, rfl⟩ := Prod.mk.inj (Except.ok.inj h)
          exact Nat.lt_succ_self _
        · contradiction

/-- Reading a type uses up some of the text. -/
theorem read_length {text rest : List Char} {type : ErasedType}
    (h : read text = .ok (type, rest)) : rest.length < text.length := by
  unfold read at h
  dsimp only at h
  split at h
  · contradiction
  · cases found : readBase (text.dropWhile (· == '[')) with
    | error fault => rw [found] at h; contradiction
    | ok result =>
      rw [found] at h
      obtain ⟨-, rfl⟩ := Prod.mk.inj (Except.ok.inj h)
      exact Nat.lt_of_lt_of_le (readBase_length found) (length_dropWhile_le _ text)

/-- Reads a field descriptor: one type and nothing after it. -/
def ofDescriptor (text : String) : Except DescriptorError ErasedType :=
  if text = "" then .error ⟨text, .empty⟩
  else
    match read text.toList with
    | .error fault => .error ⟨text, fault⟩
    | .ok (type, []) => .ok type
    | .ok _ => .error ⟨text, .trailing⟩

end ErasedType

/-- The signature of a method: what it takes and what it returns. -/
structure MethodDescriptor where
  parameters : List ErasedType
  result : ErasedType
  deriving DecidableEq, Repr

namespace MethodDescriptor

def arity (d : MethodDescriptor) : Nat := d.parameters.length

def encode (d : MethodDescriptor) : List Char :=
  '(' :: d.parameters.flatMap ErasedType.descriptor ++ ')' :: d.result.descriptor

/-- Reads parameter types up to and including the closing parenthesis. -/
def readParameters (text : List Char) : Except DescriptorFault (List ErasedType × List Char) :=
  match text with
  | [] => .error (.expected ')' [])
  | ')' :: rest => .ok ([], rest)
  | c :: rest =>
    match found : ErasedType.read (c :: rest) with
    | .error fault => .error fault
    | .ok (type, rest') =>
      have := ErasedType.read_length found
      (readParameters rest').map fun (types, rest'') => (type :: types, rest'')
termination_by text.length
decreasing_by exact this

/-- Reads the type of a result, which alone may be `void`. -/
def readResult : List Char → Except DescriptorFault (ErasedType × List Char)
  | 'V' :: rest => .ok (.void, rest)
  | text => ErasedType.read text

/-- Reads a method descriptor from characters. -/
def read : List Char → Except DescriptorFault MethodDescriptor
  | [] => .error .empty
  | '(' :: text => do
    let (parameters, rest) ← readParameters text
    let (result, rest) ← readResult rest
    if rest.isEmpty then .ok ⟨parameters, result⟩ else .error .trailing
  | text => .error (.expected '(' text)

def decode (text : String) : Except DescriptorError MethodDescriptor :=
  (read text.toList).mapError (⟨text, ·⟩)

end MethodDescriptor

end ExternalAnnotations
