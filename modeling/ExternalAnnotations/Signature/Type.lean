import ExternalAnnotations.Signature.Name

/-!
# Types in signatures

The types that stand in signatures, after erasure. A class type is known by its binary name.
-/

namespace ExternalAnnotations

inductive Primitive
  | boolean
  | byte
  | char
  | short
  | int
  | long
  | float
  | double
  deriving DecidableEq, Repr

namespace Primitive

def all : List Primitive := [boolean, byte, char, short, int, long, float, double]

/-- The letter that stands for the type in a descriptor. -/
def code : Primitive → Char
  | boolean => 'Z'
  | byte => 'B'
  | char => 'C'
  | short => 'S'
  | int => 'I'
  | long => 'J'
  | float => 'F'
  | double => 'D'

def ofCode? (c : Char) : Option Primitive := all.find? (·.code == c)

def keyword : Primitive → String
  | boolean => "boolean"
  | byte => "byte"
  | char => "char"
  | short => "short"
  | int => "int"
  | long => "long"
  | float => "float"
  | double => "double"

def ofKeyword? (word : String) : Option Primitive := all.find? (·.keyword == word)

/-- The name of a primitive type as part of other names. -/
def capitalized : Primitive → String
  | boolean => "Boolean"
  | byte => "Byte"
  | char => "Char"
  | short => "Short"
  | int => "Int"
  | long => "Long"
  | float => "Float"
  | double => "Double"

theorem ofCode?_code (p : Primitive) : ofCode? p.code = some p := by cases p <;> rfl

theorem ofKeyword?_keyword (p : Primitive) : ofKeyword? p.keyword = some p := by
  cases p <;> decide

end Primitive

/-- A type in a signature. `void` is a type only as the result of a method. -/
inductive ErasedType
  | void
  | primitive (p : Primitive)
  | named (binaryName : String)
  | array (item : ErasedType)
  deriving DecidableEq, Repr

namespace ErasedType

/-- References are the types that a type annotation can apply to. -/
def isReference : ErasedType → Bool
  | named _ | array _ => true
  | _ => false

def isPrimitive : ErasedType → Bool
  | primitive _ => true
  | _ => false

/-- The simple name of a class type. -/
def simpleName? : ErasedType → Option String
  | named name => some (simpleName name)
  | _ => none

/-- The type as it is written in Java. -/
def text : ErasedType → String
  | void => "void"
  | primitive p => p.keyword
  | named name => name
  | array item => item.text ++ "[]"

/-- An array with a number of dimensions. -/
def arrayOf : Nat → ErasedType → ErasedType
  | 0, type => type
  | dimensions + 1, type => array (arrayOf dimensions type)

/-- The type of the innermost items of an array, and the number of its dimensions. -/
def innermost : ErasedType → ErasedType × Nat
  | array item => (item.innermost.1, item.innermost.2 + 1)
  | type => (type, 0)

/-- The type as a descriptor, with slashes in class names. -/
def descriptor : ErasedType → List Char
  | void => ['V']
  | primitive p => [p.code]
  | named name => 'L' :: (name.toList.map fun c => if c = '.' then '/' else c) ++ [';']
  | array item => '[' :: item.descriptor

end ErasedType

end ExternalAnnotations
