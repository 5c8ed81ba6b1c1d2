import ExternalAnnotations.Signature.Descriptor

/-!
# What can be wrong with the text of an index
-/

namespace ExternalAnnotations

/-- A place at which the text of an index is not as it should be. -/
inductive SyntaxError
  | unexpectedToken (expected found : String) (place : Location)
  | unexpectedEnd (expected : String) (place : Location)
  | invalidDescriptor (error : DescriptorError) (place : Location)
  | invalidLiteral (literal reason : String) (place : Location)
  | tooDeep (place : Location)
  deriving DecidableEq, Repr

namespace SyntaxError

def place : SyntaxError → Location
  | unexpectedToken _ _ place | unexpectedEnd _ place | invalidDescriptor _ place
  | invalidLiteral _ _ place | tooDeep place => place

def message : SyntaxError → String
  | unexpectedToken expected found _ => "expected " ++ expected ++ ", found '" ++ found ++ "'"
  | unexpectedEnd expected _ => "unexpected end of input, expected " ++ expected
  | invalidDescriptor error _ => "invalid method descriptor: " ++ error.message
  | invalidLiteral literal reason _ => "invalid literal '" ++ literal ++ "': " ++ reason
  | tooDeep _ => "annotation value nested too deeply"

end SyntaxError

end ExternalAnnotations
