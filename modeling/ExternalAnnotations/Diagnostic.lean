import ExternalAnnotations.Index.SyntaxError
import ExternalAnnotations.Index.Written
import ExternalAnnotations.AnnotationType.ElementType
import ExternalAnnotations.Text.Blank

/-!
# Diagnostics

Problems that are reported and do not stop anything: what they concern is left out.
-/

namespace ExternalAnnotations

/-- Why a written value is not the value of an element. -/
inductive ElementFault
  | noSuchElement
  | mismatch (expected : ElementType) (found : WrittenValue)
  | otherType (expected found : String)
  | foreignConstant (written typeName : String)
  | noSuchConstant (typeName constant : String)

def ElementFault.message : ElementFault → String
  | noSuchElement => "no such element"
  | mismatch expected found => "expected " ++ expected.text ++ ", found " ++ found.text
  | otherType expected found => "expected @" ++ expected ++ ", found @" ++ found
  | foreignConstant written typeName => written ++ " is not a constant of " ++ typeName
  | noSuchConstant typeName constant => typeName ++ " has no constant " ++ constant

inductive Diagnostic
  /-- A block or section of an index that was left out, with the line on which it went wrong. -/
  | malformed (error : SyntaxError) (line : String)
  /-- An annotation type that is declared nowhere. -/
  | unresolvedType (name : String)
  /-- An element value that was left out. -/
  | invalidElement (typeName element : String) (fault : ElementFault)

namespace Diagnostic

def isMalformed : Diagnostic → Bool
  | malformed _ _ => true
  | _ => false

/-- The diagnostic for an error in a text. -/
def ofSyntaxError (source : List Char) (error : SyntaxError) : Diagnostic :=
  malformed error (String.ofList (trim (lineOf source error.place)))

def text : Diagnostic → String
  | malformed error line =>
    "malformed index entry at " ++ error.place.text ++ ": " ++ error.message ++ "\n    " ++ line
  | unresolvedType name => "unresolved annotation type '" ++ name ++ "'"
  | invalidElement typeName element fault =>
    "invalid value for element '" ++ element ++ "' of @" ++ typeName ++ ": " ++ fault.message

end Diagnostic

end ExternalAnnotations
