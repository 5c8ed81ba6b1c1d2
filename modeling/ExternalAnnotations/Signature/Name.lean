import ExternalAnnotations.Text.Segments

/-!
# Binary names

A binary name is written with dots between packages and with `$` between nested classes, as in
`java.util.Map$Entry`.
-/

namespace ExternalAnnotations

/-- Separates the name of a class from that of a class nested in it. -/
def nestedSeparator : Char := '$'

/-- The last part of a binary name: that of the innermost class. -/
def simpleName (name : String) : String :=
  String.ofList (lastSegment (fun c => c == '.' || c == nestedSeparator) name.toList)

/-- The package of a binary name, empty for the unnamed package. -/
def packageOf (name : String) : String :=
  String.ofList ((beforeLast? (· == '.') name.toList).getD [])

def qualify (package name : String) : String :=
  if package = "" then name else package ++ "." ++ name

/-- The binary name of a class nested in another. -/
def nestedName (outer simple : String) : String :=
  outer ++ nestedSeparator.toString ++ simple

/-- Whether a name is written with its package. -/
def isQualified (name : String) : Bool :=
  name.toList.contains '.'

end ExternalAnnotations
