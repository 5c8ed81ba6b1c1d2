/-!
# Outlines

A value shown with one part on a line, indented by how deeply it is nested.
-/

namespace ExternalAnnotations

/-- The parts of a value, for showing. -/
inductive Outline
  | atom (text : String)
  /-- Parts in order between brackets, after a name. -/
  | sequence (name opening closing : String) (parts : List Outline)
  /-- Parts with names between braces, after a name. -/
  | record (name : String) (fields : List (String × Outline))

namespace Outline

def list (items : List Outline) : Outline := sequence "" "[" "]" items

/-- A constructor with its arguments. -/
def applied (name : String) (arguments : List Outline) : Outline :=
  sequence name "(" ")" arguments

/-- A value that may be missing. -/
def optional : Option Outline → Outline
  | some outline => applied "Some" [outline]
  | none => atom "None"

/-- Puts a comma at the end of the last line. -/
def endWithComma : List String → List String
  | [] => []
  | [line] => [line ++ ","]
  | line :: others => line :: endWithComma others

mutual

/-- The lines of an outline, each indented by a margin but for the first, which follows a label. -/
def lines (margin label : String) : Outline → List String
  | atom text => [margin ++ label ++ text]
  | sequence name opening closing parts =>
    if parts.isEmpty then [margin ++ label ++ name ++ opening ++ closing]
    else
      (margin ++ label ++ name ++ opening) ::
        partLines (margin ++ "    ") parts ++ [margin ++ closing]
  | record name fields =>
    (margin ++ label ++ name ++ " \x7b") ::
      fieldLines (margin ++ "    ") fields ++ [margin ++ "\x7d"]

def partLines (margin : String) : List Outline → List String
  | [] => []
  | part :: parts => endWithComma (lines margin "" part) ++ partLines margin parts

def fieldLines (margin : String) : List (String × Outline) → List String
  | [] => []
  | (name, value) :: fields =>
    endWithComma (lines margin (name ++ ": ") value) ++ fieldLines margin fields

end

def text (outline : Outline) : String := "\n".intercalate (lines "" "" outline)

end Outline

end ExternalAnnotations
