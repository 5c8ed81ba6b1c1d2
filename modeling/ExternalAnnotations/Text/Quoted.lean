import ExternalAnnotations.Text.Plain

/-!
# Texts in quotes

A quoted text shows plain characters as they are. The quote itself and the backslash have a
backslash before them, a few controls have escapes of one letter, and every other character is
given by its code point.
-/

namespace ExternalAnnotations

/-- A character as it stands between quotes of a kind. -/
def escape (quote : Char) (c : Char) : List Char :=
  if c = quote || c = '\\' then ['\\', c]
  else if c = '\n' then ['\\', 'n']
  else if c = '\r' then ['\\', 'r']
  else if c = '\t' then ['\\', 't']
  else if c = '\x00' then ['\\', '0']
  else if isPlain c then [c]
  else ['\\', 'u', '\x7b'] ++ Nat.toDigits 16 c.toNat ++ ['\x7d']

/-- A text between quotes of a kind. -/
def enclose (quote : Char) (text : List Char) : List Char :=
  quote :: text.flatMap (escape quote) ++ [quote]

/-- A string in double quotes. -/
def quoted (text : String) : String :=
  String.ofList (enclose '"' text.toList)

/-- A character in single quotes. -/
def quotedChar (c : Char) : String :=
  String.ofList (enclose '\'' [c])

end ExternalAnnotations
