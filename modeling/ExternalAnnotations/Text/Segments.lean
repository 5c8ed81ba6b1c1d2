/-!
# Texts cut at separators
-/

namespace ExternalAnnotations

/-- The pieces of a text between separators: one more than there are separators. -/
def segments (isSeparator : Char → Bool) : List Char → List (List Char)
  | [] => [[]]
  | c :: text =>
    match segments isSeparator text with
    | first :: others =>
      if isSeparator c then [] :: first :: others else (c :: first) :: others
    | [] => [[c]]

/-- The piece after the last separator. -/
def lastSegment (isSeparator : Char → Bool) (text : List Char) : List Char :=
  (text.reverse.takeWhile (!isSeparator ·)).reverse

/-- What comes before the last separator, if there is one. -/
def beforeLast? (isSeparator : Char → Bool) (text : List Char) : Option (List Char) :=
  match text.reverse.dropWhile (!isSeparator ·) with
  | _ :: before => some before.reverse
  | [] => none

end ExternalAnnotations
