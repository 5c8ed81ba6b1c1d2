/-!
# Places in a text

A `Location` is a place between two characters of a text. It is found by stepping over the
characters before it, so it never has to be looked up. `lineOf` goes the other way and gives
the line of a text on which a place lies.
-/

namespace ExternalAnnotations

/-- A place in a text. Lines and columns count from one, the offset counts UTF-8 bytes from zero. -/
structure Location where
  line : Nat
  column : Nat
  offset : Nat
  deriving DecidableEq, Repr

namespace Location

/-- The place before the first character of every text. -/
def start : Location := ⟨1, 1, 0⟩

instance : Inhabited Location := ⟨start⟩

/-- The place after one more character. Only a line feed ends a line. -/
def step (place : Location) (c : Char) : Location :=
  if c = '\n' then ⟨place.line + 1, 1, place.offset + c.utf8Size⟩
  else ⟨place.line, place.column + 1, place.offset + c.utf8Size⟩

/-- The place after a run of characters. -/
def advance (place : Location) (text : List Char) : Location :=
  text.foldl step place

@[simp] theorem advance_nil (place : Location) : place.advance [] = place := rfl

@[simp] theorem advance_cons (place : Location) (c : Char) (text : List Char) :
    place.advance (c :: text) = (place.step c).advance text := rfl

theorem advance_append (place : Location) (first second : List Char) :
    place.advance (first ++ second) = (place.advance first).advance second :=
  List.foldl_append

/-- Written as `line:column`. -/
def text (place : Location) : String :=
  toString place.line ++ ":" ++ toString place.column

end Location

/-- Number of bytes of a text in UTF-8. -/
def byteLength : List Char → Nat
  | [] => 0
  | c :: text => c.utf8Size + byteLength text

theorem offset_advance (place : Location) (text : List Char) :
    (place.advance text).offset = place.offset + byteLength text := by
  induction text generalizing place with
  | nil => rfl
  | cons c text ih =>
    rw [Location.advance_cons, ih]
    simp only [byteLength, Location.step]
    split <;> simp only [Nat.add_assoc]

/-- The characters that lie wholly before a byte offset, and the others. -/
def splitAtOffset : Nat → List Char → List Char × List Char
  | _, [] => ([], [])
  | offset, c :: text =>
    if c.utf8Size ≤ offset then
      let (before, after) := splitAtOffset (offset - c.utf8Size) text
      (c :: before, after)
    else ([], c :: text)

/-- The text without the carriage returns at its end. -/
def dropCarriageReturns (text : List Char) : List Char :=
  (text.reverse.dropWhile (· = '\r')).reverse

/-- The whole line on which a place lies, without the characters that end it. -/
def lineOf (source : List Char) (place : Location) : List Char :=
  let (before, after) := splitAtOffset place.offset source
  dropCarriageReturns
    ((before.reverse.takeWhile (· ≠ '\n')).reverse ++ after.takeWhile (· ≠ '\n'))

end ExternalAnnotations
