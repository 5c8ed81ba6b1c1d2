import ExternalAnnotations.Program.Class

/-!
# Programs

A program holds its classes in numbered slots and knows which source file each top-level class is
in. A class is found by its binary name, from the top-level class down to the nested one.
-/

namespace ExternalAnnotations

/-- A source file with its top-level classes. -/
structure SourceFile where
  package : String
  path : Option String
  classes : List Slot
  deriving DecidableEq, Repr

structure Program where
  classes : Array Class
  files : Array SourceFile
  deriving BEq

/-- Why a class cannot take the place of another. -/
inductive ReplacementError
  | noSuchSlot (slot : Slot)
  | otherClass (binaryName : String)
  deriving DecidableEq, Repr

def ReplacementError.message : ReplacementError → String
  | noSuchSlot slot => "no class in slot " ++ toString slot
  | otherClass name => "replacement for '" ++ name ++ "' does not describe the same class"

/-- The names of a pool other than one. -/
def without (pool : List String) (name : String) : List String := pool.filter (· ≠ name)

theorem length_without_lt {pool : List String} {name : String} (listed : name ∈ pool) :
    (without pool name).length < pool.length :=
  List.length_filter_lt_length_iff_exists.2 ⟨name, listed, by simp⟩

namespace Program

def empty : Program := ⟨#[], #[]⟩

instance : EmptyCollection Program := ⟨empty⟩

instance : Inhabited Program := ⟨empty⟩

def holds (program : Program) (property : Class → Bool) (slot : Slot) : Bool :=
  program.classes[slot]?.any property

/-- The top-level classes in the order in which they were entered. -/
def topLevel (program : Program) : List Slot := program.files.toList.flatMap (·.classes)

/-- The top-level class of a name. Of several the one entered last is found. -/
def topLevel? (program : Program) (name : String) : Option Slot :=
  program.topLevel.reverse.find? (program.holds (·.binaryName == name))

/-- The class of a simple name that is nested directly in another. -/
def nested? (program : Program) (outer : Slot) (name : String) : Option Slot :=
  program.classes[outer]?.bind fun c => c.nested.find? (program.holds (·.simpleName == name))

/-- The slot of the class of a binary name. -/
def lookup? (program : Program) (binaryName : String) : Option Slot :=
  match (segments (· == nestedSeparator) binaryName.toList).map String.ofList with
  | [] => none
  | top :: inner => do inner.foldlM program.nested? (← program.topLevel? top)

def find? (program : Program) (binaryName : String) : Option Class := do
  program.classes[← program.lookup? binaryName]?

def isAnnotationType (program : Program) (binaryName : String) : Bool :=
  (program.find? binaryName).any (·.isAnnotationType)

/-- A class and the classes nested in it, each before those nested in it. Nested classes are
entered after the class around them, so their slots are greater. -/
def withNested (program : Program) (slot : Slot) : List Slot :=
  if h : slot < program.classes.size then
    let inner := program.classes[slot].nested.filter (slot < ·)
    slot :: inner.attach.flatMap fun ⟨nested, isInner⟩ =>
      have : slot < nested := by simpa using (List.mem_filter.1 isInner).2
      program.withNested nested
  else []
termination_by program.classes.size - slot
decreasing_by exact Nat.sub_lt_sub_left h this

/-- All classes of a source file, each before those nested in it. -/
def classesIn (program : Program) (file : FileId) : List Slot :=
  (program.files[file]?.elim [] (·.classes)).flatMap program.withNested

/-- Follows superclass names that are in a pool, taking each out of it. -/
def ancestorsIn (program : Program) (pool : List String) : Option String → List String
  | none => []
  | some name =>
    if listed : name ∈ pool then
      have := length_without_lt listed
      name :: program.ancestorsIn (without pool name)
        ((program.find? name).bind (·.superclass))
    else []
termination_by pool.length

/-- The names of the superclasses of a class from the nearest one up. The last one may be unknown
to the program, and no name is repeated. -/
def ancestors (program : Program) (slot : Slot) : List String :=
  program.ancestorsIn (program.classes.toList.filterMap (·.superclass))
    (program.classes[slot]?.bind (·.superclass))

/-- Whether two classes are the same apart from what stands in them. -/
def sameClass (old new : Class) : Bool :=
  old.binaryName == new.binaryName && old.file == new.file && old.enclosing == new.enclosing
    && old.nested == new.nested

/-- Puts a class in the place of another, which is given with the new program. -/
def replace (program : Program) (slot : Slot) (new : Class) :
    Except ReplacementError (Class × Program) :=
  match program.classes[slot]? with
  | none => .error (.noSuchSlot slot)
  | some old =>
    if sameClass old new then
      .ok (old, { program with classes := program.classes.setIfInBounds slot new })
    else .error (.otherClass old.binaryName)

end Program

end ExternalAnnotations
