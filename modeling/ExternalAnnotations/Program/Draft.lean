import ExternalAnnotations.Program.Basic

/-!
# Entering classes

A `ClassDraft` says what is in a class before it has a slot. Entering a source file gives every
class of it the next free slot, each class before those nested in it, and its binary name.
-/

namespace ExternalAnnotations

/-- A class that has not been entered into a program. -/
structure ClassDraft where
  simpleName : String
  kind : ClassKind
  modifiers : List Modifier
  superclass : Option String
  interfaces : List String
  annotations : List AnnotationInstance
  methods : List Method
  fields : List Field
  nested : List ClassDraft

/-- The superclass that a class has when none is named. -/
def ClassKind.defaultSuperclass : ClassKind → Option String
  | ordinary => some "java.lang.Object"
  | enum => some "java.lang.Enum"
  | interface | annotationType => none

namespace ClassDraft

/-- A public class with nothing in it. -/
def ofName (simpleName : String) (kind : ClassKind) : ClassDraft :=
  ⟨simpleName, kind, [.isPublic], kind.defaultSuperclass, [], [], [], [], []⟩

mutual

/-- The number of slots that a class takes, with those nested in it. -/
def size : ClassDraft → Nat
  | ⟨_, _, _, _, _, _, _, _, nested⟩ => sizes nested + 1

def sizes : List ClassDraft → Nat
  | [] => 0
  | draft :: drafts => draft.size + sizes drafts

end

/-- The slots that classes take one after the other, from the first free one on. -/
def slots : List ClassDraft → Slot → List Slot
  | [], _ => []
  | draft :: drafts, slot => slot :: slots drafts (slot + draft.size)

mutual

/-- The class that a draft becomes in a slot, followed by those nested in it. -/
def enter (file : FileId) (enclosing : Option Slot) (binaryName : String) (slot : Slot) :
    ClassDraft → List Class
  | ⟨_, kind, modifiers, superclass, interfaces, annotations, methods, fields, nested⟩ =>
    { binaryName, kind, modifiers, superclass, interfaces, annotations, methods, fields
      enclosing
      nested := slots nested (slot + 1)
      file }
      :: enterAll file (some slot) (nestedName binaryName) (slot + 1) nested

/-- The classes that drafts become one after the other, given how they are named. -/
def enterAll (file : FileId) (enclosing : Option Slot) (naming : String → String) (slot : Slot) :
    List ClassDraft → List Class
  | [] => []
  | draft :: drafts =>
    draft.enter file enclosing (naming draft.simpleName) slot
      ++ enterAll file enclosing naming (slot + draft.size) drafts

end

end ClassDraft

/-- Enters a source file with its top-level classes. Its number is that of the files before it. -/
def Program.addFile (program : Program) (package : String) (path : Option String)
    (drafts : List ClassDraft) : Program :=
  let first := program.classes.size
  { classes := program.classes
      ++ ClassDraft.enterAll program.files.size none (qualify package) first drafts
    files := program.files.push ⟨package, path, ClassDraft.slots drafts first⟩ }

end ExternalAnnotations
