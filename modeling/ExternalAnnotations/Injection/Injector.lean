import ExternalAnnotations.Injection.Attachment
import ExternalAnnotations.Index.Parser
import ExternalAnnotations.Resolution.Basic

/-!
# Injection

An `Injector` goes over the source files of a program once each. In a file it takes every class,
puts the annotations that the index has for it onto a copy, and puts the copy in the place of the
class.
-/

namespace ExternalAnnotations

/-- How far the injector is with a source file. -/
inductive Progress
  | unvisited
  | working
  | done
  deriving DecidableEq, Repr

/-- What the injector knows and has done. What was reported at work is in the memo until it is
collected. -/
structure Injector where
  index : Index
  memo : Memo
  visits : List (FileId × Progress)
  diagnostics : List Diagnostic

inductive InjectionError
  | unknownFile (file : FileId)
  | enteredTwice (file : FileId)
  | replacement (error : ReplacementError)
  deriving DecidableEq, Repr

def InjectionError.message : InjectionError → String
  | unknownFile file => "unknown compilation unit #" ++ toString file
  | enteredTwice file =>
    "Internal injector error: unit #" ++ toString file ++ " entered twice while enriching"
  | replacement error => "Internal injector error: " ++ error.message

namespace Injector

/-- An injector that has done nothing. -/
def ofIndex (index : Index) : Injector := ⟨index, {}, [], []⟩

/-- An injector for what texts say, which starts with what was wrong with them. -/
def ofParsed (parsed : Parsed) : Injector :=
  { ofIndex parsed.index with diagnostics := parsed.diagnostics }

/-- Takes over what was reported at work. -/
def collect (injector : Injector) : Injector :=
  { injector with
    memo := { injector.memo with diagnostics := [] }
    diagnostics := injector.diagnostics ++ injector.memo.diagnostics }

/-- Gives the diagnostics away that were collected. -/
def drain (injector : Injector) : List Diagnostic × Injector :=
  (injector.diagnostics, { injector with diagnostics := [] })

def progress (injector : Injector) (file : FileId) : Progress :=
  (injector.visits.lookup file).getD .unvisited

def setProgress (injector : Injector) (file : FileId) (progress : Progress) : Injector :=
  { injector with visits := (file, progress) :: injector.visits }

end Injector

namespace TypeSources

/-- Puts the annotations of an entry on a class. Nothing is given back if the entry is about no
element of the class, or about a type that cannot have annotations. -/
def applyOne? (sources : TypeSources) (c : Class) (entry : Entry) :
    Resolving (Option Class) := do
  match c.position? entry with
  | none => return none
  | some position =>
    let annotations ← entry.annotations.mapM (sources.resolve entry.package)
    return c.attach? entry.placement annotations position

/-- Puts the annotations of entries on a class, and says whether there were any. -/
def applyEntries (sources : TypeSources) : Class → List Entry → Resolving (Class × Bool)
  | c, [] => return (c, false)
  | c, entry :: entries => do
    match ← sources.applyOne? c entry with
    | none => sources.applyEntries c entries
    | some changed => return ((← sources.applyEntries changed entries).1, true)

/-- A class with the annotations that the index has for it, if it has any. -/
def annotate? (sources : TypeSources) (c : Class) : Resolving (Option Class) := do
  let (annotated, changed) ← sources.applyEntries c (sources.index.entriesFor c.binaryName)
  return if changed then some annotated else none

end TypeSources

/-- An injector at work on a program. -/
structure Injection where
  injector : Injector
  program : Program

namespace Injection

/-- Work of an injector on a program. After an error both are as the work left them. -/
abbrev Working := EStateM InjectionError Injection

/-- Does work that looks up annotation types in the program as it is and in the index. -/
def resolving {α : Type} (work : TypeSources → Resolving α) : Working α := fun injection =>
  let (result, memo) :=
    work ⟨injection.program, injection.injector.index⟩ injection.injector.memo
  .ok result { injection with injector := { injection.injector with memo } }

/-- Puts a class in the place of the one in a slot. -/
def replace (slot : Slot) (c : Class) : Working Unit := fun injection =>
  match injection.program.replace slot c with
  | .ok (_, program) => .ok () { injection with program }
  | .error error => .error (.replacement error) injection

/-- Annotates the class in a slot, and gives the number of classes replaced. -/
def annotateSlot (slot : Slot) : Working Nat := do
  match (← get).program.classes[slot]? with
  | none => return 0
  | some c =>
    match ← resolving (·.annotate? c) with
    | none => return 0
    | some annotated =>
      replace slot annotated
      return 1

/-- Annotates the classes in some slots one after the other. -/
def annotateSlots : List Slot → Working Nat
  | [] => return 0
  | slot :: slots => do
    let replaced ← annotateSlot slot
    return replaced + (← annotateSlots slots)

def setProgress (file : FileId) (progress : Progress) : Working Unit :=
  modify fun injection =>
    { injection with injector := injection.injector.setProgress file progress }

/-- Annotates the classes of a source file, unless that has been done, and gives the number of
classes replaced. -/
def annotateFile (file : FileId) : Working Nat := do
  let injection ← get
  if injection.program.files.size ≤ file then throw (.unknownFile file)
  match injection.injector.progress file with
  | .done => return 0
  | .working => throw (.enteredTwice file)
  | .unvisited =>
    setProgress file .working
    let replaced ← annotateSlots (injection.program.classesIn file)
    setProgress file .done
    return replaced

def collected (injection : Injection) : Injection :=
  { injection with injector := injection.injector.collect }

/-- Collects what was reported at work, also after an error. -/
def collecting {α : Type} (work : Working α) : Working α := fun injection =>
  match work injection with
  | .ok a next => .ok a next.collected
  | .error error next => .error error next.collected

/-- Annotates a source file and collects what was reported. -/
def injectFile (file : FileId) : Working Nat := collecting (annotateFile file)

/-- Annotates source files one after the other. -/
def injectFiles : List FileId → Working Nat
  | [] => return 0
  | file :: files => do
    let replaced ← injectFile file
    return replaced + (← injectFiles files)

/-- Annotates every source file of the program. -/
def injectProgram : Working Nat := do
  injectFiles (List.range (← get).program.files.size)

end Injection

end ExternalAnnotations
