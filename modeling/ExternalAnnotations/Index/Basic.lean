import ExternalAnnotations.Index.Entry
import Std.Data.TreeMap

/-!
# Annotation indexes

An index holds its entries and declarations in the order in which they came. Of declarations with
one name the last one holds. To answer for a class or a name it keeps the positions at which the
entries of each class and the last declaration of each name stand. Whatever joins an index joins
these too.
-/

namespace ExternalAnnotations

open Std (TreeMap)

/-- Where in an index the entries of each class and the last declaration of each name stand. -/
structure Positions where
  /-- For the binary name of a class, the positions of its entries in order. -/
  ofOwner : TreeMap String (List Nat) := ∅
  /-- For a name with its package, the position of its last declaration. -/
  ofName : TreeMap String Nat := ∅
  /-- For a name without its package, the position of its last declaration. -/
  ofSimpleName : TreeMap String Nat := ∅

namespace Positions

variable {α : Type} (key : α → String)

/-- The positions of all items with a key, when more items follow from a position on. -/
def gather (held : TreeMap String (List Nat)) (items : List α) (first : Nat) :
    TreeMap String (List Nat) :=
  (items.zipIdx first).foldl
    (fun held (item, position) =>
      held.alter (key item) fun earlier => some (earlier.getD [] ++ [position]))
    held

/-- The position of the last item with a key, when more items follow from a position on. -/
def latest (held : TreeMap String Nat) (items : List α) (first : Nat) : TreeMap String Nat :=
  (items.zipIdx first).foldl (fun held (item, position) => held.insert (key item) position) held

/-- The positions when more entries and declarations follow, each from a position on. -/
def extend (positions : Positions) (entries : List Entry) (firstEntry : Nat)
    (declarations : List Declaration) (firstDeclaration : Nat) : Positions where
  ofOwner := gather (·.owner) positions.ofOwner entries firstEntry
  ofName := latest (·.name) positions.ofName declarations firstDeclaration
  ofSimpleName := latest (·.simpleName) positions.ofSimpleName declarations firstDeclaration

/-- The positions of some entries and declarations from the beginning of an index. -/
def of (entries : List Entry) (declarations : List Declaration) : Positions :=
  extend {} entries 0 declarations 0

theorem gather_append (held : TreeMap String (List Nat)) (items others : List α) (first : Nat) :
    gather key held (items ++ others) first =
      gather key (gather key held items first) others (first + items.length) := by
  rw [gather, List.zipIdx_append, List.foldl_append, gather, gather]

theorem latest_append (held : TreeMap String Nat) (items others : List α) (first : Nat) :
    latest key held (items ++ others) first =
      latest key (latest key held items first) others (first + items.length) := by
  rw [latest, List.zipIdx_append, List.foldl_append, latest, latest]

/-- What follows in an index stands after all that is in it. -/
theorem extend_of (entries others : List Entry) (declarations more : List Declaration) :
    (of entries declarations).extend others entries.length more declarations.length =
      of (entries ++ others) (declarations ++ more) := by
  simp only [of, extend, gather_append, latest_append, Nat.zero_add]

end Positions

structure Index where
  entries : List Entry
  declarations : List Declaration
  positions : Positions
  /-- No position is missing and none is stale. -/
  positions_eq : positions = .of entries declarations

namespace Index

def of (entries : List Entry) (declarations : List Declaration) : Index :=
  ⟨entries, declarations, .of entries declarations, rfl⟩

def empty : Index := ⟨[], [], {}, rfl⟩

instance : EmptyCollection Index := ⟨empty⟩

instance : Inhabited Index := ⟨empty⟩

def addEntry (index : Index) (entry : Entry) : Index where
  entries := index.entries ++ [entry]
  declarations := index.declarations
  positions := index.positions.extend [entry] index.entries.length [] index.declarations.length
  positions_eq := by rw [index.positions_eq, Positions.extend_of, List.append_nil]

def declare (index : Index) (declaration : Declaration) : Index where
  entries := index.entries
  declarations := index.declarations ++ [declaration]
  positions :=
    index.positions.extend [] index.entries.length [declaration] index.declarations.length
  positions_eq := by rw [index.positions_eq, Positions.extend_of, List.append_nil]

/-- The two indexes together, that of the second after that of the first. -/
def append (first second : Index) : Index where
  entries := first.entries ++ second.entries
  declarations := first.declarations ++ second.declarations
  positions := first.positions.extend second.entries first.entries.length
    second.declarations first.declarations.length
  positions_eq := by rw [first.positions_eq, Positions.extend_of]

instance : Append Index := ⟨append⟩

def size (index : Index) : Nat := index.entries.length

def isEmpty (index : Index) : Bool := index.entries.isEmpty

/-- The entries for a class. -/
def entriesFor (index : Index) (owner : String) : List Entry :=
  (index.positions.ofOwner.getD owner []).filterMap (index.entries[·]?)

/-- The classes that have entries, each once. -/
def owners (index : Index) : List String := index.positions.ofOwner.keys

/-- The declaration that holds for a qualified name. -/
def declaration? (index : Index) (name : String) : Option Declaration :=
  index.positions.ofName[name]?.bind (index.declarations[·]?)

/-- The declaration that holds for a name without its package. -/
def declarationOfSimpleName? (index : Index) (name : String) : Option Declaration :=
  index.positions.ofSimpleName[name]?.bind (index.declarations[·]?)

end Index

end ExternalAnnotations
