import ExternalAnnotations.Index.Basic
import Mathlib.Tactic

/-!
# What an index answers

An index answers for a class or a name from the positions that it keeps. `standing` is where the
items with a key stand in a list: `gather` keeps all of these positions for every key and `latest`
the last, so the answers are those of a search through the entries and declarations. A `History` is
how an index came about; `History.answers` says what it answers then.
-/

namespace ExternalAnnotations

open Std (TreeMap)

namespace Positions

variable {α : Type} (key : α → String)

/-- Where the items with a key stand in a list that begins at a position. -/
def standing (wanted : String) (items : List α) (first : Nat) : List Nat :=
  ((items.zipIdx first).filter (key ·.1 == wanted)).map (·.2)

lemma standing_cons_self (item : α) (items : List α) (first : Nat) :
    standing key (key item) (item :: items) first =
      first :: standing key (key item) items (first + 1) := by
  simp [standing]

lemma standing_cons_of_ne {item : α} {wanted : String} (h : key item ≠ wanted) (items : List α)
    (first : Nat) :
    standing key wanted (item :: items) first = standing key wanted items (first + 1) := by
  simp [standing, h]

lemma getD_gather (held : TreeMap String (List Nat)) (items : List α) (first : Nat)
    (wanted : String) : (gather key held items first).getD wanted [] =
      held.getD wanted [] ++ standing key wanted items first := by
  induction items generalizing held first with
  | nil => exact (List.append_nil _).symm
  | cons item items ih =>
    refine (ih _ (first + 1)).trans ?_
    rw [TreeMap.getD_alter]
    obtain rfl | hne := eq_or_ne (key item) wanted
    · rw [if_pos (Std.ReflCmp.compare_self), standing_cons_self, Option.getD_some,
        ← TreeMap.getD_eq_getD_getElem?, List.append_assoc, List.singleton_append]
    · rw [if_neg (by simpa using hne), standing_cons_of_ne key hne]

lemma mem_gather (held : TreeMap String (List Nat)) (items : List α) (first : Nat)
    (wanted : String) : wanted ∈ gather key held items first ↔
      wanted ∈ held ∨ ∃ item ∈ items, key item = wanted := by
  induction items generalizing held first with
  | nil => simp [gather]
  | cons item items ih =>
    refine (ih _ (first + 1)).trans ?_
    rw [TreeMap.mem_alter]
    by_cases h : key item = wanted <;> simp [h]

lemma getElem?_latest (held : TreeMap String Nat) (items : List α) (first : Nat)
    (wanted : String) : (latest key held items first)[wanted]? =
      (standing key wanted items first).getLast?.or held[wanted]? := by
  induction items generalizing held first with
  | nil => rfl
  | cons item items ih =>
    refine (ih _ (first + 1)).trans ?_
    rw [TreeMap.getElem?_insert]
    obtain rfl | hne := eq_or_ne (key item) wanted
    · rw [if_pos (Std.ReflCmp.compare_self), standing_cons_self, List.getLast?_cons,
        Option.or_some, Option.some_or]
    · rw [if_neg (by simpa using hne), standing_cons_of_ne key hne]

lemma map_getElem?_standing (wanted : String) (items : List α) :
    (standing key wanted items 0).map (items[·]?) = (items.filter (key · == wanted)).map some := by
  have hitems : (items.zipIdx.filter (key ·.1 == wanted)).map (·.1) =
      items.filter (key · == wanted) := by
    conv_rhs => rw [← List.zipIdx_map_fst 0 items, List.filter_map]
    rfl
  rw [standing, ← hitems, List.map_map, List.map_map]
  exact List.map_congr_left fun numbered hmem =>
    List.mem_zipIdx_iff_getElem?.1 (List.mem_filter.1 hmem).1

lemma filterMap_standing (wanted : String) (items : List α) :
    (standing key wanted items 0).filterMap (items[·]?) = items.filter (key · == wanted) := by
  have h := congrArg (List.filterMap id) (map_getElem?_standing key wanted items)
  simpa only [List.filterMap_map, Function.id_comp, List.filterMap_some] using h

lemma bind_getLast?_standing (wanted : String) (items : List α) :
    (standing key wanted items 0).getLast?.bind (items[·]?) = items.findRev? (key · == wanted) := by
  have h := congrArg (·.getLast?.bind id) (map_getElem?_standing key wanted items)
  simpa only [List.getLast?_map, Option.bind_map, Function.id_comp, Option.bind_fun_some,
    List.getLast?_filter, ← List.findRev?_eq_find?_reverse] using h

lemma lt_of_mem_standing {wanted : String} {items : List α} {position : Nat}
    (h : position ∈ standing key wanted items 0) : position < items.length := by
  obtain ⟨numbered, hmem, rfl⟩ := List.mem_map.1 h
  exact (List.mem_zipIdx' (List.mem_filter.1 hmem).1).1

/-- Every position is that of one of so many entries or declarations. -/
structure Within (positions : Positions) (entries declarations : Nat) : Prop where
  ofOwner : ∀ owner, ∀ position ∈ positions.ofOwner.getD owner [], position < entries
  ofName : ∀ name : String, ∀ position ∈ positions.ofName[name]?, position < declarations
  ofSimpleName : ∀ name : String, ∀ position ∈ positions.ofSimpleName[name]?,
    position < declarations

variable (entries : List Entry) (declarations : List Declaration)

lemma getD_ofOwner (owner : String) :
    (of entries declarations).ofOwner.getD owner [] = standing (·.owner) owner entries 0 :=
  getD_gather _ _ _ _ _

lemma mem_ofOwner (owner : String) :
    owner ∈ (of entries declarations).ofOwner ↔ ∃ entry ∈ entries, entry.owner = owner :=
  (mem_gather _ _ _ _ _).trans (or_iff_right TreeMap.not_mem_emptyc)

lemma getElem?_ofName (name : String) : (of entries declarations).ofName[name]? =
    (standing (·.name) name declarations 0).getLast? :=
  (getElem?_latest _ _ _ _ _).trans Option.or_none

lemma getElem?_ofSimpleName (name : String) : (of entries declarations).ofSimpleName[name]? =
    (standing (·.simpleName) name declarations 0).getLast? :=
  (getElem?_latest _ _ _ _ _).trans Option.or_none

lemma within_of : (of entries declarations).Within entries.length declarations.length where
  ofOwner owner _ h := lt_of_mem_standing _ (getD_ofOwner entries declarations owner ▸ h)
  ofName name _ h :=
    lt_of_mem_standing _ (List.mem_of_getLast? (getElem?_ofName entries declarations name ▸ h))
  ofSimpleName name _ h :=
    lt_of_mem_standing _
      (List.mem_of_getLast? (getElem?_ofSimpleName entries declarations name ▸ h))

end Positions

namespace Index

@[ext]
lemma ext {index other : Index} (hentries : index.entries = other.entries)
    (hdeclarations : index.declarations = other.declarations) : index = other := by
  obtain ⟨entries, declarations, positions, hpositions⟩ := index
  obtain ⟨entries', declarations', positions', hpositions'⟩ := other
  obtain rfl : entries = entries' := hentries
  obtain rfl : declarations = declarations' := hdeclarations
  obtain rfl : positions = positions' := hpositions.trans hpositions'.symm
  rfl

lemma append_assoc (first second third : Index) :
    first ++ second ++ third = first ++ (second ++ third) :=
  Index.ext (List.append_assoc _ _ _) (List.append_assoc _ _ _)

lemma empty_append (index : Index) : {} ++ index = index := Index.ext rfl rfl

lemma append_empty (index : Index) : index ++ {} = index :=
  Index.ext (List.append_nil _) (List.append_nil _)

variable (index : Index)

lemma entriesFor_eq_filter (owner : String) :
    index.entriesFor owner = index.entries.filter (·.owner == owner) := by
  rw [entriesFor, index.positions_eq, Positions.getD_ofOwner, Positions.filterMap_standing]

lemma mem_of_mem_entriesFor {owner : String} {entry : Entry} (h : entry ∈ index.entriesFor owner) :
    entry ∈ index.entries :=
  List.mem_of_mem_filter (index.entriesFor_eq_filter owner ▸ h)

lemma mem_owners (owner : String) :
    owner ∈ index.owners ↔ ∃ entry ∈ index.entries, entry.owner = owner := by
  rw [owners, TreeMap.mem_keys, index.positions_eq, Positions.mem_ofOwner]

lemma nodup_owners : index.owners.Nodup := TreeMap.nodup_keys

lemma declaration?_eq_findRev? (name : String) :
    index.declaration? name = index.declarations.findRev? (·.name == name) := by
  rw [declaration?, index.positions_eq, Positions.getElem?_ofName, Positions.bind_getLast?_standing]

lemma declarationOfSimpleName?_eq_findRev? (name : String) :
    index.declarationOfSimpleName? name = index.declarations.findRev? (·.simpleName == name) := by
  rw [declarationOfSimpleName?, index.positions_eq, Positions.getElem?_ofSimpleName,
    Positions.bind_getLast?_standing]

lemma of_declaration? {index : Index} {name : String} {declaration : Declaration}
    (h : index.declaration? name = some declaration) :
    declaration ∈ index.declarations ∧ declaration.name = name := by
  rw [declaration?_eq_findRev?, List.findRev?_eq_find?_reverse] at h
  exact ⟨List.mem_reverse.1 (List.mem_of_find?_eq_some h), by simpa using List.find?_some h⟩

lemma positions_within :
    index.positions.Within index.entries.length index.declarations.length :=
  index.positions_eq ▸ Positions.within_of _ _

lemma entries_foldl_addEntry (entries : List Entry) :
    (entries.foldl addEntry index).entries = index.entries ++ entries ∧
      (entries.foldl addEntry index).declarations = index.declarations := by
  induction entries generalizing index with
  | nil => exact ⟨(List.append_nil _).symm, rfl⟩
  | cons entry entries ih => exact ⟨(ih _).1.trans (List.append_assoc _ [entry] _), (ih _).2⟩

lemma declarations_foldl_declare (declarations : List Declaration) :
    (declarations.foldl declare index).entries = index.entries ∧
      (declarations.foldl declare index).declarations = index.declarations ++ declarations := by
  induction declarations generalizing index with
  | nil => exact ⟨rfl, (List.append_nil _).symm⟩
  | cons declaration declarations ih =>
    exact ⟨(ih _).1, (ih _).2.trans (List.append_assoc _ [declaration] _)⟩

/-- An index joins another as its entries and then its declarations do one by one. -/
theorem append_eq_foldl (first second : Index) :
    first ++ second = second.declarations.foldl declare (second.entries.foldl addEntry first) := by
  have hentries := first.entries_foldl_addEntry second.entries
  have hdeclarations :=
    (second.entries.foldl addEntry first).declarations_foldl_declare second.declarations
  rw [hentries.1, hentries.2] at hdeclarations
  exact Index.ext hdeclarations.1.symm hdeclarations.2.symm

end Index

/-! ### However an index came about -/

/-- The last of some items that has a property. -/
def IsLast {α : Type} (property : α → Prop) (items : List α) (item : α) : Prop :=
  ∃ before after, items = before ++ item :: after ∧ property item ∧
    ∀ later ∈ after, ¬ property later

lemma findRev?_eq_some_iff {α : Type} {key : α → String} {wanted : String} {items : List α}
    {item : α} :
    items.findRev? (key · == wanted) = some item ↔ IsLast (key · = wanted) items item := by
  rw [List.findRev?_eq_find?_reverse, List.find?_eq_some_iff_append]
  constructor
  · rintro ⟨hitem, before, after, hsplit, hbefore⟩
    refine ⟨after.reverse, before.reverse, ?_, by simpa using hitem, fun later hlater => ?_⟩
    · rw [← List.reverse_eq_iff.2 hsplit.symm]
      simp
    · simpa using hbefore later (List.mem_reverse.1 hlater)
  · rintro ⟨before, after, rfl, hitem, hafter⟩
    refine ⟨by simpa using hitem, after.reverse, before.reverse, by simp, fun later hlater => ?_⟩
    simpa using hafter later (List.mem_reverse.1 hlater)

/-- How an index comes about. -/
inductive History
  | empty
  | addEntry (earlier : History) (entry : Entry)
  | declare (earlier : History) (declaration : Declaration)
  | merge (earlier other : History)

namespace History

def index : History → Index
  | empty => {}
  | addEntry earlier entry => earlier.index.addEntry entry
  | declare earlier declaration => earlier.index.declare declaration
  | merge earlier other => earlier.index ++ other.index

/-- All entries that came, in order. -/
def entries : History → List Entry
  | empty => []
  | addEntry earlier entry => earlier.entries ++ [entry]
  | declare earlier _ => earlier.entries
  | merge earlier other => earlier.entries ++ other.entries

/-- All declarations that came, in order. -/
def declarations : History → List Declaration
  | empty => []
  | addEntry earlier _ => earlier.declarations
  | declare earlier declaration => earlier.declarations ++ [declaration]
  | merge earlier other => earlier.declarations ++ other.declarations

lemma entries_index (history : History) : history.index.entries = history.entries := by
  induction history with
  | empty => rfl
  | addEntry earlier entry ih => exact congrArg (· ++ [entry]) ih
  | declare earlier declaration ih => exact ih
  | merge earlier other ih ih' => exact congrArg₂ (· ++ ·) ih ih'

lemma declarations_index (history : History) :
    history.index.declarations = history.declarations := by
  induction history with
  | empty => rfl
  | addEntry earlier entry ih => exact ih
  | declare earlier declaration ih => exact congrArg (· ++ [declaration]) ih
  | merge earlier other ih ih' => exact congrArg₂ (· ++ ·) ih ih'

/-- **What an index answers.** Entries and declarations are those that came, in order. A class has
its entries, and a name the last declaration with that name. No position is stale, merging is
associative and the empty index changes nothing. -/
theorem answers (history : History) :
    let index := history.index
    index.entries = history.entries ∧
    (∀ owner, index.entriesFor owner = history.entries.filter (·.owner == owner)) ∧
    (index.owners.Nodup ∧
      ∀ owner, owner ∈ index.owners ↔ ∃ entry ∈ history.entries, entry.owner = owner) ∧
    index.declarations = history.declarations ∧
    (∀ name declaration, index.declaration? name = some declaration ↔
      IsLast (·.name = name) history.declarations declaration) ∧
    (∀ name declaration, index.declarationOfSimpleName? name = some declaration ↔
      IsLast (·.simpleName = name) history.declarations declaration) ∧
    index.positions.Within index.entries.length index.declarations.length ∧
    (∀ second third : History, index ++ second.index ++ third.index =
      index ++ (second.index ++ third.index)) ∧
    {} ++ index = index ∧ index ++ {} = index := by
  intro index
  have hentries : index.entries = history.entries := history.entries_index
  have hdeclarations : index.declarations = history.declarations := history.declarations_index
  refine ⟨hentries, fun owner => ?_, ⟨index.nodup_owners, fun owner => ?_⟩, hdeclarations,
    fun name declaration => ?_, fun name declaration => ?_, index.positions_within,
    fun _ _ => Index.append_assoc _ _ _, Index.empty_append index, Index.append_empty index⟩
  · rw [← hentries, index.entriesFor_eq_filter]
  · rw [← hentries, index.mem_owners]
  · rw [← hdeclarations, index.declaration?_eq_findRev?, findRev?_eq_some_iff]
  · rw [← hdeclarations, index.declarationOfSimpleName?_eq_findRev?, findRev?_eq_some_iff]

end History

end ExternalAnnotations
