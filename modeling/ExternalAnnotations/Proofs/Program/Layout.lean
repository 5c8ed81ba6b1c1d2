import ExternalAnnotations.Program.Draft
import Mathlib.Tactic

/-!
# How classes lie in a program

Classes keep the slots in which they were entered, so the classes of a source file are a run of
slots, and the files of a program divide its slots among them. `Program.Reached` are the programs
that entering files and replacing classes lead to, and `Program.Ordered` is what holds of them.
-/

namespace ExternalAnnotations

namespace ClassDraft

mutual

lemma length_enter (file : FileId) (enclosing : Option Slot) (name : String) (slot : Slot) :
    (draft : ClassDraft) → (draft.enter file enclosing name slot).length = draft.size
  | ⟨_, _, _, _, _, _, _, _, nested⟩ => by
    rw [enter, size, List.length_cons, length_enterAll]

lemma length_enterAll (file : FileId) (enclosing : Option Slot) (naming : String → String)
    (slot : Slot) :
    (drafts : List ClassDraft) →
      (enterAll file enclosing naming slot drafts).length = sizes drafts
  | [] => rfl
  | draft :: drafts => by
    rw [enterAll, sizes, List.length_append, length_enter, length_enterAll]

end

mutual

lemma file_of_mem_enter (file : FileId) (enclosing : Option Slot) (name : String) (slot : Slot) :
    (draft : ClassDraft) → ∀ c ∈ draft.enter file enclosing name slot, c.file = file
  | ⟨_, _, _, _, _, _, _, _, nested⟩ => by
    intro c hc
    rw [enter, List.mem_cons] at hc
    rcases hc with rfl | hc
    · rfl
    · exact file_of_mem_enterAll _ _ _ _ nested c hc

lemma file_of_mem_enterAll (file : FileId) (enclosing : Option Slot) (naming : String → String)
    (slot : Slot) :
    (drafts : List ClassDraft) → ∀ c ∈ enterAll file enclosing naming slot drafts, c.file = file
  | [] => by simp [enterAll]
  | draft :: drafts => by
    intro c hc
    rw [enterAll, List.mem_append] at hc
    rcases hc with hc | hc
    · exact file_of_mem_enter _ _ _ _ draft c hc
    · exact file_of_mem_enterAll _ _ _ _ drafts c hc

end

lemma size_pos (draft : ClassDraft) : 0 < draft.size := by
  cases draft
  rw [size]
  omega

lemma slots_bounds (drafts : List ClassDraft) (first slot : Nat)
    (hs : slot ∈ slots drafts first) : first ≤ slot ∧ slot < first + sizes drafts := by
  induction drafts generalizing first with
  | nil => simp [slots] at hs
  | cons draft drafts ih =>
    have hp := draft.size_pos
    rw [slots, List.mem_cons] at hs
    rw [sizes]
    rcases hs with rfl | hs
    · omega
    · have := ih _ hs
      omega

mutual

lemma nested_bounds_enter (file : FileId) (enclosing : Option Slot) (name : String)
    (slot : Nat) :
    (draft : ClassDraft) → ∀ k c, (draft.enter file enclosing name slot)[k]? = some c →
      ∀ n : Nat, n ∈ c.nested → slot + k < n ∧ n < slot + draft.size
  | ⟨_, _, _, _, _, _, _, _, nested⟩ => by
    intro k c hc n hn
    rw [enter] at hc
    rw [size]
    cases k with
    | zero =>
      obtain rfl : _ = c := by simpa using hc
      have := slots_bounds nested (slot + 1) n hn
      omega
    | succ k =>
      rw [List.getElem?_cons_succ] at hc
      have := nested_bounds_enterAll _ _ _ _ nested k c hc n hn
      omega

lemma nested_bounds_enterAll (file : FileId) (enclosing : Option Slot)
    (naming : String → String) (slot : Nat) :
    (drafts : List ClassDraft) → ∀ k c, (enterAll file enclosing naming slot drafts)[k]? = some c →
      ∀ n : Nat, n ∈ c.nested → slot + k < n ∧ n < slot + sizes drafts
  | [] => by simp [enterAll]
  | draft :: drafts => by
    intro k c hc n hn
    rw [enterAll, List.getElem?_append, length_enter] at hc
    rw [sizes]
    split at hc
    · have := nested_bounds_enter _ _ _ _ draft k c hc n hn
      omega
    · have := nested_bounds_enterAll _ _ _ _ drafts _ c hc n hn
      omega

end

end ClassDraft

namespace Program

/-- The classes nested directly in the class in a slot. -/
def nestedIn (program : Program) (slot : Slot) : List Slot :=
  program.classes[slot]?.elim [] (·.nested)

/-- Some classes are in the slots from a given one on. -/
def HasFrom (program : Program) (slot : Slot) (classes : List Class) : Prop :=
  ∀ (k : Nat) (c : Class), classes[k]? = some c → program.classes[slot + k]? = some c

lemma HasFrom.head {program : Program} {slot : Slot} {c : Class} {classes : List Class}
    (h : program.HasFrom slot (c :: classes)) : program.classes[slot]? = some c :=
  h 0 c rfl

lemma HasFrom.tail {program : Program} {slot : Slot} {c : Class} {classes : List Class}
    (h : program.HasFrom slot (c :: classes)) : program.HasFrom (slot + 1) classes := by
  intro k d hd
  rw [Nat.add_right_comm]
  exact h (k + 1) d hd

lemma HasFrom.left {program : Program} {slot : Slot} {first second : List Class}
    (h : program.HasFrom slot (first ++ second)) : program.HasFrom slot first := by
  intro k c hc
  have hk : k < first.length := (List.getElem?_eq_some_iff.1 hc).1
  exact h k c (by rw [List.getElem?_append_left hk, hc])

lemma HasFrom.right {program : Program} {slot : Slot} {first second : List Class}
    (h : program.HasFrom slot (first ++ second)) :
    program.HasFrom (slot + first.length) second := by
  intro k c hc
  rw [Nat.add_assoc]
  exact h (first.length + k) c
    (by rw [List.getElem?_append_right (by omega), Nat.add_sub_cancel_left, hc])

lemma withNested_eq (program : Program) (slot : Slot) :
    program.withNested slot =
      if slot < program.classes.size then
        slot :: ((program.nestedIn slot).filter (slot < ·)).flatMap program.withNested
      else [] := by
  rw [withNested]
  split
  · simp [nestedIn, *]
  · rfl

open ClassDraft in
mutual

lemma withNested_enter (program : Program) (file : FileId) (enclosing : Option Slot)
    (name : String) (slot : Slot) :
    (draft : ClassDraft) → program.HasFrom slot (draft.enter file enclosing name slot) →
      program.withNested slot = List.range' slot draft.size
  | ⟨_, _, _, _, _, _, _, _, nested⟩, h => by
    rw [enter] at h
    have hlt : slot < program.classes.size := (Array.getElem?_eq_some_iff.1 h.head).1
    have hn : program.nestedIn slot = slots nested (slot + 1) := by
      rw [nestedIn, h.head]
      rfl
    have hall : (slots nested (slot + 1)).filter (slot < ·) = slots nested (slot + 1) := by
      rw [List.filter_eq_self]
      intro n hn
      have := (slots_bounds nested (slot + 1) n hn).1
      simpa using this
    rw [withNested_eq, if_pos hlt, hn, hall,
      withNested_enterAll program _ _ _ _ nested h.tail, size, List.range'_succ]

lemma withNested_enterAll (program : Program) (file : FileId) (enclosing : Option Slot)
    (naming : String → String) (slot : Slot) :
    (drafts : List ClassDraft) →
      program.HasFrom slot (enterAll file enclosing naming slot drafts) →
      (slots drafts slot).flatMap program.withNested = List.range' slot (sizes drafts)
  | [], _ => rfl
  | draft :: drafts, h => by
    rw [enterAll] at h
    have hr := h.right
    rw [length_enter] at hr
    rw [slots, List.flatMap_cons, withNested_enter program _ _ _ _ draft h.left,
      withNested_enterAll program _ _ _ _ drafts hr, sizes, List.range'_append_1]

end

/-- Every class is in front of those nested in it, and all of them have slots. -/
structure Closed (program : Program) : Prop where
  nested : ∀ slot n : Nat, n ∈ program.nestedIn slot → slot < n ∧ n < program.classes.size
  topLevel : ∀ file ∈ program.files, ∀ slot ∈ file.classes, slot < program.classes.size

lemma withNested_congr {program next : Program} (h : program.Closed)
    (hsize : program.classes.size ≤ next.classes.size)
    (hn : ∀ slot < program.classes.size, next.nestedIn slot = program.nestedIn slot)
    (slot : Nat) (hs : slot < program.classes.size) :
    next.withNested slot = program.withNested slot := by
  induction hk : program.classes.size - slot using Nat.strong_induction_on generalizing slot with
  | _ k ih =>
    rw [withNested_eq next, withNested_eq program, if_pos hs, if_pos (hs.trans_le hsize),
      hn slot hs]
    congr 1
    apply List.flatMap_congr
    intro n hmem
    obtain ⟨hmem, hlt⟩ := List.mem_filter.1 hmem
    have hb := h.nested slot n hmem
    exact ih (program.classes.size - n) (by omega) n hb.2 rfl

lemma classesIn_congr {program next : Program} (h : program.Closed)
    (hsize : program.classes.size ≤ next.classes.size)
    (hn : ∀ slot < program.classes.size, next.nestedIn slot = program.nestedIn slot)
    {file : FileId} (hf : next.files[file]? = program.files[file]?) :
    next.classesIn file = program.classesIn file := by
  unfold classesIn
  rw [hf]
  apply List.flatMap_congr
  intro slot hs
  cases hfile : program.files[file]? with
  | none => simp [hfile] at hs
  | some sourceFile =>
    rw [hfile] at hs
    exact withNested_congr h hsize hn slot (h.topLevel _ (Array.mem_of_getElem? hfile) slot hs)

/-- The files divide the slots among them in order, and a class knows its file. -/
structure Ordered (program : Program) : Prop extends program.Closed where
  listed : (List.range program.files.size).flatMap program.classesIn =
    List.range program.classes.size
  inFile : ∀ file slot c, slot ∈ program.classesIn file → program.classes[slot]? = some c →
    c.file = file

/-- The programs that entering files and replacing classes lead to. -/
inductive Reached : Program → Prop
  | empty : Reached {}
  | addFile {program : Program} (package : String) (path : Option String)
      (drafts : List ClassDraft) :
      Reached program → Reached (program.addFile package path drafts)
  | replace {program next : Program} {slot : Slot} {old new : Class} :
      Reached program → program.replace slot new = .ok (old, next) → Reached next

lemma ordered_empty : Ordered {} where
  nested := by
    intro slot n hn
    simp [nestedIn, EmptyCollection.emptyCollection, Program.empty] at hn
  topLevel := by simp [EmptyCollection.emptyCollection, Program.empty]
  listed := rfl
  inFile := by simp [classesIn, EmptyCollection.emptyCollection, Program.empty]

section addFile

variable (program : Program) (package : String) (path : Option String) (drafts : List ClassDraft)

/-- The classes that a file adds, each before those nested in it. -/
def entered : List Class :=
  ClassDraft.enterAll program.files.size none (qualify package) program.classes.size drafts

lemma toList_classes_addFile : (program.addFile package path drafts).classes.toList =
    program.classes.toList ++ program.entered package drafts := by
  simp [addFile, entered]

lemma size_classes_addFile : (program.addFile package path drafts).classes.size =
    program.classes.size + ClassDraft.sizes drafts := by
  rw [← Array.length_toList, toList_classes_addFile, List.length_append, entered,
    ClassDraft.length_enterAll, Array.length_toList]

lemma size_files_addFile :
    (program.addFile package path drafts).files.size = program.files.size + 1 := by
  simp [addFile]

lemma getElem?_classes_addFile_of_lt {slot : Nat} (hs : slot < program.classes.size) :
    (program.addFile package path drafts).classes[slot]? = program.classes[slot]? := by
  rw [← Array.getElem?_toList, toList_classes_addFile, List.getElem?_append_left hs,
    Array.getElem?_toList]

lemma getElem?_classes_addFile_add (k : Nat) :
    (program.addFile package path drafts).classes[program.classes.size + k]? =
      (program.entered package drafts)[k]? := by
  rw [← Array.getElem?_toList, toList_classes_addFile, List.getElem?_append_right (by simp),
    Array.length_toList, Nat.add_sub_cancel_left]

lemma classesIn_addFile_self :
    (program.addFile package path drafts).classesIn program.files.size =
      List.range' program.classes.size (ClassDraft.sizes drafts) := by
  have h : (program.addFile package path drafts).HasFrom program.classes.size
      (program.entered package drafts) := by
    intro k c hc
    rw [getElem?_classes_addFile_add, hc]
  rw [← withNested_enterAll _ _ _ _ _ drafts h]
  simp [classesIn, addFile]

variable {program}

lemma classesIn_addFile_of_lt (h : program.Closed) {file : Nat} (hf : file < program.files.size) :
    (program.addFile package path drafts).classesIn file = program.classesIn file := by
  apply classesIn_congr h
  · rw [size_classes_addFile]
    omega
  · intro slot hs
    rw [nestedIn, nestedIn, getElem?_classes_addFile_of_lt _ _ _ _ hs]
  · simp only [addFile, Array.getElem?_push, Nat.ne_of_lt hf, if_false]

lemma closed_addFile (h : program.Closed) : (program.addFile package path drafts).Closed where
  nested := by
    intro slot n hn
    rw [size_classes_addFile]
    by_cases hs : slot < program.classes.size
    · rw [nestedIn, getElem?_classes_addFile_of_lt _ _ _ _ hs] at hn
      have := h.nested slot n hn
      omega
    · obtain ⟨k, rfl⟩ := Nat.exists_eq_add_of_le (Nat.le_of_not_lt hs)
      rw [nestedIn, getElem?_classes_addFile_add] at hn
      cases hk : (program.entered package drafts)[k]? with
      | none => simp [hk] at hn
      | some c =>
        rw [hk] at hn
        exact ClassDraft.nested_bounds_enterAll _ _ _ _ drafts k c hk n hn
  topLevel := by
    intro file hfile slot hs
    rw [size_classes_addFile]
    simp only [addFile, Array.mem_push] at hfile
    rcases hfile with hfile | rfl
    · exact Nat.lt_add_right _ (h.topLevel file hfile slot hs)
    · exact (ClassDraft.slots_bounds drafts _ slot hs).2

lemma ordered_addFile (h : program.Ordered) : (program.addFile package path drafts).Ordered where
  toClosed := closed_addFile package path drafts h.toClosed
  listed := by
    have hold : (List.range program.files.size).flatMap
        (program.addFile package path drafts).classesIn = List.range program.classes.size := by
      rw [← h.listed]
      apply List.flatMap_congr
      intro file hf
      exact classesIn_addFile_of_lt package path drafts h.toClosed (List.mem_range.1 hf)
    rw [size_files_addFile, List.range_succ, List.flatMap_append, hold, List.flatMap_singleton,
      classesIn_addFile_self, size_classes_addFile, List.range_eq_range', List.range_eq_range',
      ← List.range'_append_1, Nat.zero_add]
  inFile := by
    intro file slot c hs hc
    rcases Nat.lt_trichotomy file program.files.size with hf | rfl | hf
    · rw [classesIn_addFile_of_lt package path drafts h.toClosed hf] at hs
      have hlt : slot ∈ List.range program.classes.size := by
        rw [← h.listed]
        exact List.mem_flatMap.2 ⟨file, List.mem_range.2 hf, hs⟩
      rw [getElem?_classes_addFile_of_lt _ _ _ _ (List.mem_range.1 hlt)] at hc
      exact h.inFile file slot c hs hc
    · rw [classesIn_addFile_self, List.mem_range'_1] at hs
      obtain ⟨k, rfl⟩ := Nat.exists_eq_add_of_le hs.1
      rw [getElem?_classes_addFile_add] at hc
      exact ClassDraft.file_of_mem_enterAll _ _ _ _ drafts c (List.mem_of_getElem? hc)
    · have hnone : (program.addFile package path drafts).files[file]? = none := by
        rw [Array.getElem?_eq_none_iff, size_files_addFile]
        omega
      simp [classesIn, hnone] at hs

end addFile

/-- What replacing a class changes: the class in its slot, which keeps its name and its place. -/
lemma replace_ok {program next : Program} {slot : Slot} {old new : Class}
    (h : program.replace slot new = .ok (old, next)) :
    program.classes[slot]? = some old ∧
      next = { program with classes := program.classes.setIfInBounds slot new } ∧
      old.binaryName = new.binaryName ∧ old.file = new.file ∧ old.enclosing = new.enclosing ∧
      old.nested = new.nested := by
  unfold replace at h
  split at h
  · contradiction
  · rename_i found hfound
    split at h
    · rename_i hsame
      obtain ⟨rfl, rfl⟩ := Prod.mk.inj (Except.ok.inj h)
      simp only [sameClass, Bool.and_eq_true, beq_iff_eq] at hsame
      exact ⟨hfound, rfl, hsame.1.1.1, hsame.1.1.2, hsame.1.2, hsame.2⟩
    · contradiction

lemma map_classes_of_replace {program next : Program} {slot : Slot} {old new : Class}
    (hr : program.replace slot new = .ok (old, next)) {α : Type} (part : Class → α)
    (hpart : part new = part old) (other : Slot) :
    next.classes[other]?.map part = program.classes[other]?.map part := by
  obtain ⟨hold, rfl, -⟩ := replace_ok hr
  rw [Array.getElem?_setIfInBounds]
  split
  · subst_vars
    rw [hold, if_pos (Array.getElem?_eq_some_iff.1 hold).1, Option.map_some, Option.map_some, hpart]
  · rfl

lemma nestedIn_of_replace {program next : Program} {slot : Slot} {old new : Class}
    (hr : program.replace slot new = .ok (old, next)) : next.nestedIn = program.nestedIn := by
  obtain ⟨-, -, -, -, -, hnested⟩ := replace_ok hr
  funext other
  have hmap := map_classes_of_replace hr (·.nested) hnested.symm other
  rw [nestedIn, nestedIn]
  cases hn : next.classes[other]? <;> cases hp : program.classes[other]? <;> simp_all

lemma ordered_replace {program next : Program} {slot : Slot} {old new : Class}
    (h : program.Ordered) (hr : program.replace slot new = .ok (old, next)) : next.Ordered := by
  have hn := congrFun (nestedIn_of_replace hr)
  obtain ⟨hold, rfl, -, hfile, -⟩ := replace_ok hr
  have hin : ∀ file, classesIn { program with
      classes := program.classes.setIfInBounds slot new } file = program.classesIn file := by
    intro file
    exact classesIn_congr h.toClosed (by simp) (fun s _ => hn s) rfl
  refine ⟨⟨?_, ?_⟩, ?_, ?_⟩
  · intro s n hs
    rw [hn] at hs
    simpa using h.nested s n hs
  · intro file hf s hs
    simpa using h.topLevel file hf s hs
  · rw [List.flatMap_congr fun file _ => hin file]
    simpa using h.listed
  · intro file s c hs hc
    rw [hin] at hs
    rw [Array.getElem?_setIfInBounds] at hc
    split at hc
    · subst_vars
      split at hc
      · obtain rfl := Option.some.inj hc
        rw [← hfile]
        exact h.inFile file _ old hs hold
      · contradiction
    · exact h.inFile file s c hs hc

/-- Entering files and replacing classes keep the order of slots. -/
theorem Reached.ordered {program : Program} (h : program.Reached) : program.Ordered := by
  induction h with
  | empty => exact ordered_empty
  | addFile package path drafts _ ih => exact ordered_addFile package path drafts ih
  | replace _ hr ih => exact ordered_replace ih hr

lemma Ordered.nodup_classesIn {program : Program} (h : program.Ordered) (file : FileId) :
    (program.classesIn file).Nodup := by
  by_cases hf : file < program.files.size
  · have hall : ((List.range program.files.size).flatMap program.classesIn).Nodup := by
      rw [h.listed]
      exact List.nodup_range
    exact (List.nodup_flatMap.1 hall).1 file (List.mem_range.2 hf)
  · have hnone : program.files[file]? = none := Array.getElem?_eq_none_iff.2 (Nat.le_of_not_lt hf)
    simp [classesIn, hnone]

/-- The classes of a file are those that know it as theirs. -/
theorem Ordered.mem_classesIn_iff {program : Program} (h : program.Ordered) {slot : Slot}
    {c : Class} (hc : program.classes[slot]? = some c) (file : FileId) :
    slot ∈ program.classesIn file ↔ c.file = file := by
  constructor
  · exact fun hs => h.inFile file slot c hs hc
  · rintro rfl
    have hlt : slot ∈ List.range program.classes.size :=
      List.mem_range.2 (Array.getElem?_eq_some_iff.1 hc).1
    rw [← h.listed] at hlt
    obtain ⟨file, -, hs⟩ := List.mem_flatMap.1 hlt
    rwa [h.inFile file slot c hs hc]

end Program

end ExternalAnnotations
