import ExternalAnnotations.Proofs.Program.Naming

/-!
# The forest of classes

A class knows the class around it and the classes nested in it. `Program.Forest` says that these
links agree and how they go with names and slots. Entering a file adds trees to the forest, and a
class that takes the place of another has the links of the other.
-/

namespace ExternalAnnotations

namespace ClassDraft

mutual

/-- Whether the simple names of what is nested side by side are as wanted, at any depth. -/
def NestsNamed (wanted : List String → Prop) : ClassDraft → Prop
  | ⟨_, _, _, _, _, _, _, _, nested⟩ =>
    wanted (nested.map (·.simpleName)) ∧ AllNestNamed wanted nested

def AllNestNamed (wanted : List String → Prop) : List ClassDraft → Prop
  | [] => True
  | draft :: drafts => draft.NestsNamed wanted ∧ AllNestNamed wanted drafts

end

end ClassDraft

namespace Program

variable {program next : Program} {wanted : List String → Prop}

/-- Some slots have classes of some simple names, which are all in the same class or file. -/
def Grouped (program : Program) (file : FileId) (enclosing : Option Slot)
    (naming : String → String) : List Slot → List String → Prop :=
  List.Forall₂ fun slot simple => ∃ c, program.classes[slot]? = some c ∧ c.file = file ∧
    c.enclosing = enclosing ∧ c.binaryName = naming simple

/-- What is nested in the class in a slot knows that class, and is named after it. -/
def Nesting (program : Program) (wanted : List String → Prop) (slot : Slot) (c : Class) : Prop :=
  ∃ simples, wanted simples ∧
    program.Grouped c.file (some slot) (nestedName c.binaryName) c.nested simples

/-- The classes of a program are trees, with the top-level classes of its files at the roots. -/
structure Forest (wanted : List String → Prop) (rooted : String → List String → Prop)
    (program : Program) : Prop extends program.Ordered where
  nesting : ∀ (slot : Slot) c, program.classes[slot]? = some c → program.Nesting wanted slot c
  roots : ∀ (file : FileId) sourceFile, program.files[file]? = some sourceFile →
    ∃ simples, rooted sourceFile.package simples ∧
      program.Grouped file none (qualify sourceFile.package) sourceFile.classes simples

/-! ### Entering -/

open ClassDraft in
lemma grouped_slots {file : FileId} {enclosing : Option Slot} {naming : String → String}
    (drafts : List ClassDraft) {slot : Slot}
    (h : program.HasFrom slot (enterAll file enclosing naming slot drafts)) :
    program.Grouped file enclosing naming (slots drafts slot) (drafts.map (·.simpleName)) := by
  induction drafts generalizing slot with
  | nil => exact .nil
  | cons draft drafts ih =>
    rw [enterAll] at h
    have hright := h.right
    rw [length_enter] at hright
    refine .cons ?_ (ih hright)
    cases draft
    exact ⟨_, h.left.head, rfl, rfl, rfl⟩

open ClassDraft in
mutual

lemma nesting_enter (program : Program) (file : FileId) (enclosing : Option Slot) (name : String)
    (slot : Nat) : (draft : ClassDraft) → draft.NestsNamed wanted →
      program.HasFrom slot (draft.enter file enclosing name slot) →
      ∀ k c, (draft.enter file enclosing name slot)[k]? = some c →
        program.Nesting wanted (slot + k) c
  | ⟨_, _, _, _, _, _, _, _, nested⟩, hnamed, h => by
    intro k c hc
    rw [enter] at h hc
    cases k with
    | zero =>
      obtain rfl : _ = c := by simpa using hc
      exact ⟨_, hnamed.1, grouped_slots nested h.tail⟩
    | succ k =>
      rw [List.getElem?_cons_succ] at hc
      rw [Nat.succ_eq_add_one, Nat.add_comm k, ← Nat.add_assoc]
      exact nesting_enterAll program _ _ _ _ nested hnamed.2 h.tail k c hc

lemma nesting_enterAll (program : Program) (file : FileId) (enclosing : Option Slot)
    (naming : String → String) (slot : Nat) : (drafts : List ClassDraft) →
      AllNestNamed wanted drafts →
      program.HasFrom slot (enterAll file enclosing naming slot drafts) →
      ∀ k c, (enterAll file enclosing naming slot drafts)[k]? = some c →
        program.Nesting wanted (slot + k) c
  | [], _, _ => by simp [enterAll]
  | draft :: drafts, hnamed, h => by
    intro k c hc
    rw [enterAll] at h hc
    have hright := h.right
    rw [length_enter] at hright
    rw [List.getElem?_append, length_enter] at hc
    split at hc
    · exact nesting_enter program _ _ _ _ draft hnamed.1 h.left k c hc
    · have hk : slot + k = slot + draft.size + (k - draft.size) := by omega
      rw [hk]
      exact nesting_enterAll program _ _ _ _ drafts hnamed.2 hright _ c hc

end

/-! ### What later steps keep -/

lemma sameClass_iff {old new : Class} : sameClass old new = true ↔
    old.binaryName = new.binaryName ∧ old.file = new.file ∧ old.enclosing = new.enclosing ∧
      old.nested = new.nested := by
  simp [sameClass, and_assoc]

/-- Every class is still in its slot, or one that is the same apart from what stands in it. -/
def KeptIn (program next : Program) : Prop :=
  ∀ (slot : Slot) old, program.classes[slot]? = some old →
    ∃ new, next.classes[slot]? = some new ∧ sameClass old new = true

lemma KeptIn.grouped {file : FileId} {enclosing : Option Slot} {naming : String → String}
    {slots : List Slot} {simples : List String} (hkept : program.KeptIn next)
    (h : program.Grouped file enclosing naming slots simples) :
    next.Grouped file enclosing naming slots simples := by
  refine h.imp fun slot simple => ?_
  rintro ⟨old, hold, rfl, rfl, hname⟩
  obtain ⟨new, hnew, hsame⟩ := hkept slot old hold
  obtain ⟨hbinary, hfile, henclosing, -⟩ := sameClass_iff.1 hsame
  exact ⟨new, hnew, hfile.symm, henclosing.symm, hbinary ▸ hname⟩

lemma KeptIn.nesting {slot : Slot} {old new : Class} (hkept : program.KeptIn next)
    (hsame : sameClass old new = true) (h : program.Nesting wanted slot old) :
    next.Nesting wanted slot new := by
  obtain ⟨hbinary, hfile, -, hnested⟩ := sameClass_iff.1 hsame
  obtain ⟨simples, hwanted, hgrouped⟩ := h
  rw [hbinary, hfile, hnested] at hgrouped
  exact ⟨simples, hwanted, hkept.grouped hgrouped⟩

lemma keptIn_addFile (program : Program) (package : String) (path : Option String)
    (drafts : List ClassDraft) : program.KeptIn (program.addFile package path drafts) := by
  intro slot old hold
  refine ⟨old, ?_, sameClass_iff.2 ⟨rfl, rfl, rfl, rfl⟩⟩
  rwa [getElem?_classes_addFile_of_lt _ _ _ _ (Array.getElem?_eq_some_iff.1 hold).1]

lemma keptIn_replace {slot : Slot} {old new : Class}
    (hr : program.replace slot new = .ok (old, next)) : program.KeptIn next := by
  obtain ⟨hold, rfl, hsame⟩ := replace_ok hr
  intro other c hc
  have hlt := (Array.getElem?_eq_some_iff.1 hc).1
  rw [Array.getElem?_setIfInBounds]
  split
  · subst_vars
    obtain rfl := Option.some.inj (hold.symm.trans hc)
    exact ⟨new, if_pos hlt, sameClass_iff.2 hsame⟩
  · exact ⟨c, hc, sameClass_iff.2 ⟨rfl, rfl, rfl, rfl⟩⟩

variable {rooted : String → List String → Prop}

lemma forest_empty : Forest wanted rooted {} where
  toOrdered := ordered_empty
  nesting := by simp [EmptyCollection.emptyCollection, Program.empty]
  roots := by simp [EmptyCollection.emptyCollection, Program.empty]

/-- Entering a file keeps the trees that are there and adds those of the file. -/
lemma Forest.addFile (h : program.Forest wanted rooted) {package : String} (path : Option String)
    {drafts : List ClassDraft} (hroots : rooted package (drafts.map (·.simpleName)))
    (hnamed : ClassDraft.AllNestNamed wanted drafts) :
    (program.addFile package path drafts).Forest wanted rooted := by
  have hkept := keptIn_addFile program package path drafts
  have hentered : (program.addFile package path drafts).HasFrom program.classes.size
      (program.entered package drafts) := by
    intro k c hc
    rw [getElem?_classes_addFile_add, hc]
  refine ⟨ordered_addFile package path drafts h.toOrdered, ?_, ?_⟩
  · intro slot c hc
    by_cases hslot : slot < program.classes.size
    · rw [getElem?_classes_addFile_of_lt _ _ _ _ hslot] at hc
      exact hkept.nesting (sameClass_iff.2 ⟨rfl, rfl, rfl, rfl⟩) (h.nesting slot c hc)
    · obtain ⟨k, rfl⟩ := Nat.exists_eq_add_of_le (Nat.le_of_not_lt hslot)
      rw [getElem?_classes_addFile_add] at hc
      exact nesting_enterAll _ _ _ _ _ drafts hnamed hentered k c hc
  · intro file sourceFile hfile
    rw [Program.addFile, Array.getElem?_push] at hfile
    split at hfile
    · subst_vars
      obtain rfl := Option.some.inj hfile
      exact ⟨_, hroots, grouped_slots drafts hentered⟩
    · obtain ⟨simples, hrooted, hgrouped⟩ := h.roots file sourceFile hfile
      exact ⟨simples, hrooted, hkept.grouped hgrouped⟩

lemma Forest.replace (h : program.Forest wanted rooted) {slot : Slot} {old new : Class}
    (hr : program.replace slot new = .ok (old, next)) : next.Forest wanted rooted := by
  have hkept := keptIn_replace hr
  refine ⟨ordered_replace h.toOrdered hr, ?_, ?_⟩
  · intro other c hc
    have hlt : other < program.classes.size := by
      obtain ⟨-, rfl, -⟩ := replace_ok hr
      simpa using (Array.getElem?_eq_some_iff.1 hc).1
    obtain ⟨c', hc', hsame⟩ := hkept other _ (Array.getElem?_eq_getElem hlt)
    obtain rfl := Option.some.inj (hc.symm.trans hc')
    exact hkept.nesting hsame (h.nesting other _ (Array.getElem?_eq_getElem hlt))
  · obtain ⟨-, rfl, -⟩ := replace_ok hr
    intro file sourceFile hfile
    obtain ⟨simples, hrooted, hgrouped⟩ := h.roots file sourceFile hfile
    exact ⟨simples, hrooted, hkept.grouped hgrouped⟩

/-! ### The links of a forest -/

lemma Grouped.exists_of_mem {file : FileId} {enclosing : Option Slot} {naming : String → String}
    {slots : List Slot} {simples : List String}
    (h : program.Grouped file enclosing naming slots simples) {slot : Slot} (hslot : slot ∈ slots) :
    ∃ simple ∈ simples, ∃ c, program.classes[slot]? = some c ∧ c.file = file ∧
      c.enclosing = enclosing ∧ c.binaryName = naming simple := by
  induction h with
  | nil => contradiction
  | cons hhead _ ih =>
    rcases List.mem_cons.1 hslot with rfl | hslot
    · exact ⟨_, List.mem_cons_self, hhead⟩
    · obtain ⟨simple, hsimple, hc⟩ := ih hslot
      exact ⟨simple, List.mem_cons_of_mem _ hsimple, hc⟩

lemma exists_of_mem_nestedIn {outer slot : Slot} (h : slot ∈ program.nestedIn outer) :
    ∃ c, program.classes[outer]? = some c ∧ slot ∈ c.nested := by
  rw [nestedIn] at h
  cases hc : program.classes[outer]? with
  | none => simp [hc] at h
  | some c => exact ⟨c, rfl, by simpa [hc] using h⟩

lemma eq_or_nested_of_mem_withNested {outer slot : Slot} (h : slot ∈ program.withNested outer) :
    slot = outer ∨ ∃ around, slot ∈ program.nestedIn around := by
  induction hk : program.classes.size - outer using Nat.strong_induction_on generalizing outer with
  | _ k ih =>
    rw [withNested_eq] at h
    split at h
    · rename_i hsize
      rcases List.mem_cons.1 h with rfl | h
      · exact .inl rfl
      · obtain ⟨inner, hinner, hslot⟩ := List.mem_flatMap.1 h
        obtain ⟨hinner, hlt⟩ := List.mem_filter.1 hinner
        have hlt : outer < inner := by simpa using hlt
        have hfewer := hk ▸ Nat.sub_lt_sub_left hsize hlt
        rcases ih (program.classes.size - inner) hfewer hslot rfl with rfl | hslot
        · exact .inr ⟨outer, hinner⟩
        · exact .inr hslot
    · contradiction

namespace Forest

variable (h : program.Forest wanted rooted)
include h

lemma exists_of_nested {outer slot : Slot} (hslot : slot ∈ program.nestedIn outer) :
    ∃ c d simples, program.classes[outer]? = some c ∧ program.classes[slot]? = some d ∧
      d.file = c.file ∧ d.enclosing = some outer ∧ wanted simples ∧
      ∃ simple ∈ simples, d.binaryName = nestedName c.binaryName simple := by
  obtain ⟨c, hc, hmem⟩ := exists_of_mem_nestedIn hslot
  obtain ⟨simples, hwanted, hgrouped⟩ := h.nesting outer c hc
  obtain ⟨simple, hsimple, d, hd, hfile, henclosing, hname⟩ := hgrouped.exists_of_mem hmem
  exact ⟨c, d, simples, hc, hd, hfile, henclosing, hwanted, simple, hsimple, hname⟩

lemma exists_of_topLevel {slot : Slot} (hslot : slot ∈ program.topLevel) :
    ∃ c package simples, program.classes[slot]? = some c ∧ c.enclosing = none ∧
      rooted package simples ∧ ∃ simple ∈ simples, c.binaryName = qualify package simple := by
  obtain ⟨sourceFile, hfile, hslot⟩ := List.mem_flatMap.1 hslot
  obtain ⟨file, hfile⟩ := List.mem_iff_getElem?.1 hfile
  rw [Array.getElem?_toList] at hfile
  obtain ⟨simples, hrooted, hgrouped⟩ := h.roots file sourceFile hfile
  obtain ⟨simple, hsimple, c, hc, -, henclosing, hname⟩ := hgrouped.exists_of_mem hslot
  exact ⟨c, _, simples, hc, henclosing, hrooted, simple, hsimple, hname⟩

lemma topLevel_or_nested {slot : Slot} {c : Class} (hc : program.classes[slot]? = some c) :
    slot ∈ program.topLevel ∨ ∃ outer, slot ∈ program.nestedIn outer := by
  have hlt : slot ∈ List.range program.classes.size :=
    List.mem_range.2 (Array.getElem?_eq_some_iff.1 hc).1
  rw [← h.listed] at hlt
  obtain ⟨file, -, hslot⟩ := List.mem_flatMap.1 hlt
  obtain ⟨root, hroot, hslot⟩ := List.mem_flatMap.1 hslot
  rcases eq_or_nested_of_mem_withNested hslot with rfl | hslot
  · cases hfile : program.files[file]? with
    | none => simp [hfile] at hroot
    | some sourceFile =>
      rw [hfile] at hroot
      exact .inl (List.mem_flatMap.2 ⟨sourceFile,
        Array.mem_toList_iff.2 (Array.mem_of_getElem? hfile), hroot⟩)
  · exact .inr hslot

lemma mem_nestedIn_iff {outer slot : Slot} : slot ∈ program.nestedIn outer ↔
    ∃ d, program.classes[slot]? = some d ∧ d.enclosing = some outer := by
  constructor
  · intro hslot
    obtain ⟨-, d, -, -, hd, -, henclosing, -⟩ := h.exists_of_nested hslot
    exact ⟨d, hd, henclosing⟩
  · rintro ⟨d, hd, henclosing⟩
    rcases h.topLevel_or_nested hd with hroot | ⟨around, haround⟩
    · obtain ⟨c, -, -, hc, hnone, -⟩ := h.exists_of_topLevel hroot
      obtain rfl := Option.some.inj (hd.symm.trans hc)
      rw [hnone] at henclosing
      contradiction
    · obtain ⟨-, d', -, -, hd', -, henclosing', -⟩ := h.exists_of_nested haround
      obtain rfl := Option.some.inj (hd.symm.trans hd')
      rw [henclosing] at henclosing'
      obtain rfl := Option.some.inj henclosing'
      exact haround

lemma mem_topLevel_iff {slot : Slot} : slot ∈ program.topLevel ↔
    ∃ c, program.classes[slot]? = some c ∧ c.enclosing = none := by
  constructor
  · intro hslot
    obtain ⟨c, -, -, hc, henclosing, -⟩ := h.exists_of_topLevel hslot
    exact ⟨c, hc, henclosing⟩
  · rintro ⟨c, hc, hnone⟩
    rcases h.topLevel_or_nested hc with hroot | ⟨outer, houter⟩
    · exact hroot
    · obtain ⟨-, d, -, -, hd, -, henclosing, -⟩ := h.exists_of_nested houter
      obtain rfl := Option.some.inj (hc.symm.trans hd)
      rw [hnone] at henclosing
      contradiction

lemma withNested_eq_cons {slot : Slot} {c : Class} (hc : program.classes[slot]? = some c) :
    program.withNested slot = slot :: c.nested.flatMap program.withNested := by
  have hlt := (Array.getElem?_eq_some_iff.1 hc).1
  have hnested : program.nestedIn slot = c.nested := by
    rw [nestedIn, hc]
    rfl
  have hall : c.nested.filter (slot < ·) = c.nested := by
    rw [List.filter_eq_self]
    intro n hn
    simpa using (h.toClosed.nested slot n (hnested ▸ hn)).1
  rw [withNested_eq, if_pos hlt, hnested, hall]

end Forest

end Program

end ExternalAnnotations
