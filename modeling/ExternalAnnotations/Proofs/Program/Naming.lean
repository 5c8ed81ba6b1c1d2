import ExternalAnnotations.Proofs.Program.Layout
import ExternalAnnotations.Proofs.Signature.Codec

/-!
# Binary names find their classes

Where no simple name has a dot or a `$` in it, the binary name of a nested class can be taken apart
again, so a class that is found by a binary name has that name.
-/

namespace ExternalAnnotations

/-- A name that a binary name can be put together from. -/
def IsSimpleName (name : String) : Prop := '.' ∉ name.toList ∧ nestedSeparator ∉ name.toList

/-! ### Names taken apart -/

lemma toList_nestedName (outer simple : String) :
    (nestedName outer simple).toList = outer.toList ++ nestedSeparator :: simple.toList := by
  simp [nestedName]

lemma simpleName_nestedName (outer : String) {simple : String} (h : IsSimpleName simple) :
    simpleName (nestedName outer simple) = simple := by
  have hsimple : ∀ c ∈ simple.toList.reverse, (!(c == '.' || c == nestedSeparator)) = true := by
    intro c hc
    have hc := List.mem_reverse.1 hc
    have hdot : c ≠ '.' := fun heq => h.1 (heq ▸ hc)
    have hnested : c ≠ nestedSeparator := fun heq => h.2 (heq ▸ hc)
    simp [hdot, hnested]
  rw [simpleName, lastSegment, toList_nestedName, List.reverse_append, List.reverse_cons,
    List.append_assoc, List.takeWhile_append_of_pos hsimple]
  simp

namespace ClassDraft

mutual

/-- All simple names in a draft can be told from what stands around them. -/
def SimplyNamed : ClassDraft → Prop
  | ⟨simple, _, _, _, _, _, _, _, nested⟩ => IsSimpleName simple ∧ AllSimplyNamed nested

def AllSimplyNamed : List ClassDraft → Prop
  | [] => True
  | draft :: drafts => draft.SimplyNamed ∧ AllSimplyNamed drafts

end

end ClassDraft

namespace Program

/-- The programs that entering files and replacing classes lead to, if all classes have simple
names. -/
inductive SimplyNamed : Program → Prop
  | empty : SimplyNamed {}
  | addFile {program : Program} (package : String) (path : Option String)
      (drafts : List ClassDraft) :
      SimplyNamed program → ClassDraft.AllSimplyNamed drafts →
        SimplyNamed (program.addFile package path drafts)
  | replace {program next : Program} {slot : Slot} {old new : Class} :
      SimplyNamed program → program.replace slot new = .ok (old, next) → SimplyNamed next

lemma SimplyNamed.reached {program : Program} (h : program.SimplyNamed) : program.Reached := by
  induction h with
  | empty => exact .empty
  | addFile package path drafts _ _ ih => exact .addFile package path drafts ih
  | replace _ hr ih => exact .replace ih hr

/-- What is nested in some of the classes of a program is named after them. -/
def Nests (program : Program) (classes : List Class) : Prop :=
  ∀ c ∈ classes, ∀ n ∈ c.nested, ∀ d, program.classes[n]? = some d →
    ∃ simple, IsSimpleName simple ∧ d.binaryName = nestedName c.binaryName simple

/-! ### Entering -/

open ClassDraft in
lemma name_of_mem_slots {program : Program} {file : FileId} {enclosing : Option Slot}
    {naming : String → String} {drafts : List ClassDraft} {slot n : Slot} {d : Class}
    (h : program.HasFrom slot (enterAll file enclosing naming slot drafts))
    (hnamed : AllSimplyNamed drafts) (hn : n ∈ slots drafts slot)
    (hd : program.classes[n]? = some d) :
    ∃ simple, IsSimpleName simple ∧ d.binaryName = naming simple := by
  induction drafts generalizing slot with
  | nil => contradiction
  | cons draft drafts ih =>
    rw [enterAll] at h
    rw [slots, List.mem_cons] at hn
    obtain ⟨hdraft, hnamed⟩ := hnamed
    rcases hn with rfl | hn
    · cases draft
      have hhead := h.left.head
      rw [hd] at hhead
      obtain rfl := Option.some.inj hhead
      exact ⟨_, hdraft.1, rfl⟩
    · have hright := h.right
      rw [length_enter] at hright
      exact ih hright hnamed hn

open ClassDraft in
mutual

lemma nests_enter (program : Program) (file : FileId) (enclosing : Option Slot) (name : String)
    (slot : Slot) : (draft : ClassDraft) → draft.SimplyNamed →
      program.HasFrom slot (draft.enter file enclosing name slot) →
        program.Nests (draft.enter file enclosing name slot)
  | ⟨_, _, _, _, _, _, _, _, nested⟩, hnamed, h => by
    rw [enter] at h ⊢
    intro c hc n hn d hd
    rcases List.mem_cons.1 hc with rfl | hc
    · exact name_of_mem_slots h.tail hnamed.2 hn hd
    · exact nests_enterAll program _ _ _ _ nested hnamed.2 h.tail c hc n hn d hd

lemma nests_enterAll (program : Program) (file : FileId) (enclosing : Option Slot)
    (naming : String → String) (slot : Slot) : (drafts : List ClassDraft) → AllSimplyNamed drafts →
      program.HasFrom slot (enterAll file enclosing naming slot drafts) →
        program.Nests (enterAll file enclosing naming slot drafts)
  | [], _, _ => by simp [enterAll, Nests]
  | draft :: drafts, hnamed, h => by
    rw [enterAll] at h ⊢
    intro c hc
    have hright := h.right
    rw [length_enter] at hright
    rcases List.mem_append.1 hc with hc | hc
    · exact nests_enter program _ _ _ _ draft hnamed.1 h.left c hc
    · exact nests_enterAll program _ _ _ _ drafts hnamed.2 hright c hc

end

lemma class_before_replace {program next : Program} {slot s : Slot} {old new c : Class}
    (hr : program.replace slot new = .ok (old, next)) (hc : next.classes[s]? = some c) :
    ∃ c', program.classes[s]? = some c' ∧ c'.binaryName = c.binaryName ∧ c'.nested = c.nested := by
  obtain ⟨hold, rfl, hname, -, -, hnested⟩ := replace_ok hr
  rw [Array.getElem?_setIfInBounds] at hc
  split at hc
  · subst_vars
    split at hc
    · obtain rfl := Option.some.inj hc
      exact ⟨old, hold, hname, hnested⟩
    · contradiction
  · exact ⟨c, hc, rfl, rfl⟩

lemma SimplyNamed.nests {program : Program} (h : program.SimplyNamed) :
    program.Nests program.classes.toList := by
  induction h with
  | empty => exact fun c hc => absurd hc List.not_mem_nil
  | @addFile program package path drafts hprogram hnamed ih =>
    have hclosed := hprogram.reached.ordered.toClosed
    have hentered : (program.addFile package path drafts).HasFrom program.classes.size
        (program.entered package drafts) := by
      intro k c hc
      rw [getElem?_classes_addFile_add, hc]
    intro c hc n hn d hd
    rw [toList_classes_addFile, List.mem_append] at hc
    rcases hc with hc | hc
    · obtain ⟨slot, hslot⟩ := List.mem_iff_getElem?.1 hc
      have hlt : n < program.classes.size := by
        refine (hclosed.nested slot n ?_).2
        rw [nestedIn, ← Array.getElem?_toList, hslot]
        exact hn
      rw [getElem?_classes_addFile_of_lt _ _ _ _ hlt] at hd
      exact ih c hc n hn d hd
    · exact nests_enterAll _ _ _ _ _ drafts hnamed hentered c hc n hn d hd
  | replace _ hr ih =>
    intro c hc n hn d hd
    obtain ⟨s, hs⟩ := List.mem_iff_getElem?.1 hc
    rw [Array.getElem?_toList] at hs
    obtain ⟨c', hc', hcname, hcnested⟩ := class_before_replace hr hs
    obtain ⟨d', hd', hdname, -⟩ := class_before_replace hr hd
    rw [← hcname, ← hdname]
    exact ih c' (Array.mem_toList_iff.2 (Array.mem_of_getElem? hc')) n (hcnested ▸ hn) d' hd'

/-! ### Finding -/

lemma exists_of_holds {program : Program} {property : Class → Bool} {slot : Slot}
    (h : program.holds property slot = true) :
    ∃ c, program.classes[slot]? = some c ∧ property c = true :=
  (Option.any_eq_true _ _).1 h

lemma topLevel?_eq_some {program : Program} {name : String} {slot : Slot}
    (h : program.topLevel? name = some slot) :
    ∃ c, program.classes[slot]? = some c ∧ c.binaryName = name := by
  obtain ⟨c, hc, hname⟩ := exists_of_holds (List.find?_some h)
  exact ⟨c, hc, eq_of_beq hname⟩

lemma SimplyNamed.nested?_eq_some {program : Program} (h : program.SimplyNamed) {name : String}
    {outer slot : Slot} {c : Class} (hc : program.classes[outer]? = some c)
    (hslot : program.nested? outer name = some slot) :
    ∃ d, program.classes[slot]? = some d ∧ d.binaryName = nestedName c.binaryName name := by
  rw [nested?, hc] at hslot
  have hmem := List.mem_of_find?_eq_some hslot
  obtain ⟨d, hd, hname⟩ := exists_of_holds (List.find?_some hslot)
  obtain ⟨simple, hsimple, hbinary⟩ :=
    h.nests c (Array.mem_toList_iff.2 (Array.mem_of_getElem? hc)) slot hmem d hd
  have hname : d.simpleName = name := eq_of_beq hname
  rw [Class.simpleName, hbinary, simpleName_nestedName _ hsimple] at hname
  exact ⟨d, hd, hname ▸ hbinary⟩

lemma SimplyNamed.foldlM_eq_some {program : Program} (h : program.SimplyNamed)
    {inner : List String} {outer slot : Slot} {c : Class} (hc : program.classes[outer]? = some c)
    (hslot : inner.foldlM program.nested? outer = some slot) :
    ∃ d, program.classes[slot]? = some d ∧ d.binaryName = inner.foldl nestedName c.binaryName := by
  induction inner generalizing outer c with
  | nil =>
    obtain rfl := Option.some.inj hslot
    exact ⟨c, hc, rfl⟩
  | cons name inner ih =>
    rw [List.foldlM_cons] at hslot
    obtain ⟨next, hnext, hslot⟩ := Option.bind_eq_some_iff.1 hslot
    obtain ⟨e, he, hname⟩ := h.nested?_eq_some hc hnext
    obtain ⟨d, hd, hbinary⟩ := ih he hslot
    exact ⟨d, hd, by rw [hbinary, hname, List.foldl_cons]⟩

lemma toList_foldl_nestedName (others : List (List Char)) (outer : String) :
    ((others.map String.ofList).foldl nestedName outer).toList =
      outer.toList ++ others.flatMap (nestedSeparator :: ·) := by
  induction others generalizing outer with
  | nil => simp
  | cons first others ih =>
    rw [List.map_cons, List.foldl_cons, ih, toList_nestedName, List.flatMap_cons,
      String.toList_ofList, List.append_assoc]

/-- A class that is found by a binary name has that name. -/
theorem SimplyNamed.binaryName_of_find? {program : Program} (h : program.SimplyNamed)
    {name : String} {c : Class} (hc : program.find? name = some c) : c.binaryName = name := by
  obtain ⟨slot, hslot, hc⟩ := Option.bind_eq_some_iff.1 hc
  obtain ⟨first, others, hsegments⟩ :=
    List.exists_cons_of_ne_nil (segments_ne_nil (· == nestedSeparator) name.toList)
  rw [lookup?, hsegments] at hslot
  obtain ⟨outer, houter, hslot⟩ := Option.bind_eq_some_iff.1 hslot
  obtain ⟨top, htop, htopName⟩ := topLevel?_eq_some houter
  obtain ⟨d, hd, hname⟩ := h.foldlM_eq_some htop hslot
  rw [hc] at hd
  obtain rfl := Option.some.inj hd
  refine String.toList_injective ?_
  rw [hname, htopName, toList_foldl_nestedName, String.toList_ofList, segments_join hsegments]

end Program

end ExternalAnnotations
