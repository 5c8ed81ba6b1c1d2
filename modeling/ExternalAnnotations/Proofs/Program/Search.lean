import ExternalAnnotations.Proofs.Program.Built

/-!
# Which classes are found by name

A binary name is looked up from the top-level class down. Where simple names have no `$` in them and
none stands twice in one class, the way down can be read off the name, so every class is found by
its own name and by no other, unless a later top-level class has taken the name of the one it is in.
-/

namespace ExternalAnnotations

open Relation

/-! ### Binary names taken apart -/

lemma nestedName_injective (outer : String) : Function.Injective (nestedName outer) := by
  intro first second h
  have h := congrArg String.toList h
  rw [toList_nestedName, toList_nestedName, List.append_cancel_left_eq] at h
  exact String.toList_injective (List.cons.inj h).2

lemma segments_foldl_nestedName {top : String} {inner : List String}
    (htop : nestedSeparator ∉ top.toList) (hinner : ∀ simple ∈ inner, IsSimpleName simple) :
    (segments (· == nestedSeparator) (inner.foldl nestedName top).toList).map String.ofList =
      top :: inner := by
  have hofList : (inner.map String.toList).map String.ofList = inner := by simp
  have hnone : ∀ other ∈ inner.map String.toList, nestedSeparator ∉ other := by
    intro other hother
    obtain ⟨simple, hsimple, rfl⟩ := List.mem_map.1 hother
    exact (hinner simple hsimple).2
  have htext := Program.toList_foldl_nestedName (inner.map String.toList) top
  rw [hofList] at htext
  rw [htext, segments_flatMap htop hnone, List.map_cons, hofList, String.ofList_toList]

lemma separator_notMem_qualify {package simple : String}
    (hpackage : nestedSeparator ∉ package.toList)
    (hsimple : nestedSeparator ∉ simple.toList) :
    nestedSeparator ∉ (qualify package simple).toList := by
  unfold qualify
  split
  · exact hsimple
  · simp [hpackage, hsimple]
    decide

namespace Program

variable {program : Program}

/-- The names in a file can be taken apart, and tell the classes in a class from each other. -/
structure Legible (package : String) (drafts : List ClassDraft) : Prop where
  package : nestedSeparator ∉ package.toList
  topLevel : ∀ draft ∈ drafts, nestedSeparator ∉ draft.simpleName.toList
  nested : ClassDraft.AllNestNamed
    (fun simples => (∀ simple ∈ simples, IsSimpleName simple) ∧ simples.Nodup) drafts

/-- A class is nested directly in another. -/
def Enclosed (program : Program) (inner outer : Slot) : Prop :=
  ∃ c, program.classes[inner]? = some c ∧ c.enclosing = some outer

/-- A class is the last one that was entered at the top level under its name. -/
def EnteredLast (program : Program) (top : Slot) : Prop :=
  ∃ t, program.classes[top]? = some t ∧ t.enclosing = none ∧
    ∀ (other : Slot) o, program.classes[other]? = some o → o.enclosing = none →
      o.binaryName = t.binaryName → other ≤ top

/-- What is known of a program in which all files have such names. -/
abbrev LegibleForest : Program → Prop :=
  Forest (fun simples => (∀ simple ∈ simples, IsSimpleName simple) ∧ simples.Nodup)
    (fun package simples => nestedSeparator ∉ package.toList ∧
      ∀ simple ∈ simples, nestedSeparator ∉ simple.toList)

lemma Built.legibleForest (h : program.Built Legible) : program.LegibleForest :=
  h.toForest fun _ _ hlegible => ⟨⟨hlegible.package, List.forall_mem_map.2 hlegible.topLevel⟩,
    hlegible.nested⟩

/-! ### At the top level -/

lemma flatMap_eq_flatMap_range {α β : Type} (items : List α) (f : α → List β) :
    items.flatMap f = (List.range items.length).flatMap (items[·]?.elim [] f) := by
  induction items with
  | nil => rfl
  | cons item items ih =>
    rw [List.length_cons, List.range_succ_eq_map, List.flatMap_cons, List.flatMap_cons,
      List.flatMap_map, ih]
    simp

lemma Forest.pairwise_topLevel {wanted : List String → Prop} {rooted : String → List String → Prop}
    (h : program.Forest wanted rooted) : program.topLevel.Pairwise (· < ·) := by
  have hsub : program.topLevel.Sublist (List.range program.classes.size) := by
    rw [← h.listed, topLevel, flatMap_eq_flatMap_range, Array.length_toList]
    refine List.Sublist.flatMap_right _ fun file hfile => ?_
    rw [Array.getElem?_toList, classesIn]
    -- a root comes first among the classes in it
    have hroot : ∀ root ∈ program.files[file]?.elim [] (·.classes),
        [root].Sublist (program.withNested root) := by
      intro root hroot
      have hmem : root ∈ program.topLevel := by
        rw [topLevel, flatMap_eq_flatMap_range, Array.length_toList]
        refine List.mem_flatMap.2 ⟨file, hfile, ?_⟩
        rwa [Array.getElem?_toList]
      obtain ⟨c, hc, -⟩ := h.mem_topLevel_iff.1 hmem
      rw [h.withNested_eq_cons hc]
      exact List.singleton_sublist.2 List.mem_cons_self
    have hall := List.Sublist.flatMap_right _ hroot
    rwa [List.flatMap_singleton'] at hall
  exact List.pairwise_lt_range.sublist hsub

lemma find?_reverse_eq_some_iff {slots : List Slot} (h : slots.Pairwise (· < ·))
    {p : Slot → Bool} {slot : Slot} : slots.reverse.find? p = some slot ↔
      slot ∈ slots ∧ p slot = true ∧ ∀ other ∈ slots, p other = true → other ≤ slot := by
  have hgreatest : ∀ {slot}, slots.reverse.find? p = some slot →
      ∀ other ∈ slots, p other = true → other ≤ slot := by
    intro slot hslot other hother hp
    obtain ⟨-, later, before, hsplit, hlater⟩ := List.find?_eq_some_iff_append.1 hslot
    have hsplit : slots = before.reverse ++ slot :: later.reverse := by
      rw [← List.reverse_reverse slots, hsplit]
      simp
    rw [hsplit] at hother h
    rcases List.mem_append.1 hother with hother | hother
    · exact ((List.pairwise_append.1 h).2.2 other hother slot List.mem_cons_self).le
    · rcases List.mem_cons.1 hother with rfl | hother
      · exact le_rfl
      · have := hlater other (List.mem_reverse.1 hother)
        simp [hp] at this
  constructor
  · intro hslot
    exact ⟨List.mem_reverse.1 (List.mem_of_find?_eq_some hslot), List.find?_some hslot,
      hgreatest hslot⟩
  · rintro ⟨hmem, hp, hlast⟩
    cases hfound : slots.reverse.find? p with
    | none => exact absurd hp (List.find?_eq_none.1 hfound slot (List.mem_reverse.2 hmem))
    | some found =>
      have hle := hlast found (List.mem_reverse.1 (List.mem_of_find?_eq_some hfound))
        (List.find?_some hfound)
      rw [le_antisymm hle (hgreatest hfound slot hmem hp)]

lemma Forest.topLevel?_eq_some_iff {wanted : List String → Prop}
    {rooted : String → List String → Prop} (h : program.Forest wanted rooted) {name : String}
    {top : Slot} : program.topLevel? name = some top ↔
      program.EnteredLast top ∧ program.holds (·.binaryName == name) top = true := by
  rw [topLevel?, find?_reverse_eq_some_iff h.pairwise_topLevel]
  constructor
  · rintro ⟨hroot, hname, hlast⟩
    obtain ⟨t, ht, henclosing⟩ := h.mem_topLevel_iff.1 hroot
    refine ⟨⟨t, ht, henclosing, fun other o ho hnone hsame => ?_⟩, hname⟩
    refine hlast other (h.mem_topLevel_iff.2 ⟨o, ho, hnone⟩) ?_
    simp_all [holds]
  · rintro ⟨⟨t, ht, henclosing, hlast⟩, hname⟩
    refine ⟨h.mem_topLevel_iff.2 ⟨t, ht, henclosing⟩, hname, fun other hother hsame => ?_⟩
    obtain ⟨o, ho, hnone⟩ := h.mem_topLevel_iff.1 hother
    refine hlast other o ho hnone ?_
    simp_all [holds]

/-! ### Down into classes -/

lemma Grouped.eq_of_binaryName {file : FileId} {enclosing : Option Slot} {naming : String → String}
    {slots : List Slot} {simples : List String} {first second : Slot} {c d : Class}
    (h : program.Grouped file enclosing naming slots simples) (hnaming : Function.Injective naming)
    (hnodup : simples.Nodup) (hfirst : first ∈ slots) (hsecond : second ∈ slots)
    (hc : program.classes[first]? = some c) (hd : program.classes[second]? = some d)
    (hname : c.binaryName = d.binaryName) : first = second := by
  induction h with
  | nil => contradiction
  | @cons head simple slots simples hhead htail ih =>
    obtain ⟨hnew, hnodup⟩ := List.nodup_cons.1 hnodup
    -- no class of the tail has the name of the head
    have hother : ∀ {other : Slot} {e e' : Class}, other ∈ slots →
        program.classes[other]? = some e → program.classes[head]? = some e' →
          e.binaryName ≠ e'.binaryName := by
      intro other e e' hslot he he' hsame
      obtain ⟨simple', hsimple', o, ho, -, -, honame⟩ := Grouped.exists_of_mem htail hslot
      obtain ⟨t, ht, -, -, htname⟩ := hhead
      obtain rfl := Option.some.inj (he.symm.trans ho)
      obtain rfl := Option.some.inj (he'.symm.trans ht)
      rw [honame, htname] at hsame
      exact hnew (hnaming hsame ▸ hsimple')
    rcases List.mem_cons.1 hfirst with rfl | hfirstTail
    · rcases List.mem_cons.1 hsecond with rfl | hsecondTail
      · rfl
      · exact absurd hname.symm (hother hsecondTail hd hc)
    · rcases List.mem_cons.1 hsecond with rfl | hsecondTail
      · exact absurd hname (hother hfirstTail hc hd)
      · exact ih hnodup hfirstTail hsecondTail

namespace Forest

variable (h : program.LegibleForest)
include h

lemma nested?_eq_some_iff {outer slot : Slot} {c : Class} {name : String}
    (hc : program.classes[outer]? = some c) : program.nested? outer name = some slot ↔
      ∃ d, program.classes[slot]? = some d ∧ d.enclosing = some outer ∧ IsSimpleName name ∧
        d.binaryName = nestedName c.binaryName name := by
  obtain ⟨simples, ⟨hsimple, hnodup⟩, hgrouped⟩ := h.nesting outer c hc
  have hnested : program.nested? outer name =
      c.nested.find? (program.holds (·.simpleName == name)) := by
    rw [nested?, hc]
    rfl
  rw [hnested]
  have hsound : ∀ {found}, c.nested.find? (program.holds (·.simpleName == name)) = some found →
      ∃ d, program.classes[found]? = some d ∧ d.enclosing = some outer ∧ IsSimpleName name ∧
        d.binaryName = nestedName c.binaryName name := by
    intro found hfound
    obtain ⟨simple, hmem, d, hd, -, henclosing, hbinary⟩ :=
      hgrouped.exists_of_mem (List.mem_of_find?_eq_some hfound)
    obtain ⟨d', hd', hname⟩ := exists_of_holds (List.find?_some hfound)
    obtain rfl := Option.some.inj (hd.symm.trans hd')
    have hname : d.simpleName = name := eq_of_beq hname
    rw [Class.simpleName, hbinary, simpleName_nestedName _ (hsimple simple hmem)] at hname
    subst hname
    exact ⟨d, hd, henclosing, hsimple simple hmem, hbinary⟩
  refine ⟨hsound, ?_⟩
  rintro ⟨d, hd, henclosing, hname, hbinary⟩
  have hslot : slot ∈ c.nested := by
    have := h.mem_nestedIn_iff.2 ⟨d, hd, henclosing⟩
    rwa [nestedIn, hc] at this
  have hholds : program.holds (·.simpleName == name) slot = true := by
    rw [holds, hd, Option.any_some, Class.simpleName, hbinary, simpleName_nestedName _ hname]
    exact beq_self_eq_true name
  cases hfound : c.nested.find? (program.holds (·.simpleName == name)) with
  | none => exact absurd hholds (List.find?_eq_none.1 hfound slot hslot)
  | some found =>
    obtain ⟨d', hd', -, -, hbinary'⟩ := hsound hfound
    rw [hgrouped.eq_of_binaryName (nestedName_injective _) hnodup
      (List.mem_of_find?_eq_some hfound) hslot hd' hd (hbinary'.trans hbinary.symm)]

lemma of_foldlM_eq_some {inner : List String} {top slot : Slot} {t : Class}
    (ht : program.classes[top]? = some t)
    (hslot : inner.foldlM program.nested? top = some slot) :
    ReflTransGen program.Enclosed slot top ∧
      ∃ c, program.classes[slot]? = some c ∧
        c.binaryName = inner.foldl nestedName t.binaryName := by
  induction inner generalizing top t with
  | nil =>
    obtain rfl := Option.some.inj hslot
    exact ⟨.refl, t, ht, rfl⟩
  | cons simple inner ih =>
    rw [List.foldlM_cons] at hslot
    obtain ⟨next, hnext, hslot⟩ := Option.bind_eq_some_iff.1 hslot
    obtain ⟨d, hd, henclosing, -, hname⟩ := (h.nested?_eq_some_iff ht).1 hnext
    obtain ⟨hpath, c, hc, hbinary⟩ := ih hd hslot
    exact ⟨hpath.tail ⟨d, hd, henclosing⟩, c, hc, by rw [hbinary, hname, List.foldl_cons]⟩

/-- Every class under a class is found there by going down some simple names. -/
lemma exists_foldlM_eq_some {slot top : Slot} (hpath : ReflTransGen program.Enclosed slot top) :
    ∃ inner : List String, (∀ simple ∈ inner, IsSimpleName simple) ∧
      inner.foldlM program.nested? top = some slot := by
  induction hpath with
  | refl => exact ⟨[], by simp, rfl⟩
  | @tail next top _ hstep ih =>
    obtain ⟨inner, hinner, hslot⟩ := ih
    have hnested := h.mem_nestedIn_iff.2 hstep
    obtain ⟨c, d, simples, hc, hd, -, henclosing, hsimples, simple, hsimple, hname⟩ :=
      h.exists_of_nested hnested
    have hnext := (h.nested?_eq_some_iff hc).2
      ⟨d, hd, henclosing, hsimples.1 simple hsimple, hname⟩
    refine ⟨simple :: inner, List.forall_mem_cons.2 ⟨hsimples.1 simple hsimple, hinner⟩, ?_⟩
    rw [List.foldlM_cons, hnext]
    exact hslot

lemma separator_notMem_of_topLevel {top : Slot} {t : Class} (ht : program.classes[top]? = some t)
    (henclosing : t.enclosing = none) : nestedSeparator ∉ t.binaryName.toList := by
  obtain ⟨t', package, simples, ht', -, ⟨hpackage, hsimples⟩, simple, hsimple, hname⟩ :=
    h.exists_of_topLevel (h.mem_topLevel_iff.2 ⟨t, ht, henclosing⟩)
  obtain rfl := Option.some.inj (ht.symm.trans ht')
  rw [hname]
  exact separator_notMem_qualify hpackage (hsimples simple hsimple)

end Forest

/-- **Finding classes.** A binary name finds a class if and only if it is the name of the class, and
the top-level class around it is the last one that was entered under its own name. -/
theorem Built.lookup?_eq_some_iff (h : program.Built Legible) {name : String} {slot : Slot} :
    program.lookup? name = some slot ↔
      (∃ c, program.classes[slot]? = some c ∧ c.binaryName = name) ∧
        ∃ top, ReflTransGen program.Enclosed slot top ∧ program.EnteredLast top := by
  have hforest := h.legibleForest
  constructor
  · intro hslot
    obtain ⟨first, others, hsegments⟩ :=
      List.exists_cons_of_ne_nil (segments_ne_nil (· == nestedSeparator) name.toList)
    rw [lookup?, hsegments] at hslot
    obtain ⟨top, htop, hslot⟩ := Option.bind_eq_some_iff.1 hslot
    obtain ⟨hlast, hname⟩ := hforest.topLevel?_eq_some_iff.1 htop
    obtain ⟨t, ht, htname⟩ := exists_of_holds hname
    have htname : t.binaryName = String.ofList first := eq_of_beq htname
    obtain ⟨hpath, c, hc, hbinary⟩ := hforest.of_foldlM_eq_some ht hslot
    refine ⟨⟨c, hc, String.toList_injective ?_⟩, top, hpath, hlast⟩
    rw [hbinary, htname, toList_foldl_nestedName, String.toList_ofList, segments_join hsegments]
  · rintro ⟨⟨c, hc, rfl⟩, top, hpath, hlast⟩
    obtain ⟨t, ht, henclosing, -⟩ := id hlast
    obtain ⟨inner, hinner, hslot⟩ := hforest.exists_foldlM_eq_some hpath
    obtain ⟨-, c', hc', hbinary⟩ := hforest.of_foldlM_eq_some ht hslot
    obtain rfl := Option.some.inj (hc.symm.trans hc')
    have htop : program.topLevel? t.binaryName = some top :=
      hforest.topLevel?_eq_some_iff.2 ⟨hlast, by simp [holds, ht]⟩
    rw [lookup?, hbinary,
      segments_foldl_nestedName (hforest.separator_notMem_of_topLevel ht henclosing) hinner]
    exact Option.bind_eq_some_iff.2 ⟨top, htop, hslot⟩

/-- The program of `threeDeep` with another class `p.A`, which has a `B` with nothing in it. -/
def renewed : Injection where
  injector := threeDeep.injector
  program := threeDeep.program.addFile "p" none
    [{ ClassDraft.ofName "A" .ordinary with nested := [ClassDraft.ofName "B" .ordinary] }]

theorem Built.lookup?_eq_some_iff_renewed :
    let program := (renewed.after (.visit 1)).program
    program.Built Legible ∧ program.lookup? "p.A$B" = some 4 ∧
      (∃ c, program.classes[4]? = some c ∧ c.binaryName = "p.A$B") ∧
      (∃ top, ReflTransGen program.Enclosed 4 top ∧ program.EnteredLast top) ∧
      (program.holds (·.binaryName == "p.A$B$C") 2 = true) ∧
      ¬∃ top, ReflTransGen program.Enclosed 2 top ∧ program.EnteredLast top := by
  intro program
  have hfirst : Legible "p" [{ ClassDraft.ofName "A" .ordinary with
      nested := [{ ClassDraft.ofName "B" .ordinary with
        nested := [ClassDraft.ofName "C" .ordinary] }] }] :=
    ⟨by decide, by decide, by simp [ClassDraft.AllNestNamed, ClassDraft.NestsNamed,
      ClassDraft.ofName, IsSimpleName, nestedSeparator]⟩
  have hsecond : Legible "p" [{ ClassDraft.ofName "A" .ordinary with
      nested := [ClassDraft.ofName "B" .ordinary] }] :=
    ⟨by decide, by decide, by simp [ClassDraft.AllNestNamed, ClassDraft.NestsNamed,
      ClassDraft.ofName, IsSimpleName, nestedSeparator]⟩
  have hbuilt : program.Built Legible :=
    .call ((Built.empty.addFile none hfirst).addFile none hsecond) trivial
  have hfound : program.lookup? "p.A$B" = some 4 := by decide +kernel
  have hmissing : program.lookup? "p.A$B$C" = none := by decide +kernel
  have hheld : program.holds (·.binaryName == "p.A$B$C") 2 = true := by decide +kernel
  refine ⟨hbuilt, hfound, (Built.lookup?_eq_some_iff hbuilt).1 hfound |>.1,
    (Built.lookup?_eq_some_iff hbuilt).1 hfound |>.2, hheld, fun hlast => ?_⟩
  obtain ⟨c, hc, hname⟩ := exists_of_holds hheld
  have hslot := (Built.lookup?_eq_some_iff hbuilt).2 ⟨⟨c, hc, eq_of_beq hname⟩, hlast⟩
  rw [hmissing] at hslot
  contradiction

/-! ### One class more -/

section

variable {package : String} (path : Option String) {draft : ClassDraft}

lemma lookup?_of_notMem {name : String} (h : nestedSeparator ∉ name.toList) :
    program.lookup? name = program.topLevel? name := by
  rw [lookup?, segments_of_notMem h]
  simp

lemma Closed.lt_of_nested? (hclosed : program.Closed) {outer slot : Slot} {name : String}
    (h : program.nested? outer name = some slot) : slot < program.classes.size := by
  obtain ⟨c, hc, hslot⟩ := Option.bind_eq_some_iff.1 h
  refine (hclosed.nested outer slot ?_).2
  rw [nestedIn, hc]
  exact List.mem_of_find?_eq_some hslot

lemma holds_addFile (drafts : List ClassDraft) (property : Class → Bool) {slot : Slot}
    (h : slot < program.classes.size) :
    (program.addFile package path drafts).holds property slot = program.holds property slot := by
  rw [holds, holds, getElem?_classes_addFile_of_lt _ _ _ _ h]

lemma nested?_addFile (hclosed : program.Closed) (drafts : List ClassDraft) {outer : Slot}
    (houter : outer < program.classes.size) (name : String) :
    (program.addFile package path drafts).nested? outer name = program.nested? outer name := by
  rw [nested?, nested?, getElem?_classes_addFile_of_lt _ _ _ _ houter]
  cases hc : program.classes[outer]? with
  | none => rfl
  | some c =>
    refine List.find?_congr fun slot hslot => holds_addFile path drafts _ ?_
    refine (hclosed.nested outer slot ?_).2
    rwa [nestedIn, hc]

lemma foldlM_nested?_addFile (hclosed : program.Closed) (drafts : List ClassDraft)
    (inner : List String) {outer : Slot} (houter : outer < program.classes.size) :
    (inner.foldlM (program.addFile package path drafts).nested? outer >>= fun slot =>
        (program.addFile package path drafts).classes[slot]?) =
      inner.foldlM program.nested? outer >>= fun slot => program.classes[slot]? := by
  induction inner generalizing outer with
  | nil => exact getElem?_classes_addFile_of_lt _ _ _ _ houter
  | cons name inner ih =>
    rw [List.foldlM_cons, List.foldlM_cons, nested?_addFile path hclosed drafts houter, bind_assoc,
      bind_assoc]
    cases hslot : program.nested? outer name with
    | none => rfl
    | some slot => exact ih (hclosed.lt_of_nested? hslot)

/-- The class of a name is found from the first piece of it down. -/
lemma find?_eq_bind {name first : String} {inner : List String}
    (h : (segments (· == nestedSeparator) name.toList).map String.ofList = first :: inner) :
    program.find? name = (program.topLevel? first).bind fun top =>
      inner.foldlM program.nested? top >>= fun slot => program.classes[slot]? := by
  rw [find?, lookup?, h]
  exact Option.bind_assoc _ _ _

lemma reverse_topLevel_addFile : (program.addFile package path [draft]).topLevel.reverse =
    program.classes.size :: program.topLevel.reverse := by
  simp [topLevel, addFile, ClassDraft.slots]

/-- The class that a draft without nested ones becomes, if it is entered in a file of its own. -/
def enteredAlone (program : Program) (package : String) (draft : ClassDraft) : Class where
  binaryName := qualify package draft.simpleName
  kind := draft.kind
  modifiers := draft.modifiers
  superclass := draft.superclass
  interfaces := draft.interfaces
  annotations := draft.annotations
  methods := draft.methods
  fields := draft.fields
  enclosing := none
  nested := []
  file := program.files.size

variable (hnested : draft.nested = [])
include hnested

lemma getElem?_addFile_alone :
    (program.addFile package path [draft]).classes[program.classes.size]? =
      some (program.enteredAlone package draft) := by
  cases draft
  obtain rfl : _ = [] := hnested
  exact getElem?_classes_addFile_add program package path _ 0

lemma topLevel?_addFile_alone :
    (program.addFile package path [draft]).topLevel? (qualify package draft.simpleName) =
      some program.classes.size := by
  rw [topLevel?, reverse_topLevel_addFile, List.find?_cons_of_pos]
  simp [holds, getElem?_addFile_alone path hnested, enteredAlone]

lemma topLevel?_addFile_of_ne (hclosed : program.Closed) {name : String}
    (hne : name ≠ qualify package draft.simpleName) :
    (program.addFile package path [draft]).topLevel? name = program.topLevel? name := by
  rw [topLevel?, topLevel?, reverse_topLevel_addFile, List.find?_cons_of_neg]
  · refine List.find?_congr fun slot hslot => holds_addFile path _ _ ?_
    obtain ⟨file, hfile, hslot⟩ := List.mem_flatMap.1 (List.mem_reverse.1 hslot)
    exact hclosed.topLevel file (Array.mem_toList_iff.1 hfile) slot hslot
  · simp [holds, getElem?_addFile_alone path hnested, enteredAlone, Ne.symm hne]

variable (hseparator : nestedSeparator ∉ (qualify package draft.simpleName).toList)
include hseparator

lemma find?_addFile_alone :
    (program.addFile package path [draft]).find? (qualify package draft.simpleName) =
      some (program.enteredAlone package draft) := by
  rw [find?, lookup?_of_notMem hseparator, topLevel?_addFile_alone path hnested]
  exact getElem?_addFile_alone path hnested

lemma find?_addFile_of_ne (hclosed : program.Closed)
    (hnew : program.find? (qualify package draft.simpleName) = none) {name : String}
    (hne : name ≠ qualify package draft.simpleName) :
    (program.addFile package path [draft]).find? name = program.find? name := by
  obtain ⟨first, others, hsegments⟩ :=
    List.exists_cons_of_ne_nil (segments_ne_nil (· == nestedSeparator) name.toList)
  have hpieces : (segments (· == nestedSeparator) name.toList).map String.ofList =
      String.ofList first :: others.map String.ofList := by rw [hsegments, List.map_cons]
  rw [find?_eq_bind hpieces, find?_eq_bind hpieces]
  by_cases hfirst : String.ofList first = qualify package draft.simpleName
  · -- Nothing is nested in the class, and before it there was no class of its name.
    have hold : program.topLevel? (String.ofList first) = none := by
      rw [hfirst]
      cases htop : program.topLevel? (qualify package draft.simpleName) with
      | none => rfl
      | some top =>
        obtain ⟨t, ht, -⟩ := topLevel?_eq_some htop
        rw [find?, lookup?_of_notMem hseparator, htop] at hnew
        exact absurd (ht.symm.trans hnew) (by simp)
    rw [hold, hfirst, topLevel?_addFile_alone path hnested]
    cases others with
    | nil =>
      refine absurd (String.toList_injective ?_) hne
      rw [segments_join hsegments, ← hfirst, String.toList_ofList, List.flatMap_nil,
        List.append_nil]
    | cons next others =>
      have hnone : (program.addFile package path [draft]).nested? program.classes.size
          (String.ofList next) = none := by
        rw [nested?, getElem?_addFile_alone path hnested]
        rfl
      rw [List.map_cons, Option.bind_some, List.foldlM_cons, hnone]
      rfl
  · rw [topLevel?_addFile_of_ne path hnested hclosed hfirst]
    cases htop : program.topLevel? (String.ofList first) with
    | none => rfl
    | some top =>
      obtain ⟨t, ht, -⟩ := topLevel?_eq_some htop
      exact foldlM_nested?_addFile path hclosed _ _ (Array.getElem?_eq_some_iff.1 ht).1

end

end Program

end ExternalAnnotations
