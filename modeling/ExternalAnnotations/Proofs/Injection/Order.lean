import ExternalAnnotations.Proofs.Injection.Dressing
import ExternalAnnotations.Proofs.Resolution.History

/-!
# The order of source files

What is known of an annotation class is fixed when it is first looked up. If the index gives it a
retention, its annotations have this one only where they are made after its file was visited, so
that the order of the visits shows. It shows too in what declarations say that use each other. All
other annotations are the same in every order, and every class gets as many of every type.
-/

namespace ExternalAnnotations

namespace TypeSources

variable (sources : TypeSources)

/-- The index gives a retention to a class that has none of its own. -/
def GivesRetention (c : Class) : Prop :=
  AnnotationInstance.find? c.annotations retentionName = none ∧
    ∃ entry ∈ sources.index.entriesFor c.binaryName, c.position? entry = some .classItself ∧
      ∃ use ∈ entry.annotations,
        sources.foundName (sources.fullName entry.package use.typeName) = retentionName

/-- A name leads to no declarations that are entangled, and to no annotation class that the index
gives a retention. -/
structure Settled (name : String) : Prop where
  untangled : sources.Untangled name
  retained : ∀ reached c, sources.Reaches name reached →
    sources.annotationClass? reached = some c → ¬sources.GivesRetention c

/-- An annotation is settled if all names in it are, as they are meant in a package. -/
def SettledUse (package : String) (use : AnnotationUse) : Prop :=
  ∀ name ∈ use.typeNames, sources.Settled (sources.fullName package name)

/-- The entries about an element of a class. -/
def entriesAbout (c : Class) : List Entry :=
  (sources.index.entriesFor c.binaryName).filter fun entry => (c.position? entry).isSome

/-- Two deliveries for an entry have annotations of the same types, and the same where they are
settled. -/
structure SameDelivery (delivery other : Delivery) : Prop where
  entry : other.entry = delivery.entry
  typeNames : other.annotations.map (·.typeName) = delivery.annotations.map (·.typeName)
  settled : ∀ (i : Nat) (use : AnnotationUse), delivery.entry.annotations[i]? = some use →
    sources.SettledUse delivery.entry.package use →
      other.annotations[i]? = delivery.annotations[i]?

variable {sources}

lemma Settled.of_reaches {name other : String} (h : sources.Settled name)
    (hr : sources.Reaches name other) : sources.Settled other :=
  ⟨h.untangled.of_reaches hr, fun reached c hreached => h.retained reached c (hr.trans hreached)⟩

/-! ### Settled annotations -/

/-- Where names are settled the pure lookup says what is found. -/
def settledLookup (sources : TypeSources) : LookupInvariant sources :=
  sources.calmInvariant sources.Settled (·.untangled) fun h hr => h.of_reaches hr

/-- An annotation is called as its type, and if it is settled it is what is meant at the start. -/
def Settles (sources : TypeSources) (package : String) (use : AnnotationUse)
    (inner : AnnotationInstance) : Prop :=
  sources.nameInvariant.ofInstance package use inner ∧
    (sources.SettledUse package use → inner = sources.meant package use)

/-- So are all those that a delivery has for its entry. -/
def SettlesDelivery (sources : TypeSources) (delivery : Delivery) : Prop :=
  List.Forall₂ (sources.Settles delivery.entry.package) delivery.entry.annotations
    delivery.annotations

/-- All that a memo knows is called as its name says, and settled names have what is found at the
start. -/
def KnowsSettled (sources : TypeSources) (memo : Memo) : Prop :=
  memo.Keeps sources sources.nameLookup.holds sources.allDeclared ∧
    memo.Keeps sources sources.settledLookup.holds sources.allDeclared

section

variable {others : TypeSources} (hs : sources.SameNames others)
  (hnamed : ∀ {name c}, others.annotationClass? name = some c →
    sources.nameLookup.holds name (some (.ofClass others.program c)))
  (hsettled : ∀ {name c}, others.annotationClass? name = some c →
    sources.settledLookup.holds name (some (.ofClass others.program c)))
include hs hnamed hsettled

lemma resolve_settles (package : String) (use : AnnotationUse) :
    Resolving.Ensures sources.KnowsSettled (others.resolve package use)
      (sources.Settles package use) := by
  have hnames := sources.nameInvariant.applyUse_ensures Memo.Keeps.ignoresReports package use
    fun name _ => sources.nameLookup.lookup_ensures hs hnamed (sources.fullName package name)
  rw [← hs.applyUse] at hnames
  refine hnames.and ?_
  have hlookup := sources.settledLookup.lookup_ensures hs hsettled
  by_cases huse : sources.SettledUse package use
  · have hmatches :=
      resolve_matches_of_calm hs Memo.Keeps.ignoresReports hlookup package use huse
    exact fun memo hk => ⟨fun _ => (hmatches memo hk).1 {}, (hmatches memo hk).2⟩
  · -- Nothing is said of this annotation, but what is found for the names in it has to be right.
    have hkept := (ConversionInvariant.trivial sources).applyUse_ensures
      Memo.Keeps.ignoresReports package use fun name _ => (hlookup _).mono fun _ _ => trivial
    rw [← hs.applyUse] at hkept
    exact hkept.mono fun _ _ h => absurd h huse

lemma deliver_settles (entry : Entry) :
    Resolving.Ensures sources.KnowsSettled (others.deliver entry) sources.SettlesDelivery :=
  .bind (.mapM fun use _ => resolve_settles hs hnamed hsettled entry.package use)
    fun _ h => .pure h

lemma deliveries_settle (c : Class) (entries : List Entry) :
    Resolving.Ensures sources.KnowsSettled (others.deliveries c entries)
      fun deliveries => ∀ delivery ∈ deliveries, sources.SettlesDelivery delivery :=
  (Resolving.Ensures.mapM fun entry _ => deliver_settles hs hnamed hsettled entry).mono
    fun _ h => forall_mem_of_forall₂ h fun _ _ _ => id

end

/-! ### Retentions -/

lemma SettlesDelivery.exists_use {delivery : Delivery} (h : sources.SettlesDelivery delivery) :
    ∀ inner ∈ delivery.annotations, ∃ use ∈ delivery.entry.annotations, inner.typeName =
      sources.foundName (sources.fullName delivery.entry.package use.typeName) :=
  forall_mem_of_forall₂ h fun use huse _ hsettles => ⟨use, huse, hsettles.1⟩

section

variable {c : Class} {deliveries : List Delivery} (hc : ¬sources.GivesRetention c)
  (hentries : ∀ delivery ∈ deliveries, delivery.entry ∈ sources.index.entriesFor c.binaryName)
  (hsettles : ∀ delivery ∈ deliveries, sources.SettlesDelivery delivery)
include hc hentries hsettles

lemma find?_additions (hown : AnnotationInstance.find? c.annotations retentionName = none) :
    AnnotationInstance.find? (c.additions deliveries .classItself .declaration) retentionName =
      none := by
  refine List.find?_eq_none.2 fun inner hinner hname => hc ⟨hown, ?_⟩
  obtain ⟨delivery, hmem, hinner⟩ := List.mem_flatMap.1 hinner
  obtain ⟨hmem, hat⟩ := List.mem_filter.1 hmem
  obtain ⟨use, huse, htype⟩ := (hsettles delivery hmem).exists_use inner hinner
  exact ⟨delivery.entry, hentries delivery hmem, (of_decide_eq_true hat).1, use, huse,
    htype.symm.trans (eq_of_beq hname)⟩

/-- A class to which the index gives no retention keeps the one that it has. -/
lemma retentionOf_adding :
    AnnotationType.retentionOf (c.adding (c.additions deliveries)).annotations =
      AnnotationType.retentionOf c.annotations := by
  have hfind : AnnotationInstance.find? (c.adding (c.additions deliveries)).annotations
      retentionName = AnnotationInstance.find? c.annotations retentionName := by
    have hmore := find?_additions hc hentries hsettles
    unfold AnnotationInstance.find? at hmore ⊢
    rw [Class.adding, List.find?_append]
    cases hown : c.annotations.find? (·.typeName == retentionName) with
    | some inner => rfl
    | none => exact hmore hown
  rw [AnnotationType.retentionOf, AnnotationType.metaValue?, hfind]
  rfl

end

/-! ### What a delivery settles -/

lemma exists_of_forall₂ {α β : Type} {relation : α → β → Prop} {items : List α} {results : List β}
    (h : List.Forall₂ relation items results) {i : Nat} {a : α} (ha : items[i]? = some a) :
    ∃ b, results[i]? = some b ∧ relation a b := by
  induction h generalizing i with
  | nil => simp at ha
  | @cons first b items results hfirst _ ih =>
    cases i with
    | zero =>
      obtain rfl : first = a := by simpa using ha
      exact ⟨b, rfl, hfirst⟩
    | succ i => exact ih (by simpa using ha)

lemma SettlesDelivery.typeNames {delivery : Delivery} (h : sources.SettlesDelivery delivery) :
    delivery.annotations.map (·.typeName) = delivery.entry.annotations.map fun use =>
      sources.foundName (sources.fullName delivery.entry.package use.typeName) :=
  map_of_forall₂ h fun _ _ _ hsettles => hsettles.1

/-- What a delivery is if all annotations of its entry are settled. -/
def meantDelivery (sources : TypeSources) (entry : Entry) : Delivery :=
  ⟨entry, entry.annotations.map (sources.meant entry.package)⟩

lemma SettlesDelivery.eq_meant {delivery : Delivery} (h : sources.SettlesDelivery delivery)
    (hsettled : ∀ use ∈ delivery.entry.annotations,
      sources.SettledUse delivery.entry.package use) :
    sources.meantDelivery delivery.entry = delivery := by
  have hannotations := map_of_forall₂ (g := id) h fun use huse _ hsettles =>
    hsettles.2 (hsettled use huse)
  rw [List.map_id] at hannotations
  rw [meantDelivery, ← hannotations]

lemma SettlesDelivery.same {delivery other : Delivery} (h : sources.SettlesDelivery delivery)
    (h' : sources.SettlesDelivery other) (hentry : other.entry = delivery.entry) :
    sources.SameDelivery delivery other := by
  refine ⟨hentry, ?_, fun i use huse hsettled => ?_⟩
  · rw [h.typeNames, h'.typeNames, hentry]
  · obtain ⟨inner, hinner, -, hmeant⟩ := exists_of_forall₂ h huse
    obtain ⟨inner', hinner', -, hmeant'⟩ := exists_of_forall₂ h' (hentry ▸ huse)
    rw [hentry] at hmeant'
    rw [hinner, hinner', hmeant hsettled, hmeant' hsettled]

/-! ### Runs -/

/-- The work of an injector after the classes in some slots have been visited, and what it brought
them. -/
structure Midway (sources : TypeSources) (visited : List Slot) (deliveries : Slot → List Delivery)
    (injection : Injection) : Prop where
  index : injection.injector.index = sources.index
  memo : sources.KnowsSettled injection.injector.memo
  dressed : sources.program.Dressed injection.program deliveries
  entries : ∀ (slot : Slot) (c : Class), sources.program.classes[slot]? = some c →
    (deliveries slot).map (·.entry) = if slot ∈ visited then sources.entriesAbout c else []
  settles : ∀ slot, ∀ delivery ∈ deliveries slot, sources.SettlesDelivery delivery

namespace Midway

variable {visited : List Slot} {deliveries : Slot → List Delivery} {injection : Injection}
  (h : sources.Midway visited deliveries injection)
include h

lemma sameNames : sources.SameNames injection.sources := by
  rw [Injection.sources, h.index]
  exact h.dressed.sameNames sources.index

lemma entry_mem {slot : Slot} {c : Class} (hc : sources.program.classes[slot]? = some c) :
    ∀ delivery ∈ deliveries slot, delivery.entry ∈ sources.index.entriesFor c.binaryName := by
  intro delivery hmem
  have hentry : delivery.entry ∈ (deliveries slot).map (·.entry) := List.mem_map_of_mem hmem
  rw [h.entries slot c hc] at hentry
  split at hentry
  · exact (List.mem_filter.1 hentry).1
  · contradiction

lemma nameLookup_class {name : String} {c : Class}
    (hc : injection.sources.annotationClass? name = some c) :
    sources.nameLookup.holds name (some (.ofClass injection.program c)) := by
  obtain ⟨slot, before, -, hbefore, rfl⟩ :=
    h.dressed.exists_of_annotationClass? sources.index hc
  have hname := sources.nameLookup.ofClass hbefore
  exact hname

lemma settledLookup_class {name : String} {c : Class}
    (hc : injection.sources.annotationClass? name = some c) :
    sources.settledLookup.holds name (some (.ofClass injection.program c)) := by
  obtain ⟨slot, before, hclass, hbefore, rfl⟩ :=
    h.dressed.exists_of_annotationClass? sources.index hc
  intro hsettled
  have hkept := retentionOf_adding (hsettled.retained name before .refl hbefore)
    (h.entry_mem hclass) (h.settles slot)
  rw [typeAmong_of_class hbefore]
  exact congrArg some (h.dressed.ofClass_adding hkept)

lemma brings_settle (slot : Slot) :
    (∀ delivery ∈ injection.bringsTo slot, sources.SettlesDelivery delivery) ∧
      sources.KnowsSettled (injection.annotating slot).injector.memo := by
  rw [Injection.bringsTo, Injection.annotating]
  cases injection.program.classes[slot]? with
  | none => exact ⟨fun _ hmem => absurd hmem List.not_mem_nil, h.memo⟩
  | some c =>
    exact deliveries_settle h.sameNames h.nameLookup_class h.settledLookup_class c _ _ h.memo

lemma entries_bringsTo {slot : Slot} {c : Class} (hc : sources.program.classes[slot]? = some c) :
    (injection.bringsTo slot).map (·.entry) = sources.entriesAbout c := by
  rw [Injection.bringsTo, h.dressed.classes, hc]
  refine (entries_deliveries injection.sources _ _ _).trans ?_
  simp only [Class.position?_adding, h.index]
  rfl

lemma step {slot : Slot} (hslot : slot ∉ visited) :
    sources.Midway (visited ++ [slot])
      (Function.update deliveries slot (deliveries slot ++ injection.bringsTo slot))
      (injection.annotating slot) := by
  obtain ⟨hbrings, hmemo⟩ := h.brings_settle slot
  refine ⟨(Injection.index_annotating injection slot).trans h.index, hmemo,
    Injection.dressed_annotating h.dressed slot, fun other c hc => ?_, fun other => ?_⟩
  · have hentries := h.entries other c hc
    by_cases hother : other = slot
    · subst hother
      rw [if_neg hslot] at hentries
      simp [hentries, h.entries_bringsTo hc]
    · simp [hother, hentries]
  · by_cases hother : other = slot
    · subst hother
      rw [Function.update_self]
      exact List.forall_mem_append.2 ⟨h.settles other, hbrings⟩
    · rw [Function.update_of_ne hother]
      exact h.settles other

omit h in
lemma run {slots : List Slot} (h : sources.Midway [] deliveries injection) (hd : slots.Nodup) :
    ∃ later, sources.Midway slots later (slots.foldl Injection.annotating injection) := by
  -- From the end, since what is brought to a class depends on the visits before.
  induction slots using List.reverseRecOn with
  | nil => exact ⟨deliveries, h⟩
  | append_singleton slots slot ih =>
    obtain ⟨hslots, -, hslot⟩ := List.nodup_append.1 hd
    obtain ⟨later, hmid⟩ := ih hslots
    rw [List.foldl_append]
    exact ⟨_, hmid.step fun hmem => hslot slot hmem slot (by simp) rfl⟩

section

variable {others : List Slot} {deliveries' : Slot → List Delivery} {other : Injection}
  (h' : sources.Midway others deliveries' other) {slot : Slot} {c : Class}
  (hc : sources.program.classes[slot]? = some c) (hslot : slot ∈ visited)
include hc hslot

lemma map_entry : (deliveries slot).map (·.entry) = sources.entriesAbout c := by
  rw [h.entries slot c hc, if_pos hslot]

lemma eq_meant (hsettled : ∀ entry ∈ sources.entriesAbout c, ∀ use ∈ entry.annotations,
    sources.SettledUse entry.package use) :
    deliveries slot = (sources.entriesAbout c).map sources.meantDelivery := by
  rw [← h.map_entry hc hslot] at hsettled ⊢
  rw [List.map_map]
  refine ((List.map_congr_left fun delivery hmem => ?_).trans (List.map_id _)).symm
  exact (h.settles slot delivery hmem).eq_meant (hsettled _ (List.mem_map_of_mem hmem))

include h' in
lemma same (hslot' : slot ∈ others) :
    List.Forall₂ sources.SameDelivery (deliveries slot) (deliveries' slot) := by
  have hentries := (h.map_entry hc hslot).trans (h'.map_entry hc hslot').symm
  rw [← List.forall₂_eq_eq_eq, List.forall₂_map_left_iff, List.forall₂_map_right_iff,
    List.forall₂_iff_zip] at hentries
  refine List.forall₂_iff_zip.2 ⟨hentries.1, fun hmem => ?_⟩
  obtain ⟨hfirst, hsecond⟩ := List.of_mem_zip hmem
  exact (h.settles slot _ hfirst).same (h'.settles slot _ hsecond) (hentries.2 hmem).symm

end

end Midway

end TypeSources

namespace Injection

lemma progress_foldl_annotating (injection : Injection) (slots : List Slot) (file : FileId) :
    (slots.foldl annotating injection).injector.progress file =
      injection.injector.progress file := by
  have hvisits : (slots.foldl annotating injection).injector.visits =
      injection.injector.visits := by
    refine foldl_annotating slots injection (·.injector.visits) fun injection slot => ?_
    unfold annotating
    split <;> rfl
  rw [Injector.progress, hvisits]
  rfl

lemma progress_marked (injection : Injection) (file : FileId) (progress : Progress)
    (other : FileId) : (injection.marked file progress).injector.progress other =
      if other = file then progress else injection.injector.progress other := by
  simp only [marked, Injector.setProgress, Injector.progress, List.lookup_cons]
  by_cases hother : other = file
  · subst hother
    simp
  · have hbeq : (other == file) = false := beq_eq_false_iff_ne.2 hother
    simp [hother, hbeq]

lemma nestedIn_annotating (injection : Injection) (slot other : Slot) :
    (injection.annotating slot).program.nestedIn other = injection.program.nestedIn other := by
  unfold Program.nestedIn
  by_cases h : slot = other
  · subst h
    cases hc : injection.program.classes[slot]? with
    | none => rw [annotating, hc]; simp only [hc]
    | some c => rw [getElem?_annotating_self hc]; rfl
  · rw [getElem?_annotating_of_ne _ h]

lemma closed_foldl_annotating {injection : Injection} (hclosed : injection.program.Closed)
    (slots : List Slot) : (slots.foldl annotating injection).program.Closed := by
  have hnested : ∀ slot, (slots.foldl annotating injection).program.nestedIn slot =
      injection.program.nestedIn slot := fun slot =>
    foldl_annotating slots injection (·.program.nestedIn slot) fun _ _ => nestedIn_annotating _ _ _
  constructor
  · intro slot n hn
    rw [hnested] at hn
    rw [size_classes_foldl_annotating]
    exact hclosed.nested slot n hn
  · rw [files_foldl_annotating, size_classes_foldl_annotating]
    exact hclosed.topLevel

lemma classesIn_foldl_annotating {injection : Injection} (hclosed : injection.program.Closed)
    (slots : List Slot) (file : FileId) :
    (slots.foldl annotating injection).program.classesIn file =
      injection.program.classesIn file := by
  apply Program.classesIn_congr hclosed
  · simp
  · intro slot _
    exact foldl_annotating slots injection (·.program.nestedIn slot) fun _ _ =>
      nestedIn_annotating _ _ _
  · simp

lemma run_injectFiles {injection : Injection} (hclosed : injection.program.Closed)
    (files : List FileId) (hd : files.Nodup)
    (hfiles : ∀ file ∈ files, file < injection.program.files.size ∧
      injection.injector.progress file = .unvisited) :
    ∃ replaced after, (injectFiles files).run injection = .ok replaced after ∧
      ((files.flatMap injection.program.classesIn).foldl annotating injection).AgreesWith
        after := by
  induction files generalizing injection with
  | nil => exact ⟨0, injection, rfl, rfl, rfl, rfl⟩
  | cons file files ih =>
    obtain ⟨hfile, hfiles⟩ := List.forall_mem_cons.1 hfiles
    obtain ⟨hne, hd⟩ := List.nodup_cons.1 hd
    obtain ⟨first, hfirst⟩ := run_injectFile hfile.1 hfile.2
    let next := (injection.program.classesIn file).foldl annotating injection
    set visited := (((injection.program.classesIn file).foldl annotating
      (injection.marked file .working)).marked file .done).collected
    have hmarked : injection.AgreesWith (injection.marked file .working) := ⟨rfl, rfl, rfl⟩
    have hnext : next.AgreesWith visited := (hmarked.foldl_annotating _).1.trans ⟨rfl, rfl, rfl⟩
    have hlater : ∀ other ∈ files, other < visited.program.files.size ∧
        visited.injector.progress other = .unvisited := by
      intro other ho
      have hother : other ≠ file := fun he => hne (he ▸ ho)
      have hprogress : visited.injector.progress other = injection.injector.progress other := by
        refine (progress_marked _ file .done other).trans ?_
        rw [if_neg hother, progress_foldl_annotating, progress_marked, if_neg hother]
      rw [hnext.program, files_foldl_annotating, hprogress]
      exact hfiles other ho
    have hclasses : visited.program.classesIn = injection.program.classesIn := by
      rw [hnext.program]
      exact funext (classesIn_foldl_annotating hclosed _)
    have hclosed' : visited.program.Closed := by
      rw [hnext.program]
      exact closed_foldl_annotating hclosed _
    obtain ⟨others, after, hothers, hafter⟩ := ih hclosed' hd hlater
    rw [hclasses] at hafter
    refine ⟨first + others, after, ?_, ?_⟩
    · simp [injectFiles, hfirst, hothers, -bind_pure_comp]
    · rw [List.flatMap_cons, List.foldl_append]
      exact (hnext.foldl_annotating _).1.trans hafter

section

variable {program : Program} {injector : Injector} (hp : program.Reached)
  (hvisits : injector.visits = []) {files : List FileId}
  (hf : files.Perm (List.range program.files.size))
include hp hvisits hf

/-- A new injector that goes over all files takes every class once. -/
lemma run_injectFiles_all : ∃ (replaced : Nat) (after : Injection) (slots : List Slot),
    (injectFiles files).run ⟨injector, program⟩ = .ok replaced after ∧
      (slots.foldl annotating ⟨injector, program⟩).AgreesWith after ∧
      slots.Perm (List.range program.classes.size) := by
  have hordered := hp.ordered
  have hfiles :
    ∀ file ∈ files, file < program.files.size ∧ injector.progress file = .unvisited := by
    intro file hfile
    refine ⟨List.mem_range.1 (hf.mem_iff.1 hfile), ?_⟩
    simp [Injector.progress, hvisits]
  obtain ⟨replaced, after, hrun, hafter⟩ := @run_injectFiles ⟨injector, program⟩ hordered.toClosed
    files (hf.nodup_iff.2 List.nodup_range) hfiles
  refine ⟨replaced, after, _, hrun, hafter, ?_⟩
  have hall := hf.flatMap_right program.classesIn
  rwa [hordered.listed] at hall

end

section

variable {program : Program} {injector : Injector} (hp : program.Reached)
  (hvisits : injector.visits = []) (hknown : injector.memo.known = [])
include hp hvisits hknown

lemma exists_midway {files : List FileId} (hf : files.Perm (List.range program.files.size)) :
    ∃ replaced after slots deliveries,
      (injectFiles files).run ⟨injector, program⟩ = .ok replaced after ∧
        program.Dressed after.program deliveries ∧
          TypeSources.Midway ⟨program, injector.index⟩ slots deliveries
            (slots.foldl annotating ⟨injector, program⟩) ∧
          slots.Perm (List.range program.classes.size) := by
  obtain ⟨replaced, after, slots, hrun, hafter, hslots⟩ := run_injectFiles_all hp hvisits hf
  have hkeeps : ∀ invariant : LookupInvariant ⟨program, injector.index⟩,
      injector.memo.Keeps ⟨program, injector.index⟩ invariant.holds
        (TypeSources.allDeclared ⟨program, injector.index⟩) := by
    intro invariant
    constructor <;> simp [Memo.find?, hknown]
  have hstart : TypeSources.Midway ⟨program, injector.index⟩ [] (fun _ => [])
      ⟨injector, program⟩ :=
    ⟨rfl, ⟨hkeeps _, hkeeps _⟩, .refl program, fun _ _ _ => rfl,
      fun _ _ hmem => absurd hmem List.not_mem_nil⟩
  obtain ⟨deliveries, hend⟩ := hstart.run (hslots.nodup_iff.2 List.nodup_range)
  refine ⟨replaced, after, slots, deliveries, hrun, ?_, hend, hslots⟩
  rw [hafter.program]
  exact hend.dressed

/-- In whichever order a new injector visits all files, every class gets annotations of the same
types for the same entries. Those that are settled are the same, and so if all are the programs
are. -/
theorem injectFiles_perm {files others : List FileId}
    (hf : files.Perm (List.range program.files.size))
    (ho : others.Perm (List.range program.files.size)) :
    let sources : TypeSources := ⟨program, injector.index⟩
    ∃ replaced after replaced' after' deliveries deliveries',
      (injectFiles files).run ⟨injector, program⟩ = .ok replaced after ∧
        (injectFiles others).run ⟨injector, program⟩ = .ok replaced' after' ∧
        program.Dressed after.program deliveries ∧ program.Dressed after'.program deliveries' ∧
        (∀ (slot : Slot) (c : Class), program.classes[slot]? = some c →
          (deliveries slot).map (·.entry) = sources.entriesAbout c ∧
            List.Forall₂ sources.SameDelivery (deliveries slot) (deliveries' slot)) ∧
        ((∀ (slot : Slot) (c : Class), program.classes[slot]? = some c →
          ∀ entry ∈ sources.entriesAbout c, ∀ use ∈ entry.annotations,
            sources.SettledUse entry.package use) → after'.program = after.program) := by
  intro sources
  obtain ⟨replaced, after, slots, deliveries, hrun, hdressed, hmid, hslots⟩ :=
    exists_midway hp hvisits hknown hf
  obtain ⟨replaced', after', slots', deliveries', hrun', hdressed', hmid', hslots'⟩ :=
    exists_midway hp hvisits hknown ho
  have hall : ∀ {slot : Slot} {c : Class}, program.classes[slot]? = some c →
      slot ∈ slots ∧ slot ∈ slots' := by
    intro slot c hc
    rw [hslots.mem_iff, hslots'.mem_iff]
    have hlt := List.mem_range.2 (Array.getElem?_eq_some_iff.1 hc).1
    exact ⟨hlt, hlt⟩
  refine ⟨replaced, after, replaced', after', deliveries, deliveries', hrun, hrun', hdressed,
    hdressed', fun slot c hc => ?_, fun hsettled => ?_⟩
  · obtain ⟨hslot, hslot'⟩ := hall hc
    exact ⟨hmid.map_entry hc hslot, hmid.same hmid' hc hslot hslot'⟩
  · refine hdressed.eq_of_deliveries_eq hdressed' fun slot c hc => ?_
    obtain ⟨hslot, hslot'⟩ := hall hc
    rw [hmid.eq_meant hc hslot (hsettled slot c hc), hmid'.eq_meant hc hslot' (hsettled slot c hc)]

end

/-! ### Where the order matters -/

/-- Two orders in which a new injector visits all files of a program lead to different programs. -/
def OrderMatters (program : Program) (index : Index) : Prop :=
  ∃ files others replaced after replaced' after',
    files.Perm (List.range program.files.size) ∧ others.Perm (List.range program.files.size) ∧
      (injectFiles files).run ⟨.ofIndex index, program⟩ = .ok replaced after ∧
      (injectFiles others).run ⟨.ofIndex index, program⟩ = .ok replaced' after' ∧
      after'.program ≠ after.program

/-- Two files with a class each, `p.A` and `p.C`. -/
def twoFiles (kind : ClassKind) : Program :=
  (Program.addFile {} "p" none [.ofName "A" kind]).addFile "p" none [.ofName "C" .ordinary]

lemma reached_twoFiles (kind : ClassKind) : (twoFiles kind).Reached :=
  .addFile _ _ _ (.addFile _ _ _ .empty)

/-- An entry for a class of the package `p`. -/
def classEntry (owner : String) (use : AnnotationUse) : Entry :=
  ⟨owner, "p", none, .declaration, [use], .start⟩

/-- The annotation class `p.A` gets a retention, and `p.C` is annotated with it. -/
def retaining : Index :=
  .of [classEntry "p.A" ⟨"Retention", [("value", .name "RUNTIME")], .start⟩,
    classEntry "p.C" ⟨"A", [], .start⟩] []

/-- A declaration with another annotation type in a default. -/
def declaring (name other : String) : Declaration :=
  ⟨"p." ++ name, [], [⟨soleElement, .annotationType other, some (.nested ⟨other, [], .start⟩)⟩],
    .start⟩

/-- Two declarations that use each other. -/
def circular : Index :=
  .of [classEntry "p.A" ⟨"X", [], .start⟩, classEntry "p.C" ⟨"Y", [], .start⟩]
    [declaring "X" "Y", declaring "Y" "X"]

/-- The annotations that the classes have in the end. -/
def outcome (program : Program) (index : Index) (files : List FileId) :
    List (List (String × Retention)) :=
  match (injectFiles files).run ⟨.ofIndex index, program⟩ with
  | .ok _ after => after.program.classes.toList.map fun c =>
      c.annotations.map fun given => (given.text, given.retention)
  | .error _ _ => []

lemma orderMatters_of_outcome {program : Program} {index : Index} (hp : program.Reached)
    {files others : List FileId} (hf : files.Perm (List.range program.files.size))
    (ho : others.Perm (List.range program.files.size))
    (h : outcome program index others ≠ outcome program index files) :
    OrderMatters program index := by
  have hvisits : (Injector.ofIndex index).visits = [] := rfl
  obtain ⟨replaced, after, slots, hrun, -⟩ := run_injectFiles_all hp hvisits hf
  obtain ⟨replaced', after', slots', hrun', -⟩ := run_injectFiles_all hp hvisits ho
  refine ⟨files, others, replaced, _, replaced', _, hf, ho, hrun, hrun', fun he => h ?_⟩
  rw [outcome, outcome, hrun, hrun']
  simp only [he]

/-- The file visited first decides whether annotations of a type that the index itself annotates
have the new retention, and which of two declarations that use each other is made first. -/
theorem injectFiles_order_matters :
    OrderMatters (twoFiles .annotationType) retaining ∧
      OrderMatters (twoFiles .ordinary) circular := by
  constructor
  · exact orderMatters_of_outcome (reached_twoFiles _) (.refl [0, 1]) (.swap 0 1 [])
      (by decide +kernel)
  · exact orderMatters_of_outcome (reached_twoFiles _) (.refl [0, 1]) (.swap 0 1 [])
      (by decide +kernel)

/-- One declaration with another in a default, which is no circle, and an annotation class that the
index annotates with something else than a retention. -/
def declaringOnce : TypeSources where
  program := twoFiles .annotationType
  index := .of [classEntry "p.A" ⟨"X", [], .start⟩, classEntry "p.C" ⟨"Y", [], .start⟩,
    classEntry "p.C" ⟨"A", [], .start⟩] [declaring "X" "Y", ⟨"p.Y", [], [], .start⟩]

lemma uses_declaringOnce {name other : String} (h : declaringOnce.Uses name other) :
    name = "p.X" ∧ other = "p.Y" := by
  obtain ⟨declaration, hd, hother⟩ := h
  obtain rfl := TypeSources.name_of_declared hd
  have hmem := (Index.of_declaration? (TypeSources.declared?_eq_some_iff.1 hd).2).1
  simp only [declaringOnce, Index.of, List.mem_cons, List.not_mem_nil, or_false] at hmem
  rcases hmem with rfl | rfl
  · have hnames : declaringOnce.defaultNames (declaring "X" "Y") = ["p.Y"] := by decide +kernel
    rw [hnames] at hother
    exact ⟨rfl, List.mem_singleton.1 hother⟩
  · contradiction

lemma reaches_declaringOnce {name other : String} (h : declaringOnce.Reaches name other) :
    name = other ∨ name = "p.X" ∧ other = "p.Y" := by
  induction h with
  | refl => exact .inl rfl
  | tail _ hlast ih =>
    obtain ⟨rfl, rfl⟩ := uses_declaringOnce hlast
    rcases ih with rfl | ⟨-, hcontra⟩
    · exact .inr ⟨rfl, rfl⟩
    · exact absurd hcontra (by decide)

lemma settled_declaringOnce (name : String) : declaringOnce.Settled name := by
  constructor
  · rintro first second - ⟨hne, hto, hback⟩
    obtain ⟨rfl, rfl⟩ := (reaches_declaringOnce hto).resolve_left hne
    rcases reaches_declaringOnce hback with heq | ⟨heq, -⟩ <;> exact absurd heq (by decide)
  · rintro reached c - hc ⟨-, entry, hentry, -, use, huse, hname⟩
    have hnames : ∀ entry ∈ declaringOnce.index.entries, ∀ use ∈ entry.annotations,
        declaringOnce.foundName (declaringOnce.fullName entry.package use.typeName) ≠
          retentionName := by
      decide +kernel
    obtain ⟨i, -, hi⟩ := List.mem_filterMap.1 hentry
    exact hnames entry (List.mem_of_getElem? hi) use huse hname

/-- Both classes are the same in the end, `p.A` with what another declaration gives a default. -/
theorem injectFiles_perm_declaringOnce :
    ∃ replaced after replaced' after',
      (injectFiles [0, 1]).run ⟨.ofIndex declaringOnce.index, declaringOnce.program⟩ =
          .ok replaced after ∧
        (injectFiles [1, 0]).run ⟨.ofIndex declaringOnce.index, declaringOnce.program⟩ =
          .ok replaced' after' ∧
        after'.program = after.program := by
  obtain ⟨replaced, after, replaced', after', deliveries, deliveries', hrun, hrun', -, -, -,
    hsame⟩ := injectFiles_perm (reached_twoFiles .annotationType)
      (rfl : (Injector.ofIndex declaringOnce.index).visits = []) rfl (.refl [0, 1]) (.swap 0 1 [])
  refine ⟨replaced, after, replaced', after', hrun, hrun', hsame fun _ _ _ _ _ _ _ name _ => ?_⟩
  exact settled_declaringOnce _

end Injection

end ExternalAnnotations
