import ExternalAnnotations.Proofs.Injection.Delivery
import ExternalAnnotations.Proofs.Program.Layout

/-!
# What a run of the injector does

Annotating the class in a slot never fails: the annotated class is the same class, so it can take
its place. A file is done as its slots are, one after the other, and since its slots are all
different every class gets what the index brings to it when its turn comes.
-/

namespace ExternalAnnotations

namespace Injection

/-- Where annotation types are looked up. -/
def sources (injection : Injection) : TypeSources := ⟨injection.program, injection.injector.index⟩

/-- What the index brings to a class, with the memo that it leaves. -/
def brings (injection : Injection) (c : Class) : List Delivery × Memo :=
  (injection.sources.deliveries c (injection.injector.index.entriesFor c.binaryName)).run
    injection.injector.memo

/-- The class with what the index brings to it. -/
def annotated (injection : Injection) (c : Class) : Class :=
  c.adding (c.additions (injection.brings c).1)

/-- The work with the class in a slot annotated. -/
def annotating (injection : Injection) (slot : Slot) : Injection :=
  match injection.program.classes[slot]? with
  | none => injection
  | some c =>
    { injector := { injection.injector with memo := (injection.brings c).2 }
      program := { injection.program with
        classes := injection.program.classes.setIfInBounds slot (injection.annotated c) } }

lemma run_annotate? (c : Class) (injection : Injection) :
    ∃ given, (resolving (·.annotate? c)).run injection =
        .ok given { injection with injector := { injection.injector with
          memo := (injection.brings c).2 } } ∧
      given.getD c = injection.annotated c := by
  obtain ⟨hclass, hmemo⟩ := injection.sources.annotate?_eq c injection.injector.memo
  refine ⟨_, ?_, hclass⟩
  rw [brings]
  exact hmemo ▸ rfl

lemma run_replace {slot : Slot} {old new : Class} {injection : Injection}
    (hold : injection.program.classes[slot]? = some old) (hsame : Program.sameClass old new) :
    (replace slot new).run injection = .ok () { injection with program := { injection.program with
      classes := injection.program.classes.setIfInBounds slot new } } := by
  have h : injection.program.replace slot new = .ok (old, { injection.program with
      classes := injection.program.classes.setIfInBounds slot new }) := by
    simp [Program.replace, hold, hsame]
  simp [replace, EStateM.run, h]

lemma setIfInBounds_self {α : Type} {items : Array α} {i : Nat} {a : α} (h : items[i]? = some a) :
    items.setIfInBounds i a = items := by
  apply Array.ext_getElem?
  intro k
  rw [Array.getElem?_setIfInBounds]
  split
  · subst_vars
    rw [h, if_pos (Array.getElem?_eq_some_iff.1 h).1]
  · rfl

lemma sameClass_adding (c : Class) (additions : Additions) :
    Program.sameClass c (c.adding additions) := by
  simp [Program.sameClass, Class.adding]

lemma run_annotateSlot (slot : Slot) (injection : Injection) :
    ∃ replaced, (annotateSlot slot).run injection = .ok replaced (injection.annotating slot) := by
  cases hc : injection.program.classes[slot]? with
  | none =>
    refine ⟨0, ?_⟩
    simp [annotateSlot, annotating, hc]
  | some c =>
    obtain ⟨given, hrun, hclass⟩ := run_annotate? c injection
    have hsame : Program.sameClass c (injection.annotated c) := sameClass_adding _ _
    cases given with
    | none =>
      replace hclass : c = injection.annotated c := hclass
      refine ⟨0, ?_⟩
      simp [annotateSlot, annotating, hc, hrun, ← hclass, setIfInBounds_self hc]
    | some given =>
      obtain rfl : given = injection.annotated c := hclass
      refine ⟨1, ?_⟩
      simp [annotateSlot, annotating, hc, hrun, run_replace, hsame, -bind_pure_comp]

lemma run_annotateSlots (slots : List Slot) (injection : Injection) :
    ∃ replaced, (annotateSlots slots).run injection =
      .ok replaced (slots.foldl annotating injection) := by
  induction slots generalizing injection with
  | nil => exact ⟨0, rfl⟩
  | cons slot slots ih =>
    obtain ⟨first, hfirst⟩ := run_annotateSlot slot injection
    obtain ⟨others, hothers⟩ := ih (injection.annotating slot)
    refine ⟨first + others, ?_⟩
    simp [annotateSlots, hfirst, hothers, -bind_pure_comp]

/-! ### What annotating slots leaves alone -/

@[simp] lemma index_annotating (injection : Injection) (slot : Slot) :
    (injection.annotating slot).injector.index = injection.injector.index := by
  unfold annotating
  split <;> rfl

@[simp] lemma files_annotating (injection : Injection) (slot : Slot) :
    (injection.annotating slot).program.files = injection.program.files := by
  unfold annotating
  split <;> rfl

@[simp] lemma size_classes_annotating (injection : Injection) (slot : Slot) :
    (injection.annotating slot).program.classes.size = injection.program.classes.size := by
  unfold annotating
  split <;> simp

lemma getElem?_annotating_self {injection : Injection} {slot : Slot} {c : Class}
    (hc : injection.program.classes[slot]? = some c) :
    (injection.annotating slot).program.classes[slot]? = some (injection.annotated c) := by
  have hlt := (Array.getElem?_eq_some_iff.1 hc).1
  rw [annotating, hc]
  simp [hlt]

lemma getElem?_annotating_of_ne (injection : Injection) {slot other : Slot} (h : slot ≠ other) :
    (injection.annotating slot).program.classes[other]? = injection.program.classes[other]? := by
  unfold annotating
  split
  · rfl
  · simp [h]

section

variable (slots : List Slot) (injection : Injection)

lemma foldl_annotating {α : Type} (part : Injection → α)
    (h : ∀ injection slot, part (annotating injection slot) = part injection) :
    part (slots.foldl annotating injection) = part injection := by
  induction slots generalizing injection with
  | nil => rfl
  | cons slot slots ih => rw [List.foldl_cons, ih, h]

@[simp] lemma index_foldl_annotating :
    (slots.foldl annotating injection).injector.index = injection.injector.index :=
  foldl_annotating slots injection (·.injector.index) index_annotating

@[simp] lemma files_foldl_annotating :
    (slots.foldl annotating injection).program.files = injection.program.files :=
  foldl_annotating slots injection (·.program.files) files_annotating

@[simp] lemma size_classes_foldl_annotating :
    (slots.foldl annotating injection).program.classes.size = injection.program.classes.size :=
  foldl_annotating slots injection (·.program.classes.size) size_classes_annotating

lemma getElem?_foldl_annotating_of_notMem {other : Slot} (h : other ∉ slots) :
    (slots.foldl annotating injection).program.classes[other]? =
      injection.program.classes[other]? := by
  induction slots generalizing injection with
  | nil => rfl
  | cons slot slots ih =>
    simp only [List.mem_cons, not_or] at h
    rw [List.foldl_cons, ih _ h.2, getElem?_annotating_of_ne _ (Ne.symm h.1)]

end

lemma getElem?_foldl_annotating {before later : List Slot} {slot : Slot} {injection : Injection}
    {c : Class} (hd : (before ++ slot :: later).Nodup)
    (hc : injection.program.classes[slot]? = some c) :
    ((before ++ slot :: later).foldl annotating injection).program.classes[slot]? =
      some ((before.foldl annotating injection).annotated c) := by
  have hbefore : slot ∉ before := fun h => (List.nodup_append.1 hd).2.2 slot h slot (by simp) rfl
  have hlater : slot ∉ later := (List.nodup_cons.1 (List.nodup_append.1 hd).2.1).1
  rw [List.foldl_append, List.foldl_cons, getElem?_foldl_annotating_of_notMem _ _ hlater]
  apply getElem?_annotating_self
  rw [getElem?_foldl_annotating_of_notMem _ _ hbefore, hc]

/-! ### What earlier reports do not change -/

/-- Two injectors have the same program and know the same. What they reported and which files they
visited may be different. -/
structure AgreesWith (injection other : Injection) : Prop where
  program : other.program = injection.program
  index : other.injector.index = injection.injector.index
  known : other.injector.memo.known = injection.injector.memo.known

lemma AgreesWith.trans {first second third : Injection} (h : first.AgreesWith second)
    (h' : second.AgreesWith third) : first.AgreesWith third :=
  ⟨h'.program.trans h.program, h'.index.trans h.index, h'.known.trans h.known⟩

lemma AgreesWith.brings {injection other : Injection} (h : injection.AgreesWith other) (c : Class) :
    ∃ deliveries known reported,
      injection.brings c =
        (deliveries, ⟨known, injection.injector.memo.diagnostics ++ reported⟩) ∧
      other.brings c = (deliveries, ⟨known, other.injector.memo.diagnostics ++ reported⟩) := by
  have hmemo : ∀ memo : Memo, (⟨memo.known, []⟩ : Memo).behind memo.diagnostics = memo :=
    fun memo => congrArg (Memo.mk memo.known) (List.append_nil memo.diagnostics)
  have hsources : other.sources = injection.sources := by
    rw [sources, sources, h.program, h.index]
  let work := injection.sources.deliveries c (injection.injector.index.entriesFor c.binaryName)
  let silent : Memo := ⟨injection.injector.memo.known, []⟩
  have hwork : ∀ earlier,
      work.run (silent.behind earlier) =
        ((work.run silent).1, (work.run silent).2.behind earlier) :=
    injection.sources.appends_deliveries c _ silent
  have hsilent := hmemo other.injector.memo
  rw [h.known] at hsilent
  refine ⟨(work.run silent).1, (work.run silent).2.known, (work.run silent).2.diagnostics, ?_, ?_⟩
  · exact (congrArg work.run (hmemo injection.injector.memo).symm).trans (hwork _)
  · rw [Injection.brings, hsources, h.index]
    exact (congrArg work.run hsilent.symm).trans (hwork _)

lemma AgreesWith.annotating {injection other : Injection} (h : injection.AgreesWith other)
    (slot : Slot) : (injection.annotating slot).AgreesWith (other.annotating slot) ∧
      ∃ reported,
        (injection.annotating slot).injector.memo.diagnostics =
          injection.injector.memo.diagnostics ++ reported ∧
        (other.annotating slot).injector.memo.diagnostics =
          other.injector.memo.diagnostics ++ reported := by
  cases hc : injection.program.classes[slot]? with
  | none =>
    have hc' : other.program.classes[slot]? = none := h.program ▸ hc
    simp only [Injection.annotating, hc, hc']
    exact ⟨h, [], by simp⟩
  | some c =>
    have hc' : other.program.classes[slot]? = some c := h.program ▸ hc
    obtain ⟨deliveries, known, reported, hbrings, hbrings'⟩ := h.brings c
    simp only [Injection.annotating, hc, annotated, hbrings, hbrings', h.program]
    exact ⟨⟨rfl, h.index, rfl⟩, reported, rfl, rfl⟩

lemma AgreesWith.foldl_annotating {injection other : Injection} (h : injection.AgreesWith other)
    (slots : List Slot) :
    (slots.foldl Injection.annotating injection).AgreesWith
        (slots.foldl Injection.annotating other) ∧
      ∃ reported,
        (slots.foldl Injection.annotating injection).injector.memo.diagnostics =
          injection.injector.memo.diagnostics ++ reported ∧
        (slots.foldl Injection.annotating other).injector.memo.diagnostics =
          other.injector.memo.diagnostics ++ reported := by
  induction slots generalizing injection other with
  | nil => exact ⟨h, [], by simp⟩
  | cons slot slots ih =>
    obtain ⟨hfirst, first, hfirstReported, hfirstReported'⟩ := h.annotating slot
    obtain ⟨hothers, others, hreported, hreported'⟩ := ih hfirst
    refine ⟨hothers, first ++ others, ?_, ?_⟩
    · rw [← List.append_assoc, ← hfirstReported]
      exact hreported
    · rw [← List.append_assoc, ← hfirstReported']
      exact hreported'

/-- The work with a file marked as begun or done. -/
def marked (injection : Injection) (file : FileId) (progress : Progress) : Injection :=
  { injection with injector := injection.injector.setProgress file progress }

lemma run_setProgress (injection : Injection) (file : FileId) (progress : Progress) :
    (setProgress file progress).run injection = .ok () (injection.marked file progress) := rfl

lemma run_collecting_of_ok {α : Type} {work : Working α} {injection next : Injection} {a : α}
    (h : work.run injection = .ok a next) :
    (collecting work).run injection = .ok a next.collected := by
  replace h : work injection = .ok a next := h
  simp only [EStateM.run, collecting, h]

lemma run_collecting_of_error {α : Type} {work : Working α} {injection next : Injection}
    {error : InjectionError} (h : work.run injection = .error error next) :
    (collecting work).run injection = .error error next.collected := by
  replace h : work injection = .error error next := h
  simp only [EStateM.run, collecting, h]

/-- Annotating a file that was not visited comes to an end without an error. -/
lemma run_annotateFile {injection : Injection} {file : FileId}
    (hf : file < injection.program.files.size)
    (hv : injection.injector.progress file = .unvisited) :
    ∃ replaced, (annotateFile file).run injection = .ok replaced
      (((injection.program.classesIn file).foldl annotating
        (injection.marked file .working)).marked file .done) := by
  obtain ⟨replaced, hrun⟩ :=
    run_annotateSlots (injection.program.classesIn file) (injection.marked file .working)
  have hlt : ¬injection.program.files.size ≤ file := by simpa using hf
  refine ⟨replaced, ?_⟩
  simp only [annotateFile, EStateM.run_bind, EStateM.run_get, hlt, if_false, hv, run_setProgress,
    hrun]
  rfl

lemma run_injectFile {injection : Injection} {file : FileId}
    (hf : file < injection.program.files.size)
    (hv : injection.injector.progress file = .unvisited) :
    ∃ replaced, (injectFile file).run injection = .ok replaced
      (((injection.program.classesIn file).foldl annotating
        (injection.marked file .working)).marked file .done).collected := by
  obtain ⟨replaced, hrun⟩ := run_annotateFile hf hv
  exact ⟨replaced, run_collecting_of_ok hrun⟩

/-- Annotating a file gives each of its classes what the index brings to it when its turn comes:
the annotations made for those entries that are about an element of it, in their order, each on
the part that its entry is about. Such a part exists at every moment of the work. Everything else
stays. -/
theorem injectFile_annotates (injection : Injection) {file : FileId}
    (hp : injection.program.Reached) (hf : file < injection.program.files.size)
    (hv : injection.injector.progress file = .unvisited) :
    ∃ replaced after, (injectFile file).run injection = .ok replaced after ∧
      after.program.files = injection.program.files ∧
      after.program.classes.size = injection.program.classes.size ∧
      (∀ (slot : Slot) (c : Class), injection.program.classes[slot]? = some c → c.file ≠ file →
        after.program.classes[slot]? = some c) ∧
      ∀ (slot : Slot) (c : Class), injection.program.classes[slot]? = some c → c.file = file →
        ∃ before later deliveries memo, injection.program.classesIn file = before ++ slot :: later ∧
          (before.foldl annotating (injection.marked file .working)).brings c =
            (deliveries, memo) ∧
          after.program.classes[slot]? = some (c.adding (c.additions deliveries)) ∧
          deliveries.map (·.entry) =
            (injection.injector.index.entriesFor c.binaryName).filter (c.position? · |>.isSome) ∧
          ∀ present entry position,
            (c.adding (c.additions present)).position? entry = some position →
              (c.adding (c.additions present)).HasPart entry.placement position := by
  obtain ⟨replaced, hrun⟩ := run_injectFile hf hv
  have hordered := hp.ordered
  refine ⟨replaced, _, hrun, files_foldl_annotating .., size_classes_foldl_annotating .., ?_, ?_⟩
  · intro slot c hc hne
    have hmem : slot ∉ injection.program.classesIn file := by
      rw [hordered.mem_classesIn_iff hc]
      exact hne
    exact (getElem?_foldl_annotating_of_notMem _ _ hmem).trans hc
  · intro slot c hc hfile
    obtain ⟨before, later, hsplit⟩ :=
      List.append_of_mem ((hordered.mem_classesIn_iff hc file).2 hfile)
    refine ⟨before, later, _, _, hsplit, rfl, ?_, ?_, fun _ _ _ => Class.hasPart_of_position?⟩
    · have hd := hordered.nodup_classesIn file
      rw [hsplit] at hd ⊢
      exact getElem?_foldl_annotating hd hc
    · refine (TypeSources.entries_deliveries _ c _ _).trans ?_
      rw [index_foldl_annotating]
      rfl

/-- A program with a class `p.C` that has a method `m()`, and an index that marks the method. -/
def marking : Injection :=
  { injector := .ofIndex (.of [⟨"p.C", "p", some (.method "m" ⟨[], .void⟩), .declaration,
      [⟨"Deprecated", [], .start⟩], .start⟩] [])
    program := Program.addFile {} "p" none
      [{ ClassDraft.ofName "C" .ordinary with methods := [.ofName "m"] }] }

/-- The names of the annotations on each method of a class. -/
def methodAnnotations (c : Class) : List (List String) :=
  c.methods.map fun method => method.annotations.map (·.typeName)

theorem injectFile_annotates_marking :
    marking.program.Reached ∧ 0 < marking.program.files.size ∧
      marking.injector.progress 0 = .unvisited ∧
      ∃ replaced after, (injectFile 0).run marking = .ok replaced after ∧
        after.program.classes[0]?.map methodAnnotations = some [["java.lang.Deprecated"]] := by
  have hp : marking.program.Reached := .addFile _ _ _ .empty
  have hf : 0 < marking.program.files.size := by decide +kernel
  have hv : marking.injector.progress 0 = .unvisited := rfl
  obtain ⟨replaced, after, hrun, -, -, -, hin⟩ := injectFile_annotates marking hp hf hv
  refine ⟨hp, hf, hv, replaced, after, hrun, ?_⟩
  obtain ⟨c, hc⟩ : ∃ c, marking.program.classes[0]? = some c := ⟨_, rfl⟩
  have hall : marking.program.classesIn 0 = [0] := by decide +kernel
  obtain ⟨before, later, deliveries, memo, hsplit, hbrings, hafter, -⟩ :=
    hin 0 c hc ((hp.ordered.mem_classesIn_iff hc 0).1 (by simp [hall]))
  have hbefore : before = [] := by
    rw [hall, List.singleton_eq_append_iff] at hsplit
    simp_all
  subst hbefore
  have heval : marking.program.classes[0]?.map (fun c =>
      methodAnnotations ((marking.marked 0 .working).annotated c)) =
        some [["java.lang.Deprecated"]] := by decide +kernel
  rw [hc, Option.map_some, annotated] at heval
  rw [hafter, Option.map_some, ← heval]
  exact congrArg (fun brought => some (methodAnnotations (c.adding (c.additions brought.1))))
    hbrings.symm

end Injection

end ExternalAnnotations
