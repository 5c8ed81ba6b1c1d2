import ExternalAnnotations.Proofs.Injection.Visits
import ExternalAnnotations.Proofs.Program.Forest

/-!
# Programs built by entering, replacing and annotating

Whatever an injector is asked to do with a program, and in whatever state it is, it puts classes in
the place of others, and enters no files of its own. So what entering files and replacing classes
keep holds of every program that is built, and it is a forest.
-/

namespace ExternalAnnotations

open Relation

/-- Whether what a call enters into a program is as wanted. -/
def Call.Enters (wanted : String → List ClassDraft → Prop) : Call → Prop
  | addFile package _ drafts => wanted package drafts
  | visit _ | visitAll | makeHeaders _ _ => True

/-- A class of a program is put in the place of another. -/
def Program.Replaced (program next : Program) : Prop :=
  ∃ slot old new, program.replace slot new = .ok (old, next)

/-- The programs that come about when files are entered, classes are replaced, and injectors are at
work. -/
inductive Program.Built (wanted : String → List ClassDraft → Prop) : Program → Prop
  | empty : Built wanted {}
  | replace {program next : Program} : Built wanted program → program.Replaced next →
      Built wanted next
  | call {injection : Injection} {call : Call} : Built wanted injection.program →
      call.Enters wanted → Built wanted (injection.after call).program

/-! ### What injectors do to programs -/

namespace Injection

variable {α β : Type}

/-- Work that does nothing to a program but replace classes, also where it fails. -/
def OnlyReplaces (work : Working α) : Prop := ∀ injection,
  match work.run injection with
  | .ok _ next | .error _ next => ReflTransGen Program.Replaced injection.program next.program

namespace OnlyReplaces

lemma pure (a : α) : OnlyReplaces (Pure.pure a) := fun _ => .refl

lemma get : OnlyReplaces MonadState.get := fun _ => .refl

lemma throw (error : InjectionError) : OnlyReplaces (throw error : Working α) := fun _ => .refl

lemma bind {work : Working α} {next : α → Working β} (h : OnlyReplaces work)
    (hnext : ∀ a, OnlyReplaces (next a)) : OnlyReplaces (work >>= next) := by
  intro injection
  have hwork := h injection
  rw [EStateM.run_bind]
  cases hrun : work.run injection with
  | error error after =>
    rw [hrun] at hwork
    exact hwork
  | ok a after =>
    rw [hrun] at hwork
    have hafter := hnext a after
    dsimp only
    split <;> rename_i hresult <;> rw [hresult] at hafter <;> exact hwork.trans hafter

lemma setProgress (file : FileId) (progress : Progress) :
    OnlyReplaces (Injection.setProgress file progress) := fun _ => .refl

lemma resolving (work : TypeSources → Resolving α) : OnlyReplaces (Injection.resolving work) :=
  fun _ => .refl

lemma replace (slot : Slot) (c : Class) : OnlyReplaces (Injection.replace slot c) := by
  intro injection
  unfold Injection.replace EStateM.run
  dsimp only
  cases hreplace : injection.program.replace slot c with
  | error error => exact .refl
  | ok replaced => exact .single ⟨slot, replaced.1, c, hreplace⟩

lemma annotateSlot (slot : Slot) : OnlyReplaces (Injection.annotateSlot slot) := by
  refine get.bind fun injection => ?_
  split
  · exact pure 0
  · refine (resolving _).bind fun given => ?_
    split
    · exact pure 0
    · exact (replace _ _).bind fun _ => pure 1

lemma annotateSlots (slots : List Slot) : OnlyReplaces (Injection.annotateSlots slots) := by
  induction slots with
  | nil => exact pure 0
  | cons slot slots ih => exact (annotateSlot slot).bind fun _ => ih.bind fun _ => pure _

lemma collecting {work : Injection.Working α} (h : OnlyReplaces work) :
    OnlyReplaces (Injection.collecting work) := by
  intro injection
  have hwork := h injection
  cases hrun : work.run injection with
  | ok a next =>
    rw [hrun] at hwork
    rw [run_collecting_of_ok hrun]
    exact hwork
  | error error next =>
    rw [hrun] at hwork
    rw [run_collecting_of_error hrun]
    exact hwork

lemma annotateFile (file : FileId) : OnlyReplaces (Injection.annotateFile file) := by
  have hunvisited (slots : List Slot) : OnlyReplaces do
      Injection.setProgress file .working
      let replaced ← Injection.annotateSlots slots
      Injection.setProgress file .done
      return replaced :=
    (setProgress _ _).bind fun _ => (annotateSlots slots).bind fun _ =>
      (setProgress _ _).bind fun _ => pure _
  refine get.bind fun injection => ?_
  split <;> dsimp only <;> split
  · exact (throw _).bind fun _ => pure 0
  · exact pure 0
  · exact (throw _).bind fun _ => throw _
  · exact throw _
  · exact (throw _).bind fun _ => hunvisited _
  · exact hunvisited _

lemma injectFile (file : FileId) : OnlyReplaces (Injection.injectFile file) :=
  (annotateFile file).collecting

lemma injectFiles (files : List FileId) : OnlyReplaces (Injection.injectFiles files) := by
  induction files with
  | nil => exact pure 0
  | cons file files ih => exact (injectFile file).bind fun _ => ih.bind fun _ => pure _

lemma makeHeaders (options : HeaderOptions) (file : FileId) :
    OnlyReplaces (options.makeHeaders file) :=
  (injectFile file).bind fun _ => get.bind fun _ => pure _

end OnlyReplaces

lemma replaced_after {call : Call}
    (hcall : ∀ package path drafts, call ≠ .addFile package path drafts) (injection : Injection) :
    ReflTransGen Program.Replaced injection.program (injection.after call).program := by
  have hwork : OnlyReplaces call.work := by
    cases call with
    | addFile package path drafts => exact absurd rfl (hcall package path drafts)
    | visit file => exact (OnlyReplaces.injectFile file).bind fun _ => .pure ()
    | visitAll => exact (OnlyReplaces.get.bind fun _ => .injectFiles _).bind fun _ => .pure ()
    | makeHeaders options file =>
      exact (OnlyReplaces.makeHeaders options file).bind fun _ => .pure ()
  have hafter := hwork injection
  unfold after
  split <;> rename_i hresult <;> rw [hresult] at hafter <;> exact hafter

end Injection

namespace Program

variable {wanted : String → List ClassDraft → Prop} {program : Program}

lemma Built.addFile (h : program.Built wanted) {package : String} (path : Option String)
    {drafts : List ClassDraft} (hwanted : wanted package drafts) :
    (program.addFile package path drafts).Built wanted :=
  @Built.call wanted ⟨.ofIndex {}, program⟩ (.addFile package path drafts) h hwanted

/-- What holds of the empty program and is kept where files are entered and classes are replaced
holds of every program that is built. -/
lemma Built.induction {property : Program → Prop} (hempty : property {})
    (hadd : ∀ program package path drafts, property program → wanted package drafts →
      property (program.addFile package path drafts))
    (hreplace : ∀ program next, property program → program.Replaced next → property next)
    (h : program.Built wanted) : property program := by
  have hmany : ∀ {program next : Program}, property program →
      ReflTransGen Replaced program next → property next := by
    intro program next hprogram hnext
    induction hnext with
    | refl => exact hprogram
    | tail _ hstep ih => exact hreplace _ _ ih hstep
  induction h with
  | empty => exact hempty
  | replace _ hr ih => exact hreplace _ _ ih hr
  | @call injection call _ henters ih =>
    by_cases hcall : ∃ package path drafts, call = .addFile package path drafts
    · obtain ⟨package, path, drafts, rfl⟩ := hcall
      exact hadd _ package path drafts ih henters
    · refine hmany ih (Injection.replaced_after (fun package path drafts heq => ?_) injection)
      exact hcall ⟨package, path, drafts, heq⟩

lemma Built.toForest {nested : List String → Prop} {rooted : String → List String → Prop}
    (hwanted : ∀ package drafts, wanted package drafts →
      rooted package (drafts.map (·.simpleName)) ∧ ClassDraft.AllNestNamed nested drafts)
    (h : program.Built wanted) : program.Forest nested rooted := by
  refine h.induction forest_empty ?_ ?_
  · intro program package path drafts hforest henter
    obtain ⟨hroots, hnested⟩ := hwanted package drafts henter
    exact hforest.addFile path hroots hnested
  · rintro program next hforest ⟨slot, old, new, hr⟩
    exact hforest.replace hr

/-- **The forest of classes.** Going down from the top-level classes of each file, file by file,
gives the slots in their order, and leaves out no nested class. The classes nested in a class are
those that know it as the class around them. They come after it, are in the same file, and are named
after it, with a simple name that is a nested class's simple name in a file that was entered. -/
theorem Built.forest {named : String → Prop} (h : program.Built fun _ drafts =>
      ClassDraft.AllNestNamed (fun simples => ∀ simple ∈ simples, named simple) drafts) :
    (List.range program.files.size).flatMap program.classesIn = List.range program.classes.size ∧
    (∀ (slot : Slot) c, program.classes[slot]? = some c →
      program.withNested slot = slot :: c.nested.flatMap program.withNested) ∧
    (∀ outer slot, slot ∈ program.nestedIn outer ↔
      ∃ d, program.classes[slot]? = some d ∧ d.enclosing = some outer) ∧
    (∀ (outer slot : Slot) d, program.classes[slot]? = some d → d.enclosing = some outer →
      outer < slot ∧ ∃ c simple, program.classes[outer]? = some c ∧ d.file = c.file ∧
        named simple ∧ d.binaryName = nestedName c.binaryName simple) ∧
    ∀ file slot, slot ∈ program.classesIn file →
      ∃ c, program.classes[slot]? = some c ∧ c.file = file := by
  have hforest : program.Forest (fun simples => ∀ simple ∈ simples, named simple)
      (fun _ _ => True) := h.toForest fun _ _ hnamed => ⟨trivial, hnamed⟩
  refine ⟨hforest.listed, fun _ _ => hforest.withNested_eq_cons,
    fun _ _ => hforest.mem_nestedIn_iff, ?_, ?_⟩
  · intro outer slot d hd henclosing
    have hnested := hforest.mem_nestedIn_iff.2 ⟨d, hd, henclosing⟩
    obtain ⟨c, d', simples, hc, hd', hfile, -, hnamed, simple, hsimple, hname⟩ :=
      hforest.exists_of_nested hnested
    obtain rfl := Option.some.inj (hd.symm.trans hd')
    exact ⟨(hforest.toClosed.nested outer slot hnested).1, c, simple, hc, hfile,
      hnamed simple hsimple, hname⟩
  · intro file slot hslot
    obtain ⟨c, hc⟩ := hforest.toOrdered.exists_of_mem_classesIn hslot
    exact ⟨c, hc, hforest.inFile file slot c hslot hc⟩

/-- An injector for a class `p.A` that has `B` nested in it, and that again `C`. -/
def threeDeep : Injection :=
  { injector := .ofIndex (.of [⟨"p.A$B", "p", none, .declaration, [⟨"Deprecated", [], .start⟩],
      .start⟩] [])
    program := Program.addFile {} "p" none [{ ClassDraft.ofName "A" .ordinary with
      nested := [{ ClassDraft.ofName "B" .ordinary with
        nested := [ClassDraft.ofName "C" .ordinary] }] }] }

theorem Built.forest_threeDeep :
    let program := (threeDeep.after (.visit 0)).program
    (program.Built fun _ drafts => ClassDraft.AllNestNamed
      (fun simples => ∀ simple ∈ simples, simple ∈ ["B", "C"]) drafts) ∧
    (List.range program.files.size).flatMap program.classesIn = [0, 1, 2] ∧
    ∃ d, program.classes[2]? = some d ∧ d.enclosing = some 1 ∧ 2 ∈ program.nestedIn 1 ∧
      ∃ c, ∃ simple ∈ ["B", "C"], program.classes[1]? = some c ∧ c.annotations.length = 1 ∧
        d.binaryName = nestedName c.binaryName simple := by
  intro program
  have hbuilt : program.Built fun _ drafts => ClassDraft.AllNestNamed
      (fun simples => ∀ simple ∈ simples, simple ∈ ["B", "C"]) drafts := by
    refine .call (Built.empty.addFile none ?_) trivial
    simp [ClassDraft.AllNestNamed, ClassDraft.NestsNamed, ClassDraft.ofName]
  obtain ⟨hlisted, -, hnested, hnames, -⟩ := Built.forest hbuilt
  have hsize : program.classes.size = 3 := by decide +kernel
  have hd : program.classes[2]?.any (·.enclosing == some 1) = true := by decide +kernel
  have hc : program.classes[1]?.any (·.annotations.length == 1) = true := by decide +kernel
  obtain ⟨d, hd, henclosing⟩ := (Option.any_eq_true _ _).1 hd
  obtain ⟨c', hc', hannotations⟩ := (Option.any_eq_true _ _).1 hc
  have henclosing : d.enclosing = some 1 := eq_of_beq henclosing
  obtain ⟨-, c, simple, hc, -, hsimple, hname⟩ := hnames 1 2 d hd henclosing
  obtain rfl := Option.some.inj (hc.symm.trans hc')
  have hinner := (hnested 1 2).2 ⟨d, hd, henclosing⟩
  refine ⟨hbuilt, ?_, d, hd, henclosing, hinner, c, simple, hsimple, hc, eq_of_beq hannotations,
    hname⟩
  rw [hlisted, hsize]
  rfl

end Program

end ExternalAnnotations
