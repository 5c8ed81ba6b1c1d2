import ExternalAnnotations.Proofs.Header.References
import ExternalAnnotations.Proofs.Program.Replacement

/-!
# Decisions of the source

Annotations of the source decide about reflection, selectors and nullability. Those that an index
brings are put behind them, in every call of an injector, and the first annotation that fits
decides. So what the source has decided stays, and what the class refers to.
-/

namespace ExternalAnnotations

/-! ### Annotations put behind others -/

lemma TypeUse.prefix_adding (use : TypeUse) (annotations : List AnnotationInstance) :
    use.annotations <+: (use.adding annotations).annotations := by
  unfold adding
  split
  · exact List.prefix_append _ _
  · exact List.prefix_rfl

lemma Method.prefix_annotationsAt_adding (method : Method)
    (additions : Placement → List AnnotationInstance) (placement : Placement) :
    method.annotationsAt placement <+: (method.adding additions).annotationsAt placement := by
  cases placement with
  | declaration => exact List.prefix_append _ _
  | returnType => exact TypeUse.prefix_adding _ _
  | parameter i =>
    cases hi : method.parameters[i]? <;> simp [annotationsAt, adding, Parameter.adding, hi]
  | parameterType i =>
    cases hi : method.parameters[i]? <;>
      simp [annotationsAt, adding, Parameter.adding, TypeUse.prefix_adding, hi]
  | fieldType => exact List.prefix_rfl

lemma Field.prefix_annotationsAt_adding (field : Field)
    (additions : Placement → List AnnotationInstance) (placement : Placement) :
    field.annotationsAt placement <+: (field.adding additions).annotationsAt placement := by
  cases placement with
  | declaration => exact List.prefix_append _ _
  | fieldType => exact TypeUse.prefix_adding _ _
  | returnType | parameter | parameterType => exact List.prefix_rfl

lemma Class.prefix_annotationsAt_adding (c : Class) (additions : Additions) (placement : Placement)
    (position : Position) :
    c.annotationsAt placement position <+:
      (c.adding additions).annotationsAt placement position := by
  cases position with
  | classItself => by_cases h : placement = .declaration <;> simp [annotationsAt, adding, h]
  | method i =>
    cases hi : c.methods[i]? <;>
      simp [annotationsAt, adding, Method.prefix_annotationsAt_adding, hi]
  | field i =>
    cases hi : c.fields[i]? <;>
      simp [annotationsAt, adding, Field.prefix_annotationsAt_adding, hi]

lemma Class.annotation?_adding {c : Class} {site : Site} {inner : AnnotationInstance}
    (h : c.annotation? site = some inner) (additions : Additions) :
    (c.adding additions).annotation? site = some inner := by
  obtain ⟨more, hmore⟩ := c.prefix_annotationsAt_adding additions site.placement site.position
  have hlt := (List.getElem?_eq_some_iff.1 h).1
  rw [annotation?, ← hmore, List.getElem?_append_left hlt]
  exact h

lemma Class.Keeps.adding {c : Class} {site : Site} {name : String} (h : c.Keeps site name)
    (additions : Additions) : (c.adding additions).Keeps site name := by
  obtain ⟨inner, hinner, hkept, hname⟩ := h
  exact ⟨inner, annotation?_adding hinner additions, hkept, hname⟩

/-! ### What the first annotation that fits decides -/

/-- The annotations on a type say whether a reference can be null. -/
def TypeUse.Decides (use : TypeUse) : Prop :=
  ∃ inner ∈ use.annotations, (Nullability.ofInstance? inner).isSome

/-- What annotations on a method decide is decided alike for another method. -/
structure Method.DecidedAlike (method annotated : Method) : Prop where
  selector : (∃ inner ∈ method.annotations, inner.typeName = selectorAnnotationName) →
    annotated.givenSelector? = method.givenSelector?
  result : method.result.Decides → annotated.nullability? = method.nullability?
  parameters : List.Forall₂ (fun parameter annotated : Parameter =>
    parameter.type.Decides → annotated.nullability? = parameter.nullability?)
      method.parameters annotated.parameters

/-- What annotations on a class decide is decided alike for one that differs in annotations only. -/
structure Class.DecidedAlike (c annotated : Class) : Prop where
  bare : annotated.bare = c.bare
  reflection : (∃ inner ∈ c.annotations, inner.typeName = reflectionAnnotationName) →
    annotated.reflectionLevel? = c.reflectionLevel?
  methods : List.Forall₂ Method.DecidedAlike c.methods annotated.methods
  fields : List.Forall₂ (fun field annotated : Field =>
    field.type.Decides → annotated.nullability? = field.nullability?) c.fields annotated.fields
  references : c.runtimeReferences ⊆ annotated.runtimeReferences

lemma AnnotationInstance.find?_append {annotations : List AnnotationInstance} {typeName : String}
    (h : ∃ inner ∈ annotations, inner.typeName = typeName) (more : List AnnotationInstance) :
    find? (annotations ++ more) typeName = find? annotations typeName := by
  have hsome : (annotations.find? (·.typeName == typeName)).isSome := by
    obtain ⟨inner, hinner, hname⟩ := h
    exact List.find?_isSome.2 ⟨inner, hinner, beq_iff_eq.2 hname⟩
  obtain ⟨inner, hinner⟩ := Option.isSome_iff_exists.1 hsome
  rw [find?, find?, List.find?_append, hinner, Option.some_or]

lemma TypeUse.nullability?_adding {use : TypeUse} (h : use.Decides)
    (annotations declared declared' : List AnnotationInstance) :
    (use.adding annotations).nullability? declared' = use.nullability? declared := by
  have hsome : (use.annotations.findSome? Nullability.ofInstance?).isSome := by
    obtain ⟨inner, hinner, hsays⟩ := h
    exact List.findSome?_isSome_iff.2 ⟨inner, hinner, hsays⟩
  obtain ⟨decided, hdecided⟩ := Option.isSome_iff_exists.1 hsome
  by_cases hreference : use.type.isReference
  · simp [nullability?, adding, hreference, List.findSome?_append, hdecided]
  · simp [nullability?, adding, hreference]

lemma Method.decidedAlike_adding (method : Method)
    (additions : Placement → List AnnotationInstance) :
    method.DecidedAlike (method.adding additions) where
  selector := by
    intro h
    have hfind := AnnotationInstance.find?_append h (additions .declaration)
    simp only [givenSelector?, adding, hfind]
  result := by
    intro h
    have hresult := TypeUse.nullability?_adding h (additions .returnType) method.annotations
      (method.annotations ++ additions .declaration)
    unfold nullability?
    rw [← hresult]
    rfl
  parameters := by
    rw [List.forall₂_iff_get]
    refine ⟨by simp [adding], ?_⟩
    intro i hi hi' h
    simp only [List.get_eq_getElem, adding, List.getElem_mapIdx]
    exact TypeUse.nullability?_adding h _ _ _

lemma map_mapIdx_eq {α β : Type} {items : List α} {change : Nat → α → α} {f : α → β}
    (h : ∀ i a, f (change i a) = f a) : (items.mapIdx change).map f = items.map f := by
  apply List.ext_getElem <;> simp [h]

@[simp] lemma TypeUse.bare_adding (use : TypeUse) (annotations : List AnnotationInstance) :
    (use.adding annotations).bare = use.bare := by
  rw [bare, bare, type_adding]

lemma Method.bare_adding (method : Method) (additions : Placement → List AnnotationInstance) :
    (method.adding additions).bare = method.bare := by
  have hparameters : (method.adding additions).parameters.map (·.bare) =
      method.parameters.map (·.bare) := by
    apply map_mapIdx_eq
    intro i parameter
    simp only [Parameter.bare, Parameter.adding, TypeUse.bare_adding]
  have hresult : (method.adding additions).result.bare = method.result.bare :=
    TypeUse.bare_adding _ _
  rw [bare, bare, hparameters, hresult]
  rfl

lemma Class.bare_adding (c : Class) (additions : Additions) :
    (c.adding additions).bare = c.bare := by
  have hmethods : (c.adding additions).methods.map (·.bare) = c.methods.map (·.bare) :=
    map_mapIdx_eq fun _ method => method.bare_adding _
  have hfields : (c.adding additions).fields.map (·.bare) = c.fields.map (·.bare) := by
    apply map_mapIdx_eq
    intro i field
    simp only [Field.bare, Field.adding, TypeUse.bare_adding]
  rw [bare, bare, hmethods, hfields]
  rfl

/-- Annotations behind those that are there change no decision. -/
lemma Class.decidedAlike_adding (c : Class) (additions : Additions) :
    c.DecidedAlike (c.adding additions) where
  bare := c.bare_adding additions
  reflection := by
    intro h
    have hfind := AnnotationInstance.find?_append h (additions .classItself .declaration)
    simp only [reflectionLevel?, adding, hfind]
  methods := by
    rw [List.forall₂_iff_get]
    refine ⟨by simp [adding], ?_⟩
    intro i hi hi'
    simp only [List.get_eq_getElem, adding, List.getElem_mapIdx]
    exact Method.decidedAlike_adding _ _
  fields := by
    rw [List.forall₂_iff_get]
    refine ⟨by simp [adding], ?_⟩
    intro i hi hi' h
    simp only [List.get_eq_getElem, adding, List.getElem_mapIdx]
    exact TypeUse.nullability?_adding h _ _ _
  references := by
    intro reference hreference
    have hmade := c.needs_runtimeReferences.made reference hreference
    obtain ⟨site, hsite⟩ := mem_typeNames_iff.1 (List.mem_map_of_mem hreference)
    obtain ⟨other, hother, hname⟩ :=
      List.mem_map.1 (mem_typeNames_iff.2 ⟨site, hsite.adding additions⟩)
    have hmade' := (c.adding additions).needs_runtimeReferences.made other hother
    rw [hmade, ← hname, ← hmade']
    exact hother

/-! ### Programs that grow -/

/-- The classes of a program are all there, perhaps with further annotations. -/
def Program.GrowsTo (program next : Program) : Prop :=
  ∀ (slot : Slot) (c : Class), program.classes[slot]? = some c →
    ∃ additions, next.classes[slot]? = some (c.adding additions)

lemma Program.GrowsTo.refl (program : Program) : program.GrowsTo program := by
  intro slot c hc
  exact ⟨fun _ _ => [], by rw [hc, Class.adding_nil]⟩

lemma Program.GrowsTo.trans {first second third : Program} (h : first.GrowsTo second)
    (h' : second.GrowsTo third) : first.GrowsTo third := by
  intro slot c hc
  obtain ⟨additions, hnext⟩ := h slot c hc
  obtain ⟨more, hlast⟩ := h' slot _ hnext
  rw [Class.adding_adding] at hlast
  exact ⟨_, hlast⟩

lemma Program.growsTo_addFile (program : Program) (package : String) (path : Option String)
    (drafts : List ClassDraft) : program.GrowsTo (program.addFile package path drafts) := by
  intro slot c hc
  have hlt := (Array.getElem?_eq_some_iff.1 hc).1
  refine ⟨fun _ _ => [], ?_⟩
  rw [Class.adding_nil, getElem?_classes_addFile_of_lt _ _ _ _ hlt, hc]

namespace Injection

/-- Work under which the program grows, also where the work fails. -/
def Growing {α : Type} (work : Working α) : Prop :=
  ∀ injection : Injection, match work.run injection with
    | .ok _ next | .error _ next => injection.program.GrowsTo next.program

section

variable {α β : Type}

lemma growing_pure (a : α) : Growing (pure a) := fun injection => .refl injection.program

lemma growing_throw (error : InjectionError) : Growing (throw error : Working α) :=
  fun injection => .refl injection.program

lemma growing_throw_bind (error : InjectionError) (further : α → Working β) :
    Growing (throw error >>= further) := fun injection => .refl injection.program

lemma growing_get : Growing (get : Working Injection) := fun injection => .refl injection.program

lemma Growing.bind {work : Working α} {further : α → Working β} (h : Growing work)
    (hfurther : ∀ a, Growing (further a)) : Growing (work >>= further) := by
  intro injection
  have hwork := h injection
  rw [EStateM.run_bind]
  cases hrun : work.run injection with
  | error error next =>
    rw [hrun] at hwork
    exact hwork
  | ok a next =>
    rw [hrun] at hwork
    have hlast := hfurther a next
    change match (further a).run next with
      | .ok _ last | .error _ last => injection.program.GrowsTo last.program
    cases hrun' : (further a).run next with
    | error error last =>
      rw [hrun'] at hlast
      exact hwork.trans hlast
    | ok b last =>
      rw [hrun'] at hlast
      exact hwork.trans hlast

lemma Growing.collecting {work : Working α} (h : Growing work) : Growing (collecting work) := by
  intro injection
  have hwork := h injection
  cases hrun : work.run injection with
  | error error next =>
    rw [hrun] at hwork
    rw [run_collecting_of_error hrun]
    exact hwork
  | ok a next =>
    rw [hrun] at hwork
    rw [run_collecting_of_ok hrun]
    exact hwork

end

lemma growsTo_annotating (injection : Injection) (slot : Slot) :
    injection.program.GrowsTo (injection.annotating slot).program := by
  intro other c hc
  by_cases hother : slot = other
  · subst hother
    exact ⟨_, getElem?_annotating_self hc⟩
  · refine ⟨fun _ _ => [], ?_⟩
    rw [getElem?_annotating_of_ne _ hother, hc, Class.adding_nil]

lemma growing_annotateSlot (slot : Slot) : Growing (annotateSlot slot) := by
  intro injection
  obtain ⟨replaced, hrun⟩ := run_annotateSlot slot injection
  rw [hrun]
  exact injection.growsTo_annotating slot

lemma growing_annotateSlots (slots : List Slot) : Growing (annotateSlots slots) := by
  induction slots with
  | nil => exact growing_pure 0
  | cons slot slots ih =>
    apply (growing_annotateSlot slot).bind
    intro replaced
    exact ih.bind fun _ => growing_pure _

lemma growing_setProgress (file : FileId) (progress : Progress) :
    Growing (setProgress file progress) := fun injection => .refl injection.program

lemma growing_annotateFile (file : FileId) : Growing (annotateFile file) := by
  unfold annotateFile
  apply growing_get.bind
  intro injection
  by_cases hf : injection.program.files.size ≤ file
  · simp only [hf, if_true]
    split <;> exact growing_throw_bind _ _
  · simp only [hf, if_false]
    split
    · exact growing_pure 0
    · exact growing_throw _
    · apply (growing_setProgress file .working).bind
      intro _
      apply (growing_annotateSlots _).bind
      intro replaced
      exact (growing_setProgress file .done).bind fun _ => growing_pure replaced

lemma growing_injectFile (file : FileId) : Growing (injectFile file) :=
  (growing_annotateFile file).collecting

lemma growing_injectFiles (files : List FileId) : Growing (injectFiles files) := by
  induction files with
  | nil => exact growing_pure 0
  | cons file files ih =>
    apply (growing_injectFile file).bind
    intro replaced
    exact ih.bind fun _ => growing_pure _

/-- Whatever is asked of an injector, its program grows. -/
lemma growing_work (call : Call) : Growing call.work := by
  cases call with
  | addFile package path drafts =>
    exact fun injection => injection.program.growsTo_addFile package path drafts
  | visit file => exact (growing_injectFile file).bind fun _ => growing_pure ()
  | visitAll =>
    apply Growing.bind
    · exact growing_get.bind fun injection => growing_injectFiles _
    · exact fun _ => growing_pure ()
  | makeHeaders options file =>
    apply Growing.bind
    · apply (growing_injectFile file).bind
      intro replaced
      exact growing_get.bind fun _ => growing_pure _
    · exact fun _ => growing_pure ()

lemma growsTo_after (injection : Injection) (call : Call) :
    injection.program.GrowsTo (injection.after call).program := by
  have hwork := growing_work call injection
  unfold after
  split <;> simp_all

lemma growsTo_afterAll (injection : Injection) (calls : List Call) :
    injection.program.GrowsTo (injection.afterAll calls).program := by
  induction calls generalizing injection with
  | nil => exact .refl _
  | cons call calls ih => exact (injection.growsTo_after call).trans (ih _)

/-- **Decisions of the source.** After a file is annotated, and after whatever is asked of the
injector then, every class is what it was but for annotations. If its own annotations ask for
reflection, a method's for a selector, or those on a type say whether a reference can be null, then
this is answered as before. The types that the class had to refer to are still among those that it
refers to. -/
theorem injectFile_keeps_decisions (injection : Injection) {file : FileId}
    (hf : file < injection.program.files.size)
    (hw : injection.injector.progress file ≠ .working) :
    ∃ replaced after, (injectFile file).run injection = .ok replaced after ∧
      ∀ (slot : Slot) (c : Class), injection.program.classes[slot]? = some c →
        ∀ calls : List Call, ∃ annotated,
          (after.afterAll calls).program.classes[slot]? = some annotated ∧
            c.DecidedAlike annotated := by
  obtain ⟨replaced, after, hrun⟩ := exists_run_injectFile hf hw
  refine ⟨replaced, after, hrun, ?_⟩
  intro slot c hc calls
  have hvisit := injection.growsTo_after (.visit file)
  rw [after_visit_of_ok hrun] at hvisit
  obtain ⟨additions, hannotated⟩ := hvisit.trans (growsTo_afterAll _ calls) slot c hc
  exact ⟨_, hannotated, c.decidedAlike_adding additions⟩

/-- The source asks for reflection and gives a method a selector, and the index does so too. -/
def contested : Injection :=
  { injector := .ofIndex (.of
      [⟨"p.C", "p", none, .declaration, [⟨reflectionAnnotationName, [], .start⟩], .start⟩,
        ⟨"p.C", "p", some (.method "testRun" ⟨[], .void⟩), .declaration,
          [⟨selectorAnnotationName, [], .start⟩], .start⟩] [])
    program := Program.addFile {} "p" none
      [{ ClassDraft.ofName "C" .ordinary with
        annotations := [⟨reflectionAnnotationName,
          [("value", .enum "com.google.j2objc.annotations.ReflectionSupport$Level" "FULL")],
          .runtime⟩]
        methods := [{ Method.ofName "testRun" with
          annotations := [⟨selectorAnnotationName, [("value", .string "run")], .runtime⟩] }] }] }

theorem injectFile_keeps_decisions_contested :
    0 < contested.program.files.size ∧ contested.injector.progress 0 ≠ .working ∧
      ∃ replaced after annotated, (injectFile 0).run contested = .ok replaced after ∧
        after.program.classes[0]? = some annotated ∧
        annotated.annotations.length = 2 ∧ annotated.reflectionLevel? = some .full ∧
        annotated.methods.map (·.annotations.length) = [2] ∧
        annotated.methods.map (·.givenSelector?) = [some "run"] := by
  have hf : 0 < contested.program.files.size := by decide +kernel
  have hw : contested.injector.progress 0 ≠ .working := by decide
  obtain ⟨replaced, after, hrun, hkeeps⟩ := injectFile_keeps_decisions contested hf hw
  obtain ⟨c, hc⟩ : ∃ c, contested.program.classes[0]? = some c := ⟨_, rfl⟩
  obtain ⟨annotated, hannotated, halike⟩ := hkeeps 0 c hc []
  replace hannotated : after.program.classes[0]? = some annotated := hannotated
  have hsource : contested.program.classes[0]?.map (fun c =>
      (c.annotations.map (·.typeName), c.reflectionLevel?, c.methods.map fun method =>
        (method.annotations.map (·.typeName), method.givenSelector?))) =
      some ([reflectionAnnotationName], some .full, [([selectorAnnotationName], some "run")]) := by
    decide +kernel
  have hcounts : ((injectFile 0 *> get).run' contested).bind (fun after =>
      after.program.classes[0]?.map fun c =>
        (c.annotations.length, c.methods.map (·.annotations.length))) = some (2, [2]) := by
    decide +kernel
  rw [hc, Option.map_some, Option.some.injEq, Prod.mk.injEq, Prod.mk.injEq] at hsource
  obtain ⟨hnames, hlevel, hmethods⟩ := hsource
  obtain ⟨inner, _, hannotations, hname, -⟩ := List.map_eq_cons_iff.1 hnames
  obtain ⟨method, _, hmethods, hmethod, hnil⟩ := List.map_eq_cons_iff.1 hmethods
  obtain rfl := List.map_eq_nil_iff.1 hnil
  obtain ⟨hselectors, hselector⟩ := Prod.mk.inj hmethod
  obtain ⟨given, _, hgiven, hgivenName, -⟩ := List.map_eq_cons_iff.1 hselectors
  -- the methods before and after are one and one
  have hpaired := halike.methods
  rw [hmethods, List.forall₂_cons_left_iff] at hpaired
  obtain ⟨method', _, hsame, hrest, hmethods'⟩ := hpaired
  obtain rfl := List.forall₂_nil_left_iff.1 hrest
  have hafter : (injectFile 0 *> get).run' contested = some after := by
    unfold EStateM.run'
    rw [seqRight_eq_bind, EStateM.run_bind, hrun]
    rfl
  rw [hafter, Option.bind_some, hannotated, Option.map_some, Option.some.injEq,
    Prod.mk.injEq] at hcounts
  refine ⟨hf, hw, replaced, after, annotated, hrun, hannotated, hcounts.1, ?_, hcounts.2, ?_⟩
  · rw [halike.reflection ⟨inner, by simp [hannotations], hname⟩, hlevel]
  · rw [hmethods', List.map_singleton, hsame.selector ⟨given, by simp [hgiven], hgivenName⟩,
      hselector]

end Injection

end ExternalAnnotations
