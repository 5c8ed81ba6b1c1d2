import ExternalAnnotations.Proofs.Injection.Run
import ExternalAnnotations.Proofs.Resolution.Conversion

/-!
# Programs with further annotations

Names lead to the same classes in a program whose classes have further annotations. What is known
of its annotation types differs only in the retentions and targets. The work of an injector dresses
a program in this way, with what it delivers to each class.
-/

namespace ExternalAnnotations

/-- A program is another one with what deliveries bring to the class in each slot. -/
structure Program.Dressed (program dressed : Program) (deliveries : Slot → List Delivery) :
    Prop where
  files : dressed.files = program.files
  classes : ∀ slot : Slot, dressed.classes[slot]? =
    program.classes[slot]?.map fun c => c.adding (c.additions (deliveries slot))

/-- Annotations do not show in a part of a class. -/
def Unannotated {α : Type} (part : Class → α) : Prop :=
  ∀ c additions, part (Class.adding c additions) = part c

lemma any_map_id {α : Type} (found : Option α) (property : α → Bool) :
    (found.map property).any id = found.any property := by
  cases found <;> rfl

lemma filterMap_mapIdx_eq {α β : Type} (items : List α) (change : Nat → α → α) (f : α → Option β)
    (h : ∀ i a, f (change i a) = f a) : (items.mapIdx change).filterMap f = items.filterMap f := by
  induction items generalizing change with
  | nil => rfl
  | cons a items ih =>
    rw [List.mapIdx_cons, List.filterMap_cons, List.filterMap_cons, h, ih _ fun i b => h (i + 1) b]

lemma isNone_find? {α : Type} (items : List α) (p : α → Bool) :
    (items.find? p).isNone = (items.findIdx? p).isNone := by
  rw [Bool.eq_iff_iff, Option.isNone_iff_eq_none, Option.isNone_iff_eq_none, List.find?_eq_none,
    List.findIdx?_eq_none_iff]
  simp

lemma unannotated_isNone_field? (name : String) :
    Unannotated fun c => (c.field? name).isNone := by
  intro c additions
  have hfind := findIdx?_mapIdx_eq c.fields (fun i field => field.adding (additions (.field i)))
    (·.name == name) fun _ _ => rfl
  simp only [Class.field?, Class.adding, isNone_find?, hfind]

lemma elementOf?_adding (program : Program) (method : Method)
    (additions : Placement → List AnnotationInstance) :
    AnnotationType.elementOf? program (method.adding additions) =
      AnnotationType.elementOf? program method := by
  have htype : (method.adding additions).result.type = method.result.type :=
    TypeUse.type_adding _ _
  simp only [AnnotationType.elementOf?, htype]
  rfl

namespace Program.Dressed

variable {program dressed : Program} {deliveries : Slot → List Delivery}
  (h : program.Dressed dressed deliveries)
include h

lemma holds {property : Class → Bool} (hp : Unannotated property) :
    dressed.holds property = program.holds property := by
  funext slot
  rw [Program.holds, Program.holds, h.classes, Option.any_map]
  cases program.classes[slot]? with
  | none => rfl
  | some c => exact hp c _

lemma nested? : dressed.nested? = program.nested? := by
  funext outer name
  have hholds : dressed.holds (·.simpleName == name) = program.holds (·.simpleName == name) :=
    h.holds fun _ _ => rfl
  rw [Program.nested?, Program.nested?, h.classes, hholds]
  cases program.classes[outer]? <;> rfl

lemma topLevel? : dressed.topLevel? = program.topLevel? := by
  funext name
  have hholds : dressed.holds (·.binaryName == name) = program.holds (·.binaryName == name) :=
    h.holds fun _ _ => rfl
  rw [Program.topLevel?, Program.topLevel?, hholds, topLevel, topLevel, h.files]

lemma lookup? : dressed.lookup? = program.lookup? := by
  funext name
  rw [Program.lookup?, Program.lookup?, h.nested?, h.topLevel?]

lemma find? (name : String) : dressed.find? name =
    (program.lookup? name).bind fun slot =>
      program.classes[slot]?.map fun c => c.adding (c.additions (deliveries slot)) := by
  rw [Program.find?, h.lookup?]
  congr 1
  funext slot
  exact h.classes slot

lemma map_filter_find? {α : Type} {property : Class → Bool} (hp : Unannotated property)
    {part : Class → α} (hpart : Unannotated part) (name : String) :
    ((dressed.find? name).filter property).map part =
      ((program.find? name).filter property).map part := by
  rw [h.find?, Program.find?]
  cases hl : program.lookup? name with
  | none => rfl
  | some slot =>
    cases hc : program.classes[slot]? with
    | none => simp [hc]
    | some c => simp [hc, Option.filter, hp c, apply_ite, hpart c]

lemma map_find? {α : Type} {part : Class → α} (hpart : Unannotated part) (name : String) :
    (dressed.find? name).map part = (program.find? name).map part := by
  rw [h.find?, Program.find?]
  cases hl : program.lookup? name with
  | none => rfl
  | some slot =>
    cases hc : program.classes[slot]? with
    | none => simp [hc]
    | some c => simp [hc, hpart c]

lemma isSome_find? (name : String) :
    (dressed.find? name).isSome = (program.find? name).isSome := by
  have hunit : Unannotated fun _ => () := fun _ _ => rfl
  simpa using congrArg Option.isSome (h.map_find? hunit name)

lemma isAnnotationType : dressed.isAnnotationType = program.isAnnotationType := by
  funext name
  have hkind : Unannotated (·.isAnnotationType) := fun _ _ => rfl
  have hany := h.map_find? hkind name
  rw [Program.isAnnotationType, Program.isAnnotationType, ← any_map_id, hany, any_map_id]

lemma enumValue : dressed.enumValue = program.enumValue := by
  funext typeName written
  have henum : Unannotated fun c => c.kind == .enum := fun _ _ => rfl
  have hnamed : ∀ constant, (dressed.enumNamed? typeName).any (·.field? constant |>.isNone) =
      (program.enumNamed? typeName).any (·.field? constant |>.isNone) := by
    intro constant
    rw [← any_map_id, ← any_map_id (program.enumNamed? typeName), enumNamed?, enumNamed?,
      List.map_findSome?, List.map_findSome?]
    congr 2
    funext reading
    exact h.map_filter_find? henum (unannotated_isNone_field? constant) reading
  simp only [Program.enumValue, hnamed]

lemma elements_ofClass_adding (c : Class) (added : Additions) :
    (AnnotationType.ofClass dressed (c.adding added)).elements =
      (AnnotationType.ofClass program c).elements := by
  have hprogram : AnnotationType.elementOf? dressed = AnnotationType.elementOf? program := by
    funext method
    rw [AnnotationType.elementOf?, AnnotationType.elementOf?, h.isAnnotationType]
  change (c.adding added).methods.filterMap (AnnotationType.elementOf? dressed) = _
  rw [hprogram]
  exact filterMap_mapIdx_eq _ _ _ fun i method => elementOf?_adding program method _

lemma ofClass_adding {c : Class} {added : Additions}
    (hkept : AnnotationType.retentionOf (c.adding added).annotations =
      AnnotationType.retentionOf c.annotations) :
    (AnnotationType.ofClass dressed (c.adding added)).withoutTargets =
      (AnnotationType.ofClass program c).withoutTargets := by
  have helements := h.elements_ofClass_adding c added
  simp only [AnnotationType.ofClass] at helements
  simp only [AnnotationType.withoutTargets, AnnotationType.ofClass, hkept, helements]
  rfl

lemma annotationClass? (index : Index) (name : String) :
    (TypeSources.mk dressed index).annotationClass? name =
      (program.lookup? name).bind fun slot =>
        (program.classes[slot]?.filter (·.isAnnotationType)).map
          fun c => c.adding (c.additions (deliveries slot)) := by
  rw [TypeSources.annotationClass?, h.find?]
  cases hl : program.lookup? name with
  | none => rfl
  | some slot =>
    cases hc : program.classes[slot]? with
    | none => simp [hc]
    | some c =>
      have ha : ∀ added, (c.adding added).isAnnotationType = c.isAnnotationType := fun _ => rfl
      simp [hc, Option.filter, ha, apply_ite]

omit h in
lemma annotationClass?_eq (program : Program) (index : Index) (name : String) :
    (TypeSources.mk program index).annotationClass? name =
      (program.lookup? name).bind fun slot =>
      program.classes[slot]?.filter (·.isAnnotationType) := by
  rw [TypeSources.annotationClass?, Program.find?]
  cases program.lookup? name <;> rfl

lemma exists_of_annotationClass? (index : Index) {name : String} {c' : Class}
    (hc : (TypeSources.mk dressed index).annotationClass? name = some c') :
    ∃ (slot : Slot) (c : Class), program.classes[slot]? = some c ∧
      (TypeSources.mk program index).annotationClass? name = some c ∧
        c' = c.adding (c.additions (deliveries slot)) := by
  rw [h.annotationClass?, Option.bind_eq_some_iff] at hc
  obtain ⟨slot, hl, hc⟩ := hc
  obtain ⟨c, hbefore, rfl⟩ := Option.map_eq_some_iff.1 hc
  refine ⟨slot, c, (Option.filter_eq_some_iff.1 hbefore).1, ?_, rfl⟩
  rw [annotationClass?_eq, hl]
  exact hbefore

lemma sameNames (index : Index) : TypeSources.SameNames ⟨program, index⟩ ⟨dressed, index⟩ where
  index := rfl
  fullName := by
    funext package name
    simp only [TypeSources.fullName, h.isSome_find?]
  enumValue := h.enumValue
  annotationClass := by
    intro name
    rw [h.annotationClass?, annotationClass?_eq]
    cases program.lookup? name with
    | none => rfl
    | some slot =>
      change (Option.map _ (Option.filter _ program.classes[slot]?)).map _ = _
      rw [Option.map_map]
      exact congrArg (Option.map · _) (funext fun c => h.elements_ofClass_adding c _)

omit h in
lemma refl (program : Program) : program.Dressed program fun _ => [] := by
  refine ⟨rfl, fun slot => ?_⟩
  have hnone : ∀ c : Class, c.adding (c.additions []) = c := Class.adding_nil
  simp only [hnone, Option.map_id_fun', id]

/-- What is delivered to the classes decides what the program is. -/
lemma eq_of_deliveries_eq {other : Program} {deliveries' : Slot → List Delivery}
    (h' : program.Dressed other deliveries')
    (hsame : ∀ (slot : Slot) (c : Class), program.classes[slot]? = some c →
      deliveries' slot = deliveries slot) : other = dressed := by
  have hclasses : other.classes = dressed.classes := by
    apply Array.ext_getElem?
    intro slot
    rw [h.classes, h'.classes]
    cases hc : program.classes[slot]? with
    | none => rfl
    | some c => rw [hsame slot c hc]
  have hfiles := h'.files.trans h.files.symm
  cases hother : other
  cases hdressed : dressed
  simp_all

end Program.Dressed

/-! ### What an injector delivers -/

namespace Injection

/-- What the index brings to the class in a slot. -/
def bringsTo (injection : Injection) (slot : Slot) : List Delivery :=
  injection.program.classes[slot]?.elim [] fun c => (injection.brings c).1

lemma dressed_annotating {program : Program} {injection : Injection}
    {deliveries : Slot → List Delivery} (h : program.Dressed injection.program deliveries)
    (slot : Slot) :
    program.Dressed (injection.annotating slot).program
      (Function.update deliveries slot (deliveries slot ++ injection.bringsTo slot)) := by
  refine ⟨(files_annotating injection slot).trans h.files, fun other => ?_⟩
  by_cases hother : other = slot
  · subst hother
    have hclass := h.classes other
    rw [Function.update_self]
    cases hc : program.classes[other]? with
    | none =>
      rw [hc] at hclass
      rw [annotating, hclass]
      exact hclass
    | some c =>
      rw [hc] at hclass
      rw [getElem?_annotating_self hclass, bringsTo, hclass, annotated, Class.additions_adding,
        Class.adding_adding, ← Class.additions_append]
      rfl
  · rw [getElem?_annotating_of_ne _ (Ne.symm hother), Function.update_of_ne hother, h.classes]

end Injection

end ExternalAnnotations
