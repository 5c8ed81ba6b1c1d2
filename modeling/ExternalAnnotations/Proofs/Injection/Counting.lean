import ExternalAnnotations.Proofs.Index.Answers
import ExternalAnnotations.Proofs.Injection.Run

/-!
# Counting changes

The injector counts the classes that it replaces. If every entry brings an annotation, these are
the classes that change: the number of annotations on a class grows with each entry that reaches it.
-/

namespace ExternalAnnotations

/-! ### Numbers of annotations -/

def Parameter.weight (parameter : Parameter) : Nat :=
  parameter.annotations.length + parameter.type.annotations.length

def Method.weight (method : Method) : Nat :=
  method.annotations.length + method.result.annotations.length +
    (method.parameters.map Parameter.weight).sum

def Field.weight (field : Field) : Nat :=
  field.annotations.length + field.type.annotations.length

/-- The number of annotations on all parts of a class. -/
def Class.weight (c : Class) : Nat :=
  c.annotations.length + (c.methods.map Method.weight).sum + (c.fields.map Field.weight).sum

section

variable {annotations : List AnnotationInstance} {placement : Placement}

lemma sum_replaceAt? {α : Type} {weight : α → Nat} {change : α → Option α} {more : Nat}
    (hchange : ∀ a b, change a = some b → weight b = weight a + more) {items items' : List α}
    {i : Nat} (h : replaceAt? items i change = some items') :
    (items'.map weight).sum = (items.map weight).sum + more := by
  simp only [replaceAt?, Option.bind_eq_bind, Option.bind_eq_some_iff] at h
  obtain ⟨a, ha, b, hb, h⟩ := h
  obtain rfl := Option.some.inj h
  have hweight := hchange a b hb
  clear h hb
  induction items generalizing i with
  | nil => contradiction
  | cons first items ih =>
    cases i with
    | zero =>
      obtain rfl : first = a := Option.some.inj ha
      rw [List.set_cons_zero, List.map_cons, List.map_cons, List.sum_cons, List.sum_cons, hweight]
      omega
    | succ i =>
      rw [List.set_cons_succ, List.map_cons, List.map_cons, List.sum_cons, List.sum_cons, ih ha]
      omega

lemma TypeUse.length_attach? {use use' : TypeUse} (h : use.attach? annotations = some use') :
    use'.annotations.length = use.annotations.length + annotations.length := by
  unfold attach? at h
  split at h
  · obtain rfl := Option.some.inj h
    exact List.length_append
  · contradiction

lemma Parameter.weight_attachToType? {parameter parameter' : Parameter}
    (h : parameter.attachToType? annotations = some parameter') :
    parameter'.weight = parameter.weight + annotations.length := by
  obtain ⟨type, htype, h⟩ := Option.bind_eq_some_iff.1 h
  obtain rfl := Option.some.inj h
  simp only [weight, TypeUse.length_attach? htype]
  omega

lemma Method.weight_attach? {method method' : Method}
    (h : method.attach? annotations placement = some method') :
    method'.weight = method.weight + annotations.length := by
  cases placement with
  | declaration =>
    obtain rfl := Option.some.inj h
    simp only [weight, List.length_append]
    omega
  | returnType =>
    obtain ⟨result, hresult, h⟩ := Option.bind_eq_some_iff.1 h
    obtain rfl := Option.some.inj h
    simp only [weight, TypeUse.length_attach? hresult]
    omega
  | parameter i =>
    obtain ⟨parameters, hparameters, h⟩ := Option.bind_eq_some_iff.1 h
    obtain rfl := Option.some.inj h
    have hone : ∀ parameter parameter' : Parameter,
        some (parameter.attach annotations) = some parameter' →
          parameter'.weight = parameter.weight + annotations.length := by
      intro parameter parameter' heq
      obtain rfl := Option.some.inj heq
      simp only [Parameter.attach, Parameter.weight, List.length_append]
      omega
    have hsum : (parameters.map Parameter.weight).sum = _ := sum_replaceAt? hone hparameters
    simp only [weight, hsum]
    omega
  | parameterType i =>
    obtain ⟨parameters, hparameters, h⟩ := Option.bind_eq_some_iff.1 h
    obtain rfl := Option.some.inj h
    have hsum : (parameters.map Parameter.weight).sum = _ :=
      sum_replaceAt? (fun a b => Parameter.weight_attachToType?) hparameters
    simp only [weight, hsum]
    omega
  | fieldType => contradiction

lemma Field.weight_attach? {field field' : Field}
    (h : field.attach? annotations placement = some field') :
    field'.weight = field.weight + annotations.length := by
  cases placement with
  | declaration =>
    obtain rfl := Option.some.inj h
    simp only [weight, List.length_append]
    omega
  | fieldType =>
    obtain ⟨type, htype, h⟩ := Option.bind_eq_some_iff.1 h
    obtain rfl := Option.some.inj h
    simp only [weight, TypeUse.length_attach? htype]
    omega
  | returnType | parameter | parameterType => contradiction

lemma Class.weight_attach? {c c' : Class} {position : Position}
    (h : c.attach? placement annotations position = some c') :
    c'.weight = c.weight + annotations.length := by
  cases position with
  | classItself =>
    change (if placement = .declaration then _ else _) = some c' at h
    split at h
    · obtain rfl := Option.some.inj h
      simp only [weight, List.length_append]
      omega
    · contradiction
  | method i =>
    obtain ⟨methods, hmethods, h⟩ := Option.bind_eq_some_iff.1 h
    obtain rfl := Option.some.inj h
    have hsum : (methods.map Method.weight).sum = _ :=
      sum_replaceAt? (fun a b => Method.weight_attach?) hmethods
    simp only [weight, hsum]
    omega
  | field i =>
    obtain ⟨fields, hfields, h⟩ := Option.bind_eq_some_iff.1 h
    obtain rfl := Option.some.inj h
    have hsum : (fields.map Field.weight).sum = _ :=
      sum_replaceAt? (fun a b => Field.weight_attach?) hfields
    simp only [weight, hsum]
    omega

end

/-! ### Classes that change -/

lemma Resolving.length_mapM {α β : Type} (f : α → Resolving β) (items : List α) (memo : Memo) :
    ((items.mapM f).run memo).1.length = items.length := by
  induction items generalizing memo with
  | nil => rfl
  | cons a items ih =>
    rw [List.mapM_cons, run_bind, run_bind, run_pure, List.length_cons, List.length_cons, ih]

namespace TypeSources

variable (sources : TypeSources)

lemma weight_applyOne? {c : Class} {entry : Entry} {memo : Memo} {changed : Class}
    (h : ((sources.applyOne? c entry).run memo).1 = some changed) :
    changed.weight = c.weight + entry.annotations.length := by
  unfold applyOne? at h
  split at h
  · contradiction
  · rw [Resolving.run_bind, Resolving.run_pure] at h
    rw [Class.weight_attach? h, Resolving.length_mapM]

lemma weight_applyEntries (c : Class) {entries : List Entry} (memo : Memo)
    (hentries : ∀ entry ∈ entries, entry.annotations ≠ []) :
    let applied := (sources.applyEntries c entries).run memo
    c.weight ≤ applied.1.1.weight ∧ (applied.1.2 = true → c.weight < applied.1.1.weight) := by
  induction entries generalizing c memo with
  | nil => exact ⟨le_rfl, nofun⟩
  | cons entry entries ih =>
    obtain ⟨hentry, hentries⟩ := List.forall_mem_cons.1 hentries
    rw [applyEntries, Resolving.run_bind]
    have hweight (changed : Class)
        (hchanged : ((sources.applyOne? c entry).run memo).1 = some changed) :=
      sources.weight_applyOne? hchanged
    generalize (sources.applyOne? c entry).run memo = applied at hweight ⊢
    obtain ⟨changed, memo'⟩ := applied
    cases changed with
    | none => exact ih c memo' hentries
    | some changed =>
      have hlength := List.length_pos_iff.2 hentry
      have hmore := hweight changed rfl
      have hlater := (ih changed memo' hentries).1
      refine ⟨?_, fun _ => ?_⟩
      · exact (by omega : c.weight ≤ changed.weight).trans hlater
      · exact (by omega : c.weight < changed.weight).trans_le hlater

lemma ne_of_annotate? {c annotated : Class} {memo : Memo}
    (hentries : ∀ entry ∈ sources.index.entries, entry.annotations ≠ [])
    (h : ((sources.annotate? c).run memo).1 = some annotated) : annotated ≠ c := by
  have howned : ∀ entry ∈ sources.index.entriesFor c.binaryName, entry.annotations ≠ [] :=
    fun entry hentry => hentries entry (sources.index.mem_of_mem_entriesFor hentry)
  have hweight := sources.weight_applyEntries c memo howned
  rw [annotate?, Resolving.run_bind, Resolving.run_pure] at h
  split at h
  · rename_i hchanged
    have hlt := hweight.2 hchanged
    obtain rfl := Option.some.inj h
    rintro heq
    rw [heq] at hlt
    exact lt_irrefl _ hlt
  · contradiction

end TypeSources

namespace Injection

variable {injection next : Injection} {replaced : Nat}

lemma annotateSlot_counts
    (hentries : ∀ entry ∈ injection.injector.index.entries, entry.annotations ≠ []) {slot : Slot}
    (h : (annotateSlot slot).run injection = .ok replaced next) :
    (replaced = 0 ∧ next.program.classes[slot]? = injection.program.classes[slot]?) ∨
      (replaced = 1 ∧ next.program.classes[slot]? ≠ injection.program.classes[slot]?) := by
  cases hc : injection.program.classes[slot]? with
  | none =>
    simp only [annotateSlot, EStateM.run_bind, EStateM.run_get, hc, EStateM.run_pure] at h
    obtain ⟨rfl, rfl⟩ := EStateM.Result.ok.inj h
    exact .inl ⟨rfl, hc⟩
  | some c =>
    obtain ⟨given, hrun, hclass⟩ := run_annotate? c injection
    have hgiven : ((injection.sources.annotate? c).run injection.injector.memo).1 = given :=
      (EStateM.Result.ok.inj hrun).1
    simp only [annotateSlot, EStateM.run_bind, EStateM.run_get, hc, hrun] at h
    cases given with
    | none =>
      obtain ⟨rfl, rfl⟩ := EStateM.Result.ok.inj h
      exact .inl ⟨rfl, hc⟩
    | some given =>
      have hsame : Program.sameClass c given := by
        obtain rfl : given = injection.annotated c := hclass
        exact sameClass_adding _ _
      have hreplaced (injector : Injector) :
          (replace slot given).run ⟨injector, injection.program⟩ =
            .ok () ⟨injector, { injection.program with
              classes := injection.program.classes.setIfInBounds slot given }⟩ :=
        run_replace hc hsame
      simp only [EStateM.run_bind, EStateM.run_pure, hreplaced] at h
      obtain ⟨rfl, rfl⟩ := EStateM.Result.ok.inj h
      refine .inr ⟨rfl, ?_⟩
      have hlt := (Array.getElem?_eq_some_iff.1 hc).1
      simp only [Array.getElem?_setIfInBounds_self_of_lt hlt, ne_eq, Option.some.injEq]
      exact injection.sources.ne_of_annotate? hentries hgiven

open Classical in
/-- Of different slots those are counted whose classes are others afterwards. -/
lemma annotateSlots_counts
    (hentries : ∀ entry ∈ injection.injector.index.entries, entry.annotations ≠ [])
    {slots : List Slot} (hd : slots.Nodup)
    (h : (annotateSlots slots).run injection = .ok replaced next) :
    replaced = slots.countP fun slot =>
      next.program.classes[slot]? ≠ injection.program.classes[slot]? := by
  induction slots generalizing injection replaced with
  | nil =>
    obtain ⟨rfl, rfl⟩ := EStateM.Result.ok.inj h
    rfl
  | cons slot slots ih =>
    obtain ⟨hnot, hd⟩ := List.nodup_cons.1 hd
    obtain ⟨first, hfirst⟩ := run_annotateSlot slot injection
    obtain ⟨others, hothers⟩ := run_annotateSlots slots (injection.annotating slot)
    have hrun : (annotateSlots (slot :: slots)).run injection =
        .ok (first + others) (slots.foldl annotating (injection.annotating slot)) := by
      simp [annotateSlots, hfirst, hothers, -bind_pure_comp]
    obtain ⟨rfl, rfl⟩ := EStateM.Result.ok.inj (hrun.symm.trans h)
    have hentries' : ∀ entry ∈ (injection.annotating slot).injector.index.entries,
        entry.annotations ≠ [] := by rwa [index_annotating]
    -- The class in the first slot is done, and the others are as they were.
    have hlater : (slots.foldl annotating (injection.annotating slot)).program.classes[slot]? =
        (injection.annotating slot).program.classes[slot]? :=
      getElem?_foldl_annotating_of_notMem _ _ hnot
    have hcount := ih hentries' hd hothers
    have hsame : slots.countP (fun other =>
        (slots.foldl annotating (injection.annotating slot)).program.classes[other]? ≠
          (injection.annotating slot).program.classes[other]?) =
        slots.countP fun other =>
          (slots.foldl annotating (injection.annotating slot)).program.classes[other]? ≠
            injection.program.classes[other]? := by
      refine List.countP_congr fun other hother => ?_
      have hne : slot ≠ other := by
        rintro rfl
        exact hnot hother
      rw [getElem?_annotating_of_ne _ hne]
    rw [List.countP_cons, hlater, hcount, hsame, Nat.add_comm]
    obtain ⟨rfl, hclass⟩ | ⟨rfl, hclass⟩ := annotateSlot_counts hentries hfirst
    · simp [hclass]
    · simp [hclass]

end Injection

end ExternalAnnotations
