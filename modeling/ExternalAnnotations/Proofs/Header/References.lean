import ExternalAnnotations.Proofs.Injection.Visits

/-!
# References to all annotation types

An annotation stands at a `Site`: it is one of those on a part of an element of a class. A class
refers to the types of the annotations that are kept when the program runs, wherever they stand.
Each type is there once, and the types are in the order of the sites at which they first come up.
-/

namespace ExternalAnnotations

/-! ### Sites -/

/-- The annotations on a part of a method. -/
def Method.annotationsAt (method : Method) : Placement → List AnnotationInstance
  | .declaration => method.annotations
  | .returnType => method.result.annotations
  | .parameter i => method.parameters[i]?.elim [] (·.annotations)
  | .parameterType i => method.parameters[i]?.elim [] (·.type.annotations)
  | .fieldType => []

/-- The annotations on a part of a field. -/
def Field.annotationsAt (field : Field) : Placement → List AnnotationInstance
  | .declaration => field.annotations
  | .fieldType => field.type.annotations
  | _ => []

/-- The annotations on a part of an element of a class. -/
def Class.annotationsAt (c : Class) (placement : Placement) : Position → List AnnotationInstance
  | .classItself => if placement = .declaration then c.annotations else []
  | .method i => c.methods[i]?.elim [] (·.annotationsAt placement)
  | .field i => c.fields[i]?.elim [] (·.annotationsAt placement)

/-- Where an annotation stands: on which part of an element, and after how many others. -/
structure Site where
  position : Position
  placement : Placement
  rank : Nat

/-- The class comes before its methods, and these before its fields. -/
def Position.order : Position → List Nat
  | .classItself => [0]
  | .method i => [1, i]
  | .field i => [2, i]

/-- What is declared comes before its type, and a parameter after what it belongs to. -/
def Placement.order : Placement → Nat
  | .declaration => 0
  | .returnType | .fieldType => 1
  | .parameter i => 2 * i + 2
  | .parameterType i => 2 * i + 3

namespace Site

/-- The order of sites in a class. -/
def Before (site other : Site) : Prop :=
  site.position.order < other.position.order ∨ site.position = other.position ∧
    (site.placement.order < other.placement.order ∨
      site.placement = other.placement ∧ site.rank < other.rank)

instance : DecidableRel Before := fun _ _ => instDecidableOr

example : Before ⟨.method 0, .returnType, 1⟩ ⟨.method 0, .parameter 0, 0⟩ ∧
    Before ⟨.method 0, .parameterType 2, 0⟩ ⟨.method 1, .declaration, 0⟩ := by
  decide

lemma Before.irrefl (site : Site) : ¬site.Before site := by
  simp [Before]

end Site

namespace Class

def annotation? (c : Class) (site : Site) : Option AnnotationInstance :=
  (c.annotationsAt site.placement site.position)[site.rank]?

/-- At a site stands an annotation of a type, and it is kept when the program runs. -/
def Keeps (c : Class) (site : Site) (typeName : String) : Prop :=
  ∃ inner, c.annotation? site = some inner ∧ inner.retention = .runtime ∧ inner.typeName = typeName

/-- A type comes up at a site before all those of another type. -/
def ComesUpBefore (c : Class) (typeName other : String) : Prop :=
  ∃ site, c.Keeps site typeName ∧ ∀ site', c.Keeps site' other → site.Before site'

end Class

/-! ### Annotations with their sites -/

/-- The annotations on a part, with their sites. -/
def located (position : Position) (placement : Placement) (annotations : List AnnotationInstance) :
    List (Site × AnnotationInstance) :=
  annotations.zipIdx.map fun (inner, rank) => (⟨position, placement, rank⟩, inner)

def Parameter.located (position : Position) (parameter : Parameter) (i : Nat) :
    List (Site × AnnotationInstance) :=
  ExternalAnnotations.located position (.parameter i) parameter.annotations
    ++ ExternalAnnotations.located position (.parameterType i) parameter.type.annotations

def Method.located (method : Method) (i : Nat) : List (Site × AnnotationInstance) :=
  ExternalAnnotations.located (.method i) .declaration method.annotations
    ++ ExternalAnnotations.located (.method i) .returnType method.result.annotations
    ++ method.parameters.zipIdx.flatMap fun (parameter, j) => parameter.located (.method i) j

def Field.located (field : Field) (i : Nat) : List (Site × AnnotationInstance) :=
  ExternalAnnotations.located (.field i) .declaration field.annotations
    ++ ExternalAnnotations.located (.field i) .fieldType field.type.annotations

/-- The annotations on a class and its members with their sites, in order. -/
def Class.located (c : Class) : List (Site × AnnotationInstance) :=
  ExternalAnnotations.located .classItself .declaration c.annotations
    ++ (c.methods.zipIdx.flatMap fun (method, i) => method.located i)
    ++ c.fields.zipIdx.flatMap fun (field, i) => field.located i

section

variable {α β γ : Type} {items : List α} {f : α × Nat → List β}

lemma map_flatMap_zipIdx {g : β → γ} {h : α → List γ} (hf : ∀ a i, (f (a, i)).map g = h a) :
    (items.zipIdx.flatMap f).map g = items.flatMap h := by
  conv_rhs => rw [← List.zipIdx_map_fst 0 items, List.flatMap_map]
  rw [List.map_flatMap]
  exact List.flatMap_congr fun (a, i) _ => hf a i

lemma mem_flatMap_zipIdx {b : β} :
    b ∈ items.zipIdx.flatMap f ↔ ∃ i a, items[i]? = some a ∧ b ∈ f (a, i) := by
  rw [List.mem_flatMap]
  constructor
  · rintro ⟨⟨a, i⟩, ha, hb⟩
    exact ⟨i, a, List.mem_zipIdx_iff_getElem?.1 ha, hb⟩
  · rintro ⟨i, a, ha, hb⟩
    exact ⟨(a, i), List.mem_zipIdx_iff_getElem?.2 ha, hb⟩

lemma pairwise_zipIdx (items : List α) : items.zipIdx.Pairwise fun x y => x.2 < y.2 := by
  rw [← List.pairwise_map (R := (· < ·)), List.zipIdx_map_snd]
  exact List.pairwise_lt_range' 1

lemma pairwise_flatMap_zipIdx {R : β → β → Prop} (hone : ∀ a i, (f (a, i)).Pairwise R)
    (htwo : ∀ a b i j, i < j → ∀ x ∈ f (a, i), ∀ y ∈ f (b, j), R x y) :
    (items.zipIdx.flatMap f).Pairwise R := by
  rw [List.pairwise_flatMap]
  exact ⟨fun (a, i) _ => hone a i,
    (pairwise_zipIdx items).imp fun {x y} hlt => htwo x.1 y.1 x.2 y.2 hlt⟩

end

lemma map_snd_located (position : Position) (placement : Placement)
    (annotations : List AnnotationInstance) :
    (located position placement annotations).map (·.2) = annotations := by
  simp [located, Function.comp_def]

lemma mem_located {position : Position} {placement : Placement}
    {annotations : List AnnotationInstance} {site : Site} {inner : AnnotationInstance} :
    (site, inner) ∈ located position placement annotations ↔
      site.position = position ∧ site.placement = placement ∧
        annotations[site.rank]? = some inner := by
  obtain ⟨position', placement', rank⟩ := site
  simp only [located, List.mem_map, Prod.mk.injEq, Site.mk.injEq]
  constructor
  · rintro ⟨⟨inner', i⟩, hmem, ⟨rfl, rfl, rfl⟩, rfl⟩
    exact ⟨rfl, rfl, List.mem_zipIdx_iff_getElem?.1 hmem⟩
  · rintro ⟨rfl, rfl, h⟩
    exact ⟨(inner, rank), List.mem_zipIdx_iff_getElem?.2 h, ⟨rfl, rfl, rfl⟩, rfl⟩

lemma pairwise_located (position : Position) (placement : Placement)
    (annotations : List AnnotationInstance) :
    (located position placement annotations).Pairwise fun x y => x.1.Before y.1 := by
  rw [located, List.pairwise_map]
  exact (pairwise_zipIdx annotations).imp fun hlt => .inr ⟨rfl, .inr ⟨rfl, hlt⟩⟩

lemma Method.map_snd_located (method : Method) (i : Nat) :
    (method.located i).map (·.2) = Class.methodAnnotations method := by
  have hparameters : (method.parameters.zipIdx.flatMap fun (parameter, j) =>
      parameter.located (.method i) j).map (·.2) =
        method.parameters.flatMap fun parameter =>
          parameter.annotations ++ parameter.type.annotations := by
    apply map_flatMap_zipIdx
    intro parameter j
    simp only [Parameter.located, List.map_append, ExternalAnnotations.map_snd_located]
  simp only [located, Class.methodAnnotations, List.map_append, hparameters,
    ExternalAnnotations.map_snd_located]

lemma Method.mem_located {method : Method} {i : Nat} {site : Site} {inner : AnnotationInstance} :
    (site, inner) ∈ method.located i ↔ site.position = .method i ∧
      (method.annotationsAt site.placement)[site.rank]? = some inner := by
  obtain ⟨position, placement, rank⟩ := site
  simp only [located, Parameter.located, List.mem_append, mem_flatMap_zipIdx,
    ExternalAnnotations.mem_located]
  cases placement with
  | declaration | returnType | fieldType => simp [annotationsAt]
  | parameter j | parameterType j =>
    cases hj : method.parameters[j]? <;> simp_all [annotationsAt]

lemma Class.map_snd_located (c : Class) : c.located.map (·.2) = c.allAnnotations := by
  simp only [located, allAnnotations, List.map_append, ExternalAnnotations.map_snd_located]
  congr 1
  · congr 1
    exact map_flatMap_zipIdx Method.map_snd_located
  · apply map_flatMap_zipIdx
    intro field i
    simp only [Field.located, List.map_append, ExternalAnnotations.map_snd_located]

lemma Class.mem_located {c : Class} {site : Site} {inner : AnnotationInstance} :
    (site, inner) ∈ c.located ↔ c.annotation? site = some inner := by
  obtain ⟨position, placement, rank⟩ := site
  simp only [located, Field.located, List.mem_append, mem_flatMap_zipIdx, Method.mem_located,
    ExternalAnnotations.mem_located, annotation?]
  cases position with
  | classItself =>
    by_cases hplacement : placement = .declaration <;> simp [annotationsAt, hplacement]
  | method i => cases hi : c.methods[i]? <;> simp_all [annotationsAt]
  | field i =>
    cases hi : c.fields[i]? with
    | none =>
      simp only [annotationsAt, hi, Option.elim_none, List.getElem?_nil, reduceCtorEq, iff_false]
      rintro ((⟨h, -⟩ | ⟨j, method, hj, h, -⟩) | ⟨j, field, hj, ⟨h, -⟩ | ⟨h, -⟩⟩)
      · contradiction
      · contradiction
      · obtain rfl := Position.field.inj h
        simp_all
      · obtain rfl := Position.field.inj h
        simp_all
    | some field => cases placement <;> simp_all [annotationsAt, Field.annotationsAt]

lemma before_of_mem_located {position : Position} {placement placement' : Placement}
    {annotations annotations' : List AnnotationInstance}
    (h : placement.order < placement'.order) :
    ∀ x ∈ located position placement annotations, ∀ y ∈ located position placement' annotations',
      x.1.Before y.1 := by
  intro x hx y hy
  obtain ⟨hposition, hplacement, -⟩ := mem_located.1 hx
  obtain ⟨hposition', hplacement', -⟩ := mem_located.1 hy
  right
  rw [hposition, hposition', hplacement, hplacement']
  exact ⟨rfl, .inl h⟩

lemma Parameter.before_of_mem_located {position : Position} {parameter parameter' : Parameter}
    {i j : Nat} (h : i < j) :
    ∀ x ∈ parameter.located position i, ∀ y ∈ parameter'.located position j, x.1.Before y.1 := by
  intro x hx y hy
  rcases List.mem_append.1 hx with hx | hx <;> rcases List.mem_append.1 hy with hy | hy <;>
    apply ExternalAnnotations.before_of_mem_located _ x hx y hy <;>
    simp only [Placement.order] <;> omega

lemma Parameter.pairwise_located (position : Position) (parameter : Parameter) (i : Nat) :
    (parameter.located position i).Pairwise fun x y => x.1.Before y.1 := by
  rw [located, List.pairwise_append]
  refine ⟨ExternalAnnotations.pairwise_located .., ExternalAnnotations.pairwise_located ..,
    ExternalAnnotations.before_of_mem_located ?_⟩
  simp only [Placement.order]
  omega

lemma Method.pairwise_located (method : Method) (i : Nat) :
    (method.located i).Pairwise fun x y => x.1.Before y.1 := by
  rw [located, List.pairwise_append, List.pairwise_append]
  refine ⟨⟨ExternalAnnotations.pairwise_located .., ExternalAnnotations.pairwise_located ..,
    before_of_mem_located (by decide)⟩, ?_, ?_⟩
  · apply pairwise_flatMap_zipIdx
    · exact fun parameter j => parameter.pairwise_located _ j
    · exact fun _ _ _ _ hlt => Parameter.before_of_mem_located hlt
  · intro x hx y hy
    obtain ⟨j, parameter, -, hy⟩ := mem_flatMap_zipIdx.1 hy
    rcases List.mem_append.1 hx with hx | hx <;> rcases List.mem_append.1 hy with hy | hy <;>
      apply before_of_mem_located _ x hx y hy <;>
      simp only [Placement.order] <;> omega

lemma Field.pairwise_located (field : Field) (i : Nat) :
    (field.located i).Pairwise fun x y => x.1.Before y.1 := by
  rw [located, List.pairwise_append]
  exact ⟨ExternalAnnotations.pairwise_located .., ExternalAnnotations.pairwise_located ..,
    before_of_mem_located (by decide)⟩

lemma Field.position_of_mem_located {field : Field} {i : Nat} {x : Site × AnnotationInstance}
    (h : x ∈ field.located i) : x.1.position = .field i := by
  rcases List.mem_append.1 h with h | h
  · exact (mem_located.1 h).1
  · exact (mem_located.1 h).1

lemma Class.pairwise_located (c : Class) : c.located.Pairwise fun x y => x.1.Before y.1 := by
  rw [located, List.pairwise_append, List.pairwise_append]
  refine ⟨⟨ExternalAnnotations.pairwise_located .., ?_, ?_⟩, ?_, ?_⟩
  · apply pairwise_flatMap_zipIdx Method.pairwise_located
    intro method method' i j hlt x hx y hy
    left
    rw [(Method.mem_located.1 hx).1, (Method.mem_located.1 hy).1]
    simpa [Position.order, List.cons_lt_cons_iff] using hlt
  · intro x hx y hy
    obtain ⟨i, method, -, hy⟩ := mem_flatMap_zipIdx.1 hy
    left
    rw [(ExternalAnnotations.mem_located.1 hx).1, (Method.mem_located.1 hy).1]
    simp [Position.order, List.cons_lt_cons_iff]
  · apply pairwise_flatMap_zipIdx Field.pairwise_located
    intro field field' i j hlt x hx y hy
    left
    rw [Field.position_of_mem_located hx, Field.position_of_mem_located hy]
    simpa [Position.order, List.cons_lt_cons_iff] using hlt
  · intro x hx y hy
    obtain ⟨i, field, -, hy⟩ := mem_flatMap_zipIdx.1 hy
    left
    rw [Field.position_of_mem_located hy]
    rcases List.mem_append.1 hx with hx | hx
    · rw [(ExternalAnnotations.mem_located.1 hx).1]
      simp [Position.order, List.cons_lt_cons_iff]
    · obtain ⟨j, method, -, hx⟩ := mem_flatMap_zipIdx.1 hx
      rw [(Method.mem_located.1 hx).1]
      simp [Position.order, List.cons_lt_cons_iff]

/-! ### Items at their first places -/

lemma exists_split_of_filter {α : Type} {p : α → Bool} {items before later : List α} {a b : α}
    (hb : p b = true) (hsplit : items.filter p = before ++ a :: later) (hbefore : b ∉ before) :
    ∃ before' later', items = before' ++ a :: later' ∧ b ∉ before' := by
  obtain ⟨first, others, rfl, hfirst, hothers⟩ := List.filter_eq_append_iff.1 hsplit
  obtain ⟨between, later', rfl, hbetween, -, -⟩ := List.filter_eq_cons_iff.1 hothers
  refine ⟨first ++ between, later', by rw [List.append_assoc], ?_⟩
  rw [List.mem_append]
  rintro (hmem | hmem)
  · apply hbefore
    rw [← hfirst]
    exact List.mem_filter.2 ⟨hmem, hb⟩
  · exact hbetween b hmem hb

lemma pairwise_eraseDups {α : Type} [BEq α] [LawfulBEq α] (items : List α) :
    items.eraseDups.Pairwise fun a b =>
      b ≠ a ∧ ∃ before later, items = before ++ a :: later ∧ b ∉ before := by
  induction hlength : items.length using Nat.strong_induction_on generalizing items with
  | _ length ih =>
    cases items with
    | nil => exact .nil
    | cons first others =>
      rw [List.eraseDups_cons, List.pairwise_cons]
      constructor
      · intro b hb
        have hne := (List.mem_filter.1 (List.mem_eraseDups.1 hb)).2
        exact ⟨by simpa using hne, [], others, rfl, List.not_mem_nil⟩
      · have hlt : (others.filter (!· == first)).length < length := by
          have hle := List.length_filter_le (!· == first) others
          rw [← hlength, List.length_cons]
          omega
        refine (ih _ hlt _ rfl).imp_of_mem ?_
        rintro a b - hb ⟨hne, before, later, hsplit, hbefore⟩
        have hb' := (List.mem_filter.1 (List.mem_eraseDups.1 hb)).2
        obtain ⟨before', later', rfl, hnot⟩ :=
          exists_split_of_filter (p := (!· == first)) hb' hsplit hbefore
        refine ⟨hne, first :: before', later', rfl, ?_⟩
        rw [List.mem_cons, not_or]
        exact ⟨by simpa using hb', hnot⟩

/-! ### References -/

namespace Class

variable {c : Class}

lemma map_typeName_runtimeReferences (c : Class) : c.runtimeReferences.map (·.typeName) =
    ((c.located.filter (·.2.retention == .runtime)).map (·.2.typeName)).eraseDups := by
  have hkept : (c.allAnnotations.filter (·.retention == .runtime)).map (·.typeName) =
      (c.located.filter (·.2.retention == .runtime)).map (·.2.typeName) := by
    rw [← c.map_snd_located, List.filter_map, List.map_map]
    rfl
  rw [runtimeReferences, hkept, List.map_map]
  exact List.map_id _

lemma mem_kept {site : Site} {inner : AnnotationInstance} :
    (site, inner) ∈ c.located.filter (·.2.retention == .runtime) ↔
      c.annotation? site = some inner ∧ inner.retention = .runtime := by
  rw [List.mem_filter, mem_located, beq_iff_eq]

lemma mem_typeNames_iff {name : String} :
    name ∈ c.runtimeReferences.map (·.typeName) ↔ ∃ site, c.Keeps site name := by
  rw [map_typeName_runtimeReferences, List.mem_eraseDups, List.mem_map]
  constructor
  · rintro ⟨⟨site, inner⟩, hmem, rfl⟩
    obtain ⟨hinner, hkept⟩ := mem_kept.1 hmem
    exact ⟨site, inner, hinner, hkept, rfl⟩
  · rintro ⟨site, inner, hinner, hkept, rfl⟩
    exact ⟨(site, inner), mem_kept.2 ⟨hinner, hkept⟩, rfl⟩

lemma comesUpBefore_of_split {name other : String} {before later : List String}
    (hsplit : (c.located.filter (·.2.retention == .runtime)).map (·.2.typeName) =
      before ++ name :: later) (hne : other ≠ name) (hbefore : other ∉ before) :
    c.ComesUpBefore name other := by
  obtain ⟨first, others, hkept, rfl, hothers⟩ := List.map_eq_append_iff.1 hsplit
  obtain ⟨⟨site, inner⟩, later', rfl, rfl, -⟩ := List.map_eq_cons_iff.1 hothers
  have horder := c.pairwise_located.filter (·.2.retention == .runtime)
  have hmem : (site, inner) ∈ c.located.filter (·.2.retention == .runtime) := by
    simp [hkept]
  obtain ⟨hinner, hruntime⟩ := mem_kept.1 hmem
  refine ⟨site, ⟨inner, hinner, hruntime, rfl⟩, ?_⟩
  rintro site' ⟨inner', hinner', hruntime', rfl⟩
  have hmem' := mem_kept.2 ⟨hinner', hruntime'⟩
  rw [hkept] at hmem' horder
  rcases List.mem_append.1 hmem' with hfirst | hlast
  · exact absurd (List.mem_map_of_mem hfirst) hbefore
  · rcases List.mem_cons.1 hlast with heq | hlater
    · obtain ⟨rfl, rfl⟩ := Prod.mk.inj heq
      exact absurd rfl hne
    · exact (List.pairwise_cons.1 (List.pairwise_append.1 horder).2.1).1 _ hlater

lemma pairwise_comesUpBefore (c : Class) :
    (c.runtimeReferences.map (·.typeName)).Pairwise c.ComesUpBefore := by
  rw [map_typeName_runtimeReferences]
  refine (pairwise_eraseDups _).imp ?_
  rintro name other ⟨hne, before, later, hsplit, hbefore⟩
  exact comesUpBefore_of_split hsplit hne hbefore

lemma ComesUpBefore.ne {name other : String} (h : c.ComesUpBefore name other) : name ≠ other := by
  rintro rfl
  obtain ⟨site, hsite, hbefore⟩ := h
  exact Site.Before.irrefl site (hbefore site hsite)

/-- References are those that a class needs: one to each type of which it keeps an annotation, in
the order in which the types come up. -/
structure Needs (c : Class) (references : List TypeReference) : Prop where
  made : ∀ reference ∈ references, reference = .ofName reference.typeName
  once : (references.map (·.typeName)).Nodup
  kept : ∀ name, name ∈ references.map (·.typeName) ↔ ∃ site, c.Keeps site name
  ordered : (references.map (·.typeName)).Pairwise c.ComesUpBefore

lemma needs_runtimeReferences (c : Class) : c.Needs c.runtimeReferences where
  made := by
    intro reference hreference
    obtain ⟨name, -, rfl⟩ := List.mem_map.1 hreference
    rfl
  once := c.pairwise_comesUpBefore.imp ComesUpBefore.ne
  kept := fun _ => mem_typeNames_iff
  ordered := c.pairwise_comesUpBefore

end Class

/-! ### Headers of a file -/

lemma Program.lt_size_of_mem_withNested {program : Program} {outer slot : Slot}
    (h : slot ∈ program.withNested outer) : slot < program.classes.size := by
  induction hk : program.classes.size - outer using Nat.strong_induction_on generalizing outer with
  | _ k ih =>
    rw [withNested_eq] at h
    split at h
    · rename_i hsize
      rcases List.mem_cons.1 h with rfl | h
      · exact hsize
      · obtain ⟨inner, hinner, hslot⟩ := List.mem_flatMap.1 h
        have hlt : outer < inner := by simpa using (List.mem_filter.1 hinner).2
        exact ih _ (hk ▸ Nat.sub_lt_sub_left hsize hlt) hslot rfl
    · contradiction

lemma HeaderOptions.describeFile_forall₂ (options : HeaderOptions) (program : Program)
    (file : FileId) : List.Forall₂ (fun slot header => ∃ c, program.classes[slot]? = some c ∧
      header = options.describeClass program slot c)
        (program.classesIn file) (options.describeFile program file) := by
  have hslots : ∀ slot ∈ program.classesIn file, slot < program.classes.size := by
    intro slot hslot
    obtain ⟨outer, -, hslot⟩ := List.mem_flatMap.1 hslot
    exact Program.lt_size_of_mem_withNested hslot
  rw [describeFile]
  generalize program.classesIn file = slots at hslots
  induction slots with
  | nil => exact .nil
  | cons slot slots ih =>
    obtain ⟨hslot, hslots⟩ := List.forall_mem_cons.1 hslots
    have hc := Array.getElem?_eq_getElem hslot
    rw [List.filterMap_cons, hc]
    exact .cons ⟨_, hc, rfl⟩ (ih hslots)

lemma Injection.exists_run_injectFile {injection : Injection} {file : FileId}
    (hf : file < injection.program.files.size)
    (hw : injection.injector.progress file ≠ .working) :
    ∃ replaced after, (injectFile file).run injection = .ok replaced after := by
  cases hprogress : injection.injector.progress file with
  | unvisited =>
    obtain ⟨replaced, hrun⟩ := run_injectFile hf hprogress
    exact ⟨replaced, _, hrun⟩
  | working => contradiction
  | done => exact ⟨0, _, run_collecting_of_ok (run_annotateFile_done hf hprogress)⟩

/-- **References.** A class refers to the types of the annotations that are kept when the program
runs, wherever on the class, on its members, their parameters and their types they stand, and to no
others. Each type is there once, in the order of first use. So does the header that is made for a
class once annotations are injected, with these among them. -/
theorem runtimeReferences_needed :
    (∀ c : Class, c.Needs c.runtimeReferences) ∧
    ∀ (options : HeaderOptions) (injection : Injection) (file : FileId),
      file < injection.program.files.size → injection.injector.progress file ≠ .working →
        ∃ headers after, (options.makeHeaders file).run injection = .ok headers after ∧
          List.Forall₂ (fun slot header => ∃ annotated,
              after.program.classes[slot]? = some annotated ∧
                header.binaryName = annotated.binaryName ∧
                annotated.Needs header.runtimeReferences)
            (after.program.classesIn file) headers := by
  refine ⟨Class.needs_runtimeReferences, ?_⟩
  intro options injection file hf hw
  obtain ⟨replaced, after, hrun⟩ := Injection.exists_run_injectFile hf hw
  refine ⟨_, after, Injection.run_makeHeaders options hrun, ?_⟩
  refine (options.describeFile_forall₂ after.program file).imp ?_
  rintro slot header ⟨annotated, hc, rfl⟩
  exact ⟨annotated, hc, rfl, annotated.needs_runtimeReferences⟩

/-- A program with a class `p.C` whose method and field are annotated with `p.Log`, the method with
`p.Note` too, which is not kept, and an index that marks the class. -/
def logging : Injection :=
  { injector := .ofIndex (.of [⟨"p.C", "p", none, .declaration, [⟨"Deprecated", [], .start⟩],
      .start⟩] [])
    program := Program.addFile {} "p" none
      [{ ClassDraft.ofName "C" .ordinary with
          methods := [{ Method.ofName "m" with
            annotations := [⟨"p.Note", [], .source⟩, ⟨"p.Log", [], .runtime⟩] }]
          fields := [{ Field.ofName "f" (.named "p.C") with
            annotations := [⟨"p.Log", [], .runtime⟩] }] }] }

/-- The annotation that the index brings to the class comes up first, and the type that comes up
twice is there once. -/
theorem runtimeReferences_needed_logging :
    0 < logging.program.files.size ∧ logging.injector.progress 0 ≠ .working ∧
      ∃ headers after, (HeaderOptions.makeHeaders ⟨true, false⟩ 0).run logging =
          .ok headers after ∧
        after.program.classes.toList.map (·.allAnnotations.map (·.typeName)) =
          [["java.lang.Deprecated", "p.Note", "p.Log", "p.Log"]] ∧
        headers.map (·.runtimeReferences.map (·.typeName)) =
          [["java.lang.Deprecated", "p.Log"]] ∧
        ∃ (slot : Slot) (annotated : Class), after.program.classes[slot]? = some annotated ∧
          annotated.ComesUpBefore "java.lang.Deprecated" "p.Log" ∧
            ∃ site, annotated.Keeps site "p.Log" := by
  have hf : 0 < logging.program.files.size := by decide +kernel
  have hw : logging.injector.progress 0 ≠ .working := by decide
  obtain ⟨headers, after, hrun, hheaders⟩ :=
    runtimeReferences_needed.2 ⟨true, false⟩ logging 0 hf hw
  have hnames : (match (HeaderOptions.makeHeaders ⟨true, false⟩ 0).run logging with
      | .ok headers after =>
        after.program.classes.toList.map (·.allAnnotations.map (·.typeName)) ==
            [["java.lang.Deprecated", "p.Note", "p.Log", "p.Log"]] &&
          headers.map (·.runtimeReferences.map (·.typeName)) == [["java.lang.Deprecated", "p.Log"]]
      | .error _ _ => false) = true := by decide +kernel
  rw [hrun] at hnames
  obtain ⟨hall, hnames⟩ := Bool.and_eq_true_iff.1 hnames
  have hnames := eq_of_beq hnames
  refine ⟨hf, hw, headers, after, hrun, eq_of_beq hall, hnames, ?_⟩
  obtain ⟨header, rest, rfl, hheader, -⟩ := List.map_eq_cons_iff.1 hnames
  obtain ⟨slot, slots, ⟨annotated, hc, -, hneeds⟩, -, -⟩ := List.forall₂_cons_right_iff.1 hheaders
  have hordered := hneeds.ordered
  rw [hheader] at hordered
  refine ⟨slot, annotated, hc, List.rel_of_pairwise_cons hordered List.mem_cons_self, ?_⟩
  exact (hneeds.kept "p.Log").1 (by rw [hheader]; simp)

end ExternalAnnotations
