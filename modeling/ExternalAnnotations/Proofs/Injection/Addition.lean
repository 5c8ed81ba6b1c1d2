import ExternalAnnotations.Injection.Attachment
import Mathlib.Tactic

/-!
# Classes with further annotations

`Class.adding` puts given annotations on every part of a class at once, type annotations only on
references. Attaching the annotations of one entry after the other comes to the same, since what
an entry is about does not depend on the annotations of the class.
-/

namespace ExternalAnnotations

/-- An entry of an index with the annotations that were made for it. -/
structure Delivery where
  entry : Entry
  annotations : List AnnotationInstance

/-- The annotations that come to each part of each element of a class. -/
abbrev Additions := Position → Placement → List AnnotationInstance

/-- What the deliveries about a part of an element bring, in their order. -/
def Class.additions (c : Class) (deliveries : List Delivery) : Additions :=
  fun position placement =>
    (deliveries.filter fun delivery =>
      c.position? delivery.entry = some position ∧ delivery.entry.placement = placement).flatMap
        (·.annotations)

def TypeUse.adding (use : TypeUse) (annotations : List AnnotationInstance) : TypeUse :=
  if use.type.isReference then { use with annotations := use.annotations ++ annotations } else use

def Parameter.adding (parameter : Parameter) (declared onType : List AnnotationInstance) :
    Parameter :=
  { parameter with
    annotations := parameter.annotations ++ declared
    type := parameter.type.adding onType }

def Method.adding (method : Method) (additions : Placement → List AnnotationInstance) : Method :=
  { method with
    annotations := method.annotations ++ additions .declaration
    result := method.result.adding (additions .returnType)
    parameters := method.parameters.mapIdx fun i parameter =>
      parameter.adding (additions (.parameter i)) (additions (.parameterType i)) }

def Field.adding (field : Field) (additions : Placement → List AnnotationInstance) : Field :=
  { field with
    annotations := field.annotations ++ additions .declaration
    type := field.type.adding (additions .fieldType) }

/-- The class with further annotations on every part. -/
def Class.adding (c : Class) (additions : Additions) : Class :=
  { c with
    annotations := c.annotations ++ additions .classItself .declaration
    methods := c.methods.mapIdx fun i method => method.adding (additions (.method i))
    fields := c.fields.mapIdx fun i field => field.adding (additions (.field i)) }

/-- Whether a class has an element with a part at a placement. -/
def Class.HasPart (c : Class) (placement : Placement) : Position → Prop
  | .classItself => placement = .declaration
  | .method i => ∃ method, c.methods[i]? = some method ∧
      placement.isInMethod method.parameters.length
  | .field i => ∃ field, c.fields[i]? = some field ∧ placement.isInField

/-! ### Nothing added -/

@[simp] lemma TypeUse.adding_nil (use : TypeUse) : use.adding [] = use := by
  unfold adding
  split <;> simp

@[simp] lemma Parameter.adding_nil (parameter : Parameter) :
    parameter.adding [] [] = parameter := by
  simp [adding]

lemma mapIdx_self {α : Type} (items : List α) : items.mapIdx (fun _ a => a) = items := by
  apply List.ext_getElem <;> simp

@[simp] lemma Method.adding_nil (method : Method) : method.adding (fun _ => []) = method := by
  simp [adding, mapIdx_self]

@[simp] lemma Field.adding_nil (field : Field) : field.adding (fun _ => []) = field := by
  simp [adding]

@[simp] lemma Class.adding_nil (c : Class) : c.adding (fun _ _ => []) = c := by
  simp [adding, mapIdx_self]

/-! ### One addition after the other -/

@[simp] lemma TypeUse.type_adding (use : TypeUse) (annotations : List AnnotationInstance) :
    (use.adding annotations).type = use.type := by
  unfold adding
  split <;> rfl

lemma TypeUse.adding_adding (use : TypeUse) (first second : List AnnotationInstance) :
    (use.adding first).adding second = use.adding (first ++ second) := by
  unfold adding
  by_cases h : use.type.isReference <;> simp [h]

lemma Parameter.adding_adding (parameter : Parameter)
    (first onType second onType' : List AnnotationInstance) :
    (parameter.adding first onType).adding second onType' =
      parameter.adding (first ++ second) (onType ++ onType') := by
  simp [adding, TypeUse.adding_adding]

lemma Method.adding_adding (method : Method) (first second : Placement → List AnnotationInstance) :
    (method.adding first).adding second =
      method.adding fun placement => first placement ++ second placement := by
  simp [adding, TypeUse.adding_adding, Parameter.adding_adding, Function.comp_def]

lemma Field.adding_adding (field : Field) (first second : Placement → List AnnotationInstance) :
    (field.adding first).adding second =
      field.adding fun placement => first placement ++ second placement := by
  simp [adding, TypeUse.adding_adding]

lemma Class.adding_adding (c : Class) (first second : Additions) :
    (c.adding first).adding second =
      c.adding fun position placement => first position placement ++ second position placement := by
  simp [adding, Method.adding_adding, Field.adding_adding, Function.comp_def]

lemma Class.additions_append (c : Class) (first second : List Delivery) :
    c.additions (first ++ second) =
      fun position placement =>
        c.additions first position placement ++ c.additions second position placement := by
  funext position placement
  rw [additions, List.filter_append, List.flatMap_append]
  rfl

/-! ### What an entry is about -/

@[simp] lemma Method.parameterTypes_adding (method : Method)
    (additions : Placement → List AnnotationInstance) :
    (method.adding additions).parameterTypes = method.parameterTypes := by
  apply List.ext_getElem <;> simp [parameterTypes, adding, Parameter.adding]

lemma Method.hasSignature_adding (name : String) (descriptor : MethodDescriptor)
    (method : Method) (additions : Placement → List AnnotationInstance) :
    (method.adding additions).hasSignature name descriptor =
      method.hasSignature name descriptor := by
  have hname : (method.adding additions).hasName name = method.hasName name := rfl
  have htype : (method.adding additions).result.type = method.result.type :=
    TypeUse.type_adding _ _
  rw [hasSignature, hasSignature, hname, parameterTypes_adding, htype]

lemma findIdx?_mapIdx_eq {α : Type} (items : List α) (change : Nat → α → α) (p : α → Bool)
    (h : ∀ i a, p (change i a) = p a) : (items.mapIdx change).findIdx? p = items.findIdx? p := by
  induction items generalizing change with
  | nil => rfl
  | cons a items ih =>
    rw [List.mapIdx_cons, List.findIdx?_cons, List.findIdx?_cons, h, ih _ fun i b => h (i + 1) b]

lemma Class.position?_adding (c : Class) (additions : Additions) (entry : Entry) :
    (c.adding additions).position? entry = c.position? entry := by
  unfold position?
  split
  · rfl
  · rename_i name descriptor _
    have h := findIdx?_mapIdx_eq c.methods (fun i method => method.adding (additions (.method i)))
      (Method.hasSignature name descriptor) fun i method =>
        Method.hasSignature_adding name descriptor method _
    simp only [methodAt?, adding, h]
  · rename_i name _
    have h := findIdx?_mapIdx_eq c.fields (fun i field => field.adding (additions (.field i)))
      (·.name == name) fun _ _ => rfl
    simp only [fieldAt?, adding, h]

@[simp] lemma Class.additions_adding (c : Class) (added : Additions) (deliveries : List Delivery) :
    (c.adding added).additions deliveries = c.additions deliveries := by
  funext position placement
  simp only [additions, position?_adding]

lemma Class.hasPart_of_position? {c : Class} {entry : Entry} {position : Position}
    (h : c.position? entry = some position) : c.HasPart entry.placement position := by
  unfold position? at h
  split at h
  · split at h
    · obtain rfl := Option.some.inj h
      assumption
    · contradiction
  · rename_i name descriptor _
    simp only [methodAt?, Option.bind_eq_bind, Option.bind_eq_some_iff] at h
    obtain ⟨i, hi, h⟩ := h
    split at h
    · rename_i hin
      obtain rfl := Option.some.inj h
      obtain ⟨hlt, hsig, -⟩ := List.findIdx?_eq_some_iff_getElem.1 hi
      refine ⟨c.methods[i], List.getElem?_eq_getElem hlt, ?_⟩
      simp only [Method.hasSignature, Bool.and_eq_true, beq_iff_eq] at hsig
      have hlen : c.methods[i].parameters.length = descriptor.arity := by
        rw [MethodDescriptor.arity, ← hsig.1.2, Method.parameterTypes, List.length_map]
      rwa [hlen]
    · contradiction
  · rename_i name _
    simp only [fieldAt?, Option.bind_eq_bind, Option.bind_eq_some_iff] at h
    obtain ⟨i, hi, h⟩ := h
    split at h
    · rename_i hin
      obtain rfl := Option.some.inj h
      obtain ⟨hlt, -⟩ := List.findIdx?_eq_some_iff_getElem.1 hi
      exact ⟨c.fields[i], List.getElem?_eq_getElem hlt, hin⟩
    · contradiction

/-! ### Attaching -/

lemma replaceAt?_getD {α : Type} {items : List α} {i : Nat} {a : α} (h : items[i]? = some a)
    (change : α → Option α) :
    (replaceAt? items i change).getD items = items.set i ((change a).getD a) := by
  obtain ⟨hlt, rfl⟩ := List.getElem?_eq_some_iff.1 h
  rw [replaceAt?, h]
  cases hc : change items[i] with
  | none => simp [hc]
  | some b => simp [hc]

lemma replaceAt?_mapIdx {α : Type} {items : List α} {i : Nat} {a : α} (h : items[i]? = some a)
    (before after : Nat → α → α) (change : α → Option α)
    (hi : (change (before i a)).getD (before i a) = after i a)
    (hne : ∀ k b, k ≠ i → before k b = after k b) :
    (replaceAt? (items.mapIdx before) i change).getD (items.mapIdx before) =
      items.mapIdx after := by
  have hb : (items.mapIdx before)[i]? = some (before i a) := by simp [h]
  rw [replaceAt?_getD hb, hi]
  obtain ⟨hlt, rfl⟩ := List.getElem?_eq_some_iff.1 h
  apply List.ext_getElem?
  intro k
  rw [List.getElem?_set, List.getElem?_mapIdx]
  by_cases hk : i = k
  · subst hk
    simp [hlt]
  · rw [if_neg hk, List.getElem?_mapIdx]
    cases items[k]? with
    | none => rfl
    | some c => simp [hne k c (Ne.symm hk)]

lemma TypeUse.attach?_adding (use : TypeUse) (present more : List AnnotationInstance) :
    ((use.adding present).attach? more).getD (use.adding present) =
      use.adding (present ++ more) := by
  unfold attach? adding
  by_cases h : use.type.isReference <;> simp [h]

section

variable (more : List AnnotationInstance)

/-- What comes to a part of an element, and more for the part at one placement. -/
def extended (additions : Placement → List AnnotationInstance) (placement : Placement) :
    Placement → List AnnotationInstance :=
  Function.update additions placement (additions placement ++ more)

@[simp] lemma extended_self (additions : Placement → List AnnotationInstance)
    (placement : Placement) :
    extended more additions placement placement = additions placement ++ more :=
  Function.update_self ..

lemma extended_of_ne (additions : Placement → List AnnotationInstance) {placement other : Placement}
    (h : other ≠ placement) : extended more additions placement other = additions other :=
  Function.update_of_ne h ..

lemma Method.getD_with_parameters (method : Method) (parameters : Option (List Parameter)) :
    (do return { method with parameters := ← parameters } : Option Method).getD method =
      { method with parameters := parameters.getD method.parameters } := by
  cases parameters <;> rfl

lemma Method.replaceParameter_adding (method : Method)
    (additions : Placement → List AnnotationInstance) {placement : Placement} {i : Nat}
    (hi : i < method.parameters.length)
    (hplacement : placement = .parameter i ∨ placement = .parameterType i)
    {change : Parameter → Option Parameter}
    (hchange : (change (method.parameters[i].adding (additions (.parameter i))
        (additions (.parameterType i)))).getD
          (method.parameters[i].adding (additions (.parameter i)) (additions (.parameterType i))) =
      method.parameters[i].adding (extended more additions placement (.parameter i))
        (extended more additions placement (.parameterType i))) :
    (do return { method.adding additions with
        parameters := ← replaceAt? (method.adding additions).parameters i change } :
      Option Method).getD (method.adding additions) =
      method.adding (extended more additions placement) := by
  have hother : ∀ other, other ≠ .parameter i → other ≠ .parameterType i →
      extended more additions placement other = additions other := by
    intro other hn ht
    refine extended_of_ne more additions ?_
    rcases hplacement with rfl | rfl
    · exact hn
    · exact ht
  rw [getD_with_parameters]
  have hparameters := replaceAt?_mapIdx (List.getElem?_eq_getElem hi)
    (fun k parameter =>
      parameter.adding (additions (.parameter k)) (additions (.parameterType k)))
    (fun k parameter =>
      parameter.adding (extended more additions placement (.parameter k))
        (extended more additions placement (.parameterType k)))
    change hchange
    (fun k parameter hk => by rw [hother, hother] <;> simp [hk])
  simp only [adding, hparameters, hother, ne_eq, reduceCtorEq, not_false_eq_true]

lemma Method.attach?_adding (method : Method) (additions : Placement → List AnnotationInstance)
    {placement : Placement} (h : placement.isInMethod method.parameters.length) :
    ((method.adding additions).attach? more placement).getD (method.adding additions) =
      method.adding (extended more additions placement) := by
  cases placement with
  | declaration => simp [attach?, adding, extended_of_ne]
  | returnType =>
    have ht := method.result.attach?_adding (additions .returnType) more
    rw [adding, adding, extended_self, ← ht]
    cases hr : (method.result.adding (additions .returnType)).attach? more <;>
      simp [attach?, hr, extended_of_ne]
  | parameter i =>
    simp only [Placement.isInMethod, decide_eq_true_eq] at h
    refine method.replaceParameter_adding more additions h (.inl rfl) ?_
    simp [Parameter.adding, Parameter.attach, extended_of_ne]
  | parameterType i =>
    simp only [Placement.isInMethod, decide_eq_true_eq] at h
    refine method.replaceParameter_adding more additions h (.inr rfl) ?_
    have ht := method.parameters[i].type.attach?_adding (additions (.parameterType i)) more
    rw [Parameter.adding, Parameter.adding, extended_self, ← ht]
    cases hr : (method.parameters[i].type.adding (additions (.parameterType i))).attach? more <;>
      simp [Parameter.attachToType?, hr, extended_of_ne]
  | fieldType => simp [Placement.isInMethod] at h

lemma Field.attach?_adding (field : Field) (additions : Placement → List AnnotationInstance)
    {placement : Placement} (h : placement.isInField) :
    ((field.adding additions).attach? more placement).getD (field.adding additions) =
      field.adding (extended more additions placement) := by
  cases placement with
  | declaration => simp [attach?, adding, extended_of_ne]
  | fieldType =>
    have ht := field.type.attach?_adding (additions .fieldType) more
    rw [adding, adding, extended_self, ← ht]
    simp only [attach?, extended_of_ne more additions
      (show Placement.declaration ≠ .fieldType by simp)]
    cases (field.type.adding (additions .fieldType)).attach? more <;> rfl
  | returnType | parameter | parameterType => simp [Placement.isInField] at h

/-- What comes to a class, and more for one part of one element. -/
def Additions.extended (additions : Additions) (position : Position) (placement : Placement) :
    Additions :=
  Function.update additions position
    (ExternalAnnotations.extended more (additions position) placement)

lemma Additions.extended_self (additions : Additions) (position : Position)
    (placement : Placement) :
    additions.extended more position placement position =
      ExternalAnnotations.extended more (additions position) placement :=
  Function.update_self ..

lemma Additions.extended_of_ne (additions : Additions) {position other : Position}
    (placement : Placement) (h : other ≠ position) :
    additions.extended more position placement other = additions other :=
  Function.update_of_ne h ..

/-- Attaching annotations to a part that exists adds them there and nowhere else. Where it gives
nothing back nothing was to be added. -/
lemma Class.attach?_adding (c : Class) (additions : Additions) {position : Position}
    {placement : Placement} (h : c.HasPart placement position) :
    ((c.adding additions).attach? placement more position).getD (c.adding additions) =
      c.adding (additions.extended more position placement) := by
  cases position with
  | classItself =>
    obtain rfl : placement = .declaration := h
    simp [attach?, adding, Additions.extended_self, Additions.extended_of_ne]
  | method i =>
    obtain ⟨method, hm, hp⟩ := h
    have hset := replaceAt?_mapIdx hm
      (fun i method => method.adding (additions (.method i)))
      (fun k method =>
        method.adding (additions.extended more (.method i) placement (.method k)))
      (·.attach? more placement)
      (by rw [Additions.extended_self]; exact Method.attach?_adding more method _ hp)
      (fun k b hk => by rw [Additions.extended_of_ne]; simpa using hk)
    simp only [adding, attach?, Additions.extended_of_ne, ← hset, ne_eq, reduceCtorEq,
      not_false_eq_true]
    cases replaceAt? (c.methods.mapIdx fun i method => method.adding (additions (.method i))) i
      (·.attach? more placement) <;> rfl
  | field i =>
    obtain ⟨field, hf, hp⟩ := h
    have hset := replaceAt?_mapIdx hf
      (fun i field => field.adding (additions (.field i)))
      (fun k field =>
        field.adding (additions.extended more (.field i) placement (.field k)))
      (·.attach? more placement)
      (by rw [Additions.extended_self]; exact Field.attach?_adding more field _ hp)
      (fun k b hk => by rw [Additions.extended_of_ne]; simpa using hk)
    simp only [adding, attach?, Additions.extended_of_ne, ← hset, ne_eq, reduceCtorEq,
      not_false_eq_true]
    cases replaceAt? (c.fields.mapIdx fun i field => field.adding (additions (.field i))) i
      (·.attach? more placement) <;> rfl

end

lemma Class.additions_concat (c : Class) (deliveries : List Delivery) (delivery : Delivery)
    {position : Position} (h : c.position? delivery.entry = some position) :
    c.additions (deliveries ++ [delivery]) =
      (c.additions deliveries).extended delivery.annotations position
        delivery.entry.placement := by
  funext q p
  by_cases hq : q = position
  · subst hq
    rw [Additions.extended_self]
    by_cases hp : p = delivery.entry.placement
    · subst hp
      simp [additions, h]
    · rw [extended_of_ne _ _ hp]
      simp [additions, Ne.symm hp]
  · rw [Additions.extended_of_ne _ _ _ hq]
    have hne : ¬position = q := fun e => hq e.symm
    simp [additions, h, hne]

end ExternalAnnotations
