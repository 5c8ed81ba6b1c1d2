import ExternalAnnotations.Proofs.Injection.Delivery
import ExternalAnnotations.Proofs.Signature.Codec

/-!
# Which method an entry selects

An entry for a method is about the first one that has its name and its whole signature. As long as
no two methods of a class have these in common, each method that can be named has one name and one
descriptor of its own. Annotations that have been put on the class make no difference.
-/

namespace ExternalAnnotations

namespace Method

/-- A method has a name, as an index gives it, and a signature. -/
structure Carries (method : Method) (name : String) (descriptor : MethodDescriptor) : Prop where
  kind : method.isConstructor ↔ name = constructorName
  name : name ≠ constructorName → method.name = name
  parameters : List.Forall₂ (fun parameter type => parameter.type.type = type) method.parameters
    descriptor.parameters
  result : method.result.type = descriptor.result

/-- A method has the part at a placement. -/
structure HasPlacement (method : Method) (placement : Placement) : Prop where
  notField : placement ≠ .fieldType
  parameter : ∀ i, placement = .parameter i → i < method.parameters.length
  parameterType : ∀ i, placement = .parameterType i → i < method.parameters.length

/-- The parameters and the result of a method. -/
def descriptor (method : Method) : MethodDescriptor := ⟨method.parameterTypes, method.result.type⟩

/-- What tells a method from others: its name, unless it is a constructor, and its signature. -/
def signature (method : Method) : Option String × MethodDescriptor :=
  (if method.isConstructor then none else some method.name, method.descriptor)

/-- There is a name for the method in an index. -/
def IsNameable (method : Method) : Prop := method.isConstructor ∨ method.name ≠ constructorName

/-- The name of a method in an index. -/
def givenName (method : Method) : String :=
  if method.isConstructor then constructorName else method.name

variable {method : Method} {name : String} {d : MethodDescriptor} {placement : Placement}

lemma hasName_iff : method.hasName name = true ↔
    (method.isConstructor ↔ name = constructorName) ∧
      (name ≠ constructorName → method.name = name) := by
  unfold hasName
  by_cases hname : name = constructorName <;> simp [hname]

lemma carries_iff_hasSignature : method.Carries name d ↔ method.hasSignature name d := by
  have hparameters : List.Forall₂ (fun parameter type => parameter.type.type = type)
      method.parameters d.parameters ↔ method.parameterTypes = d.parameters := by
    rw [parameterTypes, ← List.forall₂_eq_eq_eq, List.forall₂_map_left_iff]
  simp only [hasSignature, Bool.and_eq_true, beq_iff_eq, hasName_iff]
  constructor
  · exact fun h => ⟨⟨⟨h.kind, h.name⟩, hparameters.1 h.parameters⟩, h.result⟩
  · rintro ⟨⟨⟨hkind, hname⟩, hp⟩, hresult⟩
    exact ⟨hkind, hname, hparameters.2 hp, hresult⟩

lemma carries_iff_signature : method.Carries name d ↔
    method.signature = (if name = constructorName then none else some name, d) := by
  have hname : method.hasName name ↔
      (if method.isConstructor then none else some method.name) =
        if name = constructorName then none else some name := by
    unfold hasName
    by_cases hname : name = constructorName <;> by_cases hkind : method.isConstructor <;>
      simp [hname, hkind]
  have hd : method.parameterTypes = d.parameters ∧ method.result.type = d.result ↔
      method.descriptor = d := by
    rw [descriptor, ← MethodDescriptor.mk.injEq]
  rw [carries_iff_hasSignature, signature, Prod.mk.injEq, ← hname, ← hd, hasSignature]
  simp only [Bool.and_eq_true, beq_iff_eq, and_assoc]

lemma IsNameable.carries (h : method.IsNameable) :
    method.Carries method.givenName method.descriptor := by
  rw [carries_iff_signature, signature, givenName]
  rcases h with hkind | hname
  · simp [hkind]
  · by_cases hkind : method.isConstructor <;> simp [hkind, hname]

lemma Carries.unique {other : String} {d' : MethodDescriptor} (h : method.Carries name d)
    (h' : method.Carries other d') : other = name ∧ d' = d := by
  constructor
  · by_cases hkind : method.isConstructor
    · exact (h'.kind.1 hkind).trans (h.kind.1 hkind).symm
    · exact (h'.name (mt h'.kind.2 hkind)).symm.trans (h.name (mt h.kind.2 hkind))
  · rw [carries_iff_signature] at h h'
    exact (congrArg Prod.snd (h.symm.trans h')).symm

lemma hasPlacement_iff : method.HasPlacement placement ↔
    placement.isInMethod method.parameters.length := by
  cases placement with
  | declaration | returnType =>
    refine ⟨fun _ => rfl, fun _ => ⟨Placement.noConfusion, ?_, ?_⟩⟩
    all_goals
      intro i hi
      contradiction
  | parameter i =>
    simp only [Placement.isInMethod, decide_eq_true_eq]
    refine ⟨fun h => h.parameter i rfl, fun h => ⟨Placement.noConfusion, ?_, ?_⟩⟩
    · intro j hj
      cases hj
      exact h
    · intro j hj
      contradiction
  | parameterType i =>
    simp only [Placement.isInMethod, decide_eq_true_eq]
    refine ⟨fun h => h.parameterType i rfl, fun h => ⟨Placement.noConfusion, ?_, ?_⟩⟩
    · intro j hj
      contradiction
    · intro j hj
      cases hj
      exact h
  | fieldType =>
    refine ⟨fun h => absurd rfl h.notField, fun h => ?_⟩
    contradiction

end Method

/-! ### What an entry selects -/

namespace Class

/-- A method is the first one of a class with a name and a signature. -/
def Finds (c : Class) (name : String) (descriptor : MethodDescriptor) (i : Nat) : Prop :=
  ∃ h : i < c.methods.length, c.methods[i].Carries name descriptor ∧
    ∀ j (hj : j < i), ¬c.methods[j].Carries name descriptor

/-- Some entry for a name and the text of a descriptor is about a method. -/
def Selects (c : Class) (name text : String) (i : Nat) : Prop :=
  ∃ descriptor, MethodDescriptor.decode text = .ok descriptor ∧ ∃ entry : Entry,
    entry.member = some (.method name descriptor) ∧ c.position? entry = some (.method i)

variable {c : Class} {i : Nat}

lemma findIdx?_hasSignature {name : String} {d : MethodDescriptor} :
    c.methods.findIdx? (Method.hasSignature name d) = some i ↔ c.Finds name d i := by
  rw [List.findIdx?_eq_some_iff_getElem]
  simp only [Finds, ← Method.carries_iff_hasSignature]

lemma methodAt?_eq_some_iff {name : String} {d : MethodDescriptor} {placement : Placement} :
    c.methodAt? name d placement = some (.method i) ↔
      c.Finds name d i ∧ placement.isInMethod d.arity := by
  simp only [methodAt?, Option.bind_eq_bind, Option.bind_eq_some_iff, findIdx?_hasSignature,
    Option.ite_none_right_eq_some, Option.some.injEq, Position.method.injEq]
  constructor
  · rintro ⟨_, hfinds, hplacement, rfl⟩
    exact ⟨hfinds, hplacement⟩
  · rintro ⟨hfinds, hplacement⟩
    exact ⟨i, hfinds, hplacement, rfl⟩

lemma fieldAt?_ne_method (name : String) (placement : Placement) :
    c.fieldAt? name placement ≠ some (.method i) := by
  simp [fieldAt?, Option.bind_eq_some_iff]

lemma position?_eq_method_iff {entry : Entry} :
    c.position? entry = some (.method i) ↔ ∃ name d, entry.member = some (.method name d) ∧
      c.Finds name d i ∧ entry.placement.isInMethod d.arity := by
  unfold position?
  cases hmember : entry.member with
  | none => simp
  | some member =>
    cases member with
    | method name d => simp [methodAt?_eq_some_iff]
    | field name => simp [fieldAt?_ne_method]

lemma Finds.unique {name : String} {d : MethodDescriptor} {j : Nat} (h : c.Finds name d i)
    (h' : c.Finds name d j) : j = i :=
  Option.some.inj ((findIdx?_hasSignature.2 h').symm.trans (findIdx?_hasSignature.2 h))

lemma selects_iff {name text : String} :
    c.Selects name text i ↔
      ∃ d, MethodDescriptor.decode text = .ok d ∧ c.Finds name d i := by
  constructor
  · rintro ⟨d, hd, entry, hmember, hposition⟩
    obtain ⟨name', d', hmember', hfinds, -⟩ := position?_eq_method_iff.1 hposition
    obtain ⟨rfl, rfl⟩ : name = name' ∧ d = d' := by simpa [hmember] using hmember'
    exact ⟨d, hd, hfinds⟩
  · rintro ⟨d, hd, hfinds⟩
    refine ⟨d, hd, ⟨"", "", some (.method name d), .declaration, [], .start⟩, rfl, ?_⟩
    exact position?_eq_method_iff.2 ⟨name, d, rfl, hfinds, rfl⟩

/-- Among methods that can be told from each other, a method that can be named is found by its own
name and signature. -/
lemma finds_givenName (hdistinct : (c.methods.map (·.signature)).Nodup)
    (h : i < c.methods.length) (hnameable : c.methods[i].IsNameable) :
    c.Finds c.methods[i].givenName c.methods[i].descriptor i := by
  refine ⟨h, hnameable.carries, fun j hj hcarries => hj.ne ?_⟩
  have hsame := (Method.carries_iff_signature.1 hcarries).trans
    (Method.carries_iff_signature.1 hnameable.carries).symm
  have hlt : j < (c.methods.map (·.signature)).length := by
    rw [List.length_map]
    omega
  have hlt' : i < (c.methods.map (·.signature)).length := by
    rwa [List.length_map]
  exact (@List.Nodup.getElem_inj_iff _ _ hdistinct _ hlt _ hlt').1 (by simpa using hsame)

end Class

/-! ### Where something is attached -/

lemma of_replaceAt? {α : Type} {items changed : List α} {i : Nat} {change : α → Option α}
    (h : replaceAt? items i change = some changed) :
    ∃ a, items[i]? = some a ∧ ∃ b, change a = some b := by
  simp only [replaceAt?, Option.bind_eq_bind, Option.bind_eq_some_iff] at h
  obtain ⟨a, ha, b, hb, -⟩ := h
  exact ⟨a, ha, b, hb⟩

lemma Method.isInMethod_of_attach? {method changed : Method}
    {annotations : List AnnotationInstance} {placement : Placement}
    (h : method.attach? annotations placement = some changed) :
    placement.isInMethod method.parameters.length := by
  have hparameter : ∀ i change, (do
      return { method with parameters := ← replaceAt? method.parameters i change } :
        Option Method) = some changed → i < method.parameters.length := by
    intro i change h
    simp only [Option.bind_eq_bind, Option.bind_eq_some_iff] at h
    obtain ⟨parameters, hparameters, -⟩ := h
    obtain ⟨parameter, hparameter, -⟩ := of_replaceAt? hparameters
    exact (List.getElem?_eq_some_iff.1 hparameter).1
  cases placement with
  | declaration | returnType => rfl
  | parameter i | parameterType i => exact decide_eq_true (hparameter i _ h)
  | fieldType => contradiction

lemma Field.isInField_of_attach? {field changed : Field} {annotations : List AnnotationInstance}
    {placement : Placement} (h : field.attach? annotations placement = some changed) :
    placement.isInField := by
  cases placement with
  | declaration | fieldType => rfl
  | returnType | parameter | parameterType => contradiction

lemma Class.hasPart_of_attach? {c changed : Class} {placement : Placement}
    {annotations : List AnnotationInstance} {position : Position}
    (h : c.attach? placement annotations position = some changed) :
    c.HasPart placement position := by
  cases position with
  | classItself =>
    simp only [attach?, Option.ite_none_right_eq_some] at h
    exact h.1
  | method i =>
    simp only [attach?, Option.bind_eq_bind, Option.bind_eq_some_iff] at h
    obtain ⟨methods, hmethods, -⟩ := h
    obtain ⟨method, hmethod, _, hattach⟩ := of_replaceAt? hmethods
    exact ⟨method, hmethod, Method.isInMethod_of_attach? hattach⟩
  | field i =>
    simp only [attach?, Option.bind_eq_bind, Option.bind_eq_some_iff] at h
    obtain ⟨fields, hfields, -⟩ := h
    obtain ⟨field, hfield, _, hattach⟩ := of_replaceAt? hfields
    exact ⟨field, hfield, Field.isInField_of_attach? hattach⟩

lemma Class.position?_attach? {c changed : Class} {placement : Placement}
    {annotations : List AnnotationInstance} {position : Position}
    (h : c.attach? placement annotations position = some changed) (entry : Entry) :
    changed.position? entry = c.position? entry := by
  have hattach := c.attach?_adding annotations (fun _ _ => []) (hasPart_of_attach? h)
  rw [adding_nil, h, Option.getD_some] at hattach
  rw [hattach, position?_adding]

lemma TypeSources.position?_applyEntries (sources : TypeSources) (c : Class)
    (entries : List Entry) (memo : Memo) (entry : Entry) :
    ((sources.applyEntries c entries).run memo).1.1.position? entry = c.position? entry := by
  obtain ⟨hclass, -⟩ := sources.applyEntries_adding c entries [] memo
  have hnil : c.adding (c.additions []) = c := c.adding_nil
  rw [hnil] at hclass
  rw [hclass, Class.position?_adding]

/-- **Exact matching.** An entry is about the first method with its name and its whole signature,
if that has the part that is meant. In a class whose methods can be told from each other, each that
can be named and has a descriptor that can be read is selected by one name and one text, which
select no other. And what entries are about stays the same whatever is attached to the class. -/
theorem entries_match_exactly (c : Class) :
    (∀ entry i, c.position? entry = some (.method i) ↔
      ∃ name d method, entry.member = some (.method name d) ∧ c.Finds name d i ∧
        c.methods[i]? = some method ∧ method.HasPlacement entry.placement) ∧
    ((c.methods.map (·.signature)).Nodup →
      ∀ i method, c.methods[i]? = some method → method.IsNameable →
        (∃ text, MethodDescriptor.decode text = .ok method.descriptor) →
        ∃ name text, (∀ j, c.Selects name text j ↔ j = i) ∧
          ∀ name' text', c.Selects name' text' i → name' = name ∧ text' = text) ∧
    (∀ placement annotations position changed,
      c.attach? placement annotations position = some changed →
        ∀ entry, changed.position? entry = c.position? entry) ∧
    ∀ (sources : TypeSources) entries memo entry,
      ((sources.applyEntries c entries).run memo).1.1.position? entry = c.position? entry := by
  refine ⟨fun entry i => ?_, fun hdistinct i method hmethod hnameable htext => ?_,
    fun _ _ _ _ h => Class.position?_attach? h, fun sources entries memo =>
      sources.position?_applyEntries c entries memo⟩
  · rw [Class.position?_eq_method_iff]
    refine exists_congr fun name => exists_congr fun d => ?_
    rw [exists_and_left, exists_and_left]
    refine and_congr_right fun _ => and_congr_right fun ⟨hlt, hcarries, _⟩ => ?_
    simp only [List.getElem?_eq_getElem hlt, Option.some.injEq, exists_eq_left',
      Method.hasPlacement_iff, hcarries.parameters.length_eq, MethodDescriptor.arity]
  · obtain ⟨hlt, rfl⟩ := List.getElem?_eq_some_iff.1 hmethod
    obtain ⟨text, htext⟩ := htext
    have hfinds := c.finds_givenName hdistinct hlt hnameable
    refine ⟨c.methods[i].givenName, text, fun j => ⟨fun hselects => ?_, ?_⟩,
      fun name' text' hselects => ?_⟩
    · obtain ⟨d, hd, hfound⟩ := Class.selects_iff.1 hselects
      obtain rfl := Except.ok.inj (htext.symm.trans hd)
      exact hfinds.unique hfound
    · rintro rfl
      exact Class.selects_iff.2 ⟨_, htext, hfinds⟩
    · obtain ⟨d, hd, hlt', hcarries, -⟩ := Class.selects_iff.1 hselects
      obtain ⟨rfl, rfl⟩ := hnameable.carries.unique hcarries
      refine ⟨rfl, ?_⟩
      rw [(MethodDescriptor.decode_eq_ok_iff.1 hd).2, (MethodDescriptor.decode_eq_ok_iff.1 htext).2]

/-- A class `p.Box` with a constructor, and with methods `put` for a number and for a string. -/
def Class.overloaded : Class :=
  let put (type : ErasedType) : Method :=
    { Method.ofName "put" with parameters := [⟨"value", .plain type, []⟩] }
  ⟨"p.Box", .ordinary, [], none, [], [],
    [.ofConstructor, put (.primitive .int), put (.named "java.lang.String")], [], none, [], 0⟩

/-- The method for a number is the only one for its name and descriptor, also when something has
been put on the other. -/
theorem entries_match_exactly_overloaded :
    (∃ name text, (∀ j, Class.overloaded.Selects name text j ↔ j = 1) ∧
      ∀ name' text', Class.overloaded.Selects name' text' 1 → name' = name ∧ text' = text) ∧
    ∃ changed, Class.overloaded.attach? (.parameter 0) [.bare "p.A"] (.method 2) = some changed ∧
      ∀ entry, changed.position? entry = Class.overloaded.position? entry := by
  obtain ⟨-, hselect, hattach, -⟩ := entries_match_exactly Class.overloaded
  have hencodable : MethodDescriptor.Encodable ⟨[.primitive .int], .void⟩ :=
    ⟨List.forall_mem_singleton.2 ⟨trivial, Nat.zero_le _⟩, .inl rfl⟩
  have hdecode : MethodDescriptor.decode "(I)V" = .ok ⟨[.primitive .int], .void⟩ :=
    MethodDescriptor.decode_eq_ok_iff.2 ⟨hencodable, by decide⟩
  have hchanged : (Class.overloaded.attach? (.parameter 0) [.bare "p.A"] (.method 2)).isSome := rfl
  obtain ⟨changed, hchanged⟩ := Option.isSome_iff_exists.1 hchanged
  exact ⟨hselect (by decide) 1 _ rfl (.inr (by decide)) ⟨"(I)V", hdecode⟩,
    changed, hchanged, hattach _ _ _ _ hchanged⟩

end ExternalAnnotations
