import ExternalAnnotations.Proofs.Resolution.Growth

/-!
# Filling in the elements of a type

The values written in an annotation are looked at twice: once for the elements that its type does
not have, and once by the elements that it has. `Filling` says what the elements get, one after the
other, and what is reported for them. Together this accounts for every value but one that is written
for an element that has been written before.
-/

namespace ExternalAnnotations

/-! ### One element -/

lemma lookup_convertFields (sources : TypeSources) (lookup : TypeLookup) (package name : String)
    (fields : List (String × WrittenValue)) :
    (convertFields sources lookup package fields).lookup name =
      (fields.lookup name).map (convertValue sources lookup package) := by
  induction fields with
  | nil =>
    rw [convertFields]
    rfl
  | cons field fields ih =>
    rw [convertFields, List.lookup_cons, List.lookup_cons]
    split <;> simp [ih]

namespace AnnotationElement

variable (typeName : String)
  {written : List (String × (ElementType → Converting AnnotationValue))}
  {element : AnnotationElement}

lemma run_value_of_unwritten (hwritten : written.lookup element.name = none) (memo : Memo) :
    (element.value typeName written).run memo = (element.default, memo) := by
  rw [value, hwritten]
  rfl

variable {convert : ElementType → Converting AnnotationValue} {memo middle : Memo}
  (hwritten : written.lookup element.name = some convert)
include hwritten

lemma run_value_of_fits {value : AnnotationValue}
    (hresult : (convert element.type).run.run memo = (.ok value, middle)) :
    (element.value typeName written).run memo = (some value, middle) := by
  simp only [AnnotationElement.value, hwritten]
  rw [Resolving.run_bind, hresult]
  rfl

lemma run_value_of_unfit {fault : ElementFault}
    (hresult : (convert element.type).run.run memo = (.error fault, middle)) :
    (element.value typeName written).run memo =
      (none, middle.report (.invalidElement typeName element.name fault)) := by
  simp only [AnnotationElement.value, hwritten]
  rw [Resolving.run_bind, hresult]
  rfl

end AnnotationElement

lemma Resolving.Appends.reported {α : Type} {work : Resolving α} (h : work.Appends) (memo : Memo) :
    ∃ reported, (work.run memo).2.diagnostics = memo.diagnostics ++ reported := by
  have hbehind := h ⟨memo.known, []⟩ memo.diagnostics
  rw [Memo.behind, List.append_nil] at hbehind
  exact ⟨_, congrArg (·.2.diagnostics) hbehind⟩

/-! ### All elements -/

/-- How elements get their values from one memo to another: what they get, and the faults that are
reported for what is written for them. What is reported inside of that, for annotations nested in
it, is not among these. -/
inductive Filling (typeName : String)
    (written : List (String × (ElementType → Converting AnnotationValue))) :
    List AnnotationElement → Memo → List (String × AnnotationValue) →
      List (String × ElementFault) → Memo → Prop
  | done (memo : Memo) : Filling typeName written [] memo [] [] memo
  | unwritten {element : AnnotationElement} {elements : List AnnotationElement} {memo later : Memo}
      {values : List (String × AnnotationValue)} {faults : List (String × ElementFault)}
      (hwritten : written.lookup element.name = none)
      (rest : Filling typeName written elements memo values faults later) :
      Filling typeName written (element :: elements) memo
        ((element.default.map (element.name, ·)).toList ++ values) faults later
  | fits {element : AnnotationElement} {elements : List AnnotationElement}
      {memo middle later : Memo} {values : List (String × AnnotationValue)}
      {faults : List (String × ElementFault)} {convert : ElementType → Converting AnnotationValue}
      {value : AnnotationValue} (hwritten : written.lookup element.name = some convert)
      (hvalue : (convert element.type).run.run memo = (.ok value, middle))
      (rest : Filling typeName written elements middle values faults later) :
      Filling typeName written (element :: elements) memo ((element.name, value) :: values) faults
        later
  | unfit {element : AnnotationElement} {elements : List AnnotationElement}
      {memo middle later : Memo} {values : List (String × AnnotationValue)}
      {faults : List (String × ElementFault)} {convert : ElementType → Converting AnnotationValue}
      {fault : ElementFault} (hwritten : written.lookup element.name = some convert)
      (hfault : (convert element.type).run.run memo = (.error fault, middle))
      (rest : Filling typeName written elements
        (middle.report (.invalidElement typeName element.name fault)) values faults later) :
      Filling typeName written (element :: elements) memo values ((element.name, fault) :: faults)
        later

namespace Filling

variable {typeName : String} {written : List (String × (ElementType → Converting AnnotationValue))}
  {elements : List AnnotationElement} {memo later : Memo}
  {values : List (String × AnnotationValue)} {faults : List (String × ElementFault)}

lemma of_fillElements (type : AnnotationType)
    (written : List (String × (ElementType → Converting AnnotationValue)))
    (elements : List AnnotationElement) (memo : Memo) :
    ∃ faults, Filling type.name written elements memo
      ((fillElements type written elements).run memo).1 faults
      ((fillElements type written elements).run memo).2 := by
  induction elements generalizing memo with
  | nil => exact ⟨[], .done memo⟩
  | cons element elements ih =>
    rw [fillElements_cons, Resolving.run_bind]
    cases hwritten : written.lookup element.name with
    | none =>
      rw [AnnotationElement.run_value_of_unwritten type.name hwritten memo]
      obtain ⟨faults, h⟩ := ih memo
      exact ⟨faults, .unwritten hwritten h⟩
    | some convert =>
      rcases hresult : (convert element.type).run.run memo with ⟨fault | value, middle⟩
      · rw [AnnotationElement.run_value_of_unfit type.name hwritten hresult]
        obtain ⟨faults, h⟩ := ih (middle.report (.invalidElement type.name element.name fault))
        exact ⟨_, .unfit hwritten hresult h⟩
      · rw [AnnotationElement.run_value_of_fits type.name hwritten hresult]
        obtain ⟨faults, h⟩ := ih middle
        exact ⟨faults, .fits hwritten hresult h⟩

lemma of_written (h : Filling typeName written elements memo values faults later)
    {element : AnnotationElement} (hmem : element ∈ elements)
    {convert : ElementType → Converting AnnotationValue}
    (hwritten : written.lookup element.name = some convert) :
    ∃ middle, (∃ value, ((convert element.type).run.run middle).1 = .ok value ∧
        (element.name, value) ∈ values) ∨
      ∃ fault, ((convert element.type).run.run middle).1 = .error fault ∧
        (element.name, fault) ∈ faults := by
  induction h with
  | done => contradiction
  | unwritten hnone _ ih =>
    rcases List.mem_cons.1 hmem with rfl | hmem
    · rw [hwritten] at hnone
      contradiction
    · obtain ⟨middle, ⟨value, hvalue, hin⟩ | hfault⟩ := ih hmem
      · exact ⟨middle, .inl ⟨value, hvalue, List.mem_append_right _ hin⟩⟩
      · exact ⟨middle, .inr hfault⟩
  | @fits _ _ memo _ _ _ _ _ value hsome hvalue _ ih =>
    rcases List.mem_cons.1 hmem with rfl | hmem
    · obtain rfl := Option.some.inj (hsome.symm.trans hwritten)
      exact ⟨memo, .inl ⟨value, congrArg Prod.fst hvalue, List.mem_cons_self⟩⟩
    · obtain ⟨middle, ⟨value, hvalue, hin⟩ | hfault⟩ := ih hmem
      · exact ⟨middle, .inl ⟨value, hvalue, List.mem_cons_of_mem _ hin⟩⟩
      · exact ⟨middle, .inr hfault⟩
  | @unfit _ _ memo _ _ _ _ _ fault hsome hfault _ ih =>
    rcases List.mem_cons.1 hmem with rfl | hmem
    · obtain rfl := Option.some.inj (hsome.symm.trans hwritten)
      exact ⟨memo, .inr ⟨fault, congrArg Prod.fst hfault, List.mem_cons_self⟩⟩
    · obtain ⟨middle, hvalue | ⟨fault, hfault, hin⟩⟩ := ih hmem
      · exact ⟨middle, .inl hvalue⟩
      · exact ⟨middle, .inr ⟨fault, hfault, List.mem_cons_of_mem _ hin⟩⟩

lemma of_fault (h : Filling typeName written elements memo values faults later) {name : String}
    {fault : ElementFault} (hfault : (name, fault) ∈ faults) :
    ∃ element ∈ elements, element.name = name ∧ ∃ convert, written.lookup name = some convert ∧
      ∃ middle, ((convert element.type).run.run middle).1 = .error fault := by
  induction h with
  | done => contradiction
  | unwritten _ _ ih =>
    obtain ⟨element, hmem, hrest⟩ := ih hfault
    exact ⟨element, List.mem_cons_of_mem _ hmem, hrest⟩
  | fits _ _ _ ih =>
    obtain ⟨element, hmem, hrest⟩ := ih hfault
    exact ⟨element, List.mem_cons_of_mem _ hmem, hrest⟩
  | @unfit element _ memo _ _ _ _ convert _ hwritten hresult _ ih =>
    rcases List.mem_cons.1 hfault with heq | hfault
    · obtain ⟨rfl, rfl⟩ := Prod.mk.inj heq
      exact ⟨element, List.mem_cons_self, rfl, convert, hwritten, memo, congrArg Prod.fst hresult⟩
    · obtain ⟨element, hmem, hrest⟩ := ih hfault
      exact ⟨element, List.mem_cons_of_mem _ hmem, hrest⟩

lemma name_of_value (h : Filling typeName written elements memo values faults later) {name : String}
    {value : AnnotationValue} (hvalue : (name, value) ∈ values) :
    name ∈ elements.map (·.name) := by
  induction h with
  | done => contradiction
  | @unwritten element _ _ _ _ _ _ _ ih =>
    rcases List.mem_append.1 hvalue with hdefault | hvalue
    · cases hd : element.default with
      | none => simp [hd] at hdefault
      | some default =>
        have heq : (name, value) = (element.name, default) := by simpa [hd] using hdefault
        exact (Prod.mk.inj heq).1 ▸ List.mem_cons_self
    · exact List.mem_cons_of_mem _ (ih hvalue)
  | fits _ _ _ ih =>
    rcases List.mem_cons.1 hvalue with heq | hvalue
    · exact (Prod.mk.inj heq).1 ▸ List.mem_cons_self
    · exact List.mem_cons_of_mem _ (ih hvalue)
  | unfit _ _ _ ih => exact List.mem_cons_of_mem _ (ih hvalue)

lemma not_value_of_fault (h : Filling typeName written elements memo values faults later)
    (hnodup : (elements.map (·.name)).Nodup) {name : String} {fault : ElementFault}
    (hfault : (name, fault) ∈ faults) (value : AnnotationValue) : (name, value) ∉ values := by
  intro hvalue
  induction h with
  | done => contradiction
  | @unwritten element _ _ _ _ _ hwritten rest ih =>
    have hnodup := List.nodup_cons.1 hnodup
    rcases List.mem_append.1 hvalue with hdefault | hvalue
    · obtain ⟨_, -, rfl, convert, hsome, -⟩ := rest.of_fault hfault
      obtain ⟨default, -, heq⟩ := Option.map_eq_some_iff.1 (Option.mem_toList.1 hdefault)
      rw [← (Prod.mk.inj heq).1, hwritten] at hsome
      contradiction
    · exact ih hnodup.2 hfault hvalue
  | fits _ _ rest ih =>
    have hnodup := List.nodup_cons.1 hnodup
    rcases List.mem_cons.1 hvalue with heq | hvalue
    · obtain ⟨rfl, -⟩ := Prod.mk.inj heq
      obtain ⟨other, hmem, hname, -⟩ := rest.of_fault hfault
      exact hnodup.1 (List.mem_map.2 ⟨other, hmem, hname⟩)
    · exact ih hnodup.2 hfault hvalue
  | unfit _ _ rest ih =>
    have hnodup := List.nodup_cons.1 hnodup
    rcases List.mem_cons.1 hfault with heq | hfault
    · obtain ⟨rfl, -⟩ := Prod.mk.inj heq
      exact hnodup.1 (rest.name_of_value hvalue)
    · exact ih hnodup.2 hfault hvalue

lemma reported (h : Filling typeName written elements memo values faults later)
    (happends : ∀ field ∈ written, ∀ type, Resolving.Appends (field.2 type).run) :
    ∃ reported, later.diagnostics = memo.diagnostics ++ reported ∧
      (faults.map fun (name, fault) => .invalidElement typeName name fault).Sublist reported := by
  induction h with
  | done memo => exact ⟨[], (List.append_nil _).symm, .slnil⟩
  | unwritten _ _ ih => exact ih
  | fits hwritten hvalue _ ih =>
    obtain ⟨nested, hnested⟩ := (happends _ (mem_of_lookup hwritten) _).reported _
    obtain ⟨reported, hreported, hsub⟩ := ih
    rw [hvalue] at hnested
    refine ⟨nested ++ reported, ?_, hsub.trans (List.sublist_append_right _ _)⟩
    rw [hreported, hnested, List.append_assoc]
  | unfit hwritten hfault _ ih =>
    obtain ⟨nested, hnested⟩ := (happends _ (mem_of_lookup hwritten) _).reported _
    obtain ⟨reported, hreported, hsub⟩ := ih
    rw [hfault] at hnested
    refine ⟨nested ++ _ :: reported, ?_,
      (hsub.cons_cons _).trans (List.sublist_append_right _ _)⟩
    rw [hreported, Memo.report, hnested, List.append_assoc, List.append_assoc]
    rfl

end Filling

/-! ### The annotation -/

/-- What is wrong with the values for elements that a type does not have. -/
def AnnotationType.strangers (type : AnnotationType) (fields : List (String × WrittenValue)) :
    List (String × ElementFault) :=
  (fields.filter fun field => (type.element? field.1).isNone).map fun field =>
    (field.1, .noSuchElement)

lemma AnnotationType.mem_strangers {type : AnnotationType} {fields : List (String × WrittenValue)}
    {name : String} {value : WrittenValue} (hmem : (name, value) ∈ fields)
    (hnone : type.element? name = none) : (name, .noSuchElement) ∈ type.strangers fields :=
  List.mem_map.2 ⟨(name, value), List.mem_filter.2 ⟨hmem, by simp [hnone]⟩, rfl⟩

lemma AnnotationType.of_element? {type : AnnotationType} {name : String}
    {element : AnnotationElement} (h : type.element? name = some element) :
    element ∈ type.elements ∧ element.name = name := by
  have hname := List.find?_some h
  exact ⟨List.mem_of_find?_eq_some h, eq_of_beq hname⟩

/-- A diagnostic for each of the faults of an annotation. -/
def faultDiagnostics (typeName : String) (faults : List (String × ElementFault)) :
    List Diagnostic :=
  faults.map fun (name, fault) => .invalidElement typeName name fault

/-- What is written for an element comes to a value or a fault, for an element of that name. -/
def AnnotationType.Converts (sources : TypeSources) (lookup : TypeLookup) (package : String)
    (type : AnnotationType) (name : String) (written : WrittenValue)
    (result : Except ElementFault AnnotationValue) : Prop :=
  ∃ element ∈ type.elements, element.name = name ∧ ∃ memo,
    ((convertValue sources lookup package written element.type).run.run memo).1 = result

section

variable (sources : TypeSources) (lookup : TypeLookup) (package : String) (type : AnnotationType)
  (fields : List (String × WrittenValue))

lemma run_strangers (memo : Memo) :
    ((convertFields sources lookup package fields).forM fun (name, _) =>
      if (type.element? name).isNone then reportFault type.name name .noSuchElement
      else pure ()).run memo =
      ((), { memo with diagnostics :=
        memo.diagnostics ++ faultDiagnostics type.name (type.strangers fields) }) := by
  induction fields generalizing memo with
  | nil =>
    rw [convertFields]
    exact congrArg (Prod.mk ()) (congrArg (Memo.mk memo.known) (List.append_nil _).symm)
  | cons field fields ih =>
    obtain ⟨name, value⟩ := field
    rw [convertFields, List.forM, Resolving.run_bind]
    dsimp only
    cases hname : type.element? name with
    | none =>
      have hstrangers : type.strangers ((name, value) :: fields) =
          (name, .noSuchElement) :: type.strangers fields := by
        simp [AnnotationType.strangers, hname]
      rw [Option.isNone_none, if_pos rfl, hstrangers]
      refine (ih _).trans (congrArg (Prod.mk ()) (congrArg (Memo.mk memo.known) ?_))
      exact List.append_assoc memo.diagnostics [_] _
    | some element =>
      have hstrangers : type.strangers ((name, value) :: fields) = type.strangers fields := by
        simp [AnnotationType.strangers, hname]
      rw [Option.isNone_some, if_neg Bool.false_ne_true, hstrangers]
      exact ih memo

lemma run_instantiate (memo : Memo) :
    (instantiate type (convertFields sources lookup package fields)).run memo =
      (do
        return ⟨type.name, ← fillElements type (convertFields sources lookup package fields)
          type.elements, type.retention⟩ : Resolving AnnotationInstance).run
        { memo with diagnostics :=
          memo.diagnostics ++ faultDiagnostics type.name (type.strangers fields) } := by
  rw [instantiate, Resolving.run_bind, run_strangers]

/-- The faults of an annotation itself are reported: first those of values for elements that the
type does not have, then those of its elements. -/
lemma filling_instantiate (available : List String) (memo : Memo) :
    let written := convertFields sources (sources.lookupAmong available) package fields
    let run := (instantiate type written).run memo
    ∃ faults reported,
      Filling type.name written type.elements
        { memo with diagnostics :=
          memo.diagnostics ++ faultDiagnostics type.name (type.strangers fields) }
        run.1.values faults run.2 ∧
      run.2.diagnostics = memo.diagnostics ++ reported ∧
      (faultDiagnostics type.name (type.strangers fields ++ faults)).Sublist reported := by
  intro written run
  have happends : ∀ field ∈ written, ∀ type, Resolving.Appends (field.2 type).run := by
    have hfields : WorkRelation.appending.Fields written written :=
      WorkRelation.appending.convertFields_hold (.refl sources) package fields
        fun _ _ => .of_holds (sources.appends_lookupAmong available _)
    exact fun field hmem => (List.forall₂_same.1 hfields field hmem).2
  obtain ⟨faults, hfilling⟩ := Filling.of_fillElements type written type.elements
    { memo with diagnostics :=
      memo.diagnostics ++ faultDiagnostics type.name (type.strangers fields) }
  obtain ⟨reported, hreported, hsub⟩ := hfilling.reported happends
  have hrun : run = _ := run_instantiate sources (sources.lookupAmong available) package type
    fields memo
  refine ⟨faults, faultDiagnostics type.name (type.strangers fields) ++ reported, ?_, ?_, ?_⟩
  · rw [hrun]
    exact hfilling
  · rw [hrun]
    exact hreported.trans (List.append_assoc _ _ _)
  · rw [faultDiagnostics, List.map_append]
    exact hsub.append_left _

lemma fillElements_congr
    {written written' : List (String × (ElementType → Converting AnnotationValue))}
    (h : ∀ name, written.lookup name = written'.lookup name) (elements : List AnnotationElement) :
    fillElements type written elements = fillElements type written' elements := by
  induction elements with
  | nil => rfl
  | cons element elements ih => rw [fillElements, fillElements, h, ih]

lemma instantiate_of_repeated {before after : List (String × WrittenValue)} {name : String}
    {value : WrittenValue} (hrepeated : name ∈ before.map (·.1))
    (helement : (type.element? name).isSome) :
    instantiate type (convertFields sources lookup package (before ++ (name, value) :: after)) =
      instantiate type (convertFields sources lookup package (before ++ after)) := by
  have hstrangers : type.strangers (before ++ (name, value) :: after) =
      type.strangers (before ++ after) := by
    obtain ⟨element, helement⟩ := Option.isSome_iff_exists.1 helement
    simp [AnnotationType.strangers, helement]
  have hlookup : ∀ other, (before ++ (name, value) :: after).lookup other =
      (before ++ after).lookup other := by
    intro other
    rw [List.lookup_append, List.lookup_append, List.lookup_cons]
    split
    · rename_i heq
      obtain rfl := eq_of_beq heq
      obtain ⟨field, hmem, rfl⟩ := List.mem_map.1 hrepeated
      cases hfirst : before.lookup field.1 with
      | none =>
        have hne := List.lookup_eq_none_iff.1 hfirst field hmem
        simp at hne
      | some first => rfl
    · rfl
  have hfill : fillElements type
        (convertFields sources lookup package (before ++ (name, value) :: after)) type.elements =
      fillElements type (convertFields sources lookup package (before ++ after)) type.elements :=
    fillElements_congr type (fun other => by
      rw [lookup_convertFields, lookup_convertFields, hlookup]) _
  funext memo
  have h := run_instantiate sources lookup package type (before ++ (name, value) :: after) memo
  rw [hstrangers, hfill] at h
  exact h.trans (run_instantiate sources lookup package type (before ++ after) memo).symm

end

/-! ### What accounts for a value -/

namespace Filling

variable {sources : TypeSources} {lookup : TypeLookup} {package : String} {type : AnnotationType}
  {fields : List (String × WrittenValue)} {memo later : Memo}
  {values : List (String × AnnotationValue)} {faults : List (String × ElementFault)}
  (h : Filling type.name (convertFields sources lookup package fields) type.elements memo values
    faults later)
include h

lemma value_or_fault {name : String} {value : WrittenValue} (hmem : (name, value) ∈ fields)
    (hfirst : fields.lookup name = some value ∨ type.element? name = none) :
    (∃ converted, type.Converts sources lookup package name value (.ok converted) ∧
      (name, converted) ∈ values) ∨
      ∃ fault, (name, fault) ∈ type.strangers fields ++ faults := by
  cases helement : type.element? name with
  | none => exact .inr ⟨_, List.mem_append_left _ (AnnotationType.mem_strangers hmem helement)⟩
  | some element =>
    have hvalue : fields.lookup name = some value := by simpa [helement] using hfirst
    obtain ⟨hin, rfl⟩ := AnnotationType.of_element? helement
    have hwritten := lookup_convertFields sources lookup package element.name fields
    rw [hvalue] at hwritten
    obtain ⟨middle, ⟨converted, hok, hconverted⟩ | ⟨fault, -, hfault⟩⟩ := h.of_written hin hwritten
    · exact .inl ⟨converted, ⟨element, hin, rfl, middle, hok⟩, hconverted⟩
    · exact .inr ⟨fault, List.mem_append_right _ hfault⟩

lemma not_value_of_stranger {name : String} (hnone : type.element? name = none)
    (value : AnnotationValue) : (name, value) ∉ values := by
  intro hvalue
  obtain ⟨element, hin, hname⟩ := List.mem_map.1 (h.name_of_value hvalue)
  have hne := List.find?_eq_none.1 hnone element hin
  exact hne (beq_of_eq hname)

lemma written_of_fault {name : String} {fault : ElementFault}
    (hfault : (name, fault) ∈ type.strangers fields ++ faults) :
    (∃ value, (name, value) ∈ fields ∧
      (type.element? name = none ∨ fields.lookup name = some value ∧
        type.Converts sources lookup package name value (.error fault))) ∧
      ((type.elements.map (·.name)).Nodup → ∀ value, (name, value) ∉ values) := by
  rcases List.mem_append.1 hfault with hstranger | hfault
  · obtain ⟨⟨_, value⟩, hfield, heq⟩ := List.mem_map.1 hstranger
    obtain ⟨rfl, rfl⟩ := Prod.mk.inj heq
    obtain ⟨hmem, hnone⟩ := List.mem_filter.1 hfield
    have hnone := Option.isNone_iff_eq_none.1 hnone
    exact ⟨⟨value, hmem, .inl hnone⟩, fun _ => h.not_value_of_stranger hnone⟩
  · obtain ⟨element, hin, hname, convert, hwritten, middle, herror⟩ := h.of_fault hfault
    rw [lookup_convertFields] at hwritten
    obtain ⟨value, hvalue, rfl⟩ := Option.map_eq_some_iff.1 hwritten
    exact ⟨⟨value, mem_of_lookup hvalue, .inr ⟨hvalue, element, hin, hname, middle, herror⟩⟩,
      fun hnodup => h.not_value_of_fault hnodup hfault⟩

end Filling

/-- **Written values.** A value that is written for an element, unless it is written once more, is
converted and in the annotation, or a fault is reported for the element. Every fault that is
reported for the annotation itself is that of a written value, and if the type has no two elements
of one name, the annotation has no value for it. But a value that is written for an element once
more is lost: nothing would be different without it. -/
theorem written_values_accounted (sources : TypeSources) (available : List String)
    (package : String) (type : AnnotationType) (fields : List (String × WrittenValue))
    (memo : Memo) :
    let lookup := sources.lookupAmong available
    let written := convertFields sources lookup package fields
    let run := (instantiate type written).run memo
    ∃ faults reported,
      Filling type.name written type.elements
        { memo with diagnostics :=
          memo.diagnostics ++ faultDiagnostics type.name (type.strangers fields) }
        run.1.values faults run.2 ∧
      run.2.diagnostics = memo.diagnostics ++ reported ∧
      (faultDiagnostics type.name (type.strangers fields ++ faults)).Sublist reported ∧
      (∀ name value, (name, value) ∈ fields →
        fields.lookup name = some value ∨ type.element? name = none →
        (∃ converted, type.Converts sources lookup package name value (.ok converted) ∧
          (name, converted) ∈ run.1.values) ∨
        ∃ fault, (name, fault) ∈ type.strangers fields ++ faults) ∧
      (∀ name fault, (name, fault) ∈ type.strangers fields ++ faults →
        (∃ value, (name, value) ∈ fields ∧
          (type.element? name = none ∨ fields.lookup name = some value ∧
            type.Converts sources lookup package name value (.error fault))) ∧
        ((type.elements.map (·.name)).Nodup → ∀ value, (name, value) ∉ run.1.values)) ∧
      ∀ before name value after, fields = before ++ (name, value) :: after →
        name ∈ before.map (·.1) → (type.element? name).isSome →
        instantiate type written =
          instantiate type (convertFields sources lookup package (before ++ after)) := by
  intro lookup written run
  obtain ⟨faults, reported, hfilling, hreported, hsub⟩ :=
    filling_instantiate sources package type fields available memo
  refine ⟨faults, reported, hfilling, hreported, hsub, fun _ _ => hfilling.value_or_fault,
    fun _ _ => hfilling.written_of_fault, ?_⟩
  rintro before name value after rfl hrepeated helement
  exact instantiate_of_repeated sources lookup package type hrepeated helement

/-- An annotation type `p.X` with an element `a` of type `int`. -/
def AnnotationType.counted : AnnotationType :=
  ⟨"p.X", .classFile, [], [⟨"a", .primitive .int, none⟩]⟩

/-- The first value for `a` is there, the one for `b` is reported, and the second for `a` is not. -/
theorem written_values_accounted_counted :
    let sources : TypeSources := ⟨{}, {}⟩
    let lookup := sources.lookupAmong []
    let type := AnnotationType.counted
    let fields := [("a", .int 1), ("b", .bool true), ("a", .string "s")]
    let run := (instantiate type (convertFields sources lookup "p" fields)).run {}
    ∃ faults,
      ((∃ converted, type.Converts sources lookup "p" "a" (.int 1) (.ok converted) ∧
        ("a", converted) ∈ run.1.values) ∨
        ∃ fault, ("a", fault) ∈ type.strangers fields ++ faults) ∧
      (∃ fault, ("b", fault) ∈ type.strangers fields ++ faults) ∧
      (∀ value, ("b", value) ∉ run.1.values) ∧
      instantiate type (convertFields sources lookup "p" fields) =
        instantiate type (convertFields sources lookup "p" [("a", .int 1), ("b", .bool true)]) ∧
      run.1.text = "@p.X(a=1)" := by
  intro sources lookup type fields run
  obtain ⟨faults, -, -, -, -, hwritten, hfault, hrepeated⟩ :=
    written_values_accounted sources [] "p" type fields {}
  have hin : ("b", .bool true) ∈ fields := by simp [fields]
  have hb : ("b", .noSuchElement) ∈ type.strangers fields ++ faults :=
    List.mem_append_left _ (AnnotationType.mem_strangers hin rfl)
  exact ⟨faults, hwritten "a" (.int 1) (by simp [fields]) (.inl rfl), ⟨_, hb⟩,
    (hfault "b" _ hb).2 (by decide),
    hrepeated [("a", .int 1), ("b", .bool true)] "a" (.string "s") [] rfl (by simp) rfl,
    by decide +kernel⟩

/-- A string that is written for `a` after a number is no value for it, and nobody is told. -/
theorem repeated_value_unreported :
    let sources : TypeSources := ⟨{}, {}⟩
    let lookup := sources.lookupAmong []
    let fields := [("a", .int 1), ("a", .string "s")]
    let run := (instantiate .counted (convertFields sources lookup "p" fields)).run {}
    (∃ fault, AnnotationType.counted.Converts sources lookup "p" "a" (.string "s")
      (.error fault)) ∧
      run.1.text = "@p.X(a=1)" ∧ run.2.diagnostics.map (·.text) = [] := by
  intro sources lookup fields run
  exact ⟨⟨_, _, List.mem_singleton_self _, rfl, {}, rfl⟩, by decide +kernel, by decide +kernel⟩

end ExternalAnnotations
