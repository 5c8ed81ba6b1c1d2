import ExternalAnnotations.Proofs.Program.Search
import ExternalAnnotations.Resolution.Value
import Mathlib.Data.List.TakeWhile

/-!
# Enum constants and the enums that declare them

A constant may be written with a qualifier, behind a dot or a `$`. Behind a dot the qualifier has to
be that of the enum. The enum itself is looked for under every binary name that its name can stand
for, and if it is found it has to declare the constant.
-/

namespace ExternalAnnotations

open Relation

/-! ### Texts cut at the last separator -/

lemma lastSegment_of_free {isSeparator : Char → Bool} {text : List Char}
    (h : ∀ c ∈ text, isSeparator c = false) : lastSegment isSeparator text = text := by
  rw [lastSegment, List.takeWhile_eq_self_iff.2, List.reverse_reverse]
  intro c hc
  rw [h c (List.mem_reverse.1 hc)]
  rfl

lemma lastSegment_append {isSeparator : Char → Bool} {separator : Char} {rest : List Char}
    (hseparator : isSeparator separator = true) (h : ∀ c ∈ rest, isSeparator c = false)
    (before : List Char) : lastSegment isSeparator (before ++ separator :: rest) = rest := by
  have hrest : ∀ c ∈ rest.reverse, (!isSeparator c) = true := fun c hc => by
    rw [h c (List.mem_reverse.1 hc)]
    rfl
  rw [lastSegment, List.reverse_append, List.reverse_cons, List.append_assoc,
    List.takeWhile_append_of_pos hrest]
  simp [hseparator]

lemma beforeLast?_of_free {isSeparator : Char → Bool} {text : List Char}
    (h : ∀ c ∈ text, isSeparator c = false) : beforeLast? isSeparator text = none := by
  rw [beforeLast?, List.dropWhile_eq_nil_iff.2]
  intro c hc
  rw [h c (List.mem_reverse.1 hc)]
  rfl

lemma beforeLast?_append {isSeparator : Char → Bool} {separator : Char} {rest : List Char}
    (hseparator : isSeparator separator = true) (h : ∀ c ∈ rest, isSeparator c = false)
    (before : List Char) : beforeLast? isSeparator (before ++ separator :: rest) = some before := by
  have hrest : ∀ c ∈ rest.reverse, (!isSeparator c) = true := fun c hc => by
    rw [h c (List.mem_reverse.1 hc)]
    rfl
  rw [beforeLast?, List.reverse_append, List.reverse_cons, List.append_assoc,
    List.dropWhile_append_of_pos hrest]
  simp [hseparator]

lemma free_or_cut (isSeparator : Char → Bool) (text : List Char) :
    (∀ c ∈ text, isSeparator c = false) ∨ ∃ before separator rest,
      text = before ++ separator :: rest ∧ isSeparator separator = true ∧
        ∀ c ∈ rest, isSeparator c = false := by
  induction text with
  | nil => exact .inl (by simp)
  | cons c text ih =>
    rcases ih with hfree | ⟨before, separator, rest, rfl, hseparator, hrest⟩
    · cases hc : isSeparator c with
      | true => exact .inr ⟨[], c, text, rfl, hc, hfree⟩
      | false => exact .inl (List.forall_mem_cons.2 ⟨hc, hfree⟩)
    · exact .inr ⟨c :: before, separator, rest, rfl, hseparator, hrest⟩

/-! ### How constants are written -/

/-- A qualifier is the name of a type or the end of it after a dot, where `$` counts as a dot. -/
def Qualifies (qualifier typeName : String) : Prop :=
  dotted qualifier = dotted typeName ∨ ∃ front, dotted typeName = front ++ '.' :: dotted qualifier

/-- A constant is written by itself or behind a qualifier that names its type. -/
def MeansConstant (typeName written constant : String) : Prop :=
  written = constant ∨ ∃ qualifier, Qualifies qualifier typeName ∧
    (written = qualifier ++ "." ++ constant ∨ written = nestedName qualifier constant)

/-- What is taken for a constant of a type. Of a qualifier that stands before a `$` only what comes
before its last dot is looked at. -/
inductive NamesConstant (typeName : String) : String → String → Prop
  | alone {constant : String} (hconstant : IsSimpleName constant) :
      NamesConstant typeName constant constant
  | dotted {qualifier constant : String} (hconstant : IsSimpleName constant)
      (hqualifier : Qualifies qualifier typeName) :
      NamesConstant typeName (qualifier ++ "." ++ constant) constant
  | nested {qualifier constant : String} (hconstant : IsSimpleName constant)
      (hqualifier : ∀ before rest, qualifier = before ++ "." ++ rest → '.' ∉ rest.toList →
        Qualifies before typeName) :
      NamesConstant typeName (nestedName qualifier constant) constant

lemma isQualifierOf_iff {qualifier typeName : String} :
    isQualifierOf qualifier typeName = true ↔ Qualifies qualifier typeName := by
  rw [isQualifierOf, Bool.or_eq_true, beq_iff_eq, List.isSuffixOf_iff_suffix]
  exact or_congr_right (exists_congr fun _ => eq_comm)

instance (qualifier typeName : String) : Decidable (Qualifies qualifier typeName) :=
  decidable_of_iff _ isQualifierOf_iff

lemma toList_dotted (qualifier constant : String) :
    (qualifier ++ "." ++ constant).toList = qualifier.toList ++ '.' :: constant.toList := by
  simp

lemma isSimpleName_iff {name : String} : IsSimpleName name ↔
    ∀ c ∈ name.toList, (c == '.' || c == nestedSeparator) = false := by
  constructor
  · intro h c hc
    have hdot : c ≠ '.' := fun heq => h.1 (heq ▸ hc)
    have hnested : c ≠ nestedSeparator := fun heq => h.2 (heq ▸ hc)
    simp [hdot, hnested]
  · exact fun h => ⟨fun hc => absurd (h _ hc) (by simp), fun hc => absurd (h _ hc) (by simp)⟩

lemma IsSimpleName.ne_dot {name : String} (h : IsSimpleName name) :
    ∀ c ∈ name.toList, (c == '.') = false :=
  fun _ hc => beq_eq_false_iff_ne.2 fun heq => h.1 (heq ▸ hc)

lemma simpleName_cut (name : String) : IsSimpleName (simpleName name) ∧
    (name = simpleName name ∨ ∃ qualifier, name = qualifier ++ "." ++ simpleName name ∨
      name = nestedName qualifier (simpleName name)) := by
  rcases free_or_cut (fun c => c == '.' || c == nestedSeparator) name.toList with
    hfree | ⟨before, separator, rest, hname, hseparator, hrest⟩
  · have hsimple : simpleName name = name := by
      rw [simpleName, lastSegment_of_free hfree, String.ofList_toList]
    rw [hsimple]
    exact ⟨isSimpleName_iff.2 hfree, .inl rfl⟩
  · have hsimple : simpleName name = String.ofList rest := by
      rw [simpleName, hname, lastSegment_append hseparator hrest]
    rw [hsimple]
    refine ⟨isSimpleName_iff.2 (by rwa [String.toList_ofList]), .inr ⟨String.ofList before, ?_⟩⟩
    rcases Bool.or_eq_true_iff.1 hseparator with hdot | hnested
    · obtain rfl := eq_of_beq hdot
      refine .inl (String.toList_injective ?_)
      rw [toList_dotted, String.toList_ofList, String.toList_ofList, hname]
    · obtain rfl := eq_of_beq hnested
      refine .inr (String.toList_injective ?_)
      rw [toList_nestedName, String.toList_ofList, String.toList_ofList, hname]

lemma mem_beforeLast?_iff {text before : List Char} :
    before ∈ beforeLast? (· == '.') text ↔ ∃ rest, text = before ++ '.' :: rest ∧ '.' ∉ rest := by
  have hfree_iff : ∀ {rest : List Char}, (∀ c ∈ rest, (c == '.') = false) ↔ '.' ∉ rest := by
    intro rest
    simp only [beq_eq_false_iff_ne, ne_eq]
    exact ⟨fun h hc => h _ hc rfl, fun h c hc heq => h (heq ▸ hc)⟩
  constructor
  · intro hbefore
    rcases free_or_cut (· == '.') text with
      hfree | ⟨front, separator, rest, rfl, hseparator, hfree⟩
    · rw [beforeLast?_of_free hfree] at hbefore
      contradiction
    · obtain rfl := eq_of_beq hseparator
      rw [@beforeLast?_append (· == '.') '.' rest rfl hfree] at hbefore
      obtain rfl := Option.some.inj hbefore
      exact ⟨rest, rfl, hfree_iff.1 hfree⟩
  · rintro ⟨rest, rfl, hfree⟩
    exact @beforeLast?_append (· == '.') '.' rest rfl (hfree_iff.2 hfree) before

lemma mem_beforeLast?_nestedName {qualifier constant : String} (hconstant : IsSimpleName constant)
    {before : List Char} : before ∈ beforeLast? (· == '.') (nestedName qualifier constant).toList ↔
      ∃ rest, qualifier.toList = before ++ '.' :: rest ∧ '.' ∉ rest := by
  rw [mem_beforeLast?_iff, toList_nestedName]
  constructor
  · rintro ⟨rest, hcut, hfree⟩
    rcases List.append_eq_append_iff.1 hcut with ⟨middle, -, hmiddle⟩ | ⟨middle, hbefore, hmiddle⟩
    · have hdot : '.' ∈ nestedSeparator :: constant.toList := hmiddle ▸ by simp
      rcases List.mem_cons.1 hdot with hdot | hdot
      · exact absurd hdot (by decide)
      · exact absurd hdot hconstant.1
    · cases middle with
      | nil => exact absurd (List.cons.inj hmiddle).1 (by decide)
      | cons c middle =>
        obtain ⟨rfl, rfl⟩ := List.cons.inj hmiddle
        exact ⟨middle, hbefore, fun hdot => hfree (List.mem_append_left _ hdot)⟩
  · rintro ⟨rest, hcut, hfree⟩
    refine ⟨rest ++ nestedSeparator :: constant.toList, ?_, ?_⟩
    · rw [hcut, List.append_assoc, List.cons_append]
    · simp [hfree, hconstant.1]
      decide

/-- What is taken for a constant is told by what stands before the last dot and after the last
separator. -/
lemma namesConstant_iff {typeName written constant : String} :
    NamesConstant typeName written constant ↔ constant = simpleName written ∧
      ∀ qualifier ∈ beforeLast? (· == '.') written.toList,
        Qualifies (String.ofList qualifier) typeName := by
  constructor
  · intro h
    cases h with
    | alone hconstant =>
      refine ⟨?_, ?_⟩
      · rw [simpleName, lastSegment_of_free (isSimpleName_iff.1 hconstant), String.ofList_toList]
      · rw [beforeLast?_of_free hconstant.ne_dot]
        intro qualifier hqualifier
        contradiction
    | @dotted qualifier _ hconstant hqualifier =>
      refine ⟨?_, ?_⟩
      · rw [simpleName, toList_dotted, lastSegment_append rfl (isSimpleName_iff.1 hconstant),
          String.ofList_toList]
      · rw [toList_dotted, beforeLast?_append rfl hconstant.ne_dot]
        rintro _ ⟨⟩
        rwa [String.ofList_toList]
    | @nested qualifier _ hconstant hqualifier =>
      refine ⟨(simpleName_nestedName qualifier hconstant).symm, ?_⟩
      intro before hbefore
      obtain ⟨rest, hcut, hfree⟩ := (mem_beforeLast?_nestedName hconstant).1 hbefore
      refine hqualifier _ (String.ofList rest) (String.toList_injective ?_)
        (by rwa [String.toList_ofList])
      rw [hcut, toList_dotted, String.toList_ofList, String.toList_ofList]
  · rintro ⟨rfl, hqualifier⟩
    obtain ⟨hconstant, hname | ⟨qualifier, hname | hname⟩⟩ := simpleName_cut written
    · have h := @NamesConstant.alone typeName _ hconstant
      rwa [← hname] at h ⊢
    · have hqualified : Qualifies qualifier typeName := by
        have h := hqualifier qualifier.toList (mem_beforeLast?_iff.2
          ⟨(simpleName written).toList, by rw [← toList_dotted, ← hname], hconstant.1⟩)
        rwa [String.ofList_toList] at h
      have h := NamesConstant.dotted hconstant hqualified
      rwa [← hname] at h
    · have hbefore : ∀ before rest, qualifier = before ++ "." ++ rest → '.' ∉ rest.toList →
          Qualifies before typeName := by
        intro before rest hcut hrest
        have hmem : before.toList ∈ beforeLast? (· == '.') written.toList := by
          rw [hname]
          exact (mem_beforeLast?_nestedName hconstant).2
            ⟨rest.toList, by rw [hcut, toList_dotted], hrest⟩
        rw [← String.ofList_toList (s := before)]
        exact hqualifier _ hmem
      have h := NamesConstant.nested hconstant hbefore
      rwa [← hname] at h

lemma NamesConstant.means {typeName written constant : String}
    (h : NamesConstant typeName written constant)
    (hdotted : ∀ qualifier, written ≠ nestedName qualifier constant) :
    MeansConstant typeName written constant := by
  cases h with
  | alone => exact .inl rfl
  | @dotted qualifier _ _ hqualifier => exact .inr ⟨qualifier, hqualifier, .inl rfl⟩
  | @nested qualifier => exact absurd rfl (hdotted qualifier)

/-! ### The enum of a name -/

/-- A text with `$` for every dot. -/
def nestedForm (text : List Char) : List Char :=
  text.map fun c => if c = '.' then nestedSeparator else c

/-- A binary name that a dotted name can stand for: the dots of some end of it separate nested
classes. -/
def IsReading (name reading : String) : Prop :=
  ∃ before after : List Char, name.toList = before ++ after ∧
    reading.toList = before ++ nestedForm after

lemma nestDots_append (front back : List Char) :
    nestDots (front.count '.') (front ++ back) = nestedForm front ++ back := by
  induction front with
  | nil => rw [List.count_nil, List.nil_append, nestDots, nestedForm, List.map_nil, List.nil_append]
  | cons c front ih =>
    by_cases hc : c = '.'
    · subst hc
      rw [List.count_cons_self, List.cons_append, nestDots, if_pos rfl, ih]
      rfl
    · have hform : nestedForm (c :: front) ++ back = c :: (nestedForm front ++ back) := by
        rw [nestedForm, List.map_cons, if_neg hc]
        rfl
      rw [List.count_cons_of_ne hc, hform, ← ih, List.cons_append]
      cases front.count '.' with
      | zero => rw [nestDots, nestDots]
      | succ count => rw [nestDots, if_neg hc]

lemma exists_nestDots (count : Nat) (text : List Char) : ∃ front back, text = front ++ back ∧
    nestDots count text = nestedForm front ++ back := by
  fun_induction nestDots count text with
  | case1 text => exact ⟨[], text, rfl, rfl⟩
  | case2 => exact ⟨[], [], rfl, rfl⟩
  | case3 count text ih =>
    obtain ⟨front, back, rfl, hnest⟩ := ih
    exact ⟨'.' :: front, back, rfl, congrArg (nestedSeparator :: ·) hnest⟩
  | case4 count c text hc ih =>
    obtain ⟨front, back, rfl, hnest⟩ := ih
    refine ⟨c :: front, back, rfl, ?_⟩
    rw [hnest, nestedForm, nestedForm, List.map_cons, if_neg hc]
    rfl

lemma mem_binaryReadings {name reading : String} :
    reading ∈ binaryReadings name ↔ IsReading name reading := by
  have hreverse : ∀ text, (nestedForm text).reverse = nestedForm text.reverse :=
    fun text => (List.map_reverse).symm
  rw [binaryReadings, List.mem_map]
  constructor
  · rintro ⟨count, -, rfl⟩
    obtain ⟨front, back, hsplit, hnest⟩ := exists_nestDots count name.toList.reverse
    refine ⟨back.reverse, front.reverse, ?_, ?_⟩
    · rw [← List.reverse_append, ← hsplit, List.reverse_reverse]
    · rw [String.toList_ofList, hnest, List.reverse_append, hreverse]
  · rintro ⟨before, after, hsplit, hreading⟩
    refine ⟨after.reverse.count '.', ?_, String.toList_injective ?_⟩
    · rw [List.mem_range, List.count_reverse, hsplit, List.count_append]
      omega
    · rw [String.toList_ofList, hsplit, List.reverse_append, nestDots_append, List.reverse_append,
        hreverse, List.reverse_reverse, List.reverse_reverse, hreading]

namespace Program

variable {program : Program}

lemma enumNamed?_eq_some {name : String} {e : Class} (h : program.enumNamed? name = some e) :
    e.kind = .enum ∧ ∃ reading, IsReading name reading ∧ program.find? reading = some e := by
  obtain ⟨reading, hreading, hfound⟩ := List.exists_of_findSome?_eq_some h
  obtain ⟨hfind, hkind⟩ := Option.filter_eq_some_iff.1 hfound
  exact ⟨eq_of_beq hkind, reading, mem_binaryReadings.1 hreading, hfind⟩

lemma isSome_enumNamed? {name reading : String} {c : Class} (hreading : IsReading name reading)
    (hfind : program.find? reading = some c) (hkind : c.kind = .enum) :
    (program.enumNamed? name).isSome := by
  refine List.findSome?_isSome_iff.2 ⟨reading, mem_binaryReadings.2 hreading, ?_⟩
  rw [hfind, Option.filter_some, if_pos (beq_of_eq hkind)]
  rfl

/-! ### What is accepted -/

variable {typeName written constant : String}

lemma any_not_isQualifierOf {qualifier : Option (List Char)} :
    ((qualifier.map String.ofList).any (!isQualifierOf · typeName)) = false ↔
      ∀ before ∈ qualifier, Qualifies (String.ofList before) typeName := by
  cases qualifier with
  | none => simp
  | some before => simp [isQualifierOf_iff]

lemma enumValue_of_not_named (h : ¬ NamesConstant typeName written (simpleName written)) :
    program.enumValue typeName written = .error (.foreignConstant written typeName) := by
  refine if_pos (Bool.not_eq_false _ ▸ fun hall => h (namesConstant_iff.2 ⟨rfl, ?_⟩))
  exact any_not_isQualifierOf.1 hall

lemma enumValue_of_named (h : NamesConstant typeName written constant) :
    program.enumValue typeName written =
      if (program.enumNamed? typeName).any (·.field? constant |>.isNone) then
        .error (.noSuchConstant typeName constant)
      else .ok (.enum typeName constant) := by
  obtain ⟨rfl, hqualifier⟩ := namesConstant_iff.1 h
  have hall := any_not_isQualifierOf.2 hqualifier
  rw [enumValue, hall, if_neg Bool.false_ne_true]

lemma enumValue_eq_ok_iff {value : AnnotationValue} :
    program.enumValue typeName written = .ok value ↔
      ∃ constant, value = .enum typeName constant ∧ NamesConstant typeName written constant ∧
        ∀ e ∈ program.enumNamed? typeName, (e.field? constant).isSome := by
  have hdeclared : ∀ {constant}, (program.enumNamed? typeName).any
      (·.field? constant |>.isNone) = false ↔
        ∀ e ∈ program.enumNamed? typeName, (e.field? constant).isSome := by
    intro constant
    cases program.enumNamed? typeName <;> simp
  constructor
  · intro h
    by_cases hnamed : NamesConstant typeName written (simpleName written)
    · rw [enumValue_of_named hnamed] at h
      split at h
      · contradiction
      · rename_i hany
        exact ⟨_, (Except.ok.inj h).symm, hnamed, hdeclared.1 (Bool.not_eq_true _ ▸ hany)⟩
    · rw [enumValue_of_not_named hnamed] at h
      contradiction
  · rintro ⟨constant, rfl, hnamed, hall⟩
    rw [enumValue_of_named hnamed, hdeclared.2 hall, if_neg Bool.false_ne_true]

lemma Forest.find?_of_enteredLast (h : program.LegibleForest) {slot top : Slot} {c : Class}
    (hc : program.classes[slot]? = some c) (hpath : ReflTransGen program.Enclosed slot top)
    (hlast : program.EnteredLast top) : program.find? c.binaryName = some c := by
  obtain ⟨t, ht, henclosing, -⟩ := id hlast
  obtain ⟨inner, hinner, hslot⟩ := h.exists_foldlM_eq_some hpath
  obtain ⟨-, c', hc', hbinary⟩ := h.of_foldlM_eq_some ht hslot
  obtain rfl := Option.some.inj (hc.symm.trans hc')
  have htop : program.topLevel? t.binaryName = some top :=
    h.topLevel?_eq_some_iff.2 ⟨hlast, by simp [holds, ht]⟩
  have hsegments := segments_foldl_nestedName (h.separator_notMem_of_topLevel ht henclosing) hinner
  rw [← hbinary] at hsegments
  rw [find?_eq_bind hsegments, htop, Option.bind_some, hslot]
  exact hc

/-- **Enum constants.** What is written for a constant of an enum is accepted just if it is taken
for one and the enum, if it is found, has a field of that name. What stands before a dot is then the
qualifier of the enum. The enum is found if the program finds one under a binary name that its name
can stand for, as it does under the name of every enum that it holds in a top-level class which no
later one has replaced. -/
theorem enumValue_checked (program : Program) (typeName written : String) :
    (∀ value, program.enumValue typeName written = .ok value ↔
      ∃ constant, value = .enum typeName constant ∧ NamesConstant typeName written constant ∧
        ∀ e ∈ program.enumNamed? typeName, (e.field? constant).isSome) ∧
    (∀ constant, NamesConstant typeName written constant →
      (∀ qualifier, written ≠ nestedName qualifier constant) →
      MeansConstant typeName written constant) ∧
    ((∀ constant, ¬ NamesConstant typeName written constant) →
      program.enumValue typeName written = .error (.foreignConstant written typeName)) ∧
    (∀ e ∈ program.enumNamed? typeName, e.kind = .enum ∧
      (∃ reading, IsReading typeName reading ∧ program.find? reading = some e) ∧
      ∀ constant, NamesConstant typeName written constant → e.field? constant = none →
        program.enumValue typeName written = .error (.noSuchConstant typeName constant)) ∧
    (∀ reading c, IsReading typeName reading → program.find? reading = some c → c.kind = .enum →
      (program.enumNamed? typeName).isSome) ∧
    (program.Built Legible → ∀ (slot top : Slot) c, program.classes[slot]? = some c →
      c.kind = .enum → IsReading typeName c.binaryName →
      ReflTransGen program.Enclosed slot top → program.EnteredLast top →
      (program.enumNamed? typeName).isSome) := by
  refine ⟨fun _ => enumValue_eq_ok_iff, fun _ h => h.means, fun h => enumValue_of_not_named (h _),
    ?_, fun _ _ => isSome_enumNamed?, ?_⟩
  · intro e he
    obtain ⟨hkind, hfound⟩ := enumNamed?_eq_some he
    refine ⟨hkind, hfound, fun constant hnamed hnone => ?_⟩
    rw [enumValue_of_named hnamed, Option.mem_def.1 he]
    exact if_pos (Option.isNone_iff_eq_none.2 hnone)
  · intro hbuilt slot top c hc hkind hreading hpath hlast
    exact isSome_enumNamed? hreading
      (hbuilt.legibleForest.find?_of_enteredLast hc hpath hlast) hkind

/-- A class `p.Outer` with an enum `Level` nested in it, which has the constant `FULL`. -/
def withLevel : Program :=
  addFile {} "p" none [{ ClassDraft.ofName "Outer" .ordinary with
    nested := [{ ClassDraft.ofName "Level" .enum with
      fields := [.ofName "FULL" (.named "p.Outer$Level")] }] }]

lemma enteredLast_withLevel : withLevel.EnteredLast 0 := by
  have htop : withLevel.holds (·.enclosing.isNone) 0 = true := by decide +kernel
  have hnested : withLevel.holds (·.enclosing.isSome) 1 = true := by decide +kernel
  have hsize : withLevel.classes.size = 2 := by decide +kernel
  obtain ⟨t, ht, hnone⟩ := exists_of_holds htop
  refine ⟨t, ht, Option.isNone_iff_eq_none.1 hnone, fun other o ho hother _ => ?_⟩
  by_contra hlt
  have hbound := (Array.getElem?_eq_some_iff.1 ho).1
  rw [hsize] at hbound
  obtain rfl : other = 1 :=
    Nat.le_antisymm (Nat.le_of_lt_succ hbound) (Nat.lt_of_not_le hlt)
  obtain ⟨o', ho', hsome⟩ := exists_of_holds hnested
  obtain rfl := Option.some.inj (ho.symm.trans ho')
  rw [hother] at hsome
  contradiction

theorem enumValue_checked_level :
    withLevel.Built Legible ∧ (withLevel.enumNamed? "p.Outer.Level").isSome ∧
      withLevel.enumValue "p.Outer.Level" "Outer$Level.FULL" =
        .ok (.enum "p.Outer.Level" "FULL") ∧
      withLevel.enumValue "p.Outer.Level" "Inner.FULL" =
        .error (.foreignConstant "Inner.FULL" "p.Outer.Level") ∧
      withLevel.enumValue "p.Outer.Level" "Level.NONE" =
        .error (.noSuchConstant "p.Outer.Level" "NONE") := by
  have hbuilt : withLevel.Built Legible := Built.empty.addFile none
    ⟨by decide, by decide, by simp [ClassDraft.AllNestNamed, ClassDraft.NestsNamed,
      ClassDraft.ofName, IsSimpleName, nestedSeparator]⟩
  have hlevel : withLevel.holds (fun c => c.kind == .enum && c.binaryName == "p.Outer$Level" &&
      c.enclosing == some 0) 1 = true := by decide +kernel
  obtain ⟨c, hc, hlevel⟩ := exists_of_holds hlevel
  obtain ⟨⟨hkind, hname⟩, henclosing⟩ := by simpa using hlevel
  have hreading : IsReading "p.Outer.Level" c.binaryName :=
    ⟨"p.Outer".toList, ".Level".toList, rfl, by rw [hname]; rfl⟩
  have hsome := (enumValue_checked withLevel "p.Outer.Level" "").2.2.2.2.2 hbuilt 1 0 c hc hkind
    hreading (.single ⟨c, hc, henclosing⟩) enteredLast_withLevel
  obtain ⟨e, he⟩ := Option.isSome_iff_exists.1 hsome
  have hfields : (withLevel.enumNamed? "p.Outer.Level").all (fun e =>
      (e.field? "FULL").isSome && (e.field? "NONE").isNone) = true := by decide +kernel
  rw [he] at hfields
  obtain ⟨hfull, hnone⟩ := by simpa using hfields
  refine ⟨hbuilt, hsome, ?_, ?_, ?_⟩
  · have hnamed : NamesConstant "p.Outer.Level" "Outer$Level.FULL" "FULL" :=
      namesConstant_iff.2 ⟨by decide +kernel, by decide +kernel⟩
    refine ((enumValue_checked _ _ _).1 _).2 ⟨"FULL", rfl, hnamed, fun e' he' => ?_⟩
    obtain rfl := Option.some.inj (he.symm.trans he')
    exact hfull
  · refine (enumValue_checked _ _ _).2.2.1 fun constant h => ?_
    exact absurd ((namesConstant_iff.1 h).2 "Inner".toList (by decide +kernel)) (by decide +kernel)
  · have hnamed : NamesConstant "p.Outer.Level" "Level.NONE" "NONE" :=
      namesConstant_iff.2 ⟨by decide +kernel, by decide +kernel⟩
    exact ((enumValue_checked _ _ _).2.2.2.1 e he).2.2 "NONE" hnamed hnone

/-- A qualifier before a `$` is not compared with the name of the enum. -/
theorem enumValue_accepts_foreign :
    enumValue {} "p.Level" "Other$FULL" = .ok (.enum "p.Level" "FULL") ∧
      ¬ MeansConstant "p.Level" "Other$FULL" "FULL" := by
  have hnamed : NamesConstant "p.Level" "Other$FULL" "FULL" :=
    namesConstant_iff.2 ⟨by decide +kernel, by decide +kernel⟩
  have hnone : enumNamed? {} "p.Level" = none := Option.isNone_iff_eq_none.1 (by decide +kernel)
  refine ⟨enumValue_eq_ok_iff.2 ⟨"FULL", rfl, hnamed, by rw [hnone]; nofun⟩, ?_⟩
  rintro (heq | ⟨qualifier, hqualifier, heq | heq⟩)
  · exact absurd heq (by decide)
  · have hdot : '.' ∈ "Other$FULL".toList := heq ▸ (by simp)
    exact absurd hdot (by decide)
  · have hother : nestedName "Other" "FULL" = nestedName qualifier "FULL" := heq
    obtain rfl : "Other" = qualifier := by simpa [nestedName] using hother
    exact absurd hqualifier (by decide +kernel)

end Program

end ExternalAnnotations
