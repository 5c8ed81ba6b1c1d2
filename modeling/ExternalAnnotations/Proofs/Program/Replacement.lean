import ExternalAnnotations.Injection.Injector
import ExternalAnnotations.Proofs.Program.Forest

/-!
# Replacing a class

A class takes the place of one with the same name, file, enclosing class and nested classes. Every
name, link and file then leads to the slots that it led to before. A class that differs from the
one in the slot only in annotations is among those that may take its place, but not they alone.
-/

namespace ExternalAnnotations

def TypeUse.bare (use : TypeUse) : TypeUse := .plain use.type

def Parameter.bare (parameter : Parameter) : Parameter :=
  { parameter with type := parameter.type.bare, annotations := [] }

def Method.bare (method : Method) : Method :=
  { method with
    parameters := method.parameters.map (·.bare)
    result := method.result.bare
    annotations := [] }

def Field.bare (field : Field) : Field :=
  { field with type := field.type.bare, annotations := [] }

/-- A class without the annotations on it, on its members and on their types. -/
def Class.bare (c : Class) : Class :=
  { c with
    annotations := []
    methods := c.methods.map (·.bare)
    fields := c.fields.map (·.bare) }

namespace Program

variable {program next : Program} {slot : Slot} {old new : Class}

lemma bare_eq_iff : old.bare = new.bare ↔
    sameClass old new = true ∧ old.kind = new.kind ∧ old.modifiers = new.modifiers ∧
      old.superclass = new.superclass ∧ old.interfaces = new.interfaces ∧
      old.methods.map (·.bare) = new.methods.map (·.bare) ∧
      old.fields.map (·.bare) = new.fields.map (·.bare) := by
  rw [sameClass_iff, Class.bare, Class.bare, Class.mk.injEq]
  tauto

/-- A class is in the place of another, and all else is where it was. -/
structure Renewed (program next : Program) (slot : Slot) (old new : Class) : Prop where
  old : program.classes[slot]? = some old
  new : next.classes[slot]? = some new
  others : ∀ other, other ≠ slot → next.classes[other]? = program.classes[other]?
  files : next.files = program.files
  lookup? : next.lookup? = program.lookup?
  enclosing : ∀ inner : Slot,
    next.classes[inner]?.map (·.enclosing) = program.classes[inner]?.map (·.enclosing)
  nestedIn : next.nestedIn = program.nestedIn
  classesIn : next.classesIn = program.classesIn

section

variable (hr : program.replace slot new = .ok (old, next))
include hr

lemma holds_of_replace {property : Class → Bool} (hproperty : property new = property old) :
    next.holds property = program.holds property := by
  funext other
  have hmap := map_classes_of_replace hr property hproperty other
  rw [holds, holds]
  cases hn : next.classes[other]? <;> cases hp : program.classes[other]? <;> simp_all

lemma lookup?_of_replace : next.lookup? = program.lookup? := by
  obtain ⟨-, hnext, hbinary, -⟩ := replace_ok hr
  have htop : next.topLevel? = program.topLevel? := by
    funext name
    rw [topLevel?, topLevel?, holds_of_replace hr (by rw [hbinary]), topLevel, topLevel, hnext]
  have hnested : next.nested? = program.nested? := by
    funext outer name
    have hin := congrFun (nestedIn_of_replace hr) outer
    have hholds : next.holds (·.simpleName == name) = program.holds (·.simpleName == name) :=
      holds_of_replace hr (by rw [Class.simpleName, Class.simpleName, hbinary])
    rw [nestedIn, nestedIn] at hin
    rw [nested?, nested?, hholds]
    cases hn : next.classes[outer]? <;> cases hp : program.classes[outer]? <;> simp_all
  funext name
  rw [lookup?, lookup?, htop, hnested]

lemma size_classes_of_replace : next.classes.size = program.classes.size := by
  obtain ⟨-, rfl, -⟩ := replace_ok hr
  exact Array.size_setIfInBounds

lemma withNested_of_replace (outer : Slot) : next.withNested outer = program.withNested outer := by
  induction hk : program.classes.size - outer using Nat.strong_induction_on generalizing outer with
  | _ k ih =>
    rw [withNested_eq next, withNested_eq program, nestedIn_of_replace hr,
      size_classes_of_replace hr]
    split
    · rename_i hsize
      congr 1
      apply List.flatMap_congr
      intro inner hinner
      have hlt : outer < inner := by simpa using (List.mem_filter.1 hinner).2
      exact ih _ (hk ▸ Nat.sub_lt_sub_left hsize hlt) inner rfl
    · rfl

lemma renewed_of_replace : program.Renewed next slot old new := by
  have hlookup := lookup?_of_replace hr
  have hnested := nestedIn_of_replace hr
  have hwith := funext (withNested_of_replace hr)
  have henclosing := map_classes_of_replace hr (·.enclosing) (replace_ok hr).2.2.2.2.1.symm
  obtain ⟨hold, rfl, -⟩ := replace_ok hr
  refine ⟨hold, ?_, ?_, rfl, hlookup, henclosing, hnested, ?_⟩
  · rw [Array.getElem?_setIfInBounds_self_of_lt (Array.getElem?_eq_some_iff.1 hold).1]
  · exact fun other hother => Array.getElem?_setIfInBounds_ne hother.symm
  · funext file
    rw [classesIn, classesIn, hwith]

end

lemma exists_replace_iff : (∃ replaced, program.replace slot new = .ok replaced) ↔
    ∃ old, program.classes[slot]? = some old ∧ sameClass old new = true := by
  rw [replace]
  cases program.classes[slot]? with
  | none => simp
  | some old => cases hsame : sameClass old new <;> simp [hsame]

lemma replace_of_bare (hold : program.classes[slot]? = some old) (hbare : old.bare = new.bare) :
    ∃ next, program.replace slot new = .ok (old, next) := by
  have hsame := (bare_eq_iff.1 hbare).1
  rw [replace, hold]
  exact ⟨_, if_pos hsame⟩

/-- **Replacing a class keeps lookups.** A class is taken in for another exactly if the slot has a
class of the same name, file, enclosing class and nested classes, which is so if the two differ in
annotations only. It is then in the slot, the class that was there is given, and names, links and
files lead to the same slots as before. If it is not taken in, all is as before. -/
theorem replace_keeps_lookups (program : Program) (slot : Slot) (new : Class)
    (injector : Injector) :
    (∀ old, program.classes[slot]? = some old → old.bare = new.bare →
      ∃ next, program.replace slot new = .ok (old, next)) ∧
    ((∃ replaced, program.replace slot new = .ok replaced) ↔
      ∃ old, program.classes[slot]? = some old ∧ old.binaryName = new.binaryName ∧
        old.file = new.file ∧ old.enclosing = new.enclosing ∧ old.nested = new.nested) ∧
    (∀ old next, program.replace slot new = .ok (old, next) →
      program.Renewed next slot old new ∧
      Injection.replace slot new ⟨injector, program⟩ = .ok () ⟨injector, next⟩) ∧
    ∀ error, program.replace slot new = .error error →
      Injection.replace slot new ⟨injector, program⟩ =
        .error (.replacement error) ⟨injector, program⟩ := by
  refine ⟨fun old => replace_of_bare, ?_, ?_, ?_⟩
  · simp only [exists_replace_iff, sameClass_iff]
  · intro old next hr
    refine ⟨renewed_of_replace hr, ?_⟩
    rw [Injection.replace, hr]
  · intro error hr
    rw [Injection.replace, hr]

/-- A class `p.A` that has `B` nested in it. -/
def nestedPair : Program :=
  addFile {} "p" none [{ ClassDraft.ofName "A" .ordinary with
    nested := [ClassDraft.ofName "B" .ordinary] }]

theorem replace_keeps_lookups_annotated : ∃ old next,
    nestedPair.replace 1 { old with annotations := [⟨"p.Mark", [], .runtime⟩] } = .ok (old, next) ∧
      next.lookup? "p.A$B" = some 1 ∧ next.nestedIn 0 = [1] ∧ next.classesIn 0 = [0, 1] := by
  have hsize : nestedPair.files.size = 1 ∧ nestedPair.classes.size = 2 := by decide +kernel
  have hreached : nestedPair.Reached := .addFile _ _ _ .empty
  have hlisted := hreached.ordered.listed
  have hold : nestedPair.classes[1]?.isSome = true := by decide +kernel
  obtain ⟨old, hold⟩ := Option.isSome_iff_exists.1 hold
  obtain ⟨hbare, -, hdone, -⟩ := replace_keeps_lookups nestedPair 1
    { old with annotations := [⟨"p.Mark", [], .runtime⟩] } (.ofIndex (.of [] []))
  obtain ⟨next, hr⟩ := hbare old hold rfl
  have hrenewed := (hdone old next hr).1
  refine ⟨old, next, hr, ?_, ?_, ?_⟩
  · rw [hrenewed.lookup?]
    decide +kernel
  · rw [hrenewed.nestedIn]
    decide +kernel
  · rw [hrenewed.classesIn]
    rwa [hsize.1, hsize.2, List.range_one, List.flatMap_singleton] at hlisted

/-- A class may take the place of one with another superclass. -/
theorem replace_accepts_other_superclass :
    ¬ ∀ (program : Program) (slot : Slot) (new : Class),
      (∃ replaced, program.replace slot new = .ok replaced) ↔
        ∃ old, program.classes[slot]? = some old ∧ old.bare = new.bare := by
  intro h
  have hold : nestedPair.classes[1]?.any (·.superclass == some "java.lang.Object") = true := by
    decide +kernel
  obtain ⟨old, hold, hsuperclass⟩ := (Option.any_eq_true _ _).1 hold
  have hsame : sameClass old { old with superclass := some "p.A" } = true :=
    sameClass_iff.2 ⟨rfl, rfl, rfl, rfl⟩
  obtain ⟨old', hold', hbare⟩ := (h nestedPair 1 { old with superclass := some "p.A" }).1
    (exists_replace_iff.2 ⟨old, hold, hsame⟩)
  obtain rfl := Option.some.inj (hold.symm.trans hold')
  have hother := (bare_eq_iff.1 hbare).2.2.2.1
  rw [eq_of_beq hsuperclass] at hother
  simp at hother

end Program

end ExternalAnnotations
