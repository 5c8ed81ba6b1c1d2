import ExternalAnnotations.Header.Name
import ExternalAnnotations.Program.Draft
import Mathlib.Tactic

/-!
# Superclasses

Superclass names come from the sources, so they may be unknown or lead in a circle. `Climbs` is the
walk that goes from superclass to superclass until there is none or one comes again. It ends for
every class with `Program.ancestors`, and passes by every class that the class descends from.
-/

namespace ExternalAnnotations

namespace Program

variable {program : Program} {slot : Slot}

/-- The superclass of the class of a name. -/
def superclassOf? (program : Program) (name : String) : Option String :=
  (program.find? name).bind (·.superclass)

/-- One or more steps to the superclass lead from the class in a slot to a name. -/
inductive Descends (program : Program) (slot : Slot) : String → Prop
  | direct {c : Class} {name : String} : program.classes[slot]? = some c →
      c.superclass = some name → Descends program slot name
  | further {c : Class} {name above : String} : Descends program slot name →
      program.find? name = some c → c.superclass = some above → Descends program slot above

/-- A walk that has listed some names, and is at the next one if there is one, ends with a list. -/
inductive Climbs (program : Program) : List String → Option String → List String → Prop
  | top {chain : List String} : Climbs program chain none chain
  | again {chain : List String} {name : String} : name ∈ chain →
      Climbs program chain (some name) chain
  | step {chain final : List String} {name : String} : name ∉ chain →
      Climbs program (chain ++ [name]) (program.superclassOf? name) final →
      Climbs program chain (some name) final

lemma superclassOf?_eq_some_iff {name above : String} :
    program.superclassOf? name = some above ↔
      ∃ c, program.find? name = some c ∧ c.superclass = some above :=
  Option.bind_eq_some_iff

lemma superclassOf?_eq_none_iff {name : String} : program.superclassOf? name = none ↔
    program.find? name = none ∨ ∃ c, program.find? name = some c ∧ c.superclass = none := by
  rw [superclassOf?]
  cases program.find? name <;> simp

lemma Climbs.unique {chain : List String} {next : Option String} {final other : List String}
    (h : program.Climbs chain next final) (hother : program.Climbs chain next other) :
    other = final := by
  induction h with
  | top =>
    cases hother
    rfl
  | again hmem =>
    cases hother with
    | again => rfl
    | step hnew _ => exact absurd hmem hnew
  | step hnew _ ih =>
    cases hother with
    | again hmem => exact absurd hmem hnew
    | step _ hother => exact ih hother

/-! ### The walk of the program -/

/-- The names that are the superclass of some class. -/
def superclasses (program : Program) : List String :=
  program.classes.toList.filterMap (·.superclass)

lemma mem_superclasses {c : Class} {name : String} (hc : program.classes[slot]? = some c)
    (hname : c.superclass = some name) : name ∈ program.superclasses :=
  List.mem_filterMap.2 ⟨c, Array.mem_toList_iff.2 (Array.mem_of_getElem? hc), hname⟩

lemma superclassOf?_mem {name above : String} (h : program.superclassOf? name = some above) :
    above ∈ program.superclasses := by
  obtain ⟨c, hc, habove⟩ := superclassOf?_eq_some_iff.1 h
  obtain ⟨found, -, hfound⟩ := Option.bind_eq_some_iff.1 hc
  exact mem_superclasses hfound habove

lemma without_notMem (pool chain : List String) (name : String) :
    without (pool.filter (· ∉ chain)) name = pool.filter (· ∉ chain ++ [name]) := by
  rw [without, List.filter_filter]
  congr 1
  funext other
  simp [not_or, and_comm]

/-- What is left in the pool are the superclasses that have not been listed. -/
lemma climbs_ancestorsIn (pool : List String) (next : Option String) (chain : List String)
    (hpool : pool = program.superclasses.filter (· ∉ chain))
    (hnext : ∀ name, next = some name → name ∈ program.superclasses) :
    program.Climbs chain next (chain ++ program.ancestorsIn pool next) := by
  induction pool, next using ancestorsIn.induct program generalizing chain with
  | case1 pool =>
    rw [ancestorsIn, List.append_nil]
    exact .top
  | case2 pool name hlisted _ ih =>
    have hnew : name ∉ chain := by
      rw [hpool] at hlisted
      simpa using (List.mem_filter.1 hlisted).2
    have hrest := ih (chain ++ [name]) (hpool ▸ without_notMem _ chain name)
      fun _ => superclassOf?_mem
    rw [List.append_assoc, List.singleton_append] at hrest
    rw [ancestorsIn, dif_pos hlisted]
    exact .step hnew hrest
  | case3 pool name hlisted =>
    have hagain : name ∈ chain := by
      rw [hpool, List.mem_filter] at hlisted
      simpa [hnext name rfl] using hlisted
    rw [ancestorsIn, dif_neg hlisted, List.append_nil]
    exact .again hagain

lemma climbs_ancestors {c : Class} (hc : program.classes[slot]? = some c) :
    program.Climbs [] c.superclass (program.ancestors slot) := by
  have hclimbs : program.Climbs [] c.superclass
      ([] ++ program.ancestorsIn program.superclasses c.superclass) :=
    climbs_ancestorsIn _ _ _ (by simp) fun name => mem_superclasses hc
  rwa [ancestors, hc]

/-! ### What a walk keeps -/

/-- A walk that started at the superclass of a class has listed some names. -/
structure Climbing (program : Program) (start : Option String) (chain : List String)
    (next : Option String) : Prop where
  nodup : chain.Nodup
  known : ∀ name ∈ chain, name ∈ program.superclasses
  first : chain.head?.or next = start
  linked : chain.IsChain fun name above => program.superclassOf? name = some above
  last : ∀ name ∈ chain.getLast?, program.superclassOf? name = next

variable {start next : Option String} {chain final : List String}

lemma Climbing.step {name : String} (h : program.Climbing start chain (some name))
    (hname : name ∈ program.superclasses) (hnew : name ∉ chain) :
    program.Climbing start (chain ++ [name]) (program.superclassOf? name) where
  nodup := List.nodup_append.2 ⟨h.nodup, List.nodup_singleton name, by
    rintro listed hlisted _ hsingle rfl
    exact hnew (List.mem_singleton.1 hsingle ▸ hlisted)⟩
  known := by
    intro listed hlisted
    rcases List.mem_append.1 hlisted with hlisted | hlisted
    · exact h.known listed hlisted
    · rwa [List.mem_singleton.1 hlisted]
  first := by
    rw [← h.first]
    cases chain <;> rfl
  linked := by
    refine List.isChain_append.2 ⟨h.linked, .singleton name, ?_⟩
    intro below hbelow above habove
    rw [h.last below hbelow, ← Option.mem_some_iff.1 habove]
  last := by simp

lemma Climbing.run (hclimbs : program.Climbs chain next final)
    (h : program.Climbing start chain next)
    (hnext : ∀ name, next = some name → name ∈ program.superclasses) :
    ∃ last, program.Climbing start final last ∧ ∀ name ∈ last, name ∈ final := by
  induction hclimbs with
  | top => exact ⟨none, h, by simp⟩
  | again hmem => exact ⟨_, h, by simpa using hmem⟩
  | step hnew _ ih => exact ih (h.step (hnext _ rfl) hnew) fun _ => superclassOf?_mem

namespace Climbing

variable (h : program.Climbing start chain next)
include h

lemma superclassOf?_eq {i : Nat} {name above : String} (hname : chain[i]? = some name)
    (habove : chain[i + 1]? = some above) : program.superclassOf? name = some above := by
  obtain ⟨hi, rfl⟩ := List.getElem?_eq_some_iff.1 hname
  obtain ⟨hlt, rfl⟩ := List.getElem?_eq_some_iff.1 habove
  exact List.isChain_iff_getElem.1 h.linked i hlt

lemma closed (hends : ∀ name ∈ next, name ∈ chain) {name above : String} (hname : name ∈ chain)
    (habove : program.superclassOf? name = some above) : above ∈ chain := by
  obtain ⟨i, hi⟩ := List.mem_iff_getElem?.1 hname
  cases hsucc : chain[i + 1]? with
  | some listed =>
    have hlisted := h.superclassOf?_eq hi hsucc
    rw [habove] at hlisted
    obtain rfl := Option.some.inj hlisted
    exact List.mem_of_getElem? hsucc
  | none =>
    -- nothing follows the name, so it is the last one
    have hi' := (List.getElem?_eq_some_iff.1 hi).1
    have hlength := List.getElem?_eq_none_iff.1 hsucc
    have hlast : chain.getLast? = some name := by
      rw [List.getLast?_eq_getElem?, ← hi]
      congr 1
      omega
    rw [h.last name hlast] at habove
    exact hends above habove

lemma length_le : chain.length ≤ program.classes.size := by
  have hsubset : chain ⊆ program.superclasses := h.known
  calc
    chain.length ≤ program.superclasses.length := (List.subperm_of_subset h.nodup hsubset).length_le
    _ ≤ program.classes.toList.length := List.length_filterMap_le _ _
    _ = program.classes.size := Array.length_toList

end Climbing

lemma descends_of_getElem? {c : Class} (hc : program.classes[slot]? = some c)
    (h : program.Climbing c.superclass chain next) {i : Nat} {name : String}
    (hname : chain[i]? = some name) : program.Descends slot name := by
  induction i generalizing name with
  | zero =>
    have hfirst := h.first
    rw [List.head?_eq_getElem?, hname] at hfirst
    exact .direct hc hfirst.symm
  | succ i ih =>
    have hlt : i < chain.length :=
      (Nat.lt_succ_self i).trans (List.getElem?_eq_some_iff.1 hname).1
    have hbelow := List.getElem?_eq_getElem hlt
    obtain ⟨d, hd, habove⟩ :=
      superclassOf?_eq_some_iff.1 (h.superclassOf?_eq hbelow hname)
    exact .further (ih hbelow) hd habove

lemma climbing_ancestors {c : Class} (hc : program.classes[slot]? = some c) :
    ∃ last, program.Climbing c.superclass (program.ancestors slot) last ∧
      ∀ name ∈ last, name ∈ program.ancestors slot :=
  Climbing.run (climbs_ancestors hc) ⟨List.nodup_nil, by simp, rfl, .nil, by simp⟩
    fun _ => mem_superclasses hc

/-- A walk that stops where a superclass comes again has passed by all of them. -/
lemma mem_ancestors_iff {c : Class} (hc : program.classes[slot]? = some c) {name : String} :
    name ∈ program.ancestors slot ↔ program.Descends slot name := by
  obtain ⟨last, hclimbing, hends⟩ := climbing_ancestors hc
  constructor
  · intro hname
    obtain ⟨i, hi⟩ := List.mem_iff_getElem?.1 hname
    exact descends_of_getElem? hc hclimbing hi
  · intro hdescends
    induction hdescends with
    | direct hd hname =>
      obtain rfl := Option.some.inj (hc.symm.trans hd)
      have hfirst := hclimbing.first
      rw [hname] at hfirst
      rcases Option.or_eq_some_iff.1 hfirst with hhead | ⟨-, hlast⟩
      · exact List.mem_of_head? hhead
      · exact hends _ hlast
    | further _ hd habove ih =>
      exact hclimbing.closed hends ih (superclassOf?_eq_some_iff.2 ⟨_, hd, habove⟩)

lemma isTestCase_iff {c : Class} (hc : program.classes[slot]? = some c) :
    program.isTestCase slot = true ↔ program.Descends slot testCaseName := by
  rw [isTestCase, List.contains_iff_mem, mem_ancestors_iff hc]

lemma recordedName?_eq_none_iff {c : Class} (hc : program.classes[slot]? = some c)
    (method : Method) : program.recordedName? slot method = none ↔
      method.givenSelector?.isSome = true ∧ program.Descends slot testCaseName := by
  rw [← isTestCase_iff hc, recordedName?]
  split <;> simp_all

lemma eq_of_recordedName? {method : Method} {name : String}
    (h : program.recordedName? slot method = some name) : name = method.name := by
  rw [recordedName?] at h
  split at h
  · contradiction
  · exact (Option.some.inj h).symm

/-- **The superclasses of a class.** The walk from superclass to superclass ends for every class,
whatever the superclass names are. It lists no name twice, starts with the superclass, goes from
each name to the superclass of its class, and stops only where there is no such class, the class
has no superclass, or the superclass is listed. So it comes by the base class of test cases exactly
if the class descends from it, and in these classes alone the names of renamed methods are not
recorded. -/
theorem ancestors_lineage {c : Class} (hc : program.classes[slot]? = some c) :
    (∀ chain, program.Climbs [] c.superclass chain ↔ chain = program.ancestors slot) ∧
    (program.ancestors slot).length ≤ program.classes.size ∧
    (program.ancestors slot).Nodup ∧
    (program.ancestors slot).head? = c.superclass ∧
    (∀ i name above, (program.ancestors slot)[i]? = some name →
      (program.ancestors slot)[i + 1]? = some above →
        ∃ d, program.find? name = some d ∧ d.superclass = some above) ∧
    (∀ last, (program.ancestors slot).getLast? = some last →
      program.find? last = none ∨ ∃ d, program.find? last = some d ∧
        (d.superclass = none ∨ ∃ above ∈ program.ancestors slot, d.superclass = some above)) ∧
    (program.isTestCase slot = true ↔ program.Descends slot testCaseName) ∧
    ∀ method, (program.recordedName? slot method = none ↔
        method.givenSelector?.isSome = true ∧ program.Descends slot testCaseName) ∧
      ∀ name, program.recordedName? slot method = some name → name = method.name := by
  obtain ⟨next, hclimbing, hends⟩ := climbing_ancestors hc
  refine ⟨?_, hclimbing.length_le, hclimbing.nodup, ?_, ?_, ?_, isTestCase_iff hc,
    fun method => ⟨recordedName?_eq_none_iff hc method, fun _ => eq_of_recordedName?⟩⟩
  · intro chain
    constructor
    · exact (climbs_ancestors hc).unique
    · rintro rfl
      exact climbs_ancestors hc
  · have hfirst := hclimbing.first
    cases hancestors : program.ancestors slot with
    | nil =>
      rw [hancestors] at hfirst hends
      cases next with
      | none => exact hfirst
      | some name => simp at hends
    | cons name names =>
      rw [hancestors] at hfirst
      exact hfirst
  · intro i name above hname habove
    exact superclassOf?_eq_some_iff.1 (hclimbing.superclassOf?_eq hname habove)
  · intro last hlast
    have hnext := hclimbing.last last hlast
    cases next with
    | none =>
      rcases superclassOf?_eq_none_iff.1 hnext with hnone | ⟨d, hd, hnone⟩
      · exact .inl hnone
      · exact .inr ⟨d, hd, .inl hnone⟩
    | some above =>
      obtain ⟨d, hd, habove⟩ := superclassOf?_eq_some_iff.1 hnext
      exact .inr ⟨d, hd, .inr ⟨above, hends above rfl, habove⟩⟩

/-- Two classes that extend each other, below which is a third, and a test case. -/
def circular : Program :=
  addFile {} "p" none
    [{ ClassDraft.ofName "A" .ordinary with superclass := some "p.B" },
      { ClassDraft.ofName "B" .ordinary with superclass := some "p.C" },
      { ClassDraft.ofName "C" .ordinary with superclass := some "p.B" },
      { ClassDraft.ofName "D" .ordinary with superclass := some testCaseName }]

/-- A method that is given the selector `run`. -/
def renamed : Method :=
  { Method.ofName "testRun" with
    annotations := [⟨selectorAnnotationName, [("value", .string "run")], .runtime⟩] }

theorem ancestors_lineage_circular :
    circular.ancestors 0 = ["p.B", "p.C"] ∧ circular.isTestCase 0 = false ∧
      circular.ancestors 3 = [testCaseName] ∧ circular.recordedName? 3 renamed = none := by
  have hb : circular.superclassOf? "p.B" = some "p.C" := by decide +kernel
  have hc : circular.superclassOf? "p.C" = some "p.B" := by decide +kernel
  have htest : circular.superclassOf? testCaseName = none := by decide +kernel
  have hfirst : circular.classes[0]?.any (·.superclass == some "p.B") = true := by decide +kernel
  have hlast : circular.classes[3]?.any (·.superclass == some testCaseName) = true := by
    decide +kernel
  obtain ⟨a, ha, hfirst⟩ := (Option.any_eq_true _ _).1 hfirst
  obtain ⟨d, hd, hlast⟩ := (Option.any_eq_true _ _).1 hlast
  obtain ⟨hwalk, -⟩ := ancestors_lineage ha
  obtain ⟨htests, -, -, -, -, -, -, hrecorded⟩ := ancestors_lineage hd
  have habove : circular.ancestors 0 = ["p.B", "p.C"] := by
    refine ((hwalk _).1 ?_).symm
    rw [eq_of_beq hfirst]
    refine .step (by simp) (hb ▸ .step (by simp) (hc ▸ .again (by simp)))
  have hunknown : circular.ancestors 3 = [testCaseName] := by
    refine ((htests _).1 ?_).symm
    rw [eq_of_beq hlast]
    exact .step (by simp) (htest ▸ .top)
  have hrenamed : renamed.givenSelector?.isSome = true := by decide +kernel
  refine ⟨habove, ?_, hunknown, (hrecorded renamed).1.2 ⟨hrenamed, .direct hd (eq_of_beq hlast)⟩⟩
  rw [isTestCase, habove]
  decide

end Program

end ExternalAnnotations
