import ExternalAnnotations.Header.Contents
import ExternalAnnotations.Proofs.Injection.Counting
import ExternalAnnotations.Proofs.Injection.Order
import Mathlib.Data.Set.Card

/-!
# Visits over whole runs

An injector is asked to visit files in any order and more than once, while files are still entered
into its program. A `Ledger` says how many files there are and which of them were visited, as the
calls alone tell. The first visit of a file does the work, and later ones do nothing.
-/

namespace ExternalAnnotations

/-- What is asked of an injector and its program. -/
inductive Call
  | addFile (package : String) (path : Option String) (drafts : List ClassDraft)
  | visit (file : FileId)
  | visitAll
  | makeHeaders (options : HeaderOptions) (file : FileId)

namespace Call

def work : Call → Injection.Working Unit
  | addFile package path drafts => modify fun injection =>
    { injection with program := injection.program.addFile package path drafts }
  | visit file => do let _ ← Injection.injectFile file
  | visitAll => do let _ ← Injection.injectProgram
  | makeHeaders options file => do let _ ← options.makeHeaders file

/-- The file that a call asks for by its number. -/
def file? : Call → Option FileId
  | visit file | makeHeaders _ file => some file
  | addFile _ _ _ | visitAll => none

end Call

namespace Injection

/-- The work after a call, also if the call failed. -/
def after (injection : Injection) (call : Call) : Injection :=
  match call.work.run injection with
  | .ok _ next | .error _ next => next

def afterAll (injection : Injection) (calls : List Call) : Injection := calls.foldl after injection

/-- The classes of a file that are others afterwards. -/
def changedIn (before after : Injection) (file : FileId) : Set Slot :=
  {slot | slot ∈ before.program.classesIn file ∧
    after.program.classes[slot]? ≠ before.program.classes[slot]?}

end Injection

/-! ### What calls alone tell -/

structure Ledger where
  files : Nat
  visited : List FileId

namespace Ledger

def start : Ledger := ⟨0, []⟩

def visit (ledger : Ledger) (file : FileId) : Ledger :=
  if file < ledger.files then { ledger with visited := file :: ledger.visited } else ledger

lemma files_visit (ledger : Ledger) (file : FileId) :
    (ledger.visit file).files = ledger.files := by
  unfold visit
  split <;> rfl

def record (ledger : Ledger) : Call → Ledger
  | .addFile _ _ _ => { ledger with files := ledger.files + 1 }
  | .visit file | .makeHeaders _ file => ledger.visit file
  | .visitAll => (List.range ledger.files).foldl visit ledger

def recordAll (ledger : Ledger) (calls : List Call) : Ledger := calls.foldl record ledger

/-- A call without visits of files that were visited before. -/
def firstVisits (ledger : Ledger) : Call → List Call
  | .addFile package path drafts => [.addFile package path drafts]
  | .visit file => if file ∈ ledger.visited then [] else [.visit file]
  | .makeHeaders options file =>
    if file ∈ ledger.visited then [] else [.makeHeaders options file]
  | .visitAll => ((List.range ledger.files).filter (· ∉ ledger.visited)).map .visit

def withoutRepeats (ledger : Ledger) : List Call → List Call
  | [] => []
  | call :: calls => ledger.firstVisits call ++ (ledger.record call).withoutRepeats calls

example (options : HeaderOptions) : start.withoutRepeats [.addFile "p" none [], .visit 0, .visitAll,
    .addFile "q" none [], .makeHeaders options 0, .visitAll] =
      [.addFile "p" none [], .visit 0, .addFile "q" none [], .visit 1] := rfl

/-- What a ledger says of an injector that works with an index, and of its program. -/
structure Describes (ledger : Ledger) (index : Index) (injection : Injection) : Prop where
  reached : injection.program.Reached
  index : injection.injector.index = index
  files : injection.program.files.size = ledger.files
  known : ∀ file ∈ ledger.visited, file < ledger.files
  progress : ∀ file, injection.injector.progress file =
    if file ∈ ledger.visited then .done else .unvisited
  collected : injection.injector.memo.diagnostics = []

end Ledger

lemma Program.Ordered.exists_of_mem_classesIn {program : Program} (h : program.Ordered)
    {file : FileId} {slot : Slot} (hslot : slot ∈ program.classesIn file) :
    ∃ c, program.classes[slot]? = some c := by
  have hfile : file < program.files.size := by
    by_contra hfile
    have hnone : program.files[file]? = none :=
      Array.getElem?_eq_none_iff.2 (Nat.le_of_not_lt hfile)
    rw [classesIn, hnone] at hslot
    contradiction
  have hlt : slot ∈ List.range program.classes.size := by
    rw [← h.listed]
    exact List.mem_flatMap.2 ⟨file, List.mem_range.2 hfile, hslot⟩
  exact ⟨_, Array.getElem?_eq_getElem (List.mem_range.1 hlt)⟩

lemma Injection.changedIn_congr {before before' after after' : Injection} {file : FileId}
    (hclasses : before.program.classesIn file = before'.program.classesIn file)
    (hbefore : ∀ slot ∈ before.program.classesIn file,
      before.program.classes[slot]? = before'.program.classes[slot]?)
    (hafter : ∀ slot ∈ before.program.classesIn file,
      after.program.classes[slot]? = after'.program.classes[slot]?) :
    changedIn before after file = changedIn before' after' file := by
  ext slot
  simp only [changedIn, ← hclasses]
  refine and_congr_right fun hslot => ?_
  rw [hbefore slot hslot, hafter slot hslot]

/-! ### One visit -/

namespace Injection

variable {injection next : Injection} {file : FileId} {replaced : Nat}

lemma collected_eq (h : injection.injector.memo.diagnostics = []) :
    injection.collected = injection := by
  obtain ⟨⟨index, ⟨known, reported⟩, visits, diagnostics⟩, program⟩ := injection
  obtain rfl : reported = [] := h
  simp [collected, Injector.collect]

lemma run_injectFile_unknown (hquiet : injection.injector.memo.diagnostics = [])
    (h : injection.program.files.size ≤ file) :
    (injectFile file).run injection = .error (.unknownFile file) injection := by
  have hrun : (annotateFile file).run injection = .error (.unknownFile file) injection := by
    simp only [annotateFile, EStateM.run_bind, EStateM.run_get, h, if_true]
    rfl
  rw [injectFile, run_collecting_of_error hrun, collected_eq hquiet]

lemma run_annotateFile_done (h : file < injection.program.files.size)
    (hdone : injection.injector.progress file = .done) :
    (annotateFile file).run injection = .ok 0 injection := by
  have hlt : ¬ injection.program.files.size ≤ file := by simpa using h
  simp only [annotateFile, EStateM.run_bind, EStateM.run_get, hlt, if_false, hdone]
  rfl

lemma run_injectFile_done (hquiet : injection.injector.memo.diagnostics = [])
    (h : file < injection.program.files.size)
    (hdone : injection.injector.progress file = .done) :
    (injectFile file).run injection = .ok 0 injection := by
  rw [injectFile, run_collecting_of_ok (run_annotateFile_done h hdone), collected_eq hquiet]

lemma run_injectFile_first (h : file < injection.program.files.size)
    (hv : injection.injector.progress file = .unvisited)
    (hrun : (annotateSlots (injection.program.classesIn file)).run
      (injection.marked file .working) = .ok replaced next) :
    (injectFile file).run injection = .ok replaced (next.marked file .done).collected := by
  have hlt : ¬ injection.program.files.size ≤ file := by simpa using h
  apply run_collecting_of_ok
  simp only [annotateFile, EStateM.run_bind, EStateM.run_get, hlt, if_false, hv, run_setProgress,
    hrun]
  rfl

lemma reached_annotating (h : injection.program.Reached) (slot : Slot) :
    (injection.annotating slot).program.Reached := by
  unfold annotating
  split
  · exact h
  · rename_i c hc
    -- what is annotated is put in the place of the same class, which is never refused
    have hsame : Program.sameClass c (injection.annotated c) := sameClass_adding _ _
    have hreplace : injection.program.replace slot (injection.annotated c) =
        .ok (c, { injection.program with
          classes := injection.program.classes.setIfInBounds slot (injection.annotated c) }) := by
      simp [Program.replace, hc, hsame]
    exact h.replace hreplace

lemma reached_foldl_annotating (h : injection.program.Reached) (slots : List Slot) :
    (slots.foldl annotating injection).program.Reached := by
  induction slots generalizing injection with
  | nil => exact h
  | cons slot slots ih => exact ih (reached_annotating h slot)

lemma after_visit_of_ok (h : (injectFile file).run injection = .ok replaced next) :
    injection.after (.visit file) = next := by
  simp only [after, Call.work, EStateM.run_bind, h]
  rfl

lemma after_visit_of_error {error : InjectionError}
    (h : (injectFile file).run injection = .error error next) :
    injection.after (.visit file) = next := by
  simp only [after, Call.work, EStateM.run_bind, h]

lemma run_makeHeaders (options : HeaderOptions)
    (h : (injectFile file).run injection = .ok replaced next) :
    (options.makeHeaders file).run injection =
      .ok (options.describeFile next.program file) next := by
  simp only [HeaderOptions.makeHeaders, EStateM.run_bind, h]
  rfl

lemma run_makeHeaders_error (options : HeaderOptions) {error : InjectionError}
    (h : (injectFile file).run injection = .error error next) :
    (options.makeHeaders file).run injection = .error error next := by
  simp only [HeaderOptions.makeHeaders, EStateM.run_bind, h]

lemma after_makeHeaders (options : HeaderOptions) (injection : Injection) (file : FileId) :
    injection.after (.makeHeaders options file) = injection.after (.visit file) := by
  cases hrun : (injectFile file).run injection with
  | ok replaced next =>
    rw [after_visit_of_ok hrun]
    simp only [after, Call.work, EStateM.run_bind, run_makeHeaders options hrun]
    rfl
  | error error next =>
    rw [after_visit_of_error hrun]
    simp only [after, Call.work, EStateM.run_bind, run_makeHeaders_error options hrun]

end Injection

open Injection

namespace Ledger.Describes

variable {ledger : Ledger} {index : Index} {injection : Injection}

lemma of_mem_iff {other : Ledger} (h : ledger.Describes index injection)
    (hfiles : other.files = ledger.files)
    (hvisited : ∀ file, file ∈ other.visited ↔ file ∈ ledger.visited) :
    other.Describes index injection where
  reached := h.reached
  index := h.index
  files := hfiles ▸ h.files
  known := fun file hfile => hfiles ▸ h.known file ((hvisited file).1 hfile)
  progress := fun file => by rw [h.progress, if_congr (hvisited file) rfl rfl]
  collected := h.collected

variable (h : ledger.Describes index injection)
include h

lemma size_le {file : FileId} (hfile : ¬ file < ledger.files) :
    injection.program.files.size ≤ file := by
  rw [h.files]
  exact Nat.le_of_not_lt hfile

lemma unvisited {file : FileId} (hfile : file ∉ ledger.visited) :
    injection.injector.progress file = .unvisited := by
  rw [h.progress, if_neg hfile]

lemma run_visited {file : FileId} (hfile : file ∈ ledger.visited) :
    (injectFile file).run injection = .ok 0 injection := by
  apply run_injectFile_done h.collected
  · rw [h.files]
    exact h.known file hfile
  · rw [h.progress, if_pos hfile]

lemma run_first {file : FileId} (hknown : file < ledger.files) (hfile : file ∉ ledger.visited) :
    ∃ replaced next, (injectFile file).run injection = .ok replaced next ∧
      Describes { ledger with visited := file :: ledger.visited } index next := by
  have hlt : file < injection.program.files.size := h.files ▸ hknown
  obtain ⟨replaced, hrun⟩ := run_injectFile hlt (h.unvisited hfile)
  refine ⟨replaced, _, hrun, ?_⟩
  constructor
  · have hworking : (injection.marked file .working).program.Reached := h.reached
    exact reached_foldl_annotating hworking _
  · rw [← h.index]
    exact index_foldl_annotating _ _
  · exact (congrArg Array.size (files_foldl_annotating _ _)).trans h.files
  · intro other hother
    obtain rfl | hother := List.mem_cons.1 hother
    · exact hknown
    · exact h.known other hother
  · intro other
    refine (progress_marked _ file .done other).trans ?_
    rw [progress_foldl_annotating, progress_marked, h.progress]
    by_cases hother : other = file
    · simp [hother]
    · simp [hother]
  · rfl

lemma visit (file : FileId) :
    (ledger.visit file).Describes index (injection.after (.visit file)) := by
  by_cases hknown : file < ledger.files
  · rw [Ledger.visit, if_pos hknown]
    by_cases hfile : file ∈ ledger.visited
    · rw [after_visit_of_ok (h.run_visited hfile)]
      refine h.of_mem_iff rfl fun other => ?_
      rw [List.mem_cons, or_iff_right_of_imp]
      rintro rfl
      exact hfile
    · obtain ⟨replaced, next, hrun, hnext⟩ := h.run_first hknown hfile
      rwa [after_visit_of_ok hrun]
  · have hrun := run_injectFile_unknown h.collected (h.size_le hknown)
    rwa [Ledger.visit, if_neg hknown, after_visit_of_error hrun]

lemma visits (files : List FileId) : (files.foldl Ledger.visit ledger).Describes index
    (injection.afterAll (files.map .visit)) := by
  induction files generalizing ledger injection with
  | nil => exact h
  | cons file files ih => exact ih (h.visit file)

lemma run_known {file : FileId} (hfile : file < ledger.files) : ∃ replaced,
    (injectFile file).run injection = .ok replaced (injection.after (.visit file)) := by
  by_cases hvisited : file ∈ ledger.visited
  · have hrun := h.run_visited hvisited
    exact ⟨0, hrun.trans (congrArg _ (after_visit_of_ok hrun).symm)⟩
  · obtain ⟨replaced, next, hrun, -⟩ := h.run_first hfile hvisited
    exact ⟨replaced, hrun.trans (congrArg _ (after_visit_of_ok hrun).symm)⟩

/-- Annotating files one after the other comes to an end without an error. -/
lemma run_injectFiles (files : List FileId) (hfiles : ∀ file ∈ files, file < ledger.files) :
    ∃ replaced, (injectFiles files).run injection =
      .ok replaced (injection.afterAll (files.map .visit)) := by
  induction files generalizing ledger injection with
  | nil => exact ⟨0, rfl⟩
  | cons file files ih =>
    obtain ⟨hfile, hfiles⟩ := List.forall_mem_cons.1 hfiles
    have hnext := h.visit file
    obtain ⟨first, hfirst⟩ := h.run_known hfile
    obtain ⟨others, hothers⟩ := ih hnext ((ledger.files_visit file).symm ▸ hfiles)
    refine ⟨first + others, ?_⟩
    simp only [injectFiles, EStateM.run_bind, hfirst, hothers]
    rfl

lemma run_injectProgram : ∃ replaced, injectProgram.run injection =
    .ok replaced (injection.afterAll ((List.range ledger.files).map .visit)) := by
  obtain ⟨replaced, hrun⟩ := h.run_injectFiles (List.range ledger.files) fun _ => List.mem_range.1
  refine ⟨replaced, ?_⟩
  simp only [injectProgram, EStateM.run_bind, EStateM.run_get, h.files, hrun]

lemma afterAll_filter {files : List FileId} (hd : files.Nodup)
    (hfiles : ∀ file ∈ files, file < ledger.files) :
    injection.afterAll ((files.filter (· ∉ ledger.visited)).map .visit) =
      injection.afterAll (files.map .visit) := by
  induction files generalizing ledger injection with
  | nil => rfl
  | cons file files ih =>
    obtain ⟨hfile, hfiles⟩ := List.forall_mem_cons.1 hfiles
    obtain ⟨hnot, hd⟩ := List.nodup_cons.1 hd
    by_cases hvisited : file ∈ ledger.visited
    · rw [List.filter_cons_of_neg (by simpa using hvisited), ih h hd hfiles]
      refine congrArg (afterAll · _) ?_
      exact (after_visit_of_ok (h.run_visited hvisited)).symm
    · have hnext := h.visit file
      rw [Ledger.visit, if_pos hfile] at hnext
      -- this visit leaves nothing out among the others, which are of other files
      have hrest : files.filter (· ∉ ledger.visited) =
          files.filter (· ∉ file :: ledger.visited) := by
        refine List.filter_congr fun other hother => ?_
        have hne : other ≠ file := by
          rintro rfl
          exact hnot hother
        simp [hne]
      rw [List.filter_cons_of_pos (by simpa using hvisited), hrest]
      exact ih hnext hd hfiles

lemma after_visitAll : injection.after .visitAll =
    injection.afterAll ((List.range ledger.files).map .visit) := by
  obtain ⟨replaced, hrun⟩ := h.run_injectProgram
  simp only [after, Call.work, EStateM.run_bind, hrun]
  rfl

lemma call (call : Call) : (ledger.record call).Describes index (injection.after call) := by
  cases call with
  | visit file => exact h.visit file
  | makeHeaders options file =>
    rw [after_makeHeaders]
    exact h.visit file
  | visitAll =>
    rw [h.after_visitAll]
    exact h.visits _
  | addFile package path drafts =>
    constructor
    · exact h.reached.addFile package path drafts
    · exact h.index
    · exact (Program.size_files_addFile _ _ _ _).trans (congrArg (· + 1) h.files)
    · exact fun file hfile => Nat.lt_succ_of_lt (h.known file hfile)
    · exact h.progress
    · exact h.collected

lemma calls (calls : List Call) :
    (ledger.recordAll calls).Describes index (injection.afterAll calls) := by
  induction calls generalizing ledger injection with
  | nil => exact h
  | cons call calls ih => exact ih (h.call call)

lemma afterAll_firstVisits (call : Call) :
    injection.afterAll (ledger.firstVisits call) = injection.after call := by
  have hrepeated {file : FileId} (hvisited : file ∈ ledger.visited) :
      injection = injection.after (.visit file) :=
    (after_visit_of_ok (h.run_visited hvisited)).symm
  cases call with
  | addFile package path drafts => rfl
  | visit file =>
    rw [Ledger.firstVisits]
    split
    · exact hrepeated ‹_›
    · rfl
  | makeHeaders options file =>
    rw [Ledger.firstVisits]
    split
    · rw [after_makeHeaders]
      exact hrepeated ‹_›
    · rfl
  | visitAll =>
    rw [Ledger.firstVisits, h.after_visitAll]
    exact h.afterAll_filter List.nodup_range fun _ => List.mem_range.1

lemma afterAll_withoutRepeats (calls : List Call) :
    injection.afterAll (ledger.withoutRepeats calls) = injection.afterAll calls := by
  induction calls generalizing ledger injection with
  | nil => rfl
  | cons call calls ih =>
    rw [Ledger.withoutRepeats, afterAll, List.foldl_append]
    change ((injection.afterAll _).afterAll _) = _
    rw [h.afterAll_firstVisits, ih (h.call call)]
    rfl

lemma injectFile_error_iff (file : FileId) (error : InjectionError) (next : Injection) :
    (injectFile file).run injection = .error error next ↔
      injection.program.files.size ≤ file ∧ error = .unknownFile file ∧ next = injection := by
  by_cases hfile : file < ledger.files
  · obtain ⟨replaced, hrun⟩ := h.run_known hfile
    rw [hrun, h.files]
    constructor
    · nofun
    · rintro ⟨hle, -⟩
      exact absurd hfile (Nat.not_lt.2 hle)
  · have hle := h.size_le hfile
    rw [run_injectFile_unknown h.collected hle]
    constructor
    · intro heq
      obtain ⟨rfl, rfl⟩ := EStateM.Result.error.inj heq
      exact ⟨hle, rfl, rfl⟩
    · rintro ⟨-, rfl, rfl⟩
      rfl

lemma error_iff (call : Call) (error : InjectionError) (next : Injection) :
    call.work.run injection = .error error next ↔ ∃ file, call.file? = some file ∧
      injection.program.files.size ≤ file ∧ error = .unknownFile file ∧ next = injection := by
  have hfile (file : FileId) : (∃ named, some file = some named ∧
      injection.program.files.size ≤ named ∧ error = .unknownFile named ∧ next = injection) ↔
        (injectFile file).run injection = .error error next := by
    rw [h.injectFile_error_iff]
    simp
  cases call with
  | addFile package path drafts => exact ⟨nofun, nofun⟩
  | visit file =>
    rw [Call.file?, hfile]
    simp only [Call.work, EStateM.run_bind]
    cases (injectFile file).run injection with
    | ok replaced after => exact ⟨nofun, nofun⟩
    | error other after => simp only [EStateM.Result.error.injEq]
  | makeHeaders options file =>
    rw [Call.file?, hfile]
    simp only [Call.work, EStateM.run_bind, HeaderOptions.makeHeaders]
    cases (injectFile file).run injection with
    | ok replaced after => exact ⟨nofun, nofun⟩
    | error other after => simp only [EStateM.Result.error.injEq]
  | visitAll =>
    obtain ⟨replaced, hrun⟩ := h.run_injectProgram
    simp only [Call.work, EStateM.run_bind, hrun]
    exact ⟨nofun, nofun⟩

lemma lt_of_run {file : FileId} {replaced : Nat} {next : Injection}
    (hrun : (injectFile file).run injection = .ok replaced next) : file < ledger.files := by
  by_contra hunknown
  rw [run_injectFile_unknown h.collected (h.size_le hunknown)] at hrun
  contradiction

lemma counts {file : FileId} {replaced : Nat} {next : Injection}
    (hentries : ∀ entry ∈ index.entries, entry.annotations ≠ [])
    (hrun : (injectFile file).run injection = .ok replaced next) :
    replaced = (changedIn injection next file).ncard := by
  classical
  have hfile := h.lt_of_run hrun
  by_cases hvisited : file ∈ ledger.visited
  · rw [h.run_visited hvisited] at hrun
    obtain ⟨rfl, rfl⟩ := EStateM.Result.ok.inj hrun
    simp [changedIn]
  · obtain ⟨count, hslots⟩ := run_annotateSlots (injection.program.classesIn file)
      (injection.marked file .working)
    rw [run_injectFile_first (h.files ▸ hfile) (h.unvisited hvisited) hslots] at hrun
    obtain ⟨rfl, rfl⟩ := EStateM.Result.ok.inj hrun
    have hd := h.reached.ordered.nodup_classesIn file
    have hcount := annotateSlots_counts (h.index ▸ hentries) hd hslots
    rw [hcount, List.countP_eq_length_filter, ← List.toFinset_card_of_nodup (hd.filter _),
      ← Set.ncard_coe_finset]
    congr 1
    ext slot
    simp only [changedIn, Finset.mem_coe, List.mem_toFinset, List.mem_filter, decide_eq_true_eq]
    rfl

lemma visit_other {file : FileId} (hfile : file < ledger.files) :
    (injection.after (.visit file)).program.classesIn = injection.program.classesIn ∧
      ∀ other slot, other ≠ file → slot ∈ injection.program.classesIn other →
        (injection.after (.visit file)).program.classes[slot]? =
          injection.program.classes[slot]? := by
  by_cases hvisited : file ∈ ledger.visited
  · rw [after_visit_of_ok (h.run_visited hvisited)]
    exact ⟨rfl, fun _ _ _ _ => rfl⟩
  · obtain ⟨replaced, hrun⟩ := run_injectFile (h.files ▸ hfile) (h.unvisited hvisited)
    have hordered := h.reached.ordered
    have hclosed : (injection.marked file .working).program.Closed := hordered.toClosed
    rw [after_visit_of_ok hrun]
    refine ⟨funext (classesIn_foldl_annotating hclosed _), fun other slot hne hother => ?_⟩
    -- a class stands in one file only
    have hnot : slot ∉ injection.program.classesIn file := by
      intro hslot
      obtain ⟨c, hc⟩ := hordered.exists_of_mem_classesIn hslot
      exact hne ((hordered.inFile _ _ c hother hc).symm.trans (hordered.inFile _ _ c hslot hc))
    exact getElem?_foldl_annotating_of_notMem _ _ hnot

lemma visits_other {files : List FileId} (hfiles : ∀ file ∈ files, file < ledger.files) :
    (injection.afterAll (files.map .visit)).program.classesIn = injection.program.classesIn ∧
      ∀ other slot, other ∉ files → slot ∈ injection.program.classesIn other →
        (injection.afterAll (files.map .visit)).program.classes[slot]? =
          injection.program.classes[slot]? := by
  induction files generalizing ledger injection with
  | nil => exact ⟨rfl, fun _ _ _ _ => rfl⟩
  | cons file files ih =>
    obtain ⟨hfile, hfiles⟩ := List.forall_mem_cons.1 hfiles
    obtain ⟨hclasses, hsame⟩ := h.visit_other hfile
    obtain ⟨hclasses', hsame'⟩ := ih (h.visit file) ((ledger.files_visit file).symm ▸ hfiles)
    refine ⟨hclasses'.trans hclasses, fun other slot hother hslot => ?_⟩
    rw [List.mem_cons, not_or] at hother
    exact (hsame' other slot hother.2 (hclasses ▸ hslot)).trans (hsame other slot hother.1 hslot)

lemma counts_files {files : List FileId} (hd : files.Nodup)
    (hfiles : ∀ file ∈ files, file < ledger.files)
    (hentries : ∀ entry ∈ index.entries, entry.annotations ≠ []) {replaced : Nat}
    {next : Injection} (hrun : (injectFiles files).run injection = .ok replaced next) :
    replaced = (files.map fun file => (changedIn injection next file).ncard).sum := by
  induction files generalizing ledger injection replaced with
  | nil =>
    obtain ⟨rfl, -⟩ := EStateM.Result.ok.inj hrun
    rfl
  | cons file files ih =>
    obtain ⟨hfile, hfiles⟩ := List.forall_mem_cons.1 hfiles
    obtain ⟨hnot, hd⟩ := List.nodup_cons.1 hd
    have hnext := h.visit file
    have hfiles' : ∀ other ∈ files, other < (ledger.visit file).files :=
      (ledger.files_visit file).symm ▸ hfiles
    obtain ⟨first, hfirst⟩ := h.run_known hfile
    obtain ⟨others, hothers⟩ := hnext.run_injectFiles files hfiles'
    have hboth : (injectFiles (file :: files)).run injection = .ok (first + others)
        ((injection.after (.visit file)).afterAll (files.map .visit)) := by
      simp only [injectFiles, EStateM.run_bind, hfirst, hothers]
      rfl
    obtain ⟨rfl, rfl⟩ := EStateM.Result.ok.inj (hboth.symm.trans hrun)
    obtain ⟨hclasses, hsame⟩ := h.visit_other hfile
    obtain ⟨-, hsame'⟩ := hnext.visits_other hfiles'
    set middle := injection.after (.visit file)
    set last := middle.afterAll (files.map .visit)
    -- what changes in the first file changes by its own visit, and so with the others
    have hfile' : changedIn injection last file = changedIn injection middle file :=
      changedIn_congr rfl (fun _ _ => rfl) fun slot hslot =>
        hsame' file slot hnot (hclasses ▸ hslot)
    have hothers' (other : FileId) (hother : other ∈ files) :
        changedIn injection last other = changedIn middle last other := by
      have hne : other ≠ file := by
        rintro rfl
        exact hnot hother
      exact changedIn_congr (congrFun hclasses other).symm
        (fun slot hslot => (hsame other slot hne hslot).symm) fun _ _ => rfl
    rw [List.map_cons, List.sum_cons, hfile', h.counts hentries hfirst,
      ih hnext hd hfiles' hothers]
    refine congrArg (_ + List.sum ·) (List.map_congr_left fun other hother => ?_)
    rw [hothers' other hother]

end Ledger.Describes

lemma Ledger.describes_start (parsed : Parsed) :
    Ledger.start.Describes parsed.index ⟨.ofParsed parsed, {}⟩ where
  reached := .empty
  index := rfl
  files := rfl
  known := nofun
  progress := fun _ => rfl
  collected := rfl

/-- **Visits.** Whatever is asked of an injector while its program grows, a file is done from its
first visit on and is never left half done. A call fails if it names a file that there is not, for
no other reason, and then it does nothing. Visiting a file again does nothing either, so the run
comes to the same without such visits. If every entry of the index brings annotations, a visit gives
the number of classes of the file that are others afterwards. -/
theorem injector_visits (parsed : Parsed) (calls : List Call) :
    let start : Injection := ⟨.ofParsed parsed, {}⟩
    let now := start.afterAll calls
    let visited := (Ledger.start.recordAll calls).visited
    start.afterAll (Ledger.start.withoutRepeats calls) = now ∧
    (∀ file, now.injector.progress file = if file ∈ visited then .done else .unvisited) ∧
    (∀ (call : Call) error next, call.work.run now = .error error next ↔
      ∃ file, call.file? = some file ∧ now.program.files.size ≤ file ∧
        error = .unknownFile file ∧ next = now) ∧
    (∀ file ∈ visited, (injectFile file).run now = .ok 0 now ∧
      ∀ options : HeaderOptions, (options.makeHeaders file).run now =
        .ok (options.describeFile now.program file) now) ∧
    (∀ file replaced next, (injectFile file).run now = .ok replaced next →
      next.injector.progress file = .done) ∧
    ((∀ entry ∈ parsed.index.entries, entry.annotations ≠ []) →
      (∀ file replaced next, (injectFile file).run now = .ok replaced next →
        replaced = (changedIn now next file).ncard) ∧
      ∀ replaced next, injectProgram.run now = .ok replaced next →
        replaced = ∑ file ∈ Finset.range now.program.files.size,
          (changedIn now next file).ncard) := by
  intro start now visited
  have hstart := Ledger.describes_start parsed
  have hnow := hstart.calls calls
  refine ⟨hstart.afterAll_withoutRepeats calls, hnow.progress, hnow.error_iff, ?_, ?_,
    fun hentries => ⟨fun file replaced next => hnow.counts hentries, ?_⟩⟩
  · intro file hfile
    have hrun := hnow.run_visited hfile
    exact ⟨hrun, fun options => run_makeHeaders options hrun⟩
  · intro file replaced next hrun
    have hnext := hnow.visit file
    rw [after_visit_of_ok hrun, Ledger.visit, if_pos (hnow.lt_of_run hrun)] at hnext
    rw [hnext.progress, if_pos List.mem_cons_self]
  · intro replaced next hrun
    have hfiles : (injectFiles (List.range now.program.files.size)).run now =
        .ok replaced next := hrun
    rw [hnow.files] at hfiles ⊢
    exact hnow.counts_files List.nodup_range (fun _ => List.mem_range.1) hentries hfiles

/-- The first visit comes too early, and the second one marks a method of the only class. -/
theorem injector_visits_marking :
    let start : Injection := ⟨.ofParsed ⟨marking.injector.index, []⟩, {}⟩
    let now := start.afterAll [.visit 0, .addFile "p" none
      [{ ClassDraft.ofName "C" .ordinary with methods := [.ofName "m"] }]]
    (∀ entry ∈ marking.injector.index.entries, entry.annotations ≠ []) ∧
      ∃ next, (injectFile 0).run now = .ok 1 next ∧ next.injector.progress 0 = .done ∧
        1 = (changedIn now next 0).ncard := by
  intro start now
  have hentries : ∀ entry ∈ marking.injector.index.entries, entry.annotations ≠ [] := by
    intro entry hentry
    obtain rfl := List.mem_singleton.1 hentry
    exact List.cons_ne_nil _ _
  obtain ⟨-, -, -, -, hdone, hcounts⟩ := injector_visits ⟨marking.injector.index, []⟩
    [.visit 0, .addFile "p" none
      [{ ClassDraft.ofName "C" .ordinary with methods := [.ofName "m"] }]]
  have hone : (injectFile 0).run' now = some 1 := by decide +kernel
  unfold EStateM.run' at hone
  refine ⟨hentries, ?_⟩
  cases hrun : (injectFile 0).run now with
  | error error next =>
    rw [hrun] at hone
    contradiction
  | ok replaced next =>
    rw [hrun] at hone
    obtain rfl := Option.some.inj hone
    exact ⟨next, rfl, hdone 0 _ next hrun, (hcounts hentries).1 0 _ next hrun⟩

end ExternalAnnotations
