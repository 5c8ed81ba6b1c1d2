import ExternalAnnotations.Proofs.Index.AlikeBlocks
import ExternalAnnotations.Proofs.Injection.Provenance
import ExternalAnnotations.Proofs.Injection.Visits

/-!
# Diagnostics of whole runs

Diagnostics go from the memo to the injector after every visit, and away from the injector when they
are taken. On the way none is lost and none comes twice: in the end there are those of the texts and
those that each file gave rise to at its first visit. An annotation type that is declared nowhere is
among them once, wherever an annotation of it was put.
-/

namespace ExternalAnnotations

/-! ### What is reported at a first visit -/

namespace Injection

variable {start injection : Injection}

/-- What is reported while a file is annotated. -/
def visitReports (injection : Injection) (file : FileId) : List Diagnostic :=
  match (annotateFile file).run injection with
  | .ok _ next | .error _ next => next.injector.memo.diagnostics

/-- What is reported while files are annotated one after the other. -/
def reportsOf (injection : Injection) : List FileId → List Diagnostic
  | [] => []
  | file :: files =>
    injection.visitReports file ++ (injection.after (.visit file)).reportsOf files

lemma reportsOf_concat (injection : Injection) (files : List FileId) (file : FileId) :
    injection.reportsOf (files ++ [file]) =
      injection.reportsOf files ++ (injection.afterAll (files.map .visit)).visitReports file := by
  induction files generalizing injection with
  | nil => exact List.append_nil _
  | cons first files ih =>
    rw [List.cons_append, reportsOf, ih, reportsOf, List.append_assoc]
    rfl

/-- The work with all classes of a file annotated. -/
def annotatingFile (injection : Injection) (file : FileId) : Injection :=
  (injection.program.classesIn file).foldl annotating (injection.marked file .working)

section

variable {other : Injection} {file : FileId}

lemma after_first_visit (hf : file < injection.program.files.size)
    (hv : injection.injector.progress file = .unvisited) :
    injection.after (.visit file) =
      ((injection.annotatingFile file).marked file .done).collected := by
  obtain ⟨replaced, hrun⟩ := run_injectFile hf hv
  exact after_visit_of_ok hrun

lemma visitReports_first (hf : file < injection.program.files.size)
    (hv : injection.injector.progress file = .unvisited) :
    injection.visitReports file = (injection.annotatingFile file).injector.memo.diagnostics := by
  obtain ⟨replaced, hrun⟩ := run_annotateFile hf hv
  rw [visitReports, hrun]
  rfl

lemma diagnostics_annotatingFile (injection : Injection) (file : FileId) :
    (injection.annotatingFile file).injector.diagnostics = injection.injector.diagnostics := by
  refine foldl_annotating _ _ (·.injector.diagnostics) fun injection slot => ?_
  unfold annotating
  split <;> rfl

lemma AgreesWith.annotatingFile (h : injection.AgreesWith other)
    (hquiet : injection.injector.memo.diagnostics = [])
    (hquiet' : other.injector.memo.diagnostics = []) (file : FileId) :
    (injection.annotatingFile file).AgreesWith (other.annotatingFile file) ∧
      (other.annotatingFile file).injector.memo.diagnostics =
        (injection.annotatingFile file).injector.memo.diagnostics := by
  have hmarked : (injection.marked file .working).AgreesWith (other.marked file .working) :=
    ⟨h.program, h.index, h.known⟩
  obtain ⟨hagrees, reported, hreported, hreported'⟩ :=
    hmarked.foldl_annotating (injection.program.classesIn file)
  rw [Injection.annotatingFile, Injection.annotatingFile, h.program]
  refine ⟨hagrees, hreported'.trans (Eq.trans ?_ hreported.symm)⟩
  change other.injector.memo.diagnostics ++ _ = injection.injector.memo.diagnostics ++ _
  rw [hquiet, hquiet']

lemma Accounted.annotatingFile (h : start.Accounted injection) (file : FileId) :
    injection.injector.memo.GrowsTo (injection.annotatingFile file).injector.memo ∧
      start.Accounted (injection.annotatingFile file) := by
  have hmarked : start.Accounted (injection.marked file .working) :=
    h.of_agreesWith ⟨rfl, rfl, rfl⟩
  exact hmarked.foldl_annotating _

end

end Injection

/-! ### What is wrong with texts -/

lemma isMalformed_of_mem_parseBlocks {source : List Char} {scopes : Scopes} {cursor : Cursor}
    {diagnostic : Diagnostic} (h : diagnostic ∈ (parseBlocks source scopes cursor).diagnostics) :
    diagnostic.isMalformed := by
  induction hlength : cursor.rest.length using Nat.strong_induction_on
    generalizing scopes cursor with
  | _ length ih =>
  subst hlength
  by_cases hnil : cursor.rest = []
  · rw [parseBlocks_of_nil source scopes hnil] at h
    contradiction
  · rw [parseBlocks_of_ne_nil source scopes hnil] at h
    rcases List.mem_append.1 h with h | h
    · rw [Block.diagnostics_outcome] at h
      obtain ⟨error, -, rfl⟩ := List.mem_map.1 h
      rfl
    · exact ih _ (Block.length_resume_lt scopes hnil) h rfl

lemma Parsed.diagnostics_foldl_append (texts : List Parsed) (first : Parsed) :
    (texts.foldl Parsed.append first).diagnostics =
      first.diagnostics ++ texts.flatMap (·.diagnostics) := by
  induction texts generalizing first with
  | nil => exact (List.append_nil _).symm
  | cons text texts ih =>
    rw [List.foldl_cons, ih, List.flatMap_cons, ← List.append_assoc]
    rfl

lemma isMalformed_of_mem_parseAll {texts : List String} {diagnostic : Diagnostic}
    (h : diagnostic ∈ (parseAll texts).diagnostics) : diagnostic.isMalformed := by
  rw [parseAll, Parsed.diagnostics_foldl_append] at h
  obtain ⟨parsed, hmem, h⟩ := List.mem_flatMap.1 h
  obtain ⟨text, -, rfl⟩ := List.mem_map.1 hmem
  exact isMalformed_of_mem_parseBlocks h

lemma unresolvedNames_of_isMalformed {diagnostics : List Diagnostic}
    (h : ∀ diagnostic ∈ diagnostics, diagnostic.isMalformed) :
    unresolvedNames diagnostics = [] := by
  refine List.filterMap_eq_nil_iff.2 fun diagnostic hmem => ?_
  cases diagnostic with
  | malformed error line => rfl
  | unresolvedType name => exact absurd (h _ hmem) Bool.false_ne_true
  | invalidElement typeName element fault => rfl

/-! ### Sessions -/

/-- Where the index of an injector comes from. -/
inductive Supply
  | texts (contents : List String)
  | index (given : Index)

namespace Supply

def injector : Supply → Injector
  | texts contents => .ofParsed (parseAll contents)
  | index given => .ofIndex given

/-- What was wrong with the texts. -/
def diagnostics : Supply → List Diagnostic
  | texts contents => (parseAll contents).diagnostics
  | index _ => []

lemma unresolvedNames_diagnostics (supply : Supply) : unresolvedNames supply.diagnostics = [] := by
  cases supply with
  | texts contents => exact unresolvedNames_of_isMalformed fun _ => isMalformed_of_mem_parseAll
  | index given => rfl

end Supply

/-- What is asked of an injector whose program has all its files. -/
inductive Request
  | visit (file : FileId)
  | visitAll
  | take

/-- The files that a request is about, of as many as there are. -/
def Request.files (count : Nat) : Request → List FileId
  | visit file => if file < count then [file] else []
  | visitAll => List.range count
  | take => []

/-- The files in the order of their first visits. -/
def visitOrder (count : Nat) (requests : List Request) : List FileId :=
  (requests.flatMap (·.files count)).eraseDups

example : visitOrder 3 [.visit 2, .take, .visit 7, .visitAll, .visit 1] = [2, 0, 1] := by decide

/-- Work with an injector, and the diagnostics that were taken from it, batch by batch. -/
structure Session where
  injection : Injection
  taken : List (List Diagnostic)

namespace Session

def serve (session : Session) : Request → Session
  | .visit file => { session with injection := session.injection.after (.visit file) }
  | .visitAll => { session with injection := session.injection.after .visitAll }
  | .take =>
    let (batch, injector) := session.injection.injector.drain
    ⟨{ session.injection with injector }, session.taken ++ [batch]⟩

def serveAll (session : Session) (requests : List Request) : Session :=
  requests.foldl serve session

/-- What was taken, and then what has not been taken yet. -/
def reported (session : Session) : List Diagnostic :=
  session.taken.flatten ++ session.injection.injector.diagnostics

/-- A session in which files were asked for, next to a run from the start that visits each of them
once and takes nothing. -/
structure Follows (start : Injection) (earlier : List Diagnostic) (asked : List FileId)
    (session : Session) : Prop where
  described : Ledger.Describes ⟨start.program.files.size, asked⟩ start.injector.index
    session.injection
  alone : Ledger.Describes ⟨start.program.files.size, asked⟩ start.injector.index
    (start.afterAll (asked.eraseDups.map .visit))
  agrees : (start.afterAll (asked.eraseDups.map .visit)).AgreesWith session.injection
  reported : session.reported = earlier ++ start.reportsOf asked.eraseDups
  accounted : start.Accounted session.injection
  grown : ({} : Memo).GrowsTo (session.injection.injector.memo.behind session.reported)

end Session

open Injection

lemma Supply.follows (supply : Supply) {program : Program} (hp : program.Reached) :
    Session.Follows ⟨supply.injector, program⟩ supply.diagnostics []
      ⟨⟨supply.injector, program⟩, []⟩ := by
  have hdescribed : Ledger.Describes ⟨program.files.size, []⟩ supply.injector.index
      ⟨supply.injector, program⟩ := by
    refine ⟨hp, rfl, rfl, nofun, ?_, ?_⟩
    · cases supply <;> exact fun _ => rfl
    · cases supply <;> rfl
  have hmemo : supply.injector.memo = {} := by cases supply <;> rfl
  have hreported : supply.injector.diagnostics = supply.diagnostics := by cases supply <;> rfl
  refine ⟨hdescribed, hdescribed, ⟨rfl, rfl, rfl⟩, ?_, ?_, ?_⟩
  · exact hreported.trans (List.append_nil _).symm
  · refine ⟨rfl, ?_, fun _ => [], .refl program, fun _ _ _ _ hmem => absurd hmem List.not_mem_nil⟩
    change supply.injector.memo.Accounted _ _
    rw [hmemo]
    exact ⟨nofun, nofun⟩
  · refine ⟨supply.diagnostics, ?_, ?_, ?_, ?_⟩
    · nofun
    · change supply.injector.diagnostics ++ supply.injector.memo.diagnostics = _
      rw [hmemo, hreported]
      exact List.append_nil _
    · rw [supply.unresolvedNames_diagnostics]
      exact .nil
    · intro name
      rw [supply.unresolvedNames_diagnostics]
      change _ ↔ _ ∧ supply.injector.memo.find? name = _
      rw [hmemo]
      exact ⟨nofun, nofun⟩

lemma eraseDups_concat (files : List FileId) (file : FileId) :
    (files ++ [file]).eraseDups =
      if file ∈ files then files.eraseDups else files.eraseDups ++ [file] := by
  rw [List.eraseDups_append]
  split <;> simp_all [List.removeAll, List.eraseDups_cons]

lemma Ledger.Describes.visit_concat {count : Nat} {asked : List FileId} {index : Index}
    {injection : Injection} (h : Ledger.Describes ⟨count, asked⟩ index injection) {file : FileId}
    (hfile : file < count) :
    Ledger.Describes ⟨count, asked ++ [file]⟩ index (injection.after (.visit file)) := by
  have hvisit := h.visit file
  rw [Ledger.visit, if_pos hfile] at hvisit
  refine hvisit.of_mem_iff rfl fun other => ?_
  simp [or_comm]

namespace Session.Follows

variable {start : Injection} {earlier : List Diagnostic} {asked : List FileId} {session : Session}

/-- At its first visit a file gives rise to the same reports as it does alone. -/
lemma first (h : Follows start earlier asked session) {file : FileId}
    (hfile : file < start.program.files.size) (hnew : file ∉ asked) :
    Follows start earlier (asked ++ [file]) (session.serve (.visit file)) := by
  have halone : start.afterAll ((asked ++ [file]).eraseDups.map .visit) =
      (start.afterAll (asked.eraseDups.map .visit)).after (.visit file) := by
    rw [eraseDups_concat, if_neg hnew, List.map_append]
    exact List.foldl_append
  have hvisit := after_first_visit (h.described.files ▸ hfile) (h.described.unvisited hnew)
  have hvisit' := after_first_visit (h.alone.files ▸ hfile) (h.alone.unvisited hnew)
  obtain ⟨hagrees, hsame⟩ := h.agrees.annotatingFile h.alone.collected h.described.collected file
  obtain ⟨hgrows, haccounted⟩ := h.accounted.annotatingFile file
  have hreported : (session.serve (.visit file)).reported = session.reported ++
      (session.injection.annotatingFile file).injector.memo.diagnostics := by
    rw [Session.reported, Session.reported, List.append_assoc,
      ← session.injection.diagnostics_annotatingFile file, serve, hvisit]
    rfl
  have hmemo : (session.serve (.visit file)).injection.injector.memo.behind
        (session.serve (.visit file)).reported =
      (session.injection.annotatingFile file).injector.memo.behind session.reported := by
    rw [hreported, serve, hvisit]
    exact congrArg (Memo.mk _) (List.append_nil _)
  constructor
  · exact h.described.visit_concat hfile
  · rw [halone]
    exact h.alone.visit_concat hfile
  · rw [halone, hvisit', serve, hvisit]
    exact ⟨hagrees.program, hagrees.index, hagrees.known⟩
  · rw [hreported, h.reported, eraseDups_concat, if_neg hnew, reportsOf_concat, hsame,
      visitReports_first (h.alone.files ▸ hfile) (h.alone.unvisited hnew), List.append_assoc]
  · rw [serve, hvisit]
    exact haccounted.of_agreesWith ⟨rfl, rfl, rfl⟩
  · rw [hmemo]
    exact h.grown.trans (hgrows.behind session.reported)

lemma visit (h : Follows start earlier asked session) {file : FileId}
    (hfile : file < start.program.files.size) :
    Follows start earlier (asked ++ [file]) (session.serve (.visit file)) := by
  by_cases hnew : file ∈ asked
  · have hsame : session.serve (.visit file) = session := by
      rw [serve, after_visit_of_ok (h.described.run_visited hnew)]
    have hasked : ∀ other, other ∈ asked ++ [file] ↔ other ∈ asked := by
      simpa using hnew
    have horder : (asked ++ [file]).eraseDups = asked.eraseDups := by
      rw [eraseDups_concat, if_pos hnew]
    rw [hsame]
    constructor
    · exact h.described.of_mem_iff rfl hasked
    · rw [horder]
      exact h.alone.of_mem_iff rfl hasked
    · rw [horder]
      exact h.agrees
    · rw [horder]
      exact h.reported
    · exact h.accounted
    · exact h.grown
  · exact h.first hfile hnew

lemma visits (h : Follows start earlier asked session) {files : List FileId}
    (hfiles : ∀ file ∈ files, file < start.program.files.size) :
    Follows start earlier (asked ++ files) (session.serveAll (files.map .visit)) := by
  induction files generalizing asked session with
  | nil => rwa [List.append_nil]
  | cons file files ih =>
    obtain ⟨hfile, hfiles⟩ := List.forall_mem_cons.1 hfiles
    rw [List.append_cons]
    exact ih (h.visit hfile) hfiles

lemma serve_visitAll (h : Follows start earlier asked session) :
    session.serve .visitAll =
      session.serveAll ((List.range start.program.files.size).map .visit) := by
  have hvisits : ∀ (files : List FileId) (injection : Injection),
      serveAll ⟨injection, session.taken⟩ (files.map .visit) =
        ⟨injection.afterAll (files.map .visit), session.taken⟩ := by
    intro files
    induction files with
    | nil => exact fun _ => rfl
    | cons file files ih => exact fun injection => ih (injection.after (.visit file))
  rw [serve, h.described.after_visitAll]
  exact (hvisits _ session.injection).symm

lemma take (h : Follows start earlier asked session) :
    Follows start earlier asked (session.serve .take) := by
  have hreported : (session.serve .take).reported = session.reported := by
    simp [Session.reported, serve, Injector.drain]
  have hagrees : session.injection.AgreesWith (session.serve .take).injection := ⟨rfl, rfl, rfl⟩
  constructor
  · exact ⟨h.described.reached, h.described.index, h.described.files, h.described.known,
      h.described.progress, h.described.collected⟩
  · exact h.alone
  · exact h.agrees.trans hagrees
  · rw [hreported]
    exact h.reported
  · exact h.accounted.of_agreesWith hagrees
  · rw [hreported]
    exact h.grown

lemma serve (h : Follows start earlier asked session) (request : Request) :
    Follows start earlier (asked ++ request.files start.program.files.size)
      (session.serve request) := by
  cases request with
  | take =>
    rw [Request.files, List.append_nil]
    exact h.take
  | visitAll =>
    rw [h.serve_visitAll]
    exact h.visits fun _ => List.mem_range.1
  | visit file =>
    by_cases hfile : file < start.program.files.size
    · rw [Request.files, if_pos hfile]
      exact h.visit hfile
    · have hrun := run_injectFile_unknown h.described.collected (h.described.size_le hfile)
      have hsame : session.serve (.visit file) = session := by
        rw [Session.serve, after_visit_of_error hrun]
      rwa [Request.files, if_neg hfile, List.append_nil, hsame]

lemma serveAll (h : Follows start earlier asked session) (requests : List Request) :
    Follows start earlier (asked ++ requests.flatMap (·.files start.program.files.size))
      (session.serveAll requests) := by
  induction requests generalizing asked session with
  | nil => rwa [List.flatMap_nil, List.append_nil]
  | cons request requests ih =>
    rw [List.flatMap_cons, ← List.append_assoc]
    exact ih (h.serve request)

end Session.Follows

/-- **Diagnostics.** Whatever is asked of an injector, what was taken from it and what is left are
together what was wrong with its texts and what each file gave rise to at its first visit, in the
order of these visits and once. A name is reported as unresolved once if it is known to have no
annotation type, and otherwise never. What came to a class was made of entries for it, and of each
annotation in it, at any depth, the type is known, or the name of the type is known to have none, so
that it was reported. So it is with the defaults of declared types, but for a name whose declaration
uses the one that the default is in. -/
theorem diagnostics_conserved (supply : Supply) {program : Program} (hp : program.Reached)
    (requests : List Request) :
    let start : Injection := ⟨supply.injector, program⟩
    let session := Session.serveAll ⟨start, []⟩ requests
    let memo := session.injection.injector.memo
    let unresolved := unresolvedNames session.reported
    session.reported =
      supply.diagnostics ++ start.reportsOf (visitOrder program.files.size requests) ∧
    memo.diagnostics = [] ∧
    unresolved.Nodup ∧
    (∀ name, name ∈ unresolved ↔ memo.Has name none) ∧
    (∃ deliveries, program.Dressed session.injection.program deliveries ∧
      ∀ (slot : Slot) (c : Class), program.classes[slot]? = some c →
        ∀ delivery ∈ deliveries slot,
          delivery.entry ∈ supply.injector.index.entriesFor c.binaryName ∧
            start.sources.Made memo.Has delivery) ∧
    ∀ name declaration type, start.sources.declared? name = some declaration →
      memo.Has name (some type) →
        start.sources.DefaultsSynthesized (start.sources.FoundWithin memo name) declaration
          type := by
  intro start session memo unresolved
  have hfollows := (supply.follows hp).serveAll requests
  have hcollected : memo.diagnostics = [] := hfollows.described.collected
  obtain ⟨reported, hgrowth⟩ := hfollows.grown
  have hreported : session.reported = reported := by
    have hdiagnostics := hgrowth.diagnostics
    change session.reported ++ memo.diagnostics = [] ++ reported at hdiagnostics
    rwa [hcollected, List.append_nil, List.nil_append] at hdiagnostics
  have hunresolved : ∀ name, name ∈ unresolved ↔ memo.Has name none := by
    intro name
    change name ∈ unresolvedNames session.reported ↔ _
    rw [hreported, hgrowth.unresolved]
    exact and_iff_right rfl
  have hnodup : unresolved.Nodup := by
    change (unresolvedNames session.reported).Nodup
    rw [hreported]
    exact hgrowth.nodup
  exact ⟨hfollows.reported, hcollected, hnodup, hunresolved, hfollows.accounted.delivered,
    hfollows.accounted.memo.defaults⟩

/-- Both files need an annotation type that is declared nowhere, one of them in a default. The class
in the other one has had an annotation of the type before. -/
theorem diagnostics_conserved_undeclared :
    let supply : Supply := .texts ["package p: " ++
      "annotation @Y: annotation-field Gone value = @Gone class A: @Gone class C: @Y", "class"]
    let program := (Program.addFile {} "p" none
      [{ ClassDraft.ofName "A" .ordinary with annotations := [.bare "p.Gone"] }]).addFile "p" none
        [.ofName "C" .ordinary]
    let start : Injection := ⟨supply.injector, program⟩
    let session := Session.serveAll ⟨start, []⟩ [.visit 1, .take, .visitAll, .visit 7, .take]
    program.Reached ∧
    session.injection.program.classes.toList.map (·.allAnnotations.map (·.text)) =
      [["@p.Gone", "@p.Gone"], ["@p.Y(value=@p.Gone)"]] ∧
    session.taken.map (·.map (·.text)) = [["malformed index entry at 1:6: unexpected end of " ++
      "input, expected class name\n    class", "unresolved annotation type 'p.Gone'"], []] ∧
    session.reported = supply.diagnostics ++ start.reportsOf [1, 0] ∧
    session.injection.injector.memo.Has "p.Gone" none := by
  intro supply program start session
  have hp : program.Reached := .addFile _ _ _ (.addFile _ _ _ .empty)
  obtain ⟨hreported, -, -, hunresolved, -⟩ :=
    diagnostics_conserved supply hp [.visit 1, .take, .visitAll, .visit 7, .take]
  have hnames : unresolvedNames session.reported = ["p.Gone"] := by decide +kernel
  refine ⟨hp, by decide +kernel, by decide +kernel, hreported, (hunresolved "p.Gone").1 ?_⟩
  exact hnames ▸ List.mem_singleton_self _

end ExternalAnnotations
