import ExternalAnnotations.Proofs.Resolution.Queries
import ExternalAnnotations.Proofs.Resolution.Reports

/-!
# Memos that grow

What a memo knows stays known, and a name is reported when it becomes known that it has no
annotation type, so what was reported and what is known always go together. `Resolving.Leads` is
about work that lets a memo grow: of its result something is said that stays true while the memo
grows further.
-/

namespace ExternalAnnotations

/-- The name for which a diagnostic says that there is no annotation type. -/
def Diagnostic.unresolved? : Diagnostic → Option String
  | unresolvedType name => some name
  | _ => none

/-- The names that are reported to have no annotation type, as often as they are. -/
def unresolvedNames (diagnostics : List Diagnostic) : List String :=
  diagnostics.filterMap (·.unresolved?)

@[simp] lemma unresolvedNames_append (diagnostics others : List Diagnostic) :
    unresolvedNames (diagnostics ++ others) =
      unresolvedNames diagnostics ++ unresolvedNames others := List.filterMap_append

/-! ### Memos that grow -/

/-- What a memo knows the other one knows too. -/
def Memo.Within (memo other : Memo) : Prop :=
  ∀ name found, memo.find? name = some found → other.find? name = some found

/-- What is known stays known. Between two memos exactly those names are reported as unresolved,
each once, that became known to have no annotation type. -/
structure Memo.Growth (memo later : Memo) (reported : List Diagnostic) : Prop where
  within : memo.Within later
  diagnostics : later.diagnostics = memo.diagnostics ++ reported
  nodup : (unresolvedNames reported).Nodup
  unresolved : ∀ name, name ∈ unresolvedNames reported ↔
    memo.find? name = none ∧ later.find? name = some none

def Memo.GrowsTo (memo later : Memo) : Prop := ∃ reported, memo.Growth later reported

namespace Memo

variable {memo middle later : Memo}

lemma Growth.append {reported others : List Diagnostic} (h : memo.Growth middle reported)
    (h' : middle.Growth later others) : memo.Growth later (reported ++ others) where
  within := fun name found hf => h'.within name found (h.within name found hf)
  diagnostics := by rw [h'.diagnostics, h.diagnostics, List.append_assoc]
  nodup := by
    rw [unresolvedNames_append, List.nodup_append]
    refine ⟨h.nodup, h'.nodup, ?_⟩
    rintro name hfirst _ hsecond rfl
    have hnone := ((h'.unresolved name).1 hsecond).1
    rw [((h.unresolved name).1 hfirst).2] at hnone
    contradiction
  unresolved := by
    intro name
    rw [unresolvedNames_append, List.mem_append, h.unresolved, h'.unresolved]
    cases hm : middle.find? name with
    | none =>
      have hmemo : memo.find? name = none := by
        by_contra hsome
        obtain ⟨found, hf⟩ := Option.ne_none_iff_exists'.1 hsome
        rw [h.within name found hf] at hm
        contradiction
      simp [hmemo]
    | some found =>
      have hlater := h'.within name found hm
      simp [hlater]

lemma GrowsTo.refl (memo : Memo) : memo.GrowsTo memo := by
  refine ⟨[], fun _ _ hf => hf, (List.append_nil _).symm, .nil, fun name => ?_⟩
  constructor
  · nofun
  · rintro ⟨hnone, hsome⟩
    rw [hnone] at hsome
    contradiction

lemma GrowsTo.trans (h : memo.GrowsTo middle) (h' : middle.GrowsTo later) :
    memo.GrowsTo later := by
  obtain ⟨reported, h⟩ := h
  obtain ⟨others, h'⟩ := h'
  exact ⟨reported ++ others, h.append h'⟩

lemma GrowsTo.within (h : memo.GrowsTo later) : memo.Within later := by
  obtain ⟨reported, h⟩ := h
  exact h.within

lemma GrowsTo.behind (h : memo.GrowsTo later) (earlier : List Diagnostic) :
    (memo.behind earlier).GrowsTo (later.behind earlier) := by
  obtain ⟨reported, h⟩ := h
  refine ⟨reported, h.within, ?_, h.nodup, h.unresolved⟩
  rw [Memo.behind, h.diagnostics, ← List.append_assoc]
  rfl

lemma find?_remember_self (memo : Memo) (name : String) (found : Option AnnotationType) :
    (memo.remember name found).find? name = some found := by
  simp [find?, remember]

lemma find?_remember_of_ne (memo : Memo) {name other : String} (h : other ≠ name)
    (found : Option AnnotationType) :
    (memo.remember name found).find? other = memo.find? other := by
  simp [find?, remember, List.lookup_cons, beq_eq_false_iff_ne.2 h]

lemma growth_remember {name : String} (hf : memo.find? name = none)
    (found : Option AnnotationType) (reported : List Diagnostic)
    (hreported : unresolvedNames reported = if found.isNone then [name] else []) :
    memo.Growth ({ memo with diagnostics := memo.diagnostics ++ reported }.remember name found)
      reported where
  within := by
    intro other known hknown
    have hne : other ≠ name := by
      rintro rfl
      rw [hf] at hknown
      contradiction
    rw [find?_remember_of_ne _ hne]
    exact hknown
  diagnostics := rfl
  nodup := by
    rw [hreported]
    split <;> simp
  unresolved := by
    intro other
    rw [hreported]
    by_cases hother : other = name
    · subst hother
      rw [find?_remember_self]
      cases found <;> simp [hf]
    · rw [find?_remember_of_ne _ hother]
      have hnot : other ∉ if found.isNone then [name] else [] := by
        split <;> simp [hother]
      refine ⟨fun hmem => absurd hmem hnot, fun ⟨hnone, hsome⟩ => ?_⟩
      exact absurd (hnone.symm.trans hsome) nofun

lemma growsTo_conclude {name : String} (hf : memo.find? name = none)
    (found : Option AnnotationType) : memo.GrowsTo ((conclude name found).run memo).2 := by
  cases found with
  | none => exact ⟨_, growth_remember hf none [.unresolvedType name] rfl⟩
  | some type =>
    have hgrowth := growth_remember hf (some type) [] rfl
    rw [List.append_nil] at hgrowth
    exact ⟨_, hgrowth⟩

lemma growsTo_report (memo : Memo) (typeName element : String) (fault : ElementFault) :
    memo.GrowsTo (memo.report (.invalidElement typeName element fault)) := by
  refine ⟨[.invalidElement typeName element fault], fun _ _ hf => hf, rfl, .nil, fun name => ?_⟩
  constructor
  · nofun
  · rintro ⟨hnone, hsome⟩
    exact absurd (hnone.symm.trans hsome) nofun

end Memo

/-! ### Work that lets a memo grow -/

/-- From memos of a kind, work leads to later memos of the kind, and of these and of its result
something holds. -/
def Resolving.Leads {α : Type} (kind : Memo → Prop) (work : Resolving α)
    (post : Memo → α → Prop) : Prop :=
  ∀ memo, kind memo → memo.GrowsTo (work.run memo).2 ∧ kind (work.run memo).2 ∧
    post (work.run memo).2 (work.run memo).1

namespace Resolving.Leads

variable {α β : Type} {kind : Memo → Prop} {work : Resolving α} {next : α → Resolving β}
  {post : Memo → α → Prop} {after : α → Memo → β → Prop} {last : Memo → β → Prop}

lemma pure {a : α} (h : ∀ memo, post memo a) : Leads kind (Pure.pure a) post :=
  fun memo hk => ⟨.refl memo, hk, h memo⟩

lemma bind (h : Leads kind work post) (hn : ∀ a, Leads kind (next a) (after a))
    (hlast : ∀ a b memo later, memo.GrowsTo later → post memo a → after a later b → last later b) :
    Leads kind (work >>= next) last := by
  intro memo hk
  obtain ⟨hfirst, hk, hpost⟩ := h memo hk
  obtain ⟨hsecond, hk, hafter⟩ := hn (work.run memo).1 _ hk
  exact ⟨hfirst.trans hsecond, hk, hlast _ _ _ _ hsecond hpost hafter⟩

lemma map (h : Leads kind work post) {f : α → β}
    (hlast : ∀ memo a, post memo a → last memo (f a)) :
    Leads kind (do return f (← work)) last := by
  intro memo hk
  obtain ⟨hgrows, hk, hpost⟩ := h memo hk
  exact ⟨hgrows, hk, hlast _ _ hpost⟩

lemma mapM {f : α → Resolving β} {items : List α} {each : Memo → α → β → Prop}
    (hkept : ∀ memo later a b, memo.GrowsTo later → each memo a b → each later a b)
    (h : ∀ a ∈ items, Leads kind (f a) (each · a)) :
    Leads kind (items.mapM f) fun memo results => List.Forall₂ (each memo) items results := by
  induction items with
  | nil => exact pure fun _ => .nil
  | cons a items ih =>
    obtain ⟨hfirst, h⟩ := List.forall_mem_cons.1 h
    intro memo hk
    obtain ⟨hgrows, hk, hb⟩ := hfirst memo hk
    obtain ⟨hgrows', hk, hbs⟩ := ih h _ hk
    rw [List.mapM_cons]
    exact ⟨hgrows.trans hgrows', hk, .cons (hkept _ _ _ _ hgrows' hb) hbs⟩

end Resolving.Leads

end ExternalAnnotations
