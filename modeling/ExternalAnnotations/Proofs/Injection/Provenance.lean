import ExternalAnnotations.Proofs.Injection.Dressing
import ExternalAnnotations.Proofs.Resolution.Unresolved

/-!
# Where annotations came from

Every annotation that the work of an injector adds to a class was made from one that stands in an
entry of the index for this class. What the injector knows says how it came about, and goes on to do
so while more becomes known.
-/

namespace ExternalAnnotations

namespace TypeSources

/-- A delivery has one annotation for each that is written in its entry, made of what was found. -/
def Made (sources : TypeSources) (found : String → Option AnnotationType → Prop)
    (delivery : Delivery) : Prop :=
  List.Forall₂ (fun use inner =>
    sources.Synthesized found delivery.entry.package (.nested use) (.nested inner))
    delivery.entry.annotations delivery.annotations

variable {sources others : TypeSources}

lemma Made.mono {found other : String → Option AnnotationType → Prop} {delivery : Delivery}
    (h : sources.Made found delivery) (ho : ∀ name type, found name type → other name type) :
    sources.Made other delivery :=
  List.Forall₂.imp (fun _ _ hmade => hmade.mono ho) h

section

variable (hs : sources.SameNames others)
include hs

lemma leads_deliver (entry : Entry) :
    Resolving.Leads (Memo.Accounted sources sources.allDeclared) (others.deliver entry)
      fun later delivery => delivery.entry = entry ∧ sources.Made later.Has delivery := by
  have hkept : ∀ (memo later : Memo) (use : AnnotationUse) (inner : AnnotationInstance),
      memo.GrowsTo later →
        sources.Synthesized memo.Has entry.package (.nested use) (.nested inner) →
          sources.Synthesized later.Has entry.package (.nested use) (.nested inner) :=
    fun _ _ _ _ hgrows h => h.mono hgrows.within
  have hmade := Resolving.Leads.mapM hkept
    fun use (_ : use ∈ entry.annotations) => leads_resolve hs entry.package use
  exact hmade.map fun _ _ h => ⟨rfl, h⟩

lemma leads_deliveries (c : Class) (entries : List Entry) :
    Resolving.Leads (Memo.Accounted sources sources.allDeclared) (others.deliveries c entries)
      fun later deliveries => ∀ delivery ∈ deliveries,
        delivery.entry ∈ entries ∧ sources.Made later.Has delivery := by
  have hkept : ∀ (memo later : Memo) (entry : Entry) (delivery : Delivery), memo.GrowsTo later →
      delivery.entry = entry ∧ sources.Made memo.Has delivery →
        delivery.entry = entry ∧ sources.Made later.Has delivery :=
    fun _ _ _ _ hgrows h => ⟨h.1, h.2.mono hgrows.within⟩
  have hmade := Resolving.Leads.mapM hkept
    fun entry (_ : entry ∈ entries.filter fun entry => (c.position? entry).isSome) =>
      leads_deliver hs entry
  intro memo hk
  obtain ⟨hgrows, hk, hall⟩ := hmade memo hk
  refine ⟨hgrows, hk, forall_mem_of_forall₂ hall ?_⟩
  rintro entry hmem delivery ⟨rfl, h⟩
  exact ⟨(List.mem_filter.1 hmem).1, h⟩

end

end TypeSources

namespace Injection

/-- The program is that of the start with what was made of entries for its classes, and what is
known says of what. -/
structure Accounted (start injection : Injection) : Prop where
  index : injection.injector.index = start.injector.index
  memo : injection.injector.memo.Accounted start.sources start.sources.allDeclared
  delivered : ∃ deliveries, start.program.Dressed injection.program deliveries ∧
    ∀ (slot : Slot) (c : Class), start.program.classes[slot]? = some c →
      ∀ delivery ∈ deliveries slot,
        delivery.entry ∈ start.injector.index.entriesFor c.binaryName ∧
          start.sources.Made injection.injector.memo.Has delivery

variable {start injection : Injection}

lemma Accounted.sameNames (h : start.Accounted injection) :
    start.sources.SameNames injection.sources := by
  obtain ⟨deliveries, hdressed, -⟩ := h.delivered
  rw [sources, sources, h.index]
  exact hdressed.sameNames _

lemma Accounted.annotating (h : start.Accounted injection) (slot : Slot) :
    injection.injector.memo.GrowsTo (injection.annotating slot).injector.memo ∧
      start.Accounted (injection.annotating slot) := by
  cases hc : injection.program.classes[slot]? with
  | none =>
    have hsame : injection.annotating slot = injection := by rw [Injection.annotating, hc]
    rw [hsame]
    exact ⟨.refl _, h⟩
  | some c =>
    have hmemo : (injection.annotating slot).injector.memo = (injection.brings c).2 := by
      rw [Injection.annotating, hc]
    obtain ⟨hgrows, hk, hmade⟩ := TypeSources.leads_deliveries h.sameNames c
      (injection.injector.index.entriesFor c.binaryName) _ h.memo
    obtain ⟨deliveries, hdressed, hdelivered⟩ := h.delivered
    refine ⟨hmemo ▸ hgrows, (index_annotating injection slot).trans h.index, hmemo ▸ hk, _,
      dressed_annotating hdressed slot, ?_⟩
    rw [hmemo]
    intro other before hbefore delivery hmem
    by_cases hother : other = slot
    · subst hother
      have hclass := hdressed.classes other
      rw [hc, hbefore] at hclass
      obtain rfl := Option.some.inj hclass
      rw [Function.update_self, bringsTo, hc] at hmem
      rcases List.mem_append.1 hmem with hmem | hmem
      · exact (hdelivered _ _ hbefore _ hmem).imp_right (·.mono hgrows.within)
      · exact h.index ▸ hmade delivery hmem
    · rw [Function.update_of_ne hother] at hmem
      exact (hdelivered _ _ hbefore _ hmem).imp_right (·.mono hgrows.within)

lemma Accounted.foldl_annotating (h : start.Accounted injection) (slots : List Slot) :
    injection.injector.memo.GrowsTo (slots.foldl Injection.annotating injection).injector.memo ∧
      start.Accounted (slots.foldl Injection.annotating injection) := by
  induction slots generalizing injection with
  | nil => exact ⟨.refl _, h⟩
  | cons slot slots ih =>
    obtain ⟨hfirst, h⟩ := h.annotating slot
    obtain ⟨hothers, h⟩ := ih h
    exact ⟨hfirst.trans hothers, h⟩

lemma Accounted.of_agreesWith {other : Injection} (h : start.Accounted injection)
    (ha : injection.AgreesWith other) : start.Accounted other := by
  have hwithin : injection.injector.memo.Within other.injector.memo := by
    intro name found hf
    rwa [Memo.find?, ha.known]
  obtain ⟨deliveries, hdressed, hdelivered⟩ := h.delivered
  refine ⟨ha.index.trans h.index, h.memo.of_known_eq ha.known, deliveries, ?_, ?_⟩
  · rw [ha.program]
    exact hdressed
  · intro slot c hc delivery hmem
    exact (hdelivered slot c hc delivery hmem).imp_right (·.mono hwithin)

end Injection

end ExternalAnnotations
