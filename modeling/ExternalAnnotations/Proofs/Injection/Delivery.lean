import ExternalAnnotations.Injection.Injector
import ExternalAnnotations.Proofs.Injection.Addition
import ExternalAnnotations.Proofs.Resolution.Reports

/-!
# What an index brings to a class

The entries for a class are taken in the order of the index. Those that are about an element of it
become deliveries, whose annotations are made with the memo as the earlier ones left it, and the
class ends up with all of them added.
-/

namespace ExternalAnnotations

namespace TypeSources

variable (sources : TypeSources)

/-- The annotations for an entry. -/
def deliver (entry : Entry) : Resolving Delivery := do
  return ⟨entry, ← entry.annotations.mapM (sources.resolve entry.package)⟩

/-- The deliveries of those entries that are about an element of a class, one after the other. -/
def deliveries (c : Class) (entries : List Entry) : Resolving (List Delivery) :=
  (entries.filter fun entry => (c.position? entry).isSome).mapM sources.deliver

lemma appends_deliveries (c : Class) (entries : List Entry) :
    (sources.deliveries c entries).Appends := by
  have hdeliver : ∀ entry ∈ entries.filter fun entry => (c.position? entry).isSome,
      WorkRelation.appending.holds (sources.deliver entry) (sources.deliver entry) := by
    intro entry _
    have huses : ∀ use ∈ entry.annotations, WorkRelation.appending.holds
        (sources.resolve entry.package use) (sources.resolve entry.package use) :=
      fun use _ => sources.appends_resolve entry.package use
    exact (WorkRelation.appending.mapM huses).bind fun _ => .pure _
  exact WorkRelation.appending.mapM hdeliver

lemma deliveries_cons_of_none {c : Class} {entry : Entry} (h : c.position? entry = none)
    (entries : List Entry) :
    sources.deliveries c (entry :: entries) = sources.deliveries c entries := by
  simp [deliveries, h]

lemma deliveries_cons_of_some {c : Class} {entry : Entry} {position : Position}
    (h : c.position? entry = some position) (entries : List Entry) :
    sources.deliveries c (entry :: entries) = do
      return (← sources.deliver entry) :: (← sources.deliveries c entries) := by
  simp [deliveries, h]

lemma entries_deliveries (c : Class) (entries : List Entry) (memo : Memo) :
    ((sources.deliveries c entries).run memo).1.map (·.entry) =
      entries.filter fun entry => (c.position? entry).isSome := by
  induction entries generalizing memo with
  | nil => rfl
  | cons entry entries ih =>
    cases hp : c.position? entry with
    | none => simp [deliveries_cons_of_none sources hp, hp, ih]
    | some position =>
      rw [deliveries_cons_of_some sources hp, List.filter_cons_of_pos (by simp [hp]), ← ih]
      rfl

lemma applyOne?_adding_of_none {c : Class} {entry : Entry} (h : c.position? entry = none)
    (additions : Additions) (memo : Memo) :
    (sources.applyOne? (c.adding additions) entry).run memo = (none, memo) := by
  unfold applyOne?
  rw [Class.position?_adding, h]
  rfl

lemma applyOne?_adding_of_some {c : Class} {entry : Entry} {position : Position}
    (h : c.position? entry = some position) (present : List Delivery) (memo : Memo) :
    let delivered := (sources.deliver entry).run memo
    let applied := (sources.applyOne? (c.adding (c.additions present)) entry).run memo
    applied.1.getD (c.adding (c.additions present)) =
        c.adding (c.additions (present ++ [delivered.1])) ∧ applied.2 = delivered.2 := by
  intro delivered
  have hentry : delivered.1.entry = entry := rfl
  have hrun : (sources.applyOne? (c.adding (c.additions present)) entry).run memo =
      ((c.adding (c.additions present)).attach? entry.placement delivered.1.annotations position,
        delivered.2) := by
    unfold applyOne?
    rw [Class.position?_adding, h]
    rfl
  have hattach := c.attach?_adding delivered.1.annotations (c.additions present)
    (c.hasPart_of_position? h)
  rw [hrun, c.additions_concat present delivered.1 (hentry ▸ h), hentry]
  exact ⟨hattach, rfl⟩

/-- Putting the entries of a list on a class to which others were added already adds theirs. Where
no change is reported there was none. -/
lemma applyEntries_adding (c : Class) (entries : List Entry) (present : List Delivery)
    (memo : Memo) :
    let delivered := (sources.deliveries c entries).run memo
    let applied := (sources.applyEntries (c.adding (c.additions present)) entries).run memo
    applied.1.1 = c.adding (c.additions (present ++ delivered.1)) ∧ applied.2 = delivered.2 ∧
      (applied.1.2 = false → applied.1.1 = c.adding (c.additions present)) := by
  induction entries generalizing present memo with
  | nil =>
    have hd : (sources.deliveries c []).run memo = ([], memo) := rfl
    have ha : (sources.applyEntries (c.adding (c.additions present)) []).run memo =
        ((c.adding (c.additions present), false), memo) := rfl
    simp [hd, ha]
  | cons entry entries ih =>
    cases hp : c.position? entry with
    | none =>
      rw [deliveries_cons_of_none sources hp, applyEntries, Resolving.run_bind,
        applyOne?_adding_of_none sources hp]
      exact ih present memo
    | some position =>
      obtain ⟨hstep, hmemo⟩ := sources.applyOne?_adding_of_some hp present memo
      set delivered := (sources.deliver entry).run memo with hdelivered
      obtain ⟨hclass, hrest, hsame⟩ := ih (present ++ [delivered.1]) delivered.2
      have hd : (sources.deliveries c (entry :: entries)).run memo =
          (delivered.1 :: ((sources.deliveries c entries).run delivered.2).1,
            ((sources.deliveries c entries).run delivered.2).2) := by
        rw [deliveries_cons_of_some sources hp]
        rfl
      rw [List.append_assoc, List.singleton_append] at hclass
      rw [← hstep] at hclass hrest hsame
      rw [hd, applyEntries, Resolving.run_bind]
      generalize (sources.applyOne? (c.adding (c.additions present)) entry).run memo = applied
        at hstep hmemo hclass hrest hsame
      obtain ⟨changed, memo'⟩ := applied
      obtain rfl : memo' = delivered.2 := hmemo
      cases changed with
      | none => exact ⟨hclass, hrest, hsame⟩
      | some changed => exact ⟨hclass, hrest, fun h => absurd h (by simp)⟩

lemma annotate?_eq (c : Class) (memo : Memo) :
    let delivered := (sources.deliveries c (sources.index.entriesFor c.binaryName)).run memo
    let annotated := (sources.annotate? c).run memo
    annotated.1.getD c = c.adding (c.additions delivered.1) ∧ annotated.2 = delivered.2 := by
  have h := sources.applyEntries_adding c (sources.index.entriesFor c.binaryName) [] memo
  have hnil : c.adding (c.additions []) = c := c.adding_nil
  rw [hnil] at h
  obtain ⟨hclass, hmemo, hsame⟩ := h
  refine ⟨?_, hmemo⟩
  rw [annotate?, Resolving.run_bind, Resolving.run_pure]
  split
  · exact hclass
  · rename_i h
    exact (hsame (by simpa using h)).symm.trans hclass

end TypeSources

end ExternalAnnotations
