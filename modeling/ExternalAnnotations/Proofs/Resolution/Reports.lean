import ExternalAnnotations.Proofs.Resolution.Lookup

/-!
# Reports

Resolving annotations only adds to what was reported. It never looks at it, so it makes no
difference whether earlier reports have been taken away.
-/

namespace ExternalAnnotations

/-- The memo with earlier reports before its own. -/
def Memo.behind (memo : Memo) (earlier : List Diagnostic) : Memo :=
  { memo with diagnostics := earlier ++ memo.diagnostics }

/-- Earlier reports stay, and they do not matter. -/
def Resolving.Appends {α : Type} (work : Resolving α) : Prop :=
  ∀ memo earlier,
    work.run (memo.behind earlier) = ((work.run memo).1, (work.run memo).2.behind earlier)

namespace Resolving.Appends

variable {α β : Type}

lemma pure (a : α) : Appends (Pure.pure a) := fun _ _ => rfl

lemma bind {work : Resolving α} {next : α → Resolving β} (h : Appends work)
    (hn : ∀ a, Appends (next a)) : Appends (work >>= next) := by
  intro memo earlier
  rw [run_bind, run_bind, h, hn]

lemma report (diagnostic : Diagnostic) :
    Appends (modify (·.report diagnostic) : Resolving PUnit) := by
  intro memo earlier
  have h : (memo.behind earlier).report diagnostic = (memo.report diagnostic).behind earlier :=
    congrArg (Memo.mk memo.known) (List.append_assoc earlier memo.diagnostics [diagnostic])
  exact congrArg (Prod.mk PUnit.unit) h

end Resolving.Appends

/-- To add to the reports, as a property of the first of two pieces of work. -/
def WorkRelation.appending : WorkRelation where
  holds := fun work _ => work.Appends
  pure := .pure
  bind := .bind
  report := fun _ _ _ => .report _

namespace TypeSources

variable (sources : TypeSources)

lemma appends_conclude (name : String) (found : Option AnnotationType) :
    (conclude name found).Appends := by
  have hremember : (modify (·.remember name found) : Resolving PUnit).Appends := fun _ _ => rfl
  cases found with
  | none =>
    exact (Resolving.Appends.report _).bind fun _ => hremember.bind fun _ => .pure _
  | some type => exact hremember.bind fun _ => .pure _

lemma appends_lookupAmong (available : List String) (name : String) :
    (sources.lookupAmong available name).Appends := by
  -- Each declaration that is worked on is one fewer that is available.
  induction hn : available.length using Nat.strong_induction_on generalizing available name with
  | _ n ih =>
    intro memo earlier
    have hbehind : (memo.behind earlier).find? name = memo.find? name := rfl
    cases hf : memo.find? name with
    | some found =>
      rw [run_lookupAmong_of_known hf, run_lookupAmong_of_known (hbehind.trans hf)]
    | none =>
      have hf' := hbehind.trans hf
      cases hd : sources.declared? name with
      | none =>
        cases hc : sources.annotationClass? name with
        | some c =>
          rw [run_lookupAmong_of_class hf hc, run_lookupAmong_of_class hf' hc]
          exact appends_conclude _ _ memo earlier
        | none =>
          have hd : sources.index.declaration? name = none := by simpa [declared?, hc] using hd
          rw [run_lookupAmong_of_missing hf hc hd, run_lookupAmong_of_missing hf' hc hd]
          exact appends_conclude _ _ memo earlier
      | some declaration =>
        by_cases ha : name ∈ available
        · rw [run_lookupAmong_of_declared hf hd ha, run_lookupAmong_of_declared hf' hd ha]
          have hlookup : ∀ used ∈ sources.defaultNames declaration, WorkRelation.appending.LooksUp
              (sources.lookupAmong (without available name))
              (sources.lookupAmong (without available name)) used := fun used _ =>
            .of_holds (ih _ (hn ▸ length_without_lt ha) (without available name) used rfl)
          have htype :=
            WorkRelation.appending.declaredType_holds (.refl sources) declaration hlookup
          exact Resolving.Appends.bind htype (fun _ => appends_conclude _ _) memo earlier
        · have hsome : (sources.declared? name).isSome := by simp [hd]
          rw [run_lookupAmong_of_unavailable hf hsome ha,
            run_lookupAmong_of_unavailable hf' hsome ha]

lemma appends_resolve (package : String) (use : AnnotationUse) :
    (sources.resolve package use).Appends := by
  have hlookup : WorkRelation.appending.Lookups sources sources.lookupType sources.lookupType
      package use.typeNames := fun _ _ => .of_holds (sources.appends_lookupAmong _ _)
  exact WorkRelation.appending.applyUse_holds (.refl sources) package use hlookup

end TypeSources

end ExternalAnnotations
