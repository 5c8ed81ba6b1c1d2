import ExternalAnnotations.Proofs.Index.RelatedReaders

/-!
# How readers move

A reader only ever goes on to tokens ahead, and an error that it reports is at a place that it came
past. So what is read later stands later in the text. This is what remains of a relation of readers
if each reading is only compared with itself.
-/

namespace ExternalAnnotations

open Cursor (LeadsTo)

lemma Cursor.unexpected_ne_tooDeep (cursor : Cursor) (expected : String) (place : Location) :
    cursor.unexpected expected ≠ .tooDeep place := by
  unfold Cursor.unexpected
  split <;> simp

/-- A reading and itself. Of its errors all have a property that all have but those for values that
are too deep. -/
def ReaderRelation.single (fits : SyntaxError → Prop)
    (h : ∀ error, (∀ place, error ≠ .tooDeep place) → fits error) : ReaderRelation [] where
  Near := Eq
  Place _ _ := True
  Error error _ := fits error
  opens := opensPackage_nil
  alike := by
    rintro cursor _ rfl
    exact cursor.alike_refl
  near_forward := by
    rintro cursor _ rfl _
    rfl
  near_place _ _ := trivial
  unexpected _ _ _ := h _ (Cursor.unexpected_ne_tooDeep _ _)
  unexpectedToken _ _ _ := h _ nofun
  invalidDescriptor _ _ := h _ nofun
  invalidLiteral _ _ _ := h _ nofun

/-- A reading and itself, of which nothing else is said. -/
def walking : ValueRelation [] where
  toReaderRelation := .single (fun _ => True) fun _ _ => trivial
  Value _ _ _ := True
  tooDeep _ _ := trivial
  plain _ _ := trivial
  array _ := trivial
  nested _ := trivial

namespace Reader

variable {α β : Type} {start middle next : Cursor}

/-- What is read from a place on: the reader has gone on from there, and what it reports is at a
place on the way. -/
inductive Walks (start : Cursor) : EStateM.Result SyntaxError Cursor α → Prop
  | ok {a : α} {next : Cursor} (h : start.LeadsTo next) : Walks start (.ok a next)
  | error {error : SyntaxError} {next : Cursor} (fault : Cursor) (hfault : start.LeadsTo fault)
      (hplace : error.place = fault.place) (hnext : fault.LeadsTo next) :
      Walks start (.error error next)

lemma Walks.leadsTo {a : α} {next : Cursor} (h : Walks start (.ok a next : EStateM.Result _ _ α)) :
    start.LeadsTo next := by
  cases h
  assumption

end Reader

open Reader (Walks)

namespace ReaderRelation

variable {α : Type} {l : Language Token} {same : α → α → Prop} {reader reader' : Reader α}
  {start next : Cursor}

lemma Gives.walks {result result' : EStateM.Result SyntaxError Cursor α}
    (h : walking.Gives l same start result result') : Walks start result := by
  cases h with
  | ok hpast => exact .ok hpast.leadsTo
  | error hfault hplace hnext => exact .error _ hfault hplace hnext
  | cut htail => contradiction

lemma Relates.walks (h : walking.Relates l same reader reader') (start : Cursor) :
    Walks start (reader start) := (h rfl).walks

lemma Gives.past {a : α} {result : EStateM.Result SyntaxError Cursor α}
    (h : walking.Gives l same start (.ok a next) result) : start.Past l next := by
  cases h
  assumption

lemma Relates.past {a : α} (h : walking.Relates l same reader reader')
    (hread : reader start = .ok a next) : start.Past l next := by
  have hgives := h (rfl : start = start)
  rw [hread] at hgives
  exact hgives.past

lemma relates_of_walks (h : ∀ start, Walks start (reader start)) :
    walking.Relates ⊤ (fun _ _ => True) reader reader := by
  rintro start _ rfl
  have hwalks := h start
  cases hread : reader start with
  | ok a next =>
    rw [hread] at hwalks
    obtain ⟨taken, htaken⟩ := hwalks.leadsTo.suffix
    exact .ok ⟨hwalks.leadsTo, taken, trivial, htaken.symm⟩ rfl trivial
  | error error next =>
    rw [hread] at hwalks
    cases hwalks with
    | error fault hfault hplace hnext => exact .error hfault hplace hnext rfl fun _ => trivial

end ReaderRelation

end ExternalAnnotations
