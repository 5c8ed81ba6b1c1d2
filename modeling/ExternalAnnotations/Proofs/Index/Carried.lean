import ExternalAnnotations.Proofs.Index.Moved
import ExternalAnnotations.Proofs.Index.RelatedReaders

/-!
# Reading in a longer text

A reader that takes its tokens in one text takes the same tokens where that text stands in a longer
one: further down, and with more blocks behind it. If there are blocks behind it this is said only
of readers that succeed, since an error can come from the end of the text.
-/

namespace ExternalAnnotations

open Cursor (carried Detached)

variable {α : Type} [Movable α] {shift : Shift} {tail : List Token}

lemma moved_of_forall₂ {items others : List α}
    (h : List.Forall₂ (fun item other => other = moved shift item) items others) :
    others = moved shift items := by
  induction h with
  | nil => rfl
  | cons hitem _ ih =>
    rw [hitem, ih]
    rfl

lemma WrittenValue.moved_of_isPlain {value : WrittenValue} (h : value.isPlain) :
    value = Movable.moved shift value := by
  cases value with
  | array items => exact absurd h Bool.false_ne_true
  | nested use => exact absurd h Bool.false_ne_true
  | _ => rfl

/-- A reading in a text and one where the text stands in a longer one. -/
def ReaderRelation.ofDetached (shift : Shift) (ht : OpensPackage tail) : ReaderRelation tail where
  Near cursor other := cursor.Detached tail ∧ other = cursor.carried shift tail
  Place place other := other = moved shift place
  Error error other := other = moved shift error
  opens := ht
  alike := by
    rintro cursor _ ⟨h, rfl⟩
    exact h.alike
  near_forward := by
    rintro cursor _ ⟨h, rfl⟩ hn
    exact ⟨h.forward, Cursor.forward_carried hn⟩
  near_place := by
    rintro ⟨previous, rest⟩ _ ⟨h, rfl⟩ hn
    obtain ⟨token, rest, rfl⟩ := List.exists_cons_of_ne_nil hn
    rfl
  unexpected := by
    rintro cursor _ expected rfl ⟨h, rfl⟩
    exact Cursor.unexpected_carried h.begun expected
  unexpectedToken := by
    rintro place _ expected found rfl
    rfl
  invalidDescriptor := by
    rintro place _ error rfl
    rfl
  invalidLiteral := by
    rintro place _ literal reason rfl
    rfl

namespace ReaderRelation

variable {ht : OpensPackage tail}

lemma moved_of_use {use other : AnnotationUse}
    (h : (ofDetached shift ht).Use (fun value other => other = moved shift value) use other) :
    other = moved shift use := by
  obtain ⟨typeName, values, place⟩ := use
  obtain ⟨typeName', values', place'⟩ := other
  obtain rfl : typeName = typeName' := h.typeName
  obtain rfl : place' = moved shift place := h.place
  have hvalues : values' = moved shift values := by
    refine moved_of_forall₂ (h.values.imp fun field other hfield => ?_)
    obtain ⟨name, value⟩ := field
    obtain ⟨name', value'⟩ := other
    exact congrArg₂ Prod.mk hfield.1.symm hfield.2
  rw [moved_use, hvalues]

lemma moved_of_uses {uses others : List AnnotationUse}
    (h : List.Forall₂ ((ofDetached shift ht).Use fun value other => other = moved shift value)
      uses others) : others = moved shift uses :=
  moved_of_forall₂ (h.imp fun _ _ => moved_of_use)

end ReaderRelation

open ReaderRelation

/-- A reading in a text and one where the text stands in a longer one, which gives the same values
moved. -/
def carrying (shift : Shift) (ht : OpensPackage tail) : ValueRelation tail where
  toReaderRelation := .ofDetached shift ht
  Value _ value other := other = moved shift value
  tooDeep := by
    rintro cursor _ rfl ⟨h, rfl⟩
    exact congrArg SyntaxError.tooDeep (Cursor.place_carried h.begun)
  plain _ := WrittenValue.moved_of_isPlain
  array h := by rw [moved_array, moved_of_forall₂ h]
  nested h := by
    rw [moved_of_use h]
    rfl

lemma moved_of_declared {ht : OpensPackage tail} {declaration other : Declaration}
    (h : (carrying shift ht).Declared declaration other) : other = moved shift declaration := by
  obtain ⟨name, annotations, elements, place⟩ := declaration
  obtain ⟨name', annotations', elements', place'⟩ := other
  obtain rfl : name = name' := h.name
  obtain rfl : place' = moved shift place := h.place
  have helements : elements' = moved shift elements := by
    refine moved_of_forall₂ (h.elements.imp fun element other helement => ?_)
    obtain ⟨name, type, default⟩ := element
    obtain ⟨name', type', default'⟩ := other
    obtain rfl : name = name' := helement.name
    obtain rfl : type = type' := helement.type
    have hdefault : default' = moved shift default := by
      cases helement.default with
      | none => rfl
      | some hvalue => exact congrArg some hvalue
    exact congrArg (ElementDeclaration.mk name type) hdefault
  exact congrArg₂ (Declaration.mk name · · _) (moved_of_uses h.annotations) helements

/-- What two readers give if the second one reads in the longer text. -/
inductive Carried (shift : Shift) (tail : List Token) :
    EStateM.Result SyntaxError Cursor α → EStateM.Result SyntaxError Cursor α → Prop
  | ok (a : α) {next : Cursor} (h : next.Detached tail) :
      Carried shift tail (.ok a next) (.ok (moved shift a) (next.carried shift tail))
  | error (error : SyntaxError) {next : Cursor} (htail : tail = []) (h : next.Detached tail) :
      Carried shift tail (.error error next)
        (.error (moved shift error) (next.carried shift tail))
  | cut (error : SyntaxError) (next : Cursor) (htail : tail ≠ [])
      (result : EStateM.Result SyntaxError Cursor α) :
      Carried shift tail (.error error next) result

namespace ReaderRelation

variable {ht : OpensPackage tail} {l : Language Token} {same : α → α → Prop} {cursor : Cursor}

lemma Gives.carried {result result' : EStateM.Result SyntaxError Cursor α}
    (h : (carrying shift ht).Gives l same cursor result result')
    (hsame : ∀ a a', same a a' → a' = moved shift a) : Carried shift tail result result' := by
  cases h with
  | ok _ hnear ha =>
    obtain ⟨hdetached, rfl⟩ := hnear
    obtain rfl := hsame _ _ ha
    exact .ok _ hdetached
  | error _ _ _ hnear herror =>
    obtain ⟨hdetached, rfl⟩ := hnear
    by_cases htail : tail = []
    · obtain rfl := herror htail
      exact .error _ htail hdetached
    · exact .cut _ _ htail _
  | cut htail => exact .cut _ _ htail _

lemma moved_of_headed {opened opened' : α × Location} (hmoved : ∀ a : α, moved shift a = a)
    (h : (carrying shift ht).Headed opened opened') : opened' = moved shift opened := by
  obtain ⟨a, place⟩ := opened
  obtain ⟨a', place'⟩ := opened'
  exact congrArg₂ Prod.mk (h.1.symm.trans (hmoved a).symm) h.2

lemma Relates.opening_carried {header : Reader α}
    (h : (carrying shift ht).Relates l same header header)
    (hsame : ∀ a a', same a a' → a' = moved shift a) (hcursor : cursor.Detached tail) :
    Carried shift tail (Section.opening header cursor)
      (Section.opening header (cursor.carried shift tail)) := by
  refine ((carrying shift ht).opening h ⟨hcursor, rfl⟩).carried fun opened opened' hopened => ?_
  obtain ⟨header, uses⟩ := opened
  obtain ⟨header', uses'⟩ := opened'
  exact congrArg₂ Prod.mk (hsame _ _ hopened.1) (moved_of_uses hopened.2)

end ReaderRelation

end ExternalAnnotations
