import ExternalAnnotations.Proofs.Index.Walking

/-!
# Readers elsewhere

Readers started at two cursors that are alike give the same apart from places, since they look at
kinds, lexemes and whether tokens touch, and none reads a package header by mistake, except where an
element name is missing at the end.
-/

namespace ExternalAnnotations

variable {α β : Type} [Placed α] [Placed β] {tail : List Token}

lemma unplaced_of_forall₂ {items others : List α}
    (h : List.Forall₂ (fun item other => unplaced other = unplaced item) items others) :
    unplaced others = unplaced items := by
  induction h with
  | nil => rfl
  | cons hitem _ ih => rw [unplaced_cons, unplaced_cons, hitem, ih]

/-- Two readings on cursors that are alike. -/
def ReaderRelation.ofAlike (ht : OpensPackage tail) : ReaderRelation tail where
  Near := Cursor.Alike tail
  Place _ _ := True
  Error error other := unplaced other = unplaced error
  opens := ht
  alike h := h
  near_forward h hn := h.forward hn
  near_place _ _ := trivial
  unexpected expected htail h := (htail ▸ h).unexpected_eq expected
  unexpectedToken _ _ _ := rfl
  invalidDescriptor _ _ := rfl
  invalidLiteral _ _ _ := rfl

namespace ReaderRelation

variable {ht : OpensPackage tail}

lemma unplaced_of_use {use other : AnnotationUse}
    (h : (ofAlike ht).Use (fun value other => unplaced other = unplaced value) use other) :
    unplaced other = unplaced use := by
  obtain ⟨typeName, values, place⟩ := use
  obtain ⟨typeName', values', place'⟩ := other
  obtain rfl : typeName = typeName' := h.typeName
  have hvalues : unplaced values' = unplaced values := by
    refine unplaced_of_forall₂ (h.values.imp fun field other hfield => ?_)
    obtain ⟨name, value⟩ := field
    obtain ⟨name', value'⟩ := other
    exact congrArg₂ Prod.mk hfield.1.symm hfield.2
  rw [unplaced_use, unplaced_use, hvalues]

lemma unplaced_of_uses {uses others : List AnnotationUse}
    (h : List.Forall₂ ((ofAlike ht).Use fun value other => unplaced other = unplaced value)
      uses others) : unplaced others = unplaced uses :=
  unplaced_of_forall₂ (h.imp fun _ _ => unplaced_of_use)

end ReaderRelation

open ReaderRelation

/-- Two readings on cursors that are alike, of values that are the same apart from places. -/
def elsewhere (ht : OpensPackage tail) : ValueRelation tail where
  toReaderRelation := .ofAlike ht
  Value _ value other := unplaced other = unplaced value
  tooDeep _ _ := rfl
  plain _ _ := rfl
  array h := by rw [unplaced_array, unplaced_array, unplaced_of_forall₂ h]
  nested h := by rw [unplaced_nested, unplaced_nested, unplaced_of_use h]

lemma unplaced_of_declared {ht : OpensPackage tail} {declaration other : Declaration}
    (h : (elsewhere ht).Declared declaration other) : unplaced other = unplaced declaration := by
  obtain ⟨name, annotations, elements, place⟩ := declaration
  obtain ⟨name', annotations', elements', place'⟩ := other
  obtain rfl : name = name' := h.name
  have helements : unplaced elements' = unplaced elements := by
    refine unplaced_of_forall₂ (h.elements.imp fun element other helement => ?_)
    obtain ⟨name, type, default⟩ := element
    obtain ⟨name', type', default'⟩ := other
    obtain rfl : name = name' := helement.name
    obtain rfl : type = type' := helement.type
    have hdefault : unplaced default' = unplaced default := by
      cases helement.default with
      | none => rfl
      | some hvalue => exact congrArg some hvalue
    exact congrArg (ElementDeclaration.mk name type) hdefault
  exact congrArg₂ (Declaration.mk name · · .start) (unplaced_of_uses h.annotations) helements

/-- What two readers give for cursors that are alike. The values are the same apart from their
places, and so are the errors where there is no tail. Of a reader that misses an element name at
the end nothing is said, since the other one may read on in the tail. -/
inductive Corresponds (tail : List Token) (start : Cursor) :
    EStateM.Result SyntaxError Cursor α → EStateM.Result SyntaxError Cursor α → Prop
  | ok {a a' : α} {next next' : Cursor} (ha : unplaced a' = unplaced a)
      (hnext : next.Alike tail next') (hlength : next.rest.length ≤ start.rest.length) :
      Corresponds tail start (.ok a next) (.ok a' next')
  | error {error error' : SyntaxError} {next next' : Cursor}
      (herror : tail = [] → unplaced error' = unplaced error)
      (hnext : next.Alike tail next') (hlength : next.rest.length ≤ start.rest.length) :
      Corresponds tail start (.error error next) (.error error' next')
  | cut {error : SyntaxError} {next : Cursor}
      {result : EStateM.Result SyntaxError Cursor α} (htail : tail ≠ [])
      (herror : error.missesElementName) : Corresponds tail start (.error error next) result

namespace ReaderRelation

variable {ht : OpensPackage tail} {l : Language Token} {same : α → α → Prop}
  {reader reader' : Reader α} {cursor other : Cursor}

lemma Gives.corresponds {result result' : EStateM.Result SyntaxError Cursor α}
    (h : (elsewhere ht).Gives l same cursor result result')
    (hsame : ∀ a a', same a a' → unplaced a' = unplaced a) :
    Corresponds tail cursor result result' := by
  cases h with
  | ok hpast hnear ha => exact .ok (hsame _ _ ha) hnear hpast.leadsTo.length_le
  | error hfault _ hnext hnear herror =>
    exact .error herror hnear (hfault.trans hnext).length_le
  | cut htail herror => exact .cut htail herror

lemma unplaced_of_headed {opened opened' : α × Location}
    (h : (elsewhere ht).Headed opened opened') : unplaced opened' = unplaced opened := by
  rw [unplaced_pair, unplaced_pair, h.1]
  rfl

lemma Relates.opening {header : Reader α} (h : (elsewhere ht).Relates l same header header)
    (hsame : ∀ a a', same a a' → unplaced a' = unplaced a) (hnear : cursor.Alike tail other) :
    Corresponds tail cursor (Section.opening header cursor) (Section.opening header other) := by
  refine ((elsewhere ht).opening h hnear).corresponds fun opened opened' hopened => ?_
  obtain ⟨header, uses⟩ := opened
  obtain ⟨header', uses'⟩ := opened'
  rw [unplaced_pair, unplaced_pair, hsame _ _ hopened.1, unplaced_of_uses hopened.2]

end ReaderRelation

end ExternalAnnotations
