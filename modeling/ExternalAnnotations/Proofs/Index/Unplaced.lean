import ExternalAnnotations.Index.Parser
import ExternalAnnotations.Proofs.Index.Answers

/-!
# What an index says wherever it stands

`Placed.unplaced` moves every place in a token, a value, an entry or an error to the start of the
text. Two things are the same apart from their places if they are the same after that.
-/

namespace ExternalAnnotations

/-- Data in which there may be places. -/
class Placed (α : Type) where
  /-- The same with every place at the start of the text. -/
  unplaced : α → α

export Placed (unplaced)

instance : Placed Unit := ⟨id⟩

instance : Placed Nat := ⟨id⟩

instance : Placed String := ⟨id⟩

instance : Placed Member := ⟨id⟩

instance : Placed Location := ⟨fun _ => .start⟩

instance : Placed Token := ⟨fun token => { token with start := .start }⟩

instance {α : Type} [Placed α] : Placed (List α) := ⟨List.map unplaced⟩

instance {α : Type} [Placed α] : Placed (Option α) := ⟨Option.map unplaced⟩

instance {α β : Type} [Placed α] [Placed β] : Placed (α × β) := ⟨Prod.map unplaced unplaced⟩

mutual

def WrittenValue.unplaced : WrittenValue → WrittenValue
  | .array items => .array (WrittenValue.allUnplaced items)
  | .nested use => .nested use.unplaced
  | value => value

def WrittenValue.allUnplaced : List WrittenValue → List WrittenValue
  | [] => []
  | value :: values => value.unplaced :: WrittenValue.allUnplaced values

def AnnotationUse.unplaced : AnnotationUse → AnnotationUse
  | ⟨typeName, values, _⟩ => ⟨typeName, AnnotationUse.fieldsUnplaced values, .start⟩

def AnnotationUse.fieldsUnplaced : List (String × WrittenValue) → List (String × WrittenValue)
  | [] => []
  | (name, value) :: fields => (name, value.unplaced) :: AnnotationUse.fieldsUnplaced fields

end

instance : Placed WrittenValue := ⟨WrittenValue.unplaced⟩

instance : Placed AnnotationUse := ⟨AnnotationUse.unplaced⟩

instance : Placed ElementDeclaration :=
  ⟨fun element => { element with default := unplaced element.default }⟩

instance : Placed Declaration :=
  ⟨fun declaration =>
    { declaration with
      annotations := unplaced declaration.annotations
      elements := unplaced declaration.elements
      place := .start }⟩

instance : Placed Entry :=
  ⟨fun entry => { entry with annotations := unplaced entry.annotations, place := .start }⟩

instance : Placed Index :=
  ⟨fun index => .of (unplaced index.entries) (unplaced index.declarations)⟩

instance : Placed SyntaxError :=
  ⟨fun
    | .unexpectedToken expected found _ => .unexpectedToken expected found .start
    | .unexpectedEnd expected _ => .unexpectedEnd expected .start
    | .invalidDescriptor error _ => .invalidDescriptor error .start
    | .invalidLiteral literal reason _ => .invalidLiteral literal reason .start
    | .tooDeep _ => .tooDeep .start⟩

lemma WrittenValue.allUnplaced_eq (values : List WrittenValue) :
    WrittenValue.allUnplaced values = Placed.unplaced values := by
  induction values with
  | nil => rfl
  | cons value values ih => rw [allUnplaced, ih]; rfl

lemma AnnotationUse.fieldsUnplaced_eq (fields : List (String × WrittenValue)) :
    AnnotationUse.fieldsUnplaced fields = Placed.unplaced fields := by
  induction fields with
  | nil => rfl
  | cons field fields ih => rw [fieldsUnplaced, ih]; rfl

/-! ### Parts -/

lemma unplaced_strings (names : List String) : unplaced names = names := List.map_id names

lemma unplaced_units (units : List Unit) : unplaced units = units := List.map_id units

@[simp] lemma unplaced_cons {α : Type} [Placed α] (a : α) (items : List α) :
    unplaced (a :: items) = unplaced a :: unplaced items := rfl

@[simp] lemma unplaced_append {α : Type} [Placed α] (first second : List α) :
    unplaced (first ++ second) = unplaced first ++ unplaced second := List.map_append

@[simp] lemma unplaced_pair {α β : Type} [Placed α] [Placed β] (a : α) (b : β) :
    unplaced (a, b) = (unplaced a, unplaced b) := rfl

lemma unplaced_array (items : List WrittenValue) :
    unplaced (WrittenValue.array items) = .array (unplaced items) :=
  congrArg WrittenValue.array (WrittenValue.allUnplaced_eq items)

lemma unplaced_nested (use : AnnotationUse) :
    unplaced (WrittenValue.nested use) = .nested (unplaced use) := rfl

lemma unplaced_use (typeName : String) (values : List (String × WrittenValue)) (place : Location) :
    unplaced (AnnotationUse.mk typeName values place) = ⟨typeName, unplaced values, .start⟩ :=
  congrArg (AnnotationUse.mk typeName · .start) (AnnotationUse.fieldsUnplaced_eq values)

lemma unplaced_index_append (first second : Index) :
    unplaced (first ++ second) = unplaced first ++ unplaced second :=
  Index.ext (unplaced_append _ _) (unplaced_append _ _)

lemma kind_of_unplaced {token other : Token} (h : unplaced other = unplaced token) :
    other.kind = token.kind := (Token.mk.inj h).1

lemma lexeme_of_unplaced {token other : Token} (h : unplaced other = unplaced token) :
    other.lexeme = token.lexeme := (Token.mk.inj h).2.1

lemma lexemes_of_unplaced {tokens others : List Token} (h : unplaced others = unplaced tokens) :
    others.map (·.lexeme) = tokens.map (·.lexeme) := by
  have hmap : ∀ items : List Token, (unplaced items).map (·.lexeme) = items.map (·.lexeme) :=
    fun items => List.map_map
  rw [← hmap, h, hmap]

end ExternalAnnotations
