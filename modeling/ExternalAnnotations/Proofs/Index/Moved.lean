import ExternalAnnotations.Proofs.Index.Alike

/-!
# Moving what was read to other lines

A text that stands some lines down in another one has its tokens on other lines and at other
offsets, and in the same columns. `moved` moves tokens, what was read from them and what is wrong
with them in this way.
-/

namespace ExternalAnnotations

/-- How far down a text stands in another one. -/
structure Shift where
  lines : Nat
  bytes : Nat
  deriving DecidableEq, Repr

namespace Shift

def none : Shift := ⟨0, 0⟩

/-- Down by a text that ends with its last line. -/
def past (text : String) : Shift := ⟨text.toList.count '\n', byteLength text.toList⟩

end Shift

/-- Data with places that can be moved. -/
class Movable (α : Type) where
  moved (shift : Shift) : α → α

export Movable (moved)

instance : Movable Unit := ⟨fun _ => id⟩

instance : Movable Nat := ⟨fun _ => id⟩

instance : Movable String := ⟨fun _ => id⟩

instance : Movable Member := ⟨fun _ => id⟩

instance : Movable Location :=
  ⟨fun shift place => ⟨place.line + shift.lines, place.column, place.offset + shift.bytes⟩⟩

instance : Movable Token := ⟨fun shift token => { token with start := moved shift token.start }⟩

instance {α : Type} [Movable α] : Movable (List α) := ⟨fun shift => List.map (moved shift)⟩

instance {α : Type} [Movable α] : Movable (Option α) := ⟨fun shift => Option.map (moved shift)⟩

instance {α β : Type} [Movable α] [Movable β] : Movable (α × β) :=
  ⟨fun shift => Prod.map (moved shift) (moved shift)⟩

mutual

def WrittenValue.moved (shift : Shift) : WrittenValue → WrittenValue
  | .array items => .array (WrittenValue.allMoved shift items)
  | .nested use => .nested (use.moved shift)
  | value => value

def WrittenValue.allMoved (shift : Shift) : List WrittenValue → List WrittenValue
  | [] => []
  | value :: values => value.moved shift :: WrittenValue.allMoved shift values

def AnnotationUse.moved (shift : Shift) : AnnotationUse → AnnotationUse
  | ⟨typeName, values, place⟩ =>
    ⟨typeName, AnnotationUse.fieldsMoved shift values, Movable.moved shift place⟩

def AnnotationUse.fieldsMoved (shift : Shift) :
    List (String × WrittenValue) → List (String × WrittenValue)
  | [] => []
  | (name, value) :: fields =>
    (name, value.moved shift) :: AnnotationUse.fieldsMoved shift fields

end

instance : Movable WrittenValue := ⟨WrittenValue.moved⟩

instance : Movable AnnotationUse := ⟨AnnotationUse.moved⟩

instance : Movable ElementDeclaration :=
  ⟨fun shift element => { element with default := moved shift element.default }⟩

instance : Movable Declaration :=
  ⟨fun shift declaration =>
    { declaration with
      annotations := moved shift declaration.annotations
      elements := moved shift declaration.elements
      place := moved shift declaration.place }⟩

instance : Movable Entry :=
  ⟨fun shift entry =>
    { entry with
      annotations := moved shift entry.annotations
      place := moved shift entry.place }⟩

instance : Movable Index :=
  ⟨fun shift index => .of (moved shift index.entries) (moved shift index.declarations)⟩

def SyntaxError.moved (shift : Shift) : SyntaxError → SyntaxError
  | .unexpectedToken expected found place =>
    .unexpectedToken expected found (Movable.moved shift place)
  | .unexpectedEnd expected place => .unexpectedEnd expected (Movable.moved shift place)
  | .invalidDescriptor error place => .invalidDescriptor error (Movable.moved shift place)
  | .invalidLiteral literal reason place =>
    .invalidLiteral literal reason (Movable.moved shift place)
  | .tooDeep place => .tooDeep (Movable.moved shift place)

instance : Movable SyntaxError := ⟨SyntaxError.moved⟩

def ElementFault.moved (shift : Shift) : ElementFault → ElementFault
  | .mismatch expected found => .mismatch expected (Movable.moved shift found)
  | fault => fault

def Diagnostic.moved (shift : Shift) : Diagnostic → Diagnostic
  | .malformed error line => .malformed (Movable.moved shift error) line
  | .unresolvedType name => .unresolvedType name
  | .invalidElement typeName element fault => .invalidElement typeName element (fault.moved shift)

instance : Movable Diagnostic := ⟨Diagnostic.moved⟩

instance : Movable Parsed :=
  ⟨fun shift parsed => ⟨moved shift parsed.index, moved shift parsed.diagnostics⟩⟩

variable {shift : Shift}

lemma WrittenValue.allMoved_eq (values : List WrittenValue) :
    WrittenValue.allMoved shift values = Movable.moved shift values := by
  induction values with
  | nil => rfl
  | cons value values ih =>
    rw [allMoved, ih]
    rfl

lemma AnnotationUse.fieldsMoved_eq (fields : List (String × WrittenValue)) :
    AnnotationUse.fieldsMoved shift fields = Movable.moved shift fields := by
  induction fields with
  | nil => rfl
  | cons field fields ih =>
    rw [fieldsMoved, ih]
    rfl

/-! ### Parts -/

lemma moved_append {α : Type} [Movable α] (first second : List α) :
    moved shift (first ++ second) = moved shift first ++ moved shift second := List.map_append

lemma moved_array (items : List WrittenValue) :
    moved shift (WrittenValue.array items) = .array (moved shift items) :=
  congrArg WrittenValue.array (WrittenValue.allMoved_eq items)

lemma moved_use (typeName : String) (values : List (String × WrittenValue)) (place : Location) :
    moved shift (AnnotationUse.mk typeName values place) =
      ⟨typeName, moved shift values, moved shift place⟩ :=
  congrArg (AnnotationUse.mk typeName · (moved shift place)) (AnnotationUse.fieldsMoved_eq values)

lemma moved_parsed_append (first second : Parsed) :
    moved shift (first ++ second) = moved shift first ++ moved shift second :=
  congrArg₂ Parsed.mk (Index.ext (moved_append _ _) (moved_append _ _))
    (moved_append _ _)

/-! ### Places -/

lemma moved_step (place : Location) (c : Char) :
    moved shift (place.step c) = (moved shift place : Location).step c := by
  unfold Location.step
  split
  · exact congrArg₂ (fun line offset => Location.mk line 1 offset) (Nat.add_right_comm _ _ _)
      (Nat.add_right_comm _ _ _)
  · exact congrArg (Location.mk _ _) (Nat.add_right_comm _ _ _)

lemma moved_advance (place : Location) (text : List Char) :
    moved shift (place.advance text) = (moved shift place : Location).advance text := by
  induction text generalizing place with
  | nil => rfl
  | cons c text ih => rw [Location.advance_cons, ih, moved_step, Location.advance_cons]

lemma moved_finish (token : Token) : (moved shift token).finish = moved shift token.finish :=
  (moved_advance token.start token.lexeme.toList).symm

lemma line_advance (place : Location) (text : List Char) :
    (place.advance text).line = place.line + text.count '\n' := by
  induction text generalizing place with
  | nil => rfl
  | cons c text ih =>
    rw [Location.advance_cons, ih, List.count_cons, Location.step]
    split <;> rename_i hc <;> simp only [hc, beq_self_eq_true, beq_iff_eq, if_true, if_false] <;>
      omega

lemma advance_eq_moved_past (text : String) :
    Location.start.advance (text ++ "\n").toList =
      moved (Shift.past (text ++ "\n")) Location.start := by
  have hline := line_advance .start (text ++ "\n").toList
  have hoffset := offset_advance .start (text ++ "\n").toList
  have hcolumn : (Location.start.advance (text ++ "\n").toList).column = 1 := by
    rw [String.toList_append, Location.advance_append]
    rfl
  generalize Location.start.advance (text ++ "\n").toList = place at *
  obtain ⟨line, column, offset⟩ := place
  obtain rfl : column = 1 := hcolumn
  exact congrArg₂ (fun line offset => Location.mk line 1 offset) hline hoffset

/-! ### No shift -/

mutual

lemma WrittenValue.moved_none : (value : WrittenValue) → value.moved Shift.none = value
  | .array items => by rw [WrittenValue.moved, WrittenValue.allMoved_none items]
  | .nested use => by rw [WrittenValue.moved, AnnotationUse.moved_none use]
  | .bool _ | .int _ | .float _ | .char _ | .string _ | .name _ | .classLiteral _ => rfl

lemma WrittenValue.allMoved_none :
    (values : List WrittenValue) → WrittenValue.allMoved Shift.none values = values
  | [] => rfl
  | value :: values => by
    rw [WrittenValue.allMoved, WrittenValue.moved_none value, WrittenValue.allMoved_none values]

lemma AnnotationUse.moved_none : (use : AnnotationUse) → use.moved Shift.none = use
  | ⟨_, values, _⟩ => by
    rw [AnnotationUse.moved, AnnotationUse.fieldsMoved_none values]
    rfl

lemma AnnotationUse.fieldsMoved_none :
    (fields : List (String × WrittenValue)) → AnnotationUse.fieldsMoved Shift.none fields = fields
  | [] => rfl
  | (_, value) :: fields => by
    rw [AnnotationUse.fieldsMoved, WrittenValue.moved_none value,
      AnnotationUse.fieldsMoved_none fields]

end

lemma moved_none_list {α : Type} [Movable α] (h : ∀ a : α, moved Shift.none a = a)
    (items : List α) : moved Shift.none items = items :=
  (List.map_congr_left fun a _ => h a).trans items.map_id

lemma moved_none_option {α : Type} [Movable α] (h : ∀ a : α, moved Shift.none a = a)
    (found : Option α) : moved Shift.none found = found := by
  cases found with
  | none => rfl
  | some a => exact congrArg some (h a)

lemma moved_none_token (token : Token) : moved Shift.none token = token := rfl

lemma moved_none_entry (entry : Entry) : moved Shift.none entry = entry := by
  have h := moved_none_list AnnotationUse.moved_none entry.annotations
  exact congrArg (fun annotations => { entry with annotations }) h

lemma moved_none_element (element : ElementDeclaration) : moved Shift.none element = element := by
  have h := moved_none_option WrittenValue.moved_none element.default
  exact congrArg (ElementDeclaration.mk element.name element.type) h

lemma moved_none_declaration (declaration : Declaration) :
    moved Shift.none declaration = declaration := by
  have hannotations := moved_none_list AnnotationUse.moved_none declaration.annotations
  have helements := moved_none_list moved_none_element declaration.elements
  exact congrArg₂ (fun annotations elements => { declaration with annotations, elements })
    hannotations helements

lemma moved_none_index (index : Index) : moved Shift.none index = index :=
  Index.ext (moved_none_list moved_none_entry index.entries)
    (moved_none_list moved_none_declaration index.declarations)

/-! ### Cursors -/

namespace Cursor

variable {tail : List Token} {cursor : Cursor}

/-- The cursor with its tokens moved, and with a tail behind them. -/
def carried (shift : Shift) (tail : List Token) (cursor : Cursor) : Cursor :=
  ⟨moved shift cursor.previous, moved shift cursor.rest ++ tail⟩

/-- There is a token before or after the cursor, and the last token does not make a name of the
tail. -/
structure Detached (tail : List Token) (cursor : Cursor) : Prop where
  begun : cursor.previous = none → cursor.rest ≠ []
  closed : tail ≠ [] → ∀ last ∈ cursor.rest.getLast?.or cursor.previous,
    last.kind.bindsName = false

lemma Detached.forward (h : cursor.Detached tail) :
    cursor.forward.Detached tail := by
  obtain ⟨previous, rest⟩ := cursor
  cases rest with
  | nil => exact h
  | cons token rest =>
    refine ⟨nofun, fun htail last hlast => h.closed htail last ?_⟩
    cases rest with
    | nil => exact hlast
    | cons other rest => simpa [Cursor.forward, List.getLast?_cons] using hlast

lemma length_carried :
    (cursor.carried shift tail).rest.length = cursor.rest.length + tail.length := by
  rw [carried, List.length_append]
  exact congrArg (· + tail.length) (List.length_map _)

lemma forward_carried (hn : cursor.rest ≠ []) :
    (cursor.carried shift tail).forward = cursor.forward.carried shift tail := by
  obtain ⟨previous, rest⟩ := cursor
  obtain ⟨token, rest, rfl⟩ := List.exists_cons_of_ne_nil hn
  rfl

lemma place_carried (hbegun : cursor.previous = none → cursor.rest ≠ []) :
    (cursor.carried shift []).place = moved shift cursor.place := by
  obtain ⟨previous, rest⟩ := cursor
  cases rest with
  | cons token rest => rfl
  | nil =>
    cases previous with
    | none => exact absurd rfl (hbegun rfl)
    | some last => exact moved_finish last

lemma unexpected_carried (hbegun : cursor.previous = none → cursor.rest ≠ [])
    (expected : String) :
    (cursor.carried shift []).unexpected expected = moved shift (cursor.unexpected expected) := by
  have hplace : (cursor.carried shift []).place = _ := place_carried hbegun
  obtain ⟨previous, rest⟩ := cursor
  cases rest with
  | cons token rest => rfl
  | nil => exact congrArg (SyntaxError.unexpectedEnd expected) hplace

lemma Detached.alike (h : cursor.Detached tail) :
    cursor.Alike tail (cursor.carried shift tail) := by
  obtain ⟨previous, rest⟩ := cursor
  have hprevious (previous : Option Token) :
      (moved shift previous).map (·.kind) = previous.map (·.kind) := by
    cases previous <;> rfl
  induction rest generalizing previous with
  | nil => exact .atEnd (hprevious previous) h.closed
  | cons token rest ih =>
    refine .ahead (hprevious previous) rfl ?_ (ih (some token) h.forward)
    cases previous with
    | none =>
      have hnone (token : Token) : ¬touches none token := by simp [touches]
      exact iff_of_false (hnone _) (hnone _)
    | some last =>
      have htouches : (moved shift token).start.offset = (moved shift last).finish.offset ↔
          token.start.offset = last.finish.offset := by
        rw [moved_finish]
        exact Nat.add_right_cancel_iff
      change touches (some (moved shift last)) (moved shift token) ↔ _
      simpa [touches] using htouches

end Cursor

end ExternalAnnotations
