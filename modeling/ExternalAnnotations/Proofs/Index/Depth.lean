import ExternalAnnotations.Proofs.Index.Progress

/-!
# How deep values are nested

An item of an array is one level deeper than the array, and an argument of an annotation two levels
deeper than the value that is the annotation. `Reader.Comes` follows the readings of values from one
to those nested in it. One that is too deep is not read: it is the error of every reading on the way
to it, and nothing else is ever too deep.
-/

namespace ExternalAnnotations

open Production (nil_notMem_one_mul)
open ReaderRelation (relates_of_walks)
open Section (opening)

namespace Reader

variable {α β : Type}

/-! ### Where readers fail -/

lemma bind_error_iff {reader : Reader α} {next : α → Reader β} {cursor last : Cursor}
    {error : SyntaxError} :
    (reader >>= next) cursor = .error error last ↔ reader cursor = .error error last ∨
      ∃ a middle, reader cursor = .ok a middle ∧ next a middle = .error error last := by
  cases hread : reader cursor with
  | ok a middle =>
    rw [bind_ok hread]
    constructor
    · exact fun h => .inr ⟨a, middle, rfl, h⟩
    · rintro (h | ⟨a', middle', h, herror⟩)
      · contradiction
      · obtain ⟨rfl, rfl⟩ := EStateM.Result.ok.inj h
        exact herror
  | error error' middle =>
    rw [bind_error hread]
    constructor
    · rintro h
      obtain ⟨rfl, rfl⟩ := EStateM.Result.error.inj h
      exact .inl rfl
    · rintro (h | ⟨a, middle', h, -⟩)
      · obtain ⟨rfl, rfl⟩ := EStateM.Result.error.inj h
        rfl
      · contradiction

lemma map_error_iff {reader : Reader α} {f : α → β} {cursor last : Cursor} {error : SyntaxError} :
    (reader >>= fun a => Pure.pure (f a)) cursor = .error error last ↔
      reader cursor = .error error last := by
  rw [bind_error_iff, or_iff_left]
  rintro ⟨a, middle, -, h⟩
  contradiction

/-- Where a loop comes to an item: at its start, or behind items that were read. -/
inductive Turn (more : Cursor → Bool) (item : Reader α) (start : Cursor) : Cursor → Prop
  | first (hmore : more start = true) : Turn more item start start
  | next {place after : Cursor} {a : α} (h : Turn more item start place)
      (hread : item place = .ok a after) (hmore : more after = true) : Turn more item start after

namespace Turn

variable {more : Cursor → Bool} {item : Reader α} {start place after : Cursor}

lemma more_eq (h : Turn more item start place) : more place = true := by
  cases h <;> assumption

lemma of_next {a : α} (hmore : more start = true) (hread : item start = .ok a after)
    (h : Turn more item after place) : Turn more item start place := by
  induction h with
  | first hmore' => exact .next (.first hmore) hread hmore'
  | next _ hread' hmore' ih => exact .next ih hread' hmore'

end Turn

lemma manyWhile_error_iff {more : Cursor → Bool} {item : Reader α} {start last : Cursor}
    {error : SyntaxError} (h : ∀ cursor, more cursor = true → Advances item cursor) :
    manyWhile more item start = .error error last ↔
      ∃ place, Turn more item start place ∧ item place = .error error last := by
  constructor
  · intro herror
    have hloop := Loops.of_advances h start
    rw [herror] at hloop
    generalize hresult : (.error error last : EStateM.Result SyntaxError Cursor (List α)) = result
      at hloop
    clear herror
    induction hloop with
    | stops hmore => contradiction
    | goes hmore hread hprogress hrest ih => contradiction
    | @breaks cursor _ _ hmore hitem =>
      obtain ⟨rfl, rfl⟩ := EStateM.Result.error.inj hresult
      exact ⟨cursor, .first hmore, hitem⟩
    | fails hmore hread hprogress hrest ih =>
      obtain ⟨place, hturn, hitem⟩ := ih hresult
      exact ⟨place, hturn.of_next hmore hread, hitem⟩
  · rintro ⟨place, hturn, hitem⟩
    -- back from the item to the start, since the items before it were read
    have hplace := manyWhile_of_breaks hturn.more_eq hitem
    clear hitem
    induction hturn with
    | first hmore => exact hplace
    | @next place after a hturn hread hmore ih =>
      refine ih ?_
      rw [manyWhile_of_goes hturn.more_eq hread (h place hturn.more_eq a after hread), hplace]

/-- Where an item of a list is read: at the start of the list, or behind a comma after items that
were read. -/
inductive ItemAt (item : Reader α) (start : Cursor) : Cursor → Prop
  | first : ItemAt item start start
  | next {place after : Cursor} {a : α} (h : ItemAt item start place)
      (hread : item place = .ok a after) (hcomma : after.isAt .comma = true) :
      ItemAt item start after.forward

lemma itemAt_iff {item : Reader α} {start place : Cursor} :
    ItemAt item start place ↔ place = start ∨ ∃ a middle turn, item start = .ok a middle ∧
      Turn (·.isAt .comma) (do forward; item) middle turn ∧ place = turn.forward := by
  constructor
  · intro h
    induction h with
    | first => exact .inl rfl
    | @next place after a h hread hcomma ih =>
      rcases ih with rfl | ⟨a', middle, turn, hfirst, hturn, rfl⟩
      · exact .inr ⟨a, after, after, hread, .first hcomma, rfl⟩
      · exact .inr ⟨a', middle, after, hfirst, hturn.next hread hcomma, rfl⟩
  · rintro (rfl | ⟨a, middle, turn, hfirst, hturn, rfl⟩)
    · exact .first
    · induction hturn with
      | first hcomma => exact .next .first hfirst hcomma
      | next _ hread hcomma ih => exact .next ih hread hcomma

lemma commaSeparated_error_iff {item : Reader α} (hitem : ∀ cursor, Walks cursor (item cursor))
    {start last : Cursor} {error : SyntaxError} :
    commaSeparated item start = .error error last ↔
      ∃ place, ItemAt item start place ∧ item place = .error error last := by
  have hothers (a : α) (middle : Cursor) :
      (do return a :: (← manyWhile (·.isAt .comma) (do forward; item)) : Reader (List α)) middle =
          .error error last ↔
        ∃ turn, Turn (·.isAt .comma) (do forward; item) middle turn ∧
          item turn.forward = .error error last :=
    map_error_iff.trans (manyWhile_error_iff fun _ hcomma =>
      (walking.forward (relates_of_walks hitem) rfl hcomma).advances nil_notMem_one_mul)
  constructor
  · intro h
    rcases bind_error_iff.1 h with h | ⟨a, middle, hfirst, h⟩
    · exact ⟨start, .first, h⟩
    · obtain ⟨turn, hturn, herror⟩ := (hothers a middle).1 h
      exact ⟨turn.forward, itemAt_iff.2 (.inr ⟨a, middle, turn, hfirst, hturn, rfl⟩), herror⟩
  · rintro ⟨place, hplace, herror⟩
    refine bind_error_iff.2 ?_
    rcases itemAt_iff.1 hplace with rfl | ⟨a, middle, turn, hfirst, hturn, rfl⟩
    · exact .inl herror
    · exact .inr ⟨a, middle, hfirst, (hothers a middle).2 ⟨turn, hturn, herror⟩⟩

/-! ### Readers that read no values -/

/-- The reader never finds anything too deep. -/
def Shallow (reader : Reader α) : Prop :=
  ∀ cursor place last, reader cursor ≠ .error (.tooDeep place) last

end Reader

/-- A reading and itself, which finds nothing too deep. -/
def shallow : ReaderRelation [] :=
  .single (fun error => ∀ place, error ≠ .tooDeep place) fun _ h => h

namespace ReaderRelation

variable {α : Type} {l : Language Token} {same : α → α → Prop} {reader reader' : Reader α}
  {cursor last : Cursor} {place : Location}

lemma Gives.shallow {result result' : EStateM.Result SyntaxError Cursor α}
    (h : shallow.Gives l same cursor result result') : result ≠ .error (.tooDeep place) last := by
  rintro rfl
  cases h with
  | error _ _ _ _ herror => exact herror rfl place rfl
  | cut htail => contradiction

lemma Relates.shallow (h : shallow.Relates l same reader reader') : Reader.Shallow reader :=
  fun cursor _ _ => (h (rfl : cursor = cursor)).shallow

end ReaderRelation

namespace Reader

variable {α β : Type}

namespace Shallow

lemma pure (a : α) : Shallow (Pure.pure a : Reader α) := by
  rintro cursor place last ⟨⟩

lemma fail (expected : String) : Shallow (Reader.fail expected : Reader α) := by
  intro cursor place last
  have hfail : shallow.Gives ⊤ Eq cursor ((Reader.fail expected : Reader α) cursor)
    (Reader.fail expected cursor) := .fail expected rfl
  exact hfail.shallow

lemma expect (kind : TokenKind) (expected : String) : Shallow (Reader.expect kind expected) :=
  fun _ _ _ => (shallow.token_at rfl (.inl rfl)).shallow

lemma map {reader : Reader α} {f : α → β} (h : Shallow reader) :
    Shallow (reader >>= fun a => Pure.pure (f a)) :=
  fun cursor place last herror => h cursor place last (map_error_iff.1 herror)

end Shallow

lemma bind_deep_iff {reader : Reader α} {next : α → Reader β} (h : Shallow reader)
    {cursor last : Cursor} {place : Location} :
    (reader >>= next) cursor = .error (.tooDeep place) last ↔
      ∃ a middle, reader cursor = .ok a middle ∧ next a middle = .error (.tooDeep place) last := by
  rw [bind_error_iff, or_iff_right (h cursor place last)]

lemma before_deep_iff {reader : Reader α} {next : α → Reader β} (h : ∀ a, Shallow (next a))
    {cursor last : Cursor} {place : Location} :
    (reader >>= next) cursor = .error (.tooDeep place) last ↔
      reader cursor = .error (.tooDeep place) last := by
  rw [bind_error_iff, or_iff_left]
  rintro ⟨a, middle, -, herror⟩
  exact h a middle place last herror

lemma closedBy_deep_iff {reader : Reader α} {kind : TokenKind} {expected : String}
    {cursor last : Cursor} {place : Location} :
    (do let a ← reader; let _ ← expect kind expected; return a : Reader α) cursor =
        .error (.tooDeep place) last ↔
      reader cursor = .error (.tooDeep place) last :=
  before_deep_iff fun _ => (Shallow.expect kind expected).map

lemma eat_of_isAt {kind : TokenKind} {cursor : Cursor} (h : cursor.isAt kind = true) :
    eat kind cursor = .ok true cursor.forward := by
  rw [eat, if_pos h]

lemma eat_of_not {kind : TokenKind} {cursor : Cursor} (h : cursor.isAt kind = false) :
    eat kind cursor = .ok false cursor := by
  rw [eat, h]
  rfl

lemma eat_deep_iff {kind : TokenKind} {a : α} {next : Reader α} {cursor last : Cursor}
    {place : Location} :
    (do if ← eat kind then return a else next : Reader α) cursor = .error (.tooDeep place) last ↔
      cursor.isAt kind = false ∧ next cursor = .error (.tooDeep place) last := by
  cases hat : cursor.isAt kind with
  | true =>
    rw [bind_ok (eat_of_isAt hat)]
    exact ⟨nofun, nofun⟩
  | false =>
    rw [bind_ok (eat_of_not hat)]
    exact ⟨fun h => ⟨rfl, h⟩, fun h => h.2⟩

/-! ### Values in values -/

/-- An annotation at a place has arguments, and these begin at another place. -/
def HasArguments (start inner : Cursor) : Prop :=
  ∃ sign middle typeName opening, expect .atSign "'@'" start = .ok sign middle ∧
    qualifiedName "annotation type name" middle = .ok typeName opening ∧
    opening.isAt .openParen = true ∧ opening.forward.isAt .closeParen = false ∧
    opening.forward = inner

/-- Where an annotation at a place has a value for an argument. -/
inductive ArgumentAt (argument : Reader WrittenValue) (start : Cursor) : Cursor → Prop
  | sole {inner : Cursor} (h : HasArguments start inner)
      (hnamed : startsNamedArguments inner = false) : ArgumentAt argument start inner
  | named {inner place middle next : Cursor} {element : String} {sign : Token}
      (h : HasArguments start inner) (hnamed : startsNamedArguments inner = true)
      (hitem : ItemAt (namedArgument argument) inner place)
      (helement : elementName place = .ok element middle)
      (hequals : expect .equals "'=' after element name" middle = .ok sign next) :
      ArgumentAt argument start next

section

variable {item argument : Reader WrittenValue} {start last : Cursor} {place : Location}

lemma namedArgument_deep_iff :
    namedArgument argument start = .error (.tooDeep place) last ↔
      ∃ element middle sign next, elementName start = .ok element middle ∧
        expect .equals "'=' after element name" middle = .ok sign next ∧
          argument next = .error (.tooDeep place) last := by
  constructor
  · intro h
    obtain ⟨element, middle, helement, h⟩ := (bind_deep_iff shallow.elementName.shallow).1 h
    obtain ⟨sign, next, hequals, h⟩ := (bind_deep_iff (.expect _ _)).1 h
    exact ⟨element, middle, sign, next, helement, hequals, map_error_iff.1 h⟩
  · rintro ⟨element, middle, sign, next, helement, hequals, h⟩
    refine (bind_deep_iff shallow.elementName.shallow).2 ⟨element, middle, helement, ?_⟩
    exact (bind_deep_iff (.expect _ _)).2 ⟨sign, next, hequals, map_error_iff.2 h⟩

lemma soleArgument_deep_iff :
    soleArgument argument start = .error (.tooDeep place) last ↔
      argument start = .error (.tooDeep place) last := map_error_iff

/-- Reads what stands between the parentheses of an annotation, and the second of them. -/
def enclosed (argument : Reader WrittenValue) : Reader (List (String × WrittenValue)) := do
  let values ←
    if startsNamedArguments (← get) then commaSeparated (namedArgument argument)
    else soleArgument argument
  let _ ← expect .closeParen "')' closing annotation arguments"
  return values

lemma enclosed_deep_iff (hargument : ∀ cursor, Walks cursor (argument cursor)) :
    enclosed argument start = .error (.tooDeep place) last ↔
      (startsNamedArguments start = false ∧ argument start = .error (.tooDeep place) last) ∨
        (startsNamedArguments start = true ∧ ∃ given,
          ItemAt (namedArgument argument) start given ∧
            namedArgument argument given = .error (.tooDeep place) last) := by
  change (if startsNamedArguments start then _ else _ : Reader _) start = _ ↔ _
  cases startsNamedArguments start with
  | false =>
    refine (closedBy_deep_iff.trans soleArgument_deep_iff).trans ?_
    exact ⟨fun h => .inl ⟨rfl, h⟩, fun h => h.elim (·.2) (absurd ·.1 nofun)⟩
  | true =>
    have hitem := (walking.namedArgument (relates_of_walks hargument)).walks
    refine (closedBy_deep_iff.trans (commaSeparated_error_iff hitem)).trans ?_
    exact ⟨fun h => .inr ⟨rfl, h⟩, fun h => h.elim (absurd ·.1 nofun) (·.2)⟩

lemma arguments_deep_iff :
    arguments argument start = .error (.tooDeep place) last ↔
      start.isAt .openParen = true ∧ start.forward.isAt .closeParen = false ∧
        enclosed argument start.forward = .error (.tooDeep place) last := by
  cases hopen : start.isAt .openParen with
  | false =>
    rw [arguments, bind_ok (eat_of_not hopen)]
    exact ⟨nofun, nofun⟩
  | true =>
    rw [arguments, bind_ok (eat_of_isAt hopen)]
    exact eat_deep_iff.trans (and_iff_right rfl).symm

lemma annotationOf_deep_iff (hargument : ∀ cursor, Walks cursor (argument cursor)) :
    annotationOf argument start = .error (.tooDeep place) last ↔
      ∃ given, ArgumentAt argument start given ∧
        argument given = .error (.tooDeep place) last := by
  constructor
  · intro h
    obtain ⟨sign, middle, hsign, h⟩ := (bind_deep_iff (.expect _ _)).1 h
    obtain ⟨typeName, opening, hname, h⟩ := (bind_deep_iff (shallow.qualifiedName _).shallow).1 h
    obtain ⟨hopen, hclose, h⟩ := arguments_deep_iff.1 (map_error_iff.1 h)
    have hhas : HasArguments start opening.forward :=
      ⟨sign, middle, typeName, opening, hsign, hname, hopen, hclose, rfl⟩
    rcases (enclosed_deep_iff hargument).1 h with ⟨hnamed, h⟩ | ⟨hnamed, given, hitem, h⟩
    · exact ⟨_, .sole hhas hnamed, h⟩
    · obtain ⟨element, middle, equals, next, helement, hequals, h⟩ := namedArgument_deep_iff.1 h
      exact ⟨next, .named hhas hnamed hitem helement hequals, h⟩
  · rintro ⟨given, hgiven, h⟩
    -- the arguments begin at one place, whether they have names or not
    obtain ⟨inner, ⟨sign, middle, typeName, opening, hsign, hname, hopen, hclose, rfl⟩, h⟩ :
        ∃ inner, HasArguments start inner ∧
          enclosed argument inner = .error (.tooDeep place) last := by
      cases hgiven with
      | sole hhas hnamed => exact ⟨_, hhas, (enclosed_deep_iff hargument).2 (.inl ⟨hnamed, h⟩)⟩
      | named hhas hnamed hitem helement hequals =>
        have hargument' := namedArgument_deep_iff.2 ⟨_, _, _, _, helement, hequals, h⟩
        exact ⟨_, hhas, (enclosed_deep_iff hargument).2 (.inr ⟨hnamed, _, hitem, hargument'⟩)⟩
    refine (bind_deep_iff (.expect _ _)).2 ⟨sign, middle, hsign, ?_⟩
    refine (bind_deep_iff (shallow.qualifiedName _).shallow).2 ⟨typeName, opening, hname,
      map_error_iff.2 ?_⟩
    exact arguments_deep_iff.2 ⟨hopen, hclose, h⟩

lemma arrayItems_deep_iff (hitem : ∀ cursor, Walks cursor (item cursor)) :
    arrayItems item start = .error (.tooDeep place) last ↔
      start.isAt .closeBrace = false ∧
        ∃ given, ItemAt item start given ∧ item given = .error (.tooDeep place) last :=
  eat_deep_iff.trans (and_congr_right fun _ =>
    closedBy_deep_iff.trans (commaSeparated_error_iff hitem))

lemma isAt_of_annotationOf
    (h : annotationOf argument start = .error (.tooDeep place) last) :
    start.isAt .atSign = true := by
  obtain ⟨sign, middle, hsign, -⟩ := (bind_deep_iff (.expect _ _)).1 h
  obtain ⟨hkind, hrest⟩ := rest_of_token hsign
  rw [Cursor.isAt, Cursor.kind?, hrest]
  exact (beq_iff_eq.1 hkind) ▸ beq_self_eq_true _

lemma valueOf_shallow (hbrace : start.isAt .openBrace = false)
    (hsign : start.isAt .atSign = false) :
    valueOf item argument start ≠ .error (.tooDeep place) last := by
  obtain ⟨previous, rest⟩ := start
  cases rest with
  | nil => exact Shallow.fail _ _ _ _
  | cons token rest =>
    have hbrace : token.kind ≠ .openBrace := by simpa [Cursor.isAt, Cursor.kind?] using hbrace
    have hsign : token.kind ≠ .atSign := by simpa [Cursor.isAt, Cursor.kind?] using hsign
    simp only [valueOf, if_neg hbrace, if_neg hsign]
    split
    · rename_i hliteral
      exact (shallow.literal rfl rfl hliteral rfl trivial).shallow
    · split
      · exact (shallow.nameValue rfl).shallow
      · exact Shallow.fail _ _ _ _

lemma valueOf_deep_iff (hitem : ∀ cursor, Walks cursor (item cursor))
    (hargument : ∀ cursor, Walks cursor (argument cursor)) :
    valueOf item argument start = .error (.tooDeep place) last ↔
      (start.isAt .openBrace = true ∧ start.forward.isAt .closeBrace = false ∧
        ∃ given, ItemAt item start.forward given ∧
          item given = .error (.tooDeep place) last) ∨
      ∃ given, ArgumentAt argument start given ∧
        argument given = .error (.tooDeep place) last := by
  rw [← annotationOf_deep_iff hargument, ← arrayItems_deep_iff hitem]
  cases hbrace : start.isAt .openBrace with
  | true =>
    have hsign : start.isAt .atSign = false := by
      rw [Cursor.isAt, beq_iff_eq] at hbrace
      rw [Cursor.isAt, hbrace]
      rfl
    have hinner : valueOf item argument start =
        (do return .array (← arrayItems item) : Reader WrittenValue) start.forward :=
      valueOf_of_brace hbrace
    rw [hinner, map_error_iff, or_iff_left, and_iff_right rfl]
    exact fun h => Bool.eq_false_iff.1 hsign (isAt_of_annotationOf h)
  | false =>
    rw [or_iff_right fun h => Bool.false_ne_true h.1]
    cases hsign : start.isAt .atSign with
    | true => rw [valueOf_of_sign hsign, map_error_iff]
    | false =>
      exact iff_of_false (valueOf_shallow hbrace hsign) fun h =>
        Bool.eq_false_iff.1 hsign (isAt_of_annotationOf h)

end

/-! ### Depths -/

/-- Reads a value at a depth. What is nested in values counts from there: an item of an array one
more, and an argument of an annotation two more. -/
def valueAt (depth : Nat) : Reader WrittenValue := value (maxValueDepth + 1 - depth)

lemma valueAt_of_le {depth : Nat} (h : depth ≤ maxValueDepth) :
    valueAt depth = valueOf (valueAt (depth + 1)) (valueAt (depth + 2)) := by
  funext cursor
  rcases h.eq_or_lt with rfl | hlt
  · rfl
  · obtain ⟨room, hroom⟩ := Nat.exists_eq_add_of_lt hlt
    have hhere : maxValueDepth + 1 - depth = room + 2 := by omega
    have hitem : maxValueDepth + 1 - (depth + 1) = room + 1 := by omega
    have hargument : maxValueDepth + 1 - (depth + 2) = room := by omega
    rw [valueAt, valueAt, valueAt, hhere, hitem, hargument, value]

lemma valueAt_of_lt {depth : Nat} (h : maxValueDepth < depth) : valueAt depth = tooDeep := by
  funext cursor
  rw [valueAt, Nat.sub_eq_zero_of_le h, value]

lemma Walks.valueAt (depth : Nat) (cursor : Cursor) : Walks cursor (Reader.valueAt depth cursor) :=
  (walking.value _).walks cursor

/-- Where the reading of a value at a depth reads a value in it, and at what depth. -/
inductive Nests (depth : Nat) (start : Cursor) : Nat → Cursor → Prop
  | item {place : Cursor} (hbrace : start.isAt .openBrace = true)
      (hsome : start.forward.isAt .closeBrace = false)
      (hitem : ItemAt (valueAt (depth + 1)) start.forward place) :
      Nests depth start (depth + 1) place
  | argument {place : Cursor} (hargument : ArgumentAt (valueAt (depth + 2)) start place) :
      Nests depth start (depth + 2) place

/-- Where the reading of a value at a depth comes to a value, and at what depth. From one that is
too deep it goes no further. -/
inductive Comes (depth : Nat) (start : Cursor) : Nat → Cursor → Prop
  | here : Comes depth start depth start
  | further {middle inner : Nat} {place next : Cursor} (h : Comes depth start middle place)
      (hlimit : middle ≤ maxValueDepth) (hnests : Nests middle place inner next) :
      Comes depth start inner next

variable {depth middle inner : Nat} {start next last : Cursor} {place : Location}

lemma ItemAt.leadsTo {item : Reader α} (hitem : ∀ cursor, Walks cursor (item cursor))
    (h : ItemAt item start next) : start.LeadsTo next := by
  induction h with
  | first => exact .refl start
  | @next place after a _ hread _ ih =>
    have hlead := hitem place
    rw [hread] at hlead
    exact (ih.trans hlead.leadsTo).trans (.forward after)

lemma HasArguments.precedes (h : HasArguments start next) : start.Precedes next := by
  obtain ⟨sign, middle, typeName, opening, hsign, hname, -, -, rfl⟩ := h
  have hlead := ((walking.qualifiedName _).past hname).leadsTo
  exact (Advances.token _ _ sign middle hsign).trans_leadsTo (hlead.trans (.forward opening))

lemma ArgumentAt.precedes {argument : Reader WrittenValue}
    (hargument : ∀ cursor, Walks cursor (argument cursor)) (h : ArgumentAt argument start next) :
    start.Precedes next := by
  cases h with
  | sole h _ => exact h.precedes
  | @named inner place middle _ element sign h _ hitem helement hequals =>
    have hgiven := hitem.leadsTo (walking.namedArgument (relates_of_walks hargument)).walks
    have hname := (walking.elementName.past helement).leadsTo
    have hsign := Advances.token _ _ sign next hequals
    exact (h.precedes.trans_leadsTo (hgiven.trans hname)).trans_leadsTo hsign.1

lemma Nests.lt_and_precedes (h : Nests depth start inner next) :
    depth < inner ∧ start.Precedes next := by
  cases h with
  | item hbrace _ hitem =>
    have hforward := Cursor.precedes_forward (Cursor.ne_nil_of_isAt hbrace)
    exact ⟨Nat.lt_succ_self _, hforward.trans_leadsTo (hitem.leadsTo (Walks.valueAt _))⟩
  | argument hargument => exact ⟨by omega, hargument.precedes (Walks.valueAt _)⟩

lemma valueAt_nests_iff (h : depth ≤ maxValueDepth) :
    valueAt depth start = .error (.tooDeep place) last ↔
      ∃ inner next, Nests depth start inner next ∧
        valueAt inner next = .error (.tooDeep place) last := by
  rw [valueAt_of_le h, valueOf_deep_iff (Walks.valueAt _) (Walks.valueAt _)]
  constructor
  · rintro (⟨hbrace, hsome, next, hitem, herror⟩ | ⟨next, hargument, herror⟩)
    · exact ⟨depth + 1, next, .item hbrace hsome hitem, herror⟩
    · exact ⟨depth + 2, next, .argument hargument, herror⟩
  · rintro ⟨inner, next, hnests, herror⟩
    cases hnests with
    | item hbrace hsome hitem => exact .inl ⟨hbrace, hsome, next, hitem, herror⟩
    | argument hargument => exact .inr ⟨next, hargument, herror⟩

namespace Comes

lemma of_nests (hlimit : depth ≤ maxValueDepth) (hnests : Nests depth start middle next)
    (h : Comes middle next inner last) : Comes depth start inner last := by
  induction h with
  | here => exact .further .here hlimit hnests
  | further _ hlimit' hnests' ih => exact .further ih hlimit' hnests'

lemma error_of_error (h : Comes depth start inner next)
    (herror : valueAt inner next = .error (.tooDeep place) last) :
    valueAt depth start = .error (.tooDeep place) last := by
  induction h with
  | here => exact herror
  | further _ hlimit hnests ih => exact ih ((valueAt_nests_iff hlimit).2 ⟨_, _, hnests, herror⟩)

lemma le (h : Comes depth start inner next) (hdepth : depth ≤ maxValueDepth + 2) :
    inner ≤ maxValueDepth + 2 := by
  cases h with
  | here => exact hdepth
  | further _ hlimit hnests => cases hnests <;> omega

end Comes

/-- A value is found too deep where reading it comes to one beyond the limit, and nowhere else. -/
lemma valueAt_deep_iff :
    valueAt depth start = .error (.tooDeep place) last ↔
      ∃ inner, Comes depth start inner last ∧ maxValueDepth < inner ∧ last.place = place := by
  constructor
  · intro herror
    -- by the room that is left, which is less for what is nested
    induction hroom : maxValueDepth + 1 - depth using Nat.strong_induction_on
      generalizing depth start with
    | _ room ih =>
    subst hroom
    rcases Nat.lt_or_ge maxValueDepth depth with hlt | hle
    · rw [valueAt_of_lt hlt, tooDeep] at herror
      obtain ⟨hplace, rfl⟩ := EStateM.Result.error.inj herror
      exact ⟨depth, .here, hlt, SyntaxError.tooDeep.inj hplace⟩
    · obtain ⟨middle, next, hnests, herror⟩ := (valueAt_nests_iff hle).1 herror
      have hless : maxValueDepth + 1 - middle < maxValueDepth + 1 - depth := by
        cases hnests <;> omega
      obtain ⟨inner, hcomes, hrest⟩ := ih _ hless herror rfl
      exact ⟨inner, hcomes.of_nests hle hnests, hrest⟩
  · rintro ⟨inner, hcomes, hlt, rfl⟩
    refine hcomes.error_of_error ?_
    rw [valueAt_of_lt hlt, tooDeep]

end Reader

end ExternalAnnotations
