import ExternalAnnotations.Proofs.Index.AlikeReaders

/-!
# Blocks elsewhere

A block that is read before a tail contributes what it contributes without it, leaves the same
package and class open, and ends before the tail. So the parser does the same round after round
until it stands on the tail.
-/

namespace ExternalAnnotations

open Production
open ReaderRelation

variable {tail : List Token}

lemma Subject.unplaced_entry (subject : Subject) (placement : Placement) {place place' : Location}
    {annotations annotations' : List AnnotationUse}
    (h : unplaced annotations' = unplaced annotations) :
    unplaced (subject.entry placement place' annotations') =
      unplaced (subject.entry placement place annotations) := by
  have hempty : annotations'.isEmpty = annotations.isEmpty := by
    have hmapped := congrArg List.isEmpty h
    change (annotations'.map unplaced).isEmpty = (annotations.map unplaced).isEmpty at hmapped
    rwa [List.isEmpty_map, List.isEmpty_map] at hmapped
  unfold entry
  rw [hempty]
  split
  · rfl
  · change [Entry.mk _ _ _ _ _ _] = [Entry.mk _ _ _ _ _ _]
    rw [h]

namespace Cursor

lemma skipToBlock_succ (limit : Nat) (cursor : Cursor) : cursor.skipToBlock (limit + 1) =
    if Reader.withinBlock cursor then cursor.forward.skipToBlock limit else cursor := by
  rw [skipToBlock, Reader.withinBlock]
  cases cursor.rest.isEmpty <;> cases cursor.startsBlock <;> rfl

lemma skipToBlock_of_stops {cursor : Cursor} (h : Reader.withinBlock cursor = false)
    (limit : Nat) : cursor.skipToBlock limit = cursor := by
  cases limit with
  | zero => rfl
  | succ limit => rw [skipToBlock_succ, h, if_neg Bool.false_ne_true]

lemma ne_nil_of_withinBlock {cursor : Cursor} (h : Reader.withinBlock cursor = true) :
    cursor.rest ≠ [] := by
  intro hn
  simp [Reader.withinBlock, hn] at h

lemma length_skipToBlock_le (limit : Nat) (cursor : Cursor) :
    (cursor.skipToBlock limit).rest.length ≤ cursor.rest.length := by
  induction limit generalizing cursor with
  | zero => exact le_rfl
  | succ limit ih =>
    rw [skipToBlock_succ]
    split
    · exact (ih cursor.forward).trans cursor.length_forward_le
    · exact le_rfl

lemma length_forward_lt {cursor : Cursor} (hn : cursor.rest ≠ []) :
    cursor.forward.rest.length < cursor.rest.length := by
  obtain ⟨previous, rest⟩ := cursor
  obtain ⟨token, rest, rfl⟩ := List.exists_cons_of_ne_nil hn
  exact Nat.lt_succ_self _

lemma Alike.skipToBlock (ht : OpensPackage tail) {cursor other : Cursor}
    (h : cursor.Alike tail other) {limit limit' : Nat}
    (hlimit : limit' = limit ∨ cursor.rest.length ≤ limit ∧ cursor.rest.length ≤ limit') :
    (cursor.skipToBlock limit).Alike tail (other.skipToBlock limit') := by
  induction limit generalizing limit' cursor other with
  | zero =>
    rcases hlimit with rfl | ⟨hl, -⟩
    · exact h
    · have hstops : Reader.withinBlock cursor = false := by
        rw [Reader.withinBlock, List.length_eq_zero_iff.1 (Nat.le_zero.1 hl)]
        rfl
      rwa [skipToBlock_of_stops hstops, skipToBlock_of_stops ((h.withinBlock_eq ht).trans hstops)]
  | succ limit ih =>
    cases hw : Reader.withinBlock cursor with
    | false =>
      rwa [skipToBlock_of_stops hw, skipToBlock_of_stops ((h.withinBlock_eq ht).trans hw)]
    | true =>
      have hn := ne_nil_of_withinBlock hw
      have hlt := length_forward_lt hn
      obtain ⟨limit', rfl⟩ : ∃ n, limit' = n + 1 :=
        Nat.exists_eq_succ_of_ne_zero (by have := List.length_pos_iff.2 hn; omega)
      rw [skipToBlock_succ, skipToBlock_succ, h.withinBlock_eq ht, hw, if_pos rfl]
      exact ih (h.forward hn) (by omega)

end Cursor

/-! ### Sections -/

/-- What sections contribute on cursors that are alike: the same entries and, without a tail, the
same errors. -/
inductive Section.Corresponds (tail : List Token) (start : Cursor) : Section → Section → Prop
  | alike {read read' : Section} (hcomplete : unplaced read'.complete = unplaced read.complete)
      (hheld : unplaced read'.held = unplaced read.held)
      (hfailure : read'.failure.isSome = read.failure.isSome)
      (herror : tail = [] → unplaced read'.failure = unplaced read.failure)
      (hcursor : read.cursor.Alike tail read'.cursor)
      (hlength : read.cursor.rest.length ≤ start.rest.length) : Corresponds tail start read read'
  | cut {read read' : Section} {error : SyntaxError} (htail : tail ≠ [])
      (hfailure : read.failure = some error) (herror : error.missesElementName) :
      Corresponds tail start read read'

namespace Section

variable {start cursor other : Cursor}

lemma Corresponds.mono {next : Cursor} {read read' : Section} (h : Corresponds tail next read read')
    (hl : next.rest.length ≤ start.rest.length) : Corresponds tail start read read' := by
  cases h with
  | alike hcomplete hheld hfailure herror hcursor hlength =>
    exact .alike hcomplete hheld hfailure herror hcursor (hlength.trans hl)
  | cut htail hfailure herror => exact .cut htail hfailure herror

lemma Corresponds.after {read read' : Section} (h : Corresponds tail start read read')
    {entries entries' : List Entry} (he : unplaced entries' = unplaced entries) :
    Corresponds tail start (read.after entries) (read'.after entries') := by
  cases h with
  | alike hcomplete hheld hfailure herror hcursor hlength =>
    refine .alike ?_ hheld hfailure herror hcursor hlength
    change unplaced (entries' ++ read'.complete) = unplaced (entries ++ read.complete)
    rw [unplaced_append, unplaced_append, he, hcomplete]
  | cut htail hfailure herror => exact .cut htail hfailure herror

lemma Corresponds.kept_eq {read read' : Section} (h : Corresponds tail start read read')
    (hcut : ∀ error ∈ read.failure, tail ≠ [] → error.missesElementName = false) :
    unplaced read'.kept = unplaced read.kept := by
  cases h with
  | alike hcomplete hheld hfailure =>
    unfold kept
    rw [hfailure]
    split
    · exact hcomplete
    · rw [unplaced_append, unplaced_append, hcomplete, hheld]
  | cut htail hfailure herror => simp [hcut _ hfailure htail] at herror

section

variable (ht : OpensPackage tail)
include ht

lemma type_corresponds (h : cursor.Alike tail other) (subject : Subject) (placement : Placement)
    {place place' : Location} {held held' : List Entry} (hheld : unplaced held' = unplaced held) :
    Corresponds tail cursor (type subject placement place held cursor)
      (type subject placement place' held' other) := by
  unfold type
  rw [h.isAt_eq ht (by decide)]
  split
  · have ho := (elsewhere ht).typeHeader.opening (fun _ _ hsame => congrArg unplaced hsame.symm) h
    generalize opening Reader.typeHeader cursor = result,
      opening Reader.typeHeader other = result' at ho
    cases ho with
    | ok ha hnext hl =>
      exact .alike hheld (subject.unplaced_entry placement (Prod.mk.inj ha).2) rfl (fun _ => rfl)
        hnext hl
    | error he hnext hl =>
      exact .alike hheld rfl rfl (fun htail => congrArg some (he htail)) hnext hl
    | cut htail he => exact .cut htail rfl he
  · exact .alike rfl hheld rfl (fun _ => rfl) h le_rfl

lemma type_corresponds_of_annotations (h : cursor.Alike tail other) (subject : Subject)
    (placement typePlacement : Placement) (place place' : Location)
    {annotations annotations' : List AnnotationUse}
    (ha : unplaced annotations' = unplaced annotations) :
    Corresponds tail cursor
      (type subject typePlacement place (subject.entry placement place annotations) cursor)
      (type subject typePlacement place' (subject.entry placement place' annotations') other) :=
  type_corresponds ht h subject typePlacement (subject.unplaced_entry placement ha)

lemma result_corresponds (h : cursor.Alike tail other) (subject : Subject) :
    Corresponds tail cursor (result subject cursor) (result subject other) := by
  unfold result
  have ho := (elsewhere ht).returnHeader.opening (fun _ _ _ => rfl) h
  generalize opening Reader.returnHeader cursor = result,
    opening Reader.returnHeader other = result' at ho
  cases ho with
  | ok ha hnext hl =>
    exact .alike rfl (subject.unplaced_entry .returnType (Prod.mk.inj ha).2) rfl (fun _ => rfl)
      hnext hl
  | error he hnext hl =>
    exact .alike rfl rfl rfl (fun htail => congrArg some (he htail)) hnext hl
  | cut htail he => exact .cut htail rfl he

lemma parameter_corresponds (h : cursor.Alike tail other) (subject : Subject) :
    Corresponds tail cursor (parameter subject cursor) (parameter subject other) := by
  unfold parameter
  have ho := (elsewhere ht).parameterHeader.opening (fun _ _ => unplaced_of_headed) h
  generalize opening Reader.parameterHeader cursor = result,
    opening Reader.parameterHeader other = result' at ho
  cases ho with
  | @ok a a' next next' ha hnext hl =>
    obtain ⟨⟨position, place⟩, annotations⟩ := a
    obtain ⟨⟨position', place'⟩, annotations'⟩ := a'
    obtain ⟨hheader, hannotations⟩ := Prod.mk.inj ha
    obtain rfl : position' = position := (Prod.mk.inj hheader).1
    exact (type_corresponds_of_annotations ht hnext subject _ _ _ _ hannotations).mono hl
  | error he hnext hl =>
    exact .alike rfl rfl rfl (fun htail => congrArg some (he htail)) hnext hl
  | cut htail he => exact .cut htail rfl he

omit ht in
lemma unexpected_corresponds (h : cursor.Alike tail other)
    (hl : cursor.rest.length ≤ start.rest.length)
    (expected : String) {complete complete' held held' : List Entry}
    (hcomplete : unplaced complete' = unplaced complete) (hheld : unplaced held' = unplaced held) :
    Corresponds tail start ⟨complete, held, some (cursor.unexpected expected), cursor⟩
      ⟨complete', held', some (other.unexpected expected), other⟩ :=
  .alike hcomplete hheld rfl
    (fun htail => congrArg some ((htail ▸ h).unexpected_eq expected)) h hl

lemma next_corresponds (h : cursor.Alike tail other) (subject : Subject) :
    Corresponds tail cursor (next subject cursor) (next subject other) := by
  unfold next
  rw [h.isAt_eq ht (by decide), h.isAt_eq ht (by decide)]
  split
  · exact result_corresponds ht h subject
  · split
    · exact parameter_corresponds ht h subject
    · exact unexpected_corresponds h le_rfl _ rfl rfl

lemma begins_eq (h : cursor.Alike tail other) : begins other = begins cursor := by
  rw [begins, begins, h.isAt_eq ht (by decide), h.isAt_eq ht (by decide)]

lemma following_corresponds (subject : Subject) {held held' : List Entry}
    (hheld : unplaced held' = unplaced held) (h : cursor.Alike tail other) :
    Corresponds tail cursor (following subject held cursor) (following subject held' other) := by
  induction hn : cursor.rest.length using Nat.strong_induction_on
    generalizing cursor other held held' with
  | _ n ih =>
    rw [following, following, h.withinBlock_eq ht]
    cases hw : Reader.withinBlock cursor with
    | false => exact .alike rfl hheld rfl (fun _ => rfl) h le_rfl
    | true =>
      have hnext := next_corresponds ht h subject
      have hbegins := begins_eq ht h
      simp only [if_true, hbegins]
      generalize next subject cursor = read, next subject other = read' at hnext
      cases hnext with
      | cut htail hfailure herror =>
        simp only [hfailure, Option.isNone_some, Bool.false_and, Bool.false_eq_true, if_false]
        split
        · exact .cut htail hfailure herror
        · exact .cut htail hfailure herror
      | alike hcomplete hread hfailure herror hcursor hlength =>
        have hread' := Corresponds.alike hcomplete hread hfailure herror hcursor hlength
        -- Whether there is a next section is decided alike at both cursors.
        have hgoes :
            (read'.failure.isNone && decide (read'.cursor.rest.length < other.rest.length)) =
              (read.failure.isNone && decide (read.cursor.rest.length < cursor.rest.length)) := by
          simp only [h.length_lt_iff hcursor, ← Option.not_isSome, hfailure]
        rw [hgoes]
        split
        · rename_i hmore
          have hlt := of_decide_eq_true (Bool.and_eq_true_iff.1 hmore).2
          refine ((ih _ (hn ▸ hlt) hread hcursor rfl).mono hlength).after ?_
          rw [unplaced_append, unplaced_append, hheld, hcomplete]
        · split
          · exact hread'.after hheld
          · exact hread'

lemma method_corresponds (owner package : String) (h : cursor.Alike tail other) :
    Corresponds tail cursor (method owner package cursor) (method owner package other) := by
  unfold method
  have ho := (elsewhere ht).methodHeader.opening (fun _ _ => unplaced_of_headed) h
  generalize opening Reader.methodHeader cursor = result,
    opening Reader.methodHeader other = result' at ho
  cases ho with
  | @ok a a' next next' ha hnext hl =>
    obtain ⟨⟨member, place⟩, annotations⟩ := a
    obtain ⟨⟨member', place'⟩, annotations'⟩ := a'
    obtain ⟨hheader, hannotations⟩ := Prod.mk.inj ha
    obtain rfl : member' = member := (Prod.mk.inj hheader).1
    exact (following_corresponds ht _ (Subject.unplaced_entry _ _ hannotations) hnext).mono hl
  | error he hnext hl =>
    exact .alike rfl rfl rfl (fun htail => congrArg some (he htail)) hnext hl
  | cut htail he => exact .cut htail rfl he

lemma field_corresponds (owner package : String) (h : cursor.Alike tail other) :
    Corresponds tail cursor (field owner package cursor) (field owner package other) := by
  unfold field
  have ho := (elsewhere ht).fieldHeader.opening (fun _ _ => unplaced_of_headed) h
  generalize opening Reader.fieldHeader cursor = result,
    opening Reader.fieldHeader other = result' at ho
  cases ho with
  | @ok a a' next next' ha hnext hl =>
    obtain ⟨⟨member, place⟩, annotations⟩ := a
    obtain ⟨⟨member', place'⟩, annotations'⟩ := a'
    obtain ⟨hheader, hannotations⟩ := Prod.mk.inj ha
    obtain rfl : member' = member := (Prod.mk.inj hheader).1
    have htype := (type_corresponds_of_annotations ht hnext ⟨owner, package, some member'⟩
      .declaration .fieldType place place' hannotations).mono hl
    dsimp only
    generalize type _ _ place _ next = read, type _ _ place' _ next' = read' at htype
    cases htype with
    | cut htail hfailure herror =>
      rw [if_neg (by simp [hfailure])]
      exact .cut htail hfailure herror
    | alike hcomplete hheld hfailure herror hcursor hlength =>
      rw [← Option.not_isSome, ← Option.not_isSome, hfailure, hcursor.withinBlock_eq ht]
      split
      · exact unexpected_corresponds hcursor hlength _ hcomplete hheld
      · exact .alike hcomplete hheld hfailure herror hcursor hlength
  | error he hnext hl =>
    exact .alike rfl rfl rfl (fun htail => congrArg some (he htail)) hnext hl
  | cut htail he => exact .cut htail rfl he

end

/-! A member block without an error takes at least its header. -/

lemma Corresponds.length_le {read : Section} (h : Corresponds [] start read read) :
    read.cursor.rest.length ≤ start.rest.length := by
  cases h with
  | alike _ _ _ _ _ hlength => exact hlength
  | cut htail => contradiction

lemma length_lt_of_opening {α : Type} {l : Language Token} {same : α → α → Prop}
    {header : Reader α} {opened : α × List AnnotationUse} {next : Cursor}
    (h : walking.Relates l same header header) (hl : [] ∉ l)
    (hread : opening header cursor = .ok opened next) :
    next.rest.length < cursor.rest.length :=
  ((walking.opening h).past hread).length_lt (nil_notMem_mul hl)

lemma length_lt_of_method {owner package : String}
    (h : (method owner package cursor).failure = none) :
    (method owner package cursor).cursor.rest.length < cursor.rest.length := by
  unfold method at h ⊢
  split at h
  · rename_i hopened
    exact (following_corresponds opensPackage_nil _ rfl (Cursor.alike_refl _)).length_le.trans_lt
      (length_lt_of_opening walking.methodHeader
        (nil_notMem_mul (nil_notMem_mul (nil_notMem_mul nil_notMem_one))) hopened)
  · contradiction

lemma length_lt_of_field {owner package : String}
    (h : (field owner package cursor).failure = none) :
    (field owner package cursor).cursor.rest.length < cursor.rest.length := by
  have hle : ∀ subject placement place held next,
      (type subject placement place held next).cursor.rest.length ≤ next.rest.length :=
    fun subject placement _ _ next =>
      (type_corresponds opensPackage_nil next.alike_refl subject placement rfl).length_le
  unfold field at h ⊢
  split at h
  · rename_i hopened
    dsimp only at h ⊢
    split at h
    · contradiction
    · rename_i hends
      rw [if_neg hends]
      exact (hle _ _ _ _ _).trans_lt (length_lt_of_opening walking.fieldHeader
        (nil_notMem_mul (nil_notMem_mul nil_notMem_one)) hopened)
  · contradiction

end Section

/-! ### Blocks -/

/-- What blocks contribute on cursors that are alike, and what they leave open. A block without an
error takes at least one token. -/
inductive Block.Corresponds (tail : List Token) (start : Cursor) : Block → Block → Prop
  | alike {block block' : Block}
      (hindex : unplaced block'.parsed.index = unplaced block.parsed.index)
      (hfailure : block'.failure.isSome = block.failure.isSome)
      (herror : tail = [] → unplaced block'.failure = unplaced block.failure)
      (hcursor : block.cursor.Alike tail block'.cursor)
      (hlength : block.cursor.rest.length ≤ start.rest.length)
      (hprogress : block.failure = none → block.cursor.rest.length < start.rest.length)
      (hscopes : block'.scopes = block.scopes) : Corresponds tail start block block'
  | cut {block block' : Block} {error : SyntaxError} (htail : tail ≠ [])
      (hfailure : block.failure = some error) (herror : error.missesElementName) :
      Corresponds tail start block block'

namespace Block

variable {start cursor other : Cursor} (ht : OpensPackage tail)
include ht

lemma package_corresponds (h : cursor.Alike tail other) (hn : cursor.rest ≠ []) :
    Corresponds tail cursor (package cursor) (package other) := by
  have hheader := ((elsewhere ht).packageHeader h (.inr hn)).corresponds
    fun _ _ hsame => congrArg unplaced hsame.symm
  have hlt (name : String) (next : Cursor) (hread : Reader.packageHeader cursor = .ok name next) :
      next.rest.length < cursor.rest.length := by
    have hpast := walking.packageHeader (rfl : cursor = cursor) (.inl rfl)
    rw [hread] at hpast
    exact hpast.past.length_lt (nil_notMem_mul (nil_notMem_mul nil_notMem_one))
  unfold package
  generalize Reader.packageHeader cursor = result, Reader.packageHeader other = result'
    at hheader hlt
  cases hheader with
  | @ok name name' next next' ha hnext hl =>
    obtain rfl : name' = name := ha
    exact .alike rfl rfl (fun _ => rfl) hnext hl (fun _ => hlt _ _ rfl) rfl
  | error he hnext hl =>
    exact .alike rfl rfl (fun htail => congrArg some (he htail)) hnext hl (by simp) rfl
  | cut htail he => exact .cut htail rfl he

lemma ofClass_corresponds (scopes : Scopes) (h : cursor.Alike tail other) :
    Corresponds tail cursor (ofClass scopes cursor) (ofClass scopes other) := by
  have hheader := ((elsewhere ht).classHeader h).corresponds fun _ _ => unplaced_of_headed
  have hlt (opened : String × Location) (next : Cursor)
      (hread : Reader.classHeader cursor = .ok opened next) :
      next.rest.length < cursor.rest.length :=
    (walking.classHeader.past hread).length_lt (nil_notMem_mul (nil_notMem_mul nil_notMem_one))
  unfold ofClass
  generalize Reader.classHeader cursor = result, Reader.classHeader other = result' at hheader hlt
  cases hheader with
  | error he hnext hl =>
    exact .alike rfl rfl (fun htail => congrArg some (he htail)) hnext hl (by simp) rfl
  | cut htail he => exact .cut htail rfl he
  | @ok opened opened' next next' ha hnext hl =>
    obtain ⟨name, place⟩ := opened
    obtain ⟨name', place'⟩ := opened'
    obtain rfl : name' = name := (Prod.mk.inj ha).1
    have hannotations := ((elsewhere ht).annotations hnext).corresponds
      fun _ _ => unplaced_of_uses
    dsimp only
    generalize Reader.annotations next = result, Reader.annotations next' = result' at hannotations
    cases hannotations with
    | error he hlast hle =>
      exact .alike rfl rfl (fun htail => congrArg some (he htail)) hlast (hle.trans hl)
        (by simp) rfl
    | cut htail he => exact .cut htail rfl he
    | ok ha hlast hle =>
      exact .alike (congrArg (Index.of · []) (Subject.unplaced_entry _ _ ha)) rfl
        (fun _ => rfl) hlast
        (hle.trans hl) (fun _ => hle.trans_lt (hlt _ _ rfl)) rfl

lemma declaration_corresponds (scopes : Scopes) (h : cursor.Alike tail other) :
    Corresponds tail cursor (declaration scopes cursor) (declaration scopes other) := by
  have hread := ((elsewhere ht).declaration scopes.packageName h).corresponds
    fun _ _ => unplaced_of_declared
  have hlt (declared : Declaration) (next : Cursor)
      (hread : Reader.declaration scopes.packageName cursor = .ok declared next) :
      next.rest.length < cursor.rest.length :=
    ((walking.declaration _).past hread).length_lt
      (nil_notMem_mul (nil_notMem_mul (nil_notMem_mul (nil_notMem_mul (nil_notMem_mul
        nil_notMem_one)))))
  unfold declaration
  generalize Reader.declaration scopes.packageName cursor = result,
    Reader.declaration scopes.packageName other = result' at hread hlt
  cases hread with
  | ok ha hnext hl =>
    exact .alike (congrArg (Index.of [] [·]) ha) rfl (fun _ => rfl) hnext hl
      (fun _ => hlt _ _ rfl) rfl
  | error he hnext hl =>
    exact .alike rfl rfl (fun htail => congrArg some (he htail)) hnext hl (by simp) rfl
  | cut htail he => exact .cut htail rfl he

omit ht in
lemma ofSections_corresponds (scopes : Scopes) {read read' : Section}
    (h : read.Corresponds tail start read')
    (hprogress : read.failure = none → read.cursor.rest.length < start.rest.length) :
    Corresponds tail start (ofSections scopes read) (ofSections scopes read') := by
  by_cases hcut : ∀ error ∈ read.failure, tail ≠ [] → error.missesElementName = false
  · have hkept := h.kept_eq hcut
    cases h with
    | alike hcomplete hheld hfailure herror hcursor hlength =>
      exact .alike (congrArg (Index.of · []) hkept) hfailure herror hcursor hlength hprogress rfl
    | cut htail hfailure herror => exact .cut htail hfailure herror
  · simp only [not_forall, Bool.not_eq_false] at hcut
    obtain ⟨error, hfailure, htail, herror⟩ := hcut
    exact .cut htail hfailure herror

lemma skipped_corresponds (scopes : Scopes) (h : cursor.Alike tail other) (hn : cursor.rest ≠ []) :
    Corresponds tail cursor (skipped scopes cursor) (skipped scopes other) := by
  have hlt := Cursor.length_forward_lt hn
  have hother := h.length_eq
  have hskip : (cursor.forward.skipToBlock cursor.rest.length).Alike tail
      (other.forward.skipToBlock other.rest.length) :=
    (h.forward hn).skipToBlock ht (.inr ⟨hlt.le, by omega⟩)
  have hle := cursor.forward.length_skipToBlock_le cursor.rest.length
  exact .alike rfl rfl (fun _ => rfl) hskip (hle.trans hlt.le) (fun _ => hle.trans_lt hlt) rfl

omit ht in
lemma misplaced_corresponds (expected : String) (scopes : Scopes) (h : cursor.Alike tail other) :
    Corresponds tail cursor (misplaced expected scopes cursor) (misplaced expected scopes other) :=
  .alike rfl rfl (fun htail => congrArg some ((htail ▸ h).unexpected_eq expected)) h le_rfl
    nofun rfl

lemma member_corresponds {read : String → String → Cursor → Section}
    (hread : ∀ owner package, (read owner package cursor).Corresponds tail cursor
      (read owner package other))
    (hprogress : ∀ owner package, (read owner package cursor).failure = none →
      (read owner package cursor).cursor.rest.length < cursor.rest.length)
    (scopes : Scopes) (h : cursor.Alike tail other) (hn : cursor.rest ≠ []) :
    Corresponds tail cursor (member read scopes cursor) (member read scopes other) := by
  unfold member
  cases scopes.owner with
  | known owner => exact ofSections_corresponds scopes (hread _ _) (hprogress _ _)
  | malformed => exact skipped_corresponds ht scopes h hn
  | missing => exact misplaced_corresponds _ scopes h

/-- One block. -/
lemma read_corresponds (scopes : Scopes) (h : cursor.Alike tail other) (hn : cursor.rest ≠ []) :
    Corresponds tail cursor (read scopes cursor) (read scopes other) := by
  unfold read
  rw [h.kind?_eq hn]
  split
  · exact package_corresponds ht h hn
  · split
    · exact skipped_corresponds ht scopes h hn
    · exact ofClass_corresponds ht scopes h
  · split
    · exact skipped_corresponds ht scopes h hn
    · exact declaration_corresponds ht scopes h
  · exact member_corresponds ht (fun _ _ => Section.method_corresponds ht _ _ h)
      (fun _ _ => Section.length_lt_of_method) scopes h hn
  · exact member_corresponds ht (fun _ _ => Section.field_corresponds ht _ _ h)
      (fun _ _ => Section.length_lt_of_field) scopes h hn
  · exact misplaced_corresponds _ scopes h

lemma resume_alike {block block' : Block} (h : cursor.Alike tail other) (hn : cursor.rest ≠ [])
    (hfailure : block'.failure.isSome = block.failure.isSome)
    (hcursor : block.cursor.Alike tail block'.cursor) :
    (block.resume cursor).Alike tail (block'.resume other) := by
  have hnone : block'.failure.isNone = block.failure.isNone := by
    rw [← Option.not_isSome, ← Option.not_isSome, hfailure]
  have hlength : block'.cursor.rest.length = other.rest.length ↔
      block.cursor.rest.length = cursor.rest.length := by
    rw [h.length_eq, hcursor.length_eq]
    omega
  unfold resume
  simp only [hnone, hlength]
  split
  · exact hcursor
  · refine Cursor.Alike.skipToBlock ht ?_ (.inl rfl)
    split
    · rename_i hstill
      refine hcursor.forward fun hnil => hn (List.length_eq_zero_iff.1 ?_)
      rw [← hstill, hnil]
      rfl
    · exact hcursor

omit ht in
lemma length_resume_lt (scopes : Scopes) (hn : cursor.rest ≠ []) :
    ((read scopes cursor).resume cursor).rest.length < cursor.rest.length := by
  have hread := read_corresponds opensPackage_nil scopes cursor.alike_refl hn
  generalize read scopes cursor = block at hread
  cases hread with
  | cut htail => contradiction
  | alike _ _ _ _ hlength hprogress =>
    unfold resume
    split
    · rename_i hfailure
      exact hprogress (Option.isNone_iff_eq_none.1 hfailure)
    · refine (Cursor.length_skipToBlock_le _ _).trans_lt ?_
      split
      · rename_i hstill
        have hne : block.cursor.rest ≠ [] := fun hnil => hn (List.length_eq_zero_iff.1 (by
          rw [← hstill, hnil]
          rfl))
        exact hstill ▸ Cursor.length_forward_lt hne
      · rename_i hmoved
        exact lt_of_le_of_ne hlength hmoved

end Block

/-! ### Rounds of the parser -/

namespace Parsed

lemma append_assoc (first second third : Parsed) :
    first ++ second ++ third = first ++ (second ++ third) :=
  congrArg₂ mk (Index.append_assoc _ _ _) (List.append_assoc _ _ _)

lemma empty_append (parsed : Parsed) : ({} : Parsed) ++ parsed = parsed :=
  congrArg₂ mk (Index.empty_append _) (List.nil_append _)

lemma append_empty (parsed : Parsed) : parsed ++ ({} : Parsed) = parsed :=
  congrArg₂ mk (Index.append_empty _) (List.append_nil _)

end Parsed

lemma Block.index_outcome (source : List Char) (block : Block) :
    (block.outcome source).index = block.parsed.index := by
  change block.parsed.index ++ (block.failure.elim {} _ : Parsed).index = _
  cases block.failure <;>
    exact Index.append_empty _

lemma Block.mem_diagnostics_outcome {source : List Char} {block : Block} {error : SyntaxError}
    (h : block.failure = some error) :
    .ofSyntaxError source error ∈ (block.outcome source).diagnostics := by
  refine List.mem_append_right _ ?_
  rw [h]
  exact List.mem_singleton_self _

lemma Block.diagnostics_read (scopes : Scopes) (cursor : Cursor) :
    (read scopes cursor).parsed.diagnostics = [] := by
  have hmember : ∀ member : String → String → Cursor → Section,
      (Block.member member scopes cursor).parsed.diagnostics = [] := by
    intro member
    unfold Block.member
    split <;> rfl
  unfold read
  split
  · unfold package
    split <;> rfl
  · split
    · rfl
    · unfold ofClass
      split
      · rfl
      · split <;> rfl
  · split
    · rfl
    · unfold declaration
      split <;> rfl
  · exact hmember _
  · exact hmember _
  · rfl

lemma Block.diagnostics_outcome (source : List Char) (scopes : Scopes) (cursor : Cursor) :
    ((read scopes cursor).outcome source).diagnostics =
      (read scopes cursor).failure.toList.map (.ofSyntaxError source) := by
  change (read scopes cursor).parsed.diagnostics ++ (Option.elim _ _ _ : Parsed).diagnostics = _
  rw [diagnostics_read, List.nil_append]
  cases (read scopes cursor).failure <;> rfl

lemma parseBlocks_of_ne_nil (source : List Char) (scopes : Scopes) {c : Cursor}
    (hn : c.rest ≠ []) :
    parseBlocks source scopes c =
      (Block.read scopes c).outcome source ++
        parseBlocks source (Block.read scopes c).scopes ((Block.read scopes c).resume c) := by
  rw [parseBlocks, if_neg (by simpa using hn)]
  simp only [Block.length_resume_lt scopes hn, if_true]

lemma parseBlocks_of_nil (source : List Char) (scopes : Scopes) {c : Cursor}
    (hn : c.rest = []) : parseBlocks source scopes c = {} := by
  rw [parseBlocks, hn]
  rfl

end ExternalAnnotations
