import ExternalAnnotations.Signature.Descriptor
import ExternalAnnotations.Proofs.Text.Segments

/-!
# Descriptors and the types they stand for

Reading a descriptor accepts exactly what writing one gives. A type `Encodable` if it has a
descriptor that can be read: what is read is encodable, and its descriptor is the text.
-/

namespace ExternalAnnotations

/-! ### Names of classes -/

/-- A class name: parts with dots between them, none of them empty, without blank characters and
without the signs of descriptors. -/
structure IsClassName (name : List Char) : Prop where
  parts : [] ∉ segments (· == '.') name
  chars : ∀ c ∈ name, isBlank c = false ∧ c ∉ [';', '/', '[', '(', ')']

/-- The separator of packages in class files for the one in binary names. -/
def slashed (c : Char) : Char := if c = '.' then '/' else c

/-- The separator of packages in binary names for the one in class files. -/
def unslashed (c : Char) : Char := if c = '/' then '.' else c

lemma unslashed_slashed {c : Char} (h : c ≠ '/') : unslashed (slashed c) = c := by
  unfold slashed unslashed
  split <;> simp_all

lemma slashed_unslashed {c : Char} (h : c ≠ '.') : slashed (unslashed c) = c := by
  unfold slashed unslashed
  split <;> simp_all

lemma map_map_of_inverse {f g : Char → Char} {text : List Char}
    (h : ∀ c ∈ text, g (f c) = c) : (text.map f).map g = text := by
  rw [List.map_map]
  exact (List.map_congr_left h).trans text.map_id

lemma segments_map {p q : Char → Bool} {f : Char → Char} {text : List Char}
    (h : ∀ c ∈ text, p (f c) = q c) :
    segments p (text.map f) = (segments q text).map (List.map f) := by
  induction text with
  | nil => rfl
  | cons c text ih =>
    obtain ⟨hc, htext⟩ := List.forall_mem_cons.1 h
    rw [List.map_cons, segments, ih htext, segments, hc]
    cases hs : segments q text with
    | nil => exact absurd hs (segments_ne_nil q text)
    | cons first others =>
      simp only [List.map_cons]
      split <;> rfl

lemma nil_mem_segments_map {p q : Char → Bool} {f : Char → Char} {text : List Char}
    (h : ∀ c ∈ text, p (f c) = q c) :
    [] ∈ segments p (text.map f) ↔ [] ∈ segments q text := by
  rw [segments_map h, List.mem_map]
  constructor
  · rintro ⟨part, hpart, hempty⟩
    rwa [List.map_eq_nil_iff.1 hempty] at hpart
  · intro hpart
    exact ⟨[], hpart, rfl⟩

lemma endsClassName_eq_false {c : Char} :
    ErasedType.endsClassName c = false ↔
      isBlank c = false ∧ c ∉ [';', '.', '[', '(', ')'] := by
  simp only [ErasedType.endsClassName, Bool.or_eq_false_iff, beq_eq_false_iff_ne, List.mem_cons,
    List.not_mem_nil, or_false, not_or]
  tauto

namespace IsClassName

lemma map_unslashed {raw : List Char} (hchars : ∀ c ∈ raw, ErasedType.endsClassName c = false)
    (hparts : [] ∉ segments (· == '/') raw) : IsClassName (raw.map unslashed) where
  parts := by
    have hsame : ∀ c ∈ raw, (unslashed c == '.') = (c == '/') := by
      intro c hc
      have hsigns := (endsClassName_eq_false.1 (hchars c hc)).2
      have hdot : c ≠ '.' := by
        rintro rfl
        exact hsigns (by decide)
      unfold unslashed
      split <;> simp_all
    rwa [nil_mem_segments_map hsame]
  chars := by
    intro c hc
    obtain ⟨original, horiginal, rfl⟩ := List.mem_map.1 hc
    obtain ⟨hblank, hsigns⟩ := endsClassName_eq_false.1 (hchars _ horiginal)
    unfold unslashed
    split
    · exact ⟨by decide, by decide⟩
    · simp_all

variable {name : List Char}

lemma endsClassName_slashed (hname : IsClassName name) :
    ∀ c ∈ name.map slashed, ErasedType.endsClassName c = false := by
  intro c hc
  obtain ⟨original, horiginal, rfl⟩ := List.mem_map.1 hc
  obtain ⟨hblank, hsigns⟩ := hname.chars _ horiginal
  rw [endsClassName_eq_false]
  unfold slashed
  split
  · exact ⟨by decide, by decide⟩
  · simp_all

lemma nil_notMem_segments_slashed (hname : IsClassName name) :
    [] ∉ segments (· == '/') (name.map slashed) := by
  have hsame : ∀ c ∈ name, (slashed c == '/') = (c == '.') := by
    intro c hc
    have hslash : c ≠ '/' := by
      have hsigns := (hname.chars c hc).2
      rintro rfl
      exact hsigns (by decide)
    unfold slashed
    split <;> simp_all
  rw [nil_mem_segments_map hsame]
  exact hname.parts

lemma map_unslashed_map_slashed (hname : IsClassName name) :
    (name.map slashed).map unslashed = name := by
  apply map_map_of_inverse
  intro c hc
  apply unslashed_slashed
  have hsigns := (hname.chars c hc).2
  rintro rfl
  exact hsigns (by decide)

end IsClassName

namespace ErasedType

/-! ### One type -/

lemma slashed_unslashed_of_raw {raw : List Char}
    (hchars : ∀ c ∈ raw, endsClassName c = false) : (raw.map unslashed).map slashed = raw := by
  apply map_map_of_inverse
  intro c hc
  apply slashed_unslashed
  have hsigns := (endsClassName_eq_false.1 (hchars c hc)).2
  rintro rfl
  exact hsigns (by decide)

lemma readClassName_eq_ok_iff {text rest : List Char} {name : String} :
    readClassName text = .ok (name, rest) ↔
      IsClassName name.toList ∧ text = name.toList.map slashed ++ ';' :: rest := by
  constructor
  · intro h
    unfold readClassName at h
    have hsplit := List.takeWhile_append_dropWhile (p := (!endsClassName ·)) (l := text)
    have hchars : ∀ c ∈ text.takeWhile (!endsClassName ·), endsClassName c = false := by
      intro c hc
      simpa using List.all_eq_true.1 (List.all_takeWhile (p := (!endsClassName ·)) (l := text)) c hc
    split at h
    · rename_i rest' hrest
      dsimp only at h
      split at h
      · contradiction
      · rename_i hparts
        obtain ⟨rfl, rfl⟩ := Prod.mk.inj (Except.ok.inj h)
        have hnil : [] ∉ segments (· == '/') (text.takeWhile (!endsClassName ·)) := by
          intro hmem
          exact hparts (List.any_eq_true.2 ⟨[], hmem, rfl⟩)
        rw [String.toList_ofList]
        refine ⟨IsClassName.map_unslashed hchars hnil, ?_⟩
        have hraw := slashed_unslashed_of_raw hchars
        unfold unslashed at hraw
        rw [hraw, ← hrest, hsplit]
    · contradiction
  · rintro ⟨hname, rfl⟩
    have hchars : ∀ c ∈ name.toList.map slashed, (!endsClassName c) = true := by
      intro c hc
      rw [hname.endsClassName_slashed c hc]
      rfl
    have hends : endsClassName ';' = true := by decide
    have htake : (name.toList.map slashed ++ ';' :: rest).takeWhile (!endsClassName ·) =
        name.toList.map slashed := by
      rw [List.takeWhile_append_of_pos hchars]
      simp [hends]
    have hdrop : (name.toList.map slashed ++ ';' :: rest).dropWhile (!endsClassName ·) =
        ';' :: rest := by
      rw [List.dropWhile_append_of_pos hchars]
      simp [hends]
    have hparts : (segments (· == '/') (name.toList.map slashed)).any List.isEmpty = false := by
      rw [List.any_eq_false]
      intro part hpart hempty
      rw [List.isEmpty_iff.1 hempty] at hpart
      exact hname.nil_notMem_segments_slashed hpart
    have hback := hname.map_unslashed_map_slashed
    unfold unslashed at hback
    unfold readClassName
    simp only [hdrop, htake, hparts, Bool.false_eq_true, if_false, hback, String.ofList_toList]

/-- Whether a type can stand where `void` cannot, if its dimensions are not counted. -/
def WellFormed : ErasedType → Prop
  | void => False
  | primitive _ => True
  | named name => IsClassName name.toList
  | array item => item.WellFormed

/-- A type with a descriptor that can be read. -/
structure Encodable (type : ErasedType) : Prop where
  wellFormed : type.WellFormed
  dimensions : type.innermost.2 ≤ maxDimensions

lemma arrayOf_innermost (type : ErasedType) : arrayOf type.innermost.2 type.innermost.1 = type := by
  induction type with
  | array item ih => rw [innermost, arrayOf, ih]
  | _ => rfl

lemma innermost_innermost (type : ErasedType) : type.innermost.1.innermost.2 = 0 := by
  induction type with
  | array item ih => exact ih
  | _ => rfl

lemma wellFormed_innermost (type : ErasedType) : type.innermost.1.WellFormed ↔ type.WellFormed := by
  induction type with
  | array item ih => exact ih
  | _ => exact Iff.rfl

lemma descriptor_arrayOf (dimensions : Nat) (type : ErasedType) :
    (arrayOf dimensions type).descriptor = List.replicate dimensions '[' ++ type.descriptor := by
  induction dimensions with
  | zero => rfl
  | succ n ih => rw [arrayOf, descriptor, ih, List.replicate_succ, List.cons_append]

lemma innermost_arrayOf (dimensions : Nat) (type : ErasedType) :
    (arrayOf dimensions type).innermost = (type.innermost.1, type.innermost.2 + dimensions) := by
  induction dimensions with
  | zero => rfl
  | succ n ih => rw [arrayOf, innermost, ih, Nat.add_assoc]

lemma ofCode?_eq_some_iff {c : Char} {p : Primitive} :
    Primitive.ofCode? c = some p ↔ c = p.code := by
  constructor
  · intro h
    have hcode := List.find?_some h
    exact (beq_iff_eq.1 hcode).symm
  · rintro rfl
    exact Primitive.ofCode?_code p

lemma code_notMem (p : Primitive) : p.code ∉ ['L', 'V', '[', ')'] := by
  cases p <;> decide

lemma readBase_eq_ok_iff {text rest : List Char} {type : ErasedType} :
    readBase text = .ok (type, rest) ↔
      type.WellFormed ∧ type.innermost.2 = 0 ∧ text = type.descriptor ++ rest := by
  constructor
  · intro h
    cases text with
    | nil => contradiction
    | cons c text =>
      rw [readBase] at h
      split at h
      · rename_i hc
        subst hc
        cases hread : readClassName text with
        | error fault =>
          rw [hread] at h
          contradiction
        | ok result =>
          rw [hread] at h
          obtain ⟨rfl, rfl⟩ := Prod.mk.inj (Except.ok.inj h)
          obtain ⟨hname, htext⟩ := readClassName_eq_ok_iff.1 hread
          refine ⟨hname, rfl, ?_⟩
          rw [htext, descriptor]
          simp [slashed]
      · split at h
        · contradiction
        · split at h
          · rename_i p hp
            obtain ⟨rfl, rfl⟩ := Prod.mk.inj (Except.ok.inj h)
            exact ⟨trivial, rfl, by rw [ofCode?_eq_some_iff.1 hp]; rfl⟩
          · contradiction
  · rintro ⟨hformed, hdimensions, rfl⟩
    cases type with
    | void => exact hformed.elim
    | primitive p =>
      have hcode := code_notMem p
      simp only [List.mem_cons, not_or] at hcode
      rw [descriptor, List.singleton_append, readBase, if_neg hcode.1, if_neg hcode.2.1,
        Primitive.ofCode?_code]
    | named name =>
      have hread : readClassName (name.toList.map slashed ++ ';' :: rest) = .ok (name, rest) :=
        readClassName_eq_ok_iff.2 ⟨hformed, rfl⟩
      have htext : (named name).descriptor ++ rest =
          'L' :: (name.toList.map slashed ++ ';' :: rest) := by
        simp [descriptor, slashed]
      rw [htext, readBase, if_pos rfl, hread]
      rfl
    | array item => exact absurd hdimensions (Nat.succ_ne_zero _)

lemma head?_descriptor_ne_bracket {type : ErasedType} (rest : List Char)
    (h : type.innermost.2 = 0) : (type.descriptor ++ rest).head? ≠ some '[' := by
  cases type with
  | void => simp [descriptor]
  | primitive p =>
    have hcode := code_notMem p
    intro heq
    rw [Option.some.inj heq] at hcode
    exact hcode (by decide)
  | named name => simp [descriptor]
  | array item => exact absurd h (Nat.succ_ne_zero _)

lemma takeWhile_bracket_eq_replicate (text : List Char) :
    text.takeWhile (· == '[') = List.replicate (text.takeWhile (· == '[')).length '[' := by
  rw [List.eq_replicate_iff]
  refine ⟨rfl, ?_⟩
  intro c hc
  have hall := List.all_takeWhile (p := (· == '[')) (l := text)
  exact beq_iff_eq.1 (List.all_eq_true.1 hall c hc)

lemma span_brackets (dimensions : Nat) {text : List Char} (h : text.head? ≠ some '[') :
    (List.replicate dimensions '[' ++ text).takeWhile (· == '[') =
        List.replicate dimensions '[' ∧
      (List.replicate dimensions '[' ++ text).dropWhile (· == '[') = text := by
  have hall : ∀ c ∈ List.replicate dimensions '[', (c == '[') = true := by
    intro c hc
    rw [List.eq_of_mem_replicate hc]
    rfl
  rw [List.takeWhile_append_of_pos hall, List.dropWhile_append_of_pos hall]
  cases text with
  | nil => simp
  | cons c text =>
    have hc : (c == '[') = false := by
      rw [beq_eq_false_iff_ne]
      rintro rfl
      exact h rfl
    rw [List.takeWhile_cons, List.dropWhile_cons, hc]
    simp

theorem read_eq_ok_iff {text rest : List Char} {type : ErasedType} :
    read text = .ok (type, rest) ↔ type.Encodable ∧ text = type.descriptor ++ rest := by
  constructor
  · intro h
    unfold read at h
    dsimp only at h
    split at h
    · contradiction
    · rename_i hmax
      cases hbase : readBase (text.dropWhile (· == '[')) with
      | error fault =>
        rw [hbase] at h
        contradiction
      | ok result =>
        obtain ⟨base, rest'⟩ := result
        rw [hbase] at h
        obtain ⟨rfl, rfl⟩ := Prod.mk.inj (Except.ok.inj h)
        obtain ⟨hformed, hzero, hdrop⟩ := readBase_eq_ok_iff.1 hbase
        have hinnermost := innermost_arrayOf (text.takeWhile (· == '[')).length base
        refine ⟨⟨?_, ?_⟩, ?_⟩
        · rw [← wellFormed_innermost, hinnermost, wellFormed_innermost]
          exact hformed
        · rw [hinnermost, hzero, Nat.zero_add]
          exact Nat.le_of_not_lt hmax
        · rw [descriptor_arrayOf, ← takeWhile_bracket_eq_replicate, List.append_assoc, ← hdrop,
            List.takeWhile_append_dropWhile]
  · rintro ⟨⟨hformed, hmax⟩, rfl⟩
    have hbase : readBase (type.innermost.1.descriptor ++ rest) = .ok (type.innermost.1, rest) :=
      readBase_eq_ok_iff.2
        ⟨(wellFormed_innermost type).2 hformed, innermost_innermost type, rfl⟩
    have htext : type.descriptor ++ rest = List.replicate type.innermost.2 '[' ++
        (type.innermost.1.descriptor ++ rest) := by
      conv_lhs => rw [← arrayOf_innermost type]
      rw [descriptor_arrayOf, List.append_assoc]
    obtain ⟨htake, hdrop⟩ := span_brackets type.innermost.2
      (head?_descriptor_ne_bracket rest (innermost_innermost type))
    unfold read
    dsimp only
    rw [htext, htake, hdrop, List.length_replicate, if_neg (Nat.not_lt.2 hmax), hbase]
    exact congrArg (fun type => Except.ok (type, rest)) (arrayOf_innermost type)

lemma ofDescriptor_eq_ok_iff {text : String} {type : ErasedType} :
    ofDescriptor text = .ok type ↔
      type.Encodable ∧ text = String.ofList type.descriptor := by
  have hread : ofDescriptor text = .ok type ↔ read text.toList = .ok (type, []) := by
    unfold ofDescriptor
    by_cases hempty : text = ""
    · subst hempty
      rw [if_pos rfl]
      simp [read, readBase, maxDimensions, Except.map]
    · rw [if_neg hempty]
      split <;> simp_all
  rw [hread, read_eq_ok_iff, List.append_nil, ← String.toList_inj, String.toList_ofList]

end ErasedType

namespace MethodDescriptor

/-! ### Signatures -/

lemma head?_descriptor_of_encodable {type : ErasedType} (rest : List Char) (h : type.Encodable) :
    (type.descriptor ++ rest).head? ≠ some ')' ∧ (type.descriptor ++ rest).head? ≠ some 'V' := by
  cases type with
  | void => exact h.wellFormed.elim
  | primitive p =>
    have hcode := ErasedType.code_notMem p
    constructor <;>
    · intro heq
      rw [Option.some.inj heq] at hcode
      exact hcode (by decide)
  | named name => simp [ErasedType.descriptor]
  | array item => simp [ErasedType.descriptor]

lemma readParameters_cons {text rest : List Char} {type : ErasedType}
    (hends : text.head? ≠ some ')') (hread : ErasedType.read text = .ok (type, rest)) :
    readParameters text = (readParameters rest).map fun (types, rest) => (type :: types, rest) := by
  cases text with
  | nil => simp [ErasedType.read, ErasedType.readBase, maxDimensions, Except.map] at hread
  | cons c text =>
    rw [readParameters]
    · split
      · rename_i fault hfault
        rw [hread] at hfault
        contradiction
      · rename_i type' rest' hok
        rw [hread] at hok
        obtain ⟨rfl, rfl⟩ := Prod.mk.inj (Except.ok.inj hok)
        rfl
    · rintro rfl
      exact hends rfl

lemma of_readParameters {text rest : List Char} {parameters : List ErasedType}
    (h : readParameters text = .ok (parameters, rest)) :
    (∀ type ∈ parameters, type.Encodable) ∧
      text = parameters.flatMap ErasedType.descriptor ++ ')' :: rest := by
  induction text using readParameters.induct generalizing parameters with
  | case1 =>
    rw [readParameters] at h
    contradiction
  | case2 rest' =>
    rw [readParameters] at h
    obtain ⟨rfl, rfl⟩ := Prod.mk.inj (Except.ok.inj h)
    exact ⟨by simp, rfl⟩
  | case3 c text hends fault hread =>
    rw [readParameters] at h
    · split at h
      · contradiction
      · rename_i hok
        rw [hread] at hok
        contradiction
    · exact hends
  | case4 c text hends type rest' hread _ ih =>
    have hhead : (c :: text).head? ≠ some ')' := by
      intro heq
      exact hends (Option.some.inj heq)
    rw [readParameters_cons hhead hread] at h
    cases hrest : readParameters rest' with
    | error fault =>
      rw [hrest] at h
      contradiction
    | ok result =>
      obtain ⟨types, rest''⟩ := result
      rw [hrest] at h
      obtain ⟨rfl, rfl⟩ := Prod.mk.inj (Except.ok.inj h)
      obtain ⟨htypes, htext⟩ := ih hrest
      obtain ⟨htype, htext'⟩ := ErasedType.read_eq_ok_iff.1 hread
      refine ⟨List.forall_mem_cons.2 ⟨htype, htypes⟩, ?_⟩
      rw [htext', htext, List.flatMap_cons, List.append_assoc]

lemma readParameters_flatMap {parameters : List ErasedType} (rest : List Char)
    (h : ∀ type ∈ parameters, type.Encodable) :
    readParameters (parameters.flatMap ErasedType.descriptor ++ ')' :: rest) =
      .ok (parameters, rest) := by
  induction parameters with
  | nil =>
    rw [List.flatMap_nil, List.nil_append, readParameters]
  | cons type parameters ih =>
    obtain ⟨htype, hparameters⟩ := List.forall_mem_cons.1 h
    rw [List.flatMap_cons, List.append_assoc,
      readParameters_cons (head?_descriptor_of_encodable _ htype).1
        (ErasedType.read_eq_ok_iff.2 ⟨htype, rfl⟩), ih hparameters]
    rfl

lemma readResult_eq_ok_iff {text rest : List Char} {type : ErasedType} :
    readResult text = .ok (type, rest) ↔
      (type = .void ∨ type.Encodable) ∧ text = type.descriptor ++ rest := by
  by_cases hvoid : text.head? = some 'V'
  · obtain ⟨text', rfl⟩ : ∃ text', text = 'V' :: text' := by
      cases text with
      | nil => contradiction
      | cons c text' => exact ⟨text', by rw [Option.some.inj hvoid]⟩
    rw [readResult]
    constructor
    · intro h
      obtain ⟨rfl, rfl⟩ := Prod.mk.inj (Except.ok.inj h)
      exact ⟨.inl rfl, rfl⟩
    · rintro ⟨rfl | htype, htext⟩
      · rw [(List.cons.inj htext).2]
        rfl
      · rw [htext] at hvoid
        exact absurd hvoid (head?_descriptor_of_encodable rest htype).2
  · have hread : readResult text = ErasedType.read text := by
      rw [readResult]
      rintro rest rfl
      exact hvoid rfl
    rw [hread, ErasedType.read_eq_ok_iff]
    constructor
    · rintro ⟨htype, htext⟩
      exact ⟨.inr htype, htext⟩
    · rintro ⟨rfl | htype, htext⟩
      · rw [htext] at hvoid
        exact absurd rfl hvoid
      · exact ⟨htype, htext⟩

/-- A signature with a descriptor that can be read. -/
structure Encodable (d : MethodDescriptor) : Prop where
  parameters : ∀ type ∈ d.parameters, type.Encodable
  result : d.result = .void ∨ d.result.Encodable

lemma read_eq_ok_iff {text : List Char} {d : MethodDescriptor} :
    read text = .ok d ↔ d.Encodable ∧ text = d.encode := by
  constructor
  · intro h
    unfold read at h
    split at h
    · contradiction
    · rename_i text
      cases hparameters : readParameters text with
      | error fault =>
        rw [hparameters] at h
        contradiction
      | ok parameters =>
        obtain ⟨parameters, rest⟩ := parameters
        rw [hparameters] at h
        cases hresult : readResult rest with
        | error fault => simp [hresult, bind, Except.bind] at h
        | ok result =>
          obtain ⟨result, rest'⟩ := result
          simp only [hresult, bind, Except.bind] at h
          split at h
          · rename_i hempty
            rw [← Except.ok.inj h]
            obtain ⟨htypes, htext⟩ := of_readParameters hparameters
            obtain ⟨htype, hrest⟩ := readResult_eq_ok_iff.1 hresult
            rw [List.isEmpty_iff.1 hempty, List.append_nil] at hrest
            refine ⟨⟨htypes, htype⟩, ?_⟩
            rw [htext, hrest]
            rfl
          · contradiction
    · contradiction
  · rintro ⟨⟨htypes, htype⟩, rfl⟩
    have hparameters := readParameters_flatMap d.result.descriptor htypes
    have hresult : readResult d.result.descriptor = .ok (d.result, []) :=
      readResult_eq_ok_iff.2 ⟨htype, (List.append_nil _).symm⟩
    rw [encode, List.cons_append, read]
    simp only [hparameters, hresult, bind, Except.bind, List.isEmpty_nil, if_true]

lemma decode_eq_ok_iff {text : String} {d : MethodDescriptor} :
    decode text = .ok d ↔ d.Encodable ∧ text = String.ofList d.encode := by
  have hread : decode text = .ok d ↔ read text.toList = .ok d := by
    unfold decode
    cases read text.toList with
    | error fault => simp [Except.mapError]
    | ok d' => simp [Except.mapError]
  rw [hread, read_eq_ok_iff, ← String.toList_inj, String.toList_ofList]

end MethodDescriptor

/-- Reading and writing descriptors are inverse to each other, for signatures and for single types,
and no two texts stand for the same one. -/
theorem descriptor_codec :
    (∀ (text : String) (d : MethodDescriptor),
      MethodDescriptor.decode text = .ok d ↔ d.Encodable ∧ text = String.ofList d.encode) ∧
    (∀ (text : String) (type : ErasedType),
      ErasedType.ofDescriptor text = .ok type ↔
        type.Encodable ∧ text = String.ofList type.descriptor) ∧
    (∀ (text text' : String) (d : MethodDescriptor),
      MethodDescriptor.decode text = .ok d → MethodDescriptor.decode text' = .ok d →
        text = text') ∧
    ∀ (text text' : String) (type : ErasedType),
      ErasedType.ofDescriptor text = .ok type → ErasedType.ofDescriptor text' = .ok type →
        text = text' := by
  refine ⟨fun _ _ => MethodDescriptor.decode_eq_ok_iff,
    fun _ _ => ErasedType.ofDescriptor_eq_ok_iff, ?_, ?_⟩
  · intro text text' d h h'
    have htext := (MethodDescriptor.decode_eq_ok_iff.1 h).2
    have htext' := (MethodDescriptor.decode_eq_ok_iff.1 h').2
    rw [htext, htext']
  · intro text text' type h h'
    have htext := (ErasedType.ofDescriptor_eq_ok_iff.1 h).2
    have htext' := (ErasedType.ofDescriptor_eq_ok_iff.1 h').2
    rw [htext, htext']

end ExternalAnnotations
