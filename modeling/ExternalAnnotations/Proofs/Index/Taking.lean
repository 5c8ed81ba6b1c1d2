import ExternalAnnotations.Proofs.Index.ReaderRelation
import ExternalAnnotations.Proofs.Index.Reading

/-!
# What names and descriptors take

Which tokens make up the name of an element type, or a descriptor, depends on how they are spelled.
So for these it is not enough to know the language in which the tokens are: what was read says what
they are.
-/

namespace ExternalAnnotations

open Production
open scoped Computability

variable {cursor : Cursor}

lemma Reader.pieces_of_manyWhile {α : Type} {more : Cursor → Bool} {item : Reader α}
    {cursor last : Cursor} {items : List α} (P : α → List Token → Prop)
    (h : ∀ cursor : Cursor, more cursor = true → ∀ a next, item cursor = .ok a next →
      ∃ taken, P a taken ∧ cursor.rest = taken ++ next.rest)
    (hread : Reader.manyWhile more item cursor = .ok items last) :
    ∃ pieces, List.Forall₂ P items pieces ∧ cursor.rest = pieces.flatten ++ last.rest := by
  induction hlength : cursor.rest.length using Nat.strong_induction_on
    generalizing cursor items with
  | _ length ih =>
  subst hlength
  rw [Reader.manyWhile] at hread
  split at hread
  · rename_i hmore
    split at hread
    · contradiction
    · rename_i a next hitem
      obtain ⟨taken, htaken, hrest⟩ := h cursor hmore a next hitem
      split at hread
      · rename_i hshorter
        split at hread
        · contradiction
        · rename_i others last' hothers
          obtain ⟨rfl, rfl⟩ := EStateM.Result.ok.inj hread
          obtain ⟨pieces, hpieces, hrest'⟩ := ih _ hshorter hothers rfl
          refine ⟨taken :: pieces, .cons htaken hpieces, ?_⟩
          rw [hrest, hrest', List.flatten_cons, List.append_assoc]
      · obtain ⟨rfl, rfl⟩ := EStateM.Result.ok.inj hread
        exact ⟨[taken], .cons htaken .nil, by rw [hrest, List.flatten_singleton]⟩
  · obtain ⟨rfl, rfl⟩ := EStateM.Result.ok.inj hread
    exact ⟨[], .nil, rfl⟩

lemma of_descriptorParts {last : Token} {rest parts : List Token} {next : Cursor}
    (h : Reader.descriptorParts last rest = .ok parts next) :
    rest = parts ++ next.rest ∧ (∀ part ∈ parts, part.kind.fitsDescriptor = true) ∧
      (last :: parts).IsChain fun last token => token.start.offset = last.finish.offset := by
  induction rest generalizing last parts with
  | nil => contradiction
  | cons token rest ih =>
    rw [Reader.descriptorParts] at h
    split at h
    · obtain ⟨rfl, rfl⟩ := EStateM.Result.ok.inj h
      exact ⟨rfl, by simp, .singleton _⟩
    · split at h
      · contradiction
      · rename_i hfits
        split at h
        · rename_i parts' next' hparts
          obtain ⟨rfl, rfl⟩ := EStateM.Result.ok.inj h
          obtain ⟨hrest, hall, hchain⟩ := ih hparts
          simp only [Bool.or_eq_true, Bool.not_eq_true', decide_eq_true_eq, not_or,
            Bool.not_eq_false, not_not] at hfits
          refine ⟨by rw [hrest, List.cons_append], List.forall_mem_cons.2 ⟨hfits.1, hall⟩, ?_⟩
          exact List.isChain_cons_cons.2 ⟨hfits.2, hchain⟩
        · contradiction

/-- A dot and the part of a name after it. -/
def IsPart (part : String) (taken : List Token) : Prop :=
  ∃ dot token : Token,
    taken = [dot, token] ∧ dot.kind = .dot ∧ token.kind.isName = true ∧ token.lexeme = part

lemma flatten_of_parts {parts : List String} {pieces : List (List Token)}
    (h : List.Forall₂ IsPart parts pieces) :
    pieces.flatten ∈ (word .dot * name)∗ ∧
      (pieces.flatten.filter (·.kind.isName)).map (·.lexeme) = parts := by
  induction h with
  | nil => exact ⟨Language.nil_mem_kstar _, rfl⟩
  | cons hpart _ ih =>
    obtain ⟨dot, token, rfl, hdot, hname, rfl⟩ := hpart
    have hpiece : [dot, token] ∈ word .dot * name :=
      Language.append_mem_mul (a := [dot]) (b := [token]) ⟨dot, hdot, rfl⟩ ⟨token, hname, rfl⟩
    have hstar : word .dot * name * (word .dot * name)∗ ≤ (word .dot * name)∗ := mul_kstar_le_kstar
    refine ⟨hstar (Language.append_mem_mul hpiece ih.1), ?_⟩
    rw [List.flatten_cons, List.filter_append, List.map_append, ih.2, List.filter_cons, hdot,
      List.filter_cons, if_neg (by decide), if_pos hname]
    rfl

lemma joinedNames_of_qualifiedName {expected text : String} {next : Cursor}
    (h : Reader.qualifiedName expected cursor = .ok text next) :
    ∃ taken ∈ qualifiedName, cursor.rest = taken ++ next.rest ∧ joinedNames taken = text := by
  obtain ⟨first, middle, hfirst, h⟩ := Reader.ok_of_bind h
  obtain ⟨token, middle', htoken, hname⟩ := Reader.ok_of_bind hfirst
  obtain ⟨rfl, rfl⟩ := EStateM.Result.ok.inj hname
  obtain ⟨hkind, hrest⟩ := Reader.rest_of_token htoken
  obtain ⟨others, last, hothers, h⟩ := Reader.ok_of_bind h
  obtain ⟨rfl, rfl⟩ := EStateM.Result.ok.inj h
  have hpart : ∀ cursor : Cursor, Reader.continuesName cursor = true → ∀ part next,
      (do Reader.forward; Reader.name expected : Reader String) cursor = .ok part next →
        ∃ taken, IsPart part taken ∧ cursor.rest = taken ++ next.rest := by
    intro cursor hmore part next hread
    rw [Reader.continuesName, Bool.and_eq_true] at hmore
    obtain ⟨_, middle, hforward, hread⟩ := Reader.ok_of_bind hread
    obtain ⟨token, _, htoken, hname⟩ := Reader.ok_of_bind hread
    obtain ⟨rfl, rfl⟩ := EStateM.Result.ok.inj hname
    obtain ⟨-, rfl⟩ := EStateM.Result.ok.inj hforward
    obtain ⟨_, ⟨dot, hdot, rfl⟩, hrest⟩ := (Cursor.Past.of_isAt hmore.1).taken
    obtain ⟨hkind, hrest'⟩ := Reader.rest_of_token htoken
    refine ⟨[dot, token], ⟨dot, token, rfl, hdot, hkind, rfl⟩, ?_⟩
    rw [hrest, hrest']
    rfl
  obtain ⟨pieces, hpieces, hrest'⟩ := Reader.pieces_of_manyWhile IsPart hpart hothers
  obtain ⟨hmem, hparts⟩ := flatten_of_parts hpieces
  have hname : [token] ∈ name := ⟨token, hkind, rfl⟩
  refine ⟨token :: pieces.flatten, Language.append_mem_mul hname hmem,
    by rw [hrest, hrest', List.cons_append], ?_⟩
  have hkind : token.kind.isName = true := hkind
  rw [joinedNames, List.filter_cons, if_pos hkind, List.map_cons, hparts]
  exact (Reader.Reads.foldl_parts _ _).symm

lemma mem_typeNames_of_namedElementType? {name : String} {type : ElementType}
    (h : Reader.namedElementType? name = some type) :
    name ∈ Dialect.typeNames ++ ["java.lang.String", "java.lang.Class"] := by
  unfold Reader.namedElementType? at h
  split at h
  · rename_i hname
    rw [Bool.or_eq_true, decide_eq_true_eq, decide_eq_true_eq] at hname
    rcases hname with rfl | rfl <;> decide
  · split at h
    · rename_i hname
      rw [Bool.or_eq_true, decide_eq_true_eq, decide_eq_true_eq] at hname
      rcases hname with rfl | rfl <;> decide
    · obtain ⟨p, hp, -⟩ := Option.map_eq_some_iff.1 h
      unfold Primitive.ofKeyword? at hp
      have hkeyword := List.find?_some hp
      simp only [beq_iff_eq] at hkeyword
      rw [← hkeyword]
      cases p <;> decide

end ExternalAnnotations
