import ExternalAnnotations.Proofs.Token.Lossless

/-!
# Tokens in order

Each token ends before the next one starts, also when those between them are left out. If it ends
where the next one starts, none was left out between them, since every token spells something.
-/

namespace ExternalAnnotations

lemma Token.start_le_finish (token : Token) : token.start.offset ≤ token.finish.offset := by
  rw [Token.finish, offset_advance]
  exact Nat.le_add_right _ _

namespace Contiguous

variable {place : Location} {before tokens : List Token} {token : Token}

lemma behind (h : Contiguous place (before ++ token :: tokens)) :
    Contiguous token.finish tokens := by
  induction before generalizing place with
  | nil => exact h.2
  | cons first before ih => exact ih h.2

lemma left (h : Contiguous place (before ++ tokens)) : Contiguous place before := by
  induction before generalizing place with
  | nil => trivial
  | cons first before ih => exact ⟨h.1, ih h.2⟩

lemma le_start (h : Contiguous place tokens) (hmem : token ∈ tokens) :
    place.offset ≤ token.start.offset := by
  obtain ⟨before, after, rfl⟩ := List.append_of_mem hmem
  rw [h.start_eq, offset_advance]
  exact Nat.le_add_right _ _

lemma pairwise (h : Contiguous place tokens) :
    tokens.Pairwise fun token later => token.finish.offset ≤ later.start.offset := by
  induction tokens generalizing place with
  | nil => exact .nil
  | cons token tokens ih => exact .cons (fun later hlater => h.2.le_start hlater) (ih h.2)

lemma nil_of_touching (h : Contiguous place (before ++ token :: tokens))
    (hlexemes : ∀ other ∈ before, other.lexeme ≠ "")
    (htouches : token.start.offset = place.offset) : before = [] := by
  cases before with
  | nil => rfl
  | cons first before =>
    have hfirst : first.start.offset = place.offset := congrArg _ h.1
    have hle : first.finish.offset ≤ token.start.offset :=
      h.2.le_start (List.mem_append_right _ List.mem_cons_self)
    have hempty : first.lexeme.utf8ByteSize = 0 := by
      rw [Token.finish, offset_advance, byteLength_toList] at hle
      omega
    exact absurd (String.utf8ByteSize_eq_zero_iff.1 hempty) (hlexemes first List.mem_cons_self)

/-- Tokens that touch one another, and are those that remain when others are left out, stand
together. -/
lemma exists_around_touching (keeps : Token → Bool) {first : Token} {others : List Token}
    (h : Contiguous place tokens) (hlexemes : ∀ token ∈ tokens, token.lexeme ≠ "")
    (hkept : tokens.filter keeps = first :: others)
    (htouch : (first :: others).IsChain fun last token => token.start.offset = last.finish.offset) :
    ∃ leading trailing, tokens = leading ++ (first :: others) ++ trailing ∧
      ∀ token ∈ leading ++ trailing, keeps token = false := by
  induction others generalizing first place tokens with
  | nil =>
    obtain ⟨leading, trailing, rfl, hleading, -, htrailing⟩ := List.filter_eq_cons_iff.1 hkept
    refine ⟨leading, trailing, by simp, fun token hmem => ?_⟩
    rcases List.mem_append.1 hmem with hmem | hmem
    · simpa using hleading token hmem
    · simpa using List.filter_eq_nil_iff.1 htrailing token hmem
  | cons second others ih =>
    obtain ⟨leading, after, rfl, hleading, -, hafter⟩ := List.filter_eq_cons_iff.1 hkept
    obtain ⟨hsecond, htouch⟩ := List.isChain_cons_cons.1 htouch
    have hbehind := h.behind
    have hlexemes' : ∀ token ∈ after, token.lexeme ≠ "" := fun token hmem =>
      hlexemes token (List.mem_append_right _ (List.mem_cons_of_mem _ hmem))
    obtain ⟨gap, trailing, rfl, hgap⟩ := ih hbehind hlexemes' hafter htouch
    rw [List.append_assoc, List.cons_append] at hbehind
    obtain rfl : gap = [] := hbehind.nil_of_touching
      (fun token hmem => hlexemes' token (by simp [hmem])) hsecond
    refine ⟨leading, trailing, by simp, fun token hmem => ?_⟩
    rcases List.mem_append.1 hmem with hmem | hmem
    · simpa using hleading token hmem
    · exact hgap token hmem

end Contiguous

lemma contiguous_tokens (source : String) : Contiguous .start (tokens source) :=
  Lexer.contiguous_tokensFrom .start source.toList

lemma start_offset_eq {source : String} {before after : List Token} {token : Token}
    (h : tokens source = before ++ token :: after) :
    token.start.offset = (spelled before).utf8ByteSize := by
  have hcontiguous : Contiguous .start (before ++ token :: after) := h ▸ contiguous_tokens source
  rw [hcontiguous.start_eq, offset_advance, byteLength_toList]
  exact Nat.zero_add _

lemma spelled_append (first second : List Token) :
    spelled (first ++ second) = spelled first ++ spelled second := by
  simp [spelled, String.join_append]

lemma extract_tokens {source : String} {before between after : List Token} {token later : Token}
    (h : tokens source = before ++ token :: (between ++ later :: after)) :
    source.toByteArray.extract token.finish.offset later.start.offset =
      (spelled between).toByteArray := by
  have hlater : tokens source = (before ++ [token] ++ between) ++ later :: after := by simp [h]
  have hfinish : token.finish.offset = (spelled (before ++ [token])).utf8ByteSize := by
    rw [Token.finish, offset_advance, start_offset_eq h, byteLength_toList, spelled_append,
      String.utf8ByteSize_append]
    simp [spelled]
  have hsource : source.toByteArray = (spelled (before ++ [token])).toByteArray ++
      ((spelled between).toByteArray ++ (spelled (later :: after)).toByteArray) := by
    rw [← String.toByteArray_append, ← String.toByteArray_append, ← spelled_append,
      ← spelled_append, ← List.append_assoc, ← hlater, spelled_tokens]
  rw [start_offset_eq hlater, spelled_append, String.utf8ByteSize_append, hfinish,
    ← String.size_toByteArray, ← String.size_toByteArray, hsource]
  exact extract_between _ _ _

lemma pairwise_significantTokens (source : String) :
    (significantTokens source).Pairwise fun token later =>
      token.finish.offset ≤ later.start.offset :=
  (contiguous_tokens source).pairwise.filter _

end ExternalAnnotations
