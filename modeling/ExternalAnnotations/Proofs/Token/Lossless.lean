import ExternalAnnotations.Proofs.Token.Seam

/-!
# Tokens lose nothing

The tokens of a text spell it from its start to its end, each one behind the one before it. So the
place of a token counts the bytes, lines and characters spelled before it, and the bytes from its
start to its end are those of its lexeme.
-/

namespace ExternalAnnotations

/-- The text that tokens spell. -/
def spelled (tokens : List Token) : String := String.join (tokens.map (·.lexeme))

/-- Each token starts where the one before it ends, and the first one at a given place. -/
def Contiguous : Location → List Token → Prop
  | _, [] => True
  | place, token :: tokens => token.start = place ∧ Contiguous token.finish tokens

variable {before after : List Token} {token : Token} {place : Location}

lemma toList_spelled_cons (token : Token) (tokens : List Token) :
    (spelled (token :: tokens)).toList = token.lexeme.toList ++ (spelled tokens).toList := by
  simp [spelled]

lemma spelled_split (before : List Token) (token : Token) (after : List Token) :
    spelled (before ++ token :: after) = spelled before ++ (token.lexeme ++ spelled after) := by
  simp [spelled, String.join_append]

/-! ### Counting -/

lemma byteLength_toList (text : String) : byteLength text.toList = text.utf8ByteSize := by
  conv_rhs => rw [← String.ofList_toList (s := text)]
  induction text.toList with
  | nil => rfl
  | cons c text ih =>
    rw [byteLength, ih, String.ofList_cons, String.utf8ByteSize_append,
      String.utf8ByteSize_singleton]

lemma extract_between (first bytes last : ByteArray) :
    (first ++ (bytes ++ last)).extract first.size (first.size + bytes.size) = bytes := by
  rw [ByteArray.extract_append, ByteArray.extract_eq_empty_iff.2 (by simp), Nat.sub_self,
    Nat.add_sub_cancel_left, ByteArray.extract_append_eq_left rfl, ByteArray.empty_append]

lemma column_advance (text : List Char) :
    (Location.start.advance text).column =
      (text.reverse.takeWhile (· ≠ '\n')).length + 1 := by
  induction text using List.reverseRecOn with
  | nil => rfl
  | append_singleton text c ih =>
    rw [Location.advance_append, Location.advance_cons, Location.advance_nil, Location.step,
      List.reverse_concat, List.takeWhile_cons]
    by_cases hc : c = '\n'
    · simp [hc]
    · simp [hc, ih]

/-! ### One token behind the other -/

namespace Contiguous

lemma start_eq (h : Contiguous place (before ++ token :: after)) :
    token.start = place.advance (spelled before).toList := by
  induction before generalizing place with
  | nil => exact h.1
  | cons first before ih =>
    rw [toList_spelled_cons, Location.advance_append, ← h.1]
    exact ih h.2

lemma finish_eq (h : Contiguous place (before ++ token :: after)) :
    token.finish =
      (after.head?.map (·.start)).getD
        (place.advance (spelled (before ++ token :: after)).toList) := by
  cases after with
  | nil =>
    rw [spelled_split, String.toList_append, Location.advance_append, ← h.start_eq]
    simp [Token.finish, spelled]
  | cons next after =>
    induction before generalizing place with
    | nil => exact h.2.1.symm
    | cons first before ih => exact ih h.2

end Contiguous

namespace Lexer

lemma contiguous_tokensFrom (place : Location) (text : List Char) :
    Contiguous place (tokensFrom place text) := by
  induction hlength : text.length using Nat.strong_induction_on generalizing place text with
  | _ length ih =>
    subst hlength
    by_cases hn : text = []
    · subst hn
      rw [tokensFrom]
      exact trivial
    · rw [tokensFrom_of_ne_nil hn]
      refine ⟨rfl, ?_⟩
      rw [Token.finish, String.toList_ofList]
      exact ih _ (length_drop_next_lt hn) _ _ rfl

lemma toList_spelled_tokensFrom (place : Location) (text : List Char) :
    (spelled (tokensFrom place text)).toList = text := by
  induction hlength : text.length using Nat.strong_induction_on generalizing place text with
  | _ length ih =>
    subst hlength
    by_cases hn : text = []
    · subst hn
      rw [tokensFrom]
      rfl
    · rw [tokensFrom_of_ne_nil hn, toList_spelled_cons, String.toList_ofList,
        ih _ (length_drop_next_lt hn) _ _ rfl, List.take_append_drop]

/-- Every token is the one at the start of what the tokens before it leave of the text. -/
lemma next_of_tokensFrom {text : List Char} (h : tokensFrom place text = before ++ token :: after) :
    ∃ rest, rest ≠ [] ∧ text = (spelled before).toList ++ rest ∧
      token.kind = (next rest).1 ∧ token.lexeme = String.ofList (rest.take (next rest).2) := by
  induction before generalizing place text with
  | nil =>
    have hn : text ≠ [] := by
      rintro rfl
      rw [tokensFrom] at h
      contradiction
    rw [tokensFrom_of_ne_nil hn] at h
    obtain ⟨rfl, -⟩ := List.cons.inj h
    exact ⟨text, hn, rfl, rfl, rfl⟩
  | cons first before ih =>
    have hn : text ≠ [] := by
      rintro rfl
      rw [tokensFrom] at h
      contradiction
    rw [tokensFrom_of_ne_nil hn] at h
    obtain ⟨rfl, htail⟩ := List.cons.inj h
    obtain ⟨rest, hrest, htext, htoken⟩ := ih htail
    refine ⟨rest, hrest, ?_, htoken⟩
    rw [toList_spelled_cons, String.toList_ofList, List.append_assoc, ← htext,
      List.take_append_drop]

lemma lexeme_ne_empty {text : List Char} (h : token ∈ tokensFrom place text) :
    token.lexeme ≠ "" := by
  obtain ⟨before, after, h⟩ := List.append_of_mem h
  obtain ⟨rest, hrest, -, -, hlexeme⟩ := next_of_tokensFrom h
  rw [hlexeme]
  simp [hrest, (next_pos hrest).ne']

end Lexer

lemma spelled_tokens (source : String) : spelled (tokens source) = source :=
  String.toList_injective (Lexer.toList_spelled_tokensFrom .start source.toList)

/-- **Tokens lose nothing.** The lexemes of the tokens of a text are not empty and are together
the text. The place of a token says how much text is before it, its end is the start of the next
token, and the bytes between the two are those of its lexeme. The significant tokens are those that
are neither layout nor comments. -/
theorem tokens_lossless (source : String) :
    (∀ token ∈ tokens source, token.lexeme ≠ "") ∧
    String.join ((tokens source).map (·.lexeme)) = source ∧
    (∀ before token after, tokens source = before ++ token :: after →
      let text := String.join (before.map (·.lexeme))
      token.start = Location.start.advance text.toList ∧
      token.start.offset = text.utf8ByteSize ∧
      String.Pos.Raw.IsValid source ⟨token.start.offset⟩ ∧
      token.start.line = text.toList.count '\n' + 1 ∧
      token.start.column = (text.toList.reverse.takeWhile (· ≠ '\n')).length + 1 ∧
      token.finish =
        (after.head?.map (·.start)).getD (Location.start.advance source.toList) ∧
      source.toByteArray.extract token.start.offset token.finish.offset =
        token.lexeme.toByteArray) ∧
    significantTokens source = (tokens source).filter fun token =>
      token.kind ∉ [.whitespace, .byteOrderMark, .lineComment, .blockComment] := by
  refine ⟨fun token => Lexer.lexeme_ne_empty, spelled_tokens source, ?_, ?_⟩
  · intro before token after htokens
    have hcontiguous : Contiguous .start (before ++ token :: after) :=
      htokens ▸ Lexer.contiguous_tokensFrom .start source.toList
    have hstart := hcontiguous.start_eq
    have hsource : source = spelled before ++ (token.lexeme ++ spelled after) := by
      rw [← spelled_split, ← htokens, spelled_tokens]
    have hoffset : token.start.offset = (spelled before).utf8ByteSize := by
      rw [hstart, offset_advance, byteLength_toList]
      exact Nat.zero_add _
    refine ⟨hstart, hoffset, ?_, ?_, ?_, ?_, ?_⟩
    · exact String.Pos.Raw.isValid_iff_exists_append.2 ⟨_, _, hsource, congrArg _ hoffset⟩
    · rw [hstart, line_advance]
      exact Nat.add_comm _ _
    · rw [hstart]
      exact column_advance _
    · rw [hcontiguous.finish_eq, ← htokens, spelled_tokens]
    · have hfinish : token.finish.offset =
          (spelled before).utf8ByteSize + token.lexeme.utf8ByteSize := by
        rw [Token.finish, offset_advance, byteLength_toList, hoffset]
      rw [hoffset, hfinish, ← String.size_toByteArray, ← String.size_toByteArray]
      conv_lhs => rw [hsource, String.toByteArray_append, String.toByteArray_append]
      exact extract_between _ _ _
  · refine List.filter_congr fun token _ => ?_
    cases token.kind <;> rfl

/-- A comment with a character of two bytes and a line feed in it. -/
theorem tokens_lossless_comment :
    tokens "/*\u00e9\n*/x" = [⟨.blockComment, "/*\u00e9\n*/", ⟨1, 1, 0⟩⟩] ++
      ⟨.identifier, "x", ⟨2, 3, 7⟩⟩ :: [] ∧
    "/*\u00e9\n*/x".toByteArray.extract 7 8 = "x".toByteArray := by
  have htokens : tokens "/*\u00e9\n*/x" = [⟨.blockComment, "/*\u00e9\n*/", ⟨1, 1, 0⟩⟩] ++
      ⟨.identifier, "x", ⟨2, 3, 7⟩⟩ :: [] := by decide +kernel
  obtain ⟨-, -, hplaces, -⟩ := tokens_lossless "/*\u00e9\n*/x"
  obtain ⟨-, -, -, -, -, -, hslice⟩ := hplaces _ _ _ htokens
  exact ⟨htokens, hslice⟩

end ExternalAnnotations
