import ExternalAnnotations.Proofs.Index.AlikeBlocks

/-!
# Layout

Spaces, lines and comments say nothing, except that a descriptor and a few names are broken by
them. So two texts with the same tokens, of which the same ones touch, are read alike, whether they
are well formed or not. They differ in the places of what they say and in the lines that
diagnostics quote.
-/

namespace ExternalAnnotations

/-- For each token whether it starts where the one before it ends. -/
def touching : Option Token → List Token → List Bool
  | _, [] => []
  | previous, token :: tokens => decide (touches previous token) :: touching (some token) tokens

instance : Placed ElementFault :=
  ⟨fun
    | .mismatch expected found => .mismatch expected (unplaced found)
    | fault => fault⟩

/-- Without its places a diagnostic quotes no line either. -/
instance : Placed Diagnostic :=
  ⟨fun
    | .malformed error _ => .malformed (unplaced error) ""
    | .unresolvedType name => .unresolvedType name
    | .invalidElement typeName element fault => .invalidElement typeName element (unplaced fault)⟩

lemma Cursor.alike_of_touching {tokens others : List Token} {previous previous' : Option Token}
    (hprevious : previous'.map (·.kind) = previous.map (·.kind))
    (htokens : others.map (fun token => (token.kind, token.lexeme)) =
      tokens.map fun token => (token.kind, token.lexeme))
    (htouching : touching previous' others = touching previous tokens) :
    Alike [] ⟨previous, tokens⟩ ⟨previous', others⟩ := by
  induction tokens generalizing others previous previous' with
  | nil =>
    obtain rfl := List.map_eq_nil_iff.1 htokens
    exact .atEnd hprevious (absurd rfl)
  | cons token tokens ih =>
    obtain ⟨token', others, rfl, htoken, htokens⟩ := List.map_eq_cons_iff.1 htokens
    obtain ⟨hkind, hlexeme⟩ := Prod.mk.inj htoken
    obtain ⟨htouches, htouching⟩ := List.cons.inj htouching
    refine .ahead hprevious ?_ (decide_eq_decide.1 htouches)
      (ih (congrArg some hkind) htokens htouching)
    exact congrArg₂ (Token.mk · · .start) hkind hlexeme

lemma unplaced_diagnostics (source : List Char) (failure : Option SyntaxError) :
    unplaced (failure.toList.map (.ofSyntaxError source)) =
      (unplaced failure).toList.map (Diagnostic.malformed · "") := by
  cases failure <;> rfl

/-- From two places with the same tokens ahead the parser says the same. -/
lemma parseBlocks_alike (source source' : List Char) (scopes : Scopes) {cursor other : Cursor}
    (h : cursor.Alike [] other) :
    unplaced (parseBlocks source' scopes other).index =
        unplaced (parseBlocks source scopes cursor).index ∧
      unplaced (parseBlocks source' scopes other).diagnostics =
        unplaced (parseBlocks source scopes cursor).diagnostics := by
  -- by the number of tokens that are left, since every block takes at least one
  induction hlength : cursor.rest.length using Nat.strong_induction_on
    generalizing scopes cursor other with
  | _ n ih =>
    by_cases hn : cursor.rest = []
    · rw [parseBlocks_of_nil _ _ hn, parseBlocks_of_nil _ _ (h.rest_eq_tail hn)]
      exact ⟨rfl, rfl⟩
    · have hread := Block.read_corresponds opensPackage_nil scopes h hn
      have hlt := Block.length_resume_lt scopes hn
      have hsaid := Block.diagnostics_outcome source scopes cursor
      have hsaid' := Block.diagnostics_outcome source' scopes other
      rw [parseBlocks_of_ne_nil _ _ hn, parseBlocks_of_ne_nil _ _ (h.rest_ne_nil hn)]
      generalize Block.read scopes cursor = block, Block.read scopes other = block'
        at hread hlt hsaid hsaid' ⊢
      cases hread with
      | cut htail => contradiction
      | alike hindex hfailure herror hcursor _ _ hscopes =>
        have hrest := ih _ (hlength ▸ hlt) block.scopes
          (Block.resume_alike opensPackage_nil h hn hfailure hcursor) rfl
        have hdiagnostics : unplaced (block'.outcome source').diagnostics =
            unplaced (block.outcome source).diagnostics := by
          rw [hsaid, hsaid', unplaced_diagnostics, unplaced_diagnostics, herror rfl]
        rw [hscopes]
        constructor
        · change unplaced (_ ++ _) = unplaced (_ ++ _)
          rw [unplaced_index_append, unplaced_index_append, Block.index_outcome,
            Block.index_outcome, hindex, hrest.1]
        · change unplaced (_ ++ _) = unplaced (_ ++ _)
          rw [unplaced_append, unplaced_append, hdiagnostics, hrest.2]

/-- **Layout.** Two texts with the same tokens, of which the same ones touch, say the same and are
wrong in the same ways, apart from places and quoted lines. -/
theorem parse_of_same_tokens {first second : String}
    (htokens : (significantTokens second).map (fun token => (token.kind, token.lexeme)) =
      (significantTokens first).map fun token => (token.kind, token.lexeme))
    (htouching : touching none (significantTokens second) =
      touching none (significantTokens first)) :
    unplaced (parse second).index = unplaced (parse first).index ∧
      unplaced (parse second).diagnostics = unplaced (parse first).diagnostics :=
  parseBlocks_alike _ _ _ (Cursor.alike_of_touching rfl htokens htouching)

/-- A class with a value missing and a descriptor that ends too soon, on one line and on several. -/
theorem parse_of_same_tokens_malformed :
    let first := "package p: class C: @A(x=) method f(I: @B"
    let second := "package p:\n\nclass C:  // a class\n  @A(x=)\n  method f(I:\n@B"
    (parse first).diagnostics.length = 2 ∧
      unplaced (parse second).index = unplaced (parse first).index ∧
      unplaced (parse second).diagnostics = unplaced (parse first).diagnostics :=
  ⟨by decide +kernel, parse_of_same_tokens (by decide +kernel) (by decide +kernel)⟩

end ExternalAnnotations
