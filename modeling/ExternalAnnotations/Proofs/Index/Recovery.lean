import ExternalAnnotations.Proofs.Index.AlikeBlocks

/-!
# What malformed blocks leave alone

A package header closes everything that the text before it left open. So an index that stands
after another text says what it says alone, however malformed that text is, unless the other text
ends where the name of an element is missing.
-/

namespace ExternalAnnotations

/-- Whether a diagnostic says that the text ended where the name of an element should be. -/
def Diagnostic.missesElementName : Diagnostic → Bool
  | malformed error _ => error.missesElementName
  | unresolvedType _ | invalidElement _ _ _ => false

lemma Reader.packageHeader_eq {token : Token} {rest : List Token} (h : token.kind = .packageWord)
    (previous previous' : Option Token) :
    packageHeader ⟨previous, token :: rest⟩ = packageHeader ⟨previous', token :: rest⟩ := by
  have hkeyword : ∀ before, expect .packageWord "'package'" ⟨before, token :: rest⟩ =
      .ok token ⟨some token, rest⟩ := by
    intro before
    simp [expect, Reader.token, h]
  unfold packageHeader
  rw [bind_ok (hkeyword _), bind_ok (hkeyword _)]

/-- From the header of a package on nothing that was open before matters. -/
lemma parseBlocks_eq_of_opensPackage {tail : List Token} (ht : OpensPackage tail)
    (source : List Char) (scopes : Scopes) (previous : Option Token) :
    parseBlocks source scopes ⟨previous, tail⟩ = parseBlocks source .none (.ofTokens tail) := by
  cases tail with
  | nil => rw [parseBlocks_of_nil _ _ rfl, parseBlocks_of_nil _ _ rfl]
  | cons token rest =>
    have hkind := ht.first token rfl
    have hblock : Block.read scopes ⟨previous, token :: rest⟩ =
        Block.read .none (.ofTokens (token :: rest)) := by
      simp only [Block.read, Cursor.ofTokens, Cursor.kind?, List.head?_cons, Option.map_some, hkind,
        Block.package, Reader.packageHeader_eq hkind previous none]
    have hne : token :: rest ≠ [] := List.cons_ne_nil token rest
    have hround := parseBlocks_of_ne_nil source scopes (c := ⟨previous, token :: rest⟩) hne
    rw [hblock] at hround
    exact hround.trans
      (parseBlocks_of_ne_nil source .none (c := .ofTokens (token :: rest)) hne).symm

/-- What is read before a tail, and then what the tail says alone. -/
lemma unplaced_parseBlocks {tail : List Token} (ht : OpensPackage tail) (source source' : List Char)
    (scopes : Scopes) {cursor other : Cursor} (h : cursor.Alike tail other)
    (hcut : tail ≠ [] → ∀ diagnostic ∈ (parseBlocks source scopes cursor).diagnostics,
      diagnostic.missesElementName = false) :
    unplaced (parseBlocks source' scopes other).index =
      unplaced (parseBlocks source scopes cursor).index ++
        unplaced (parseBlocks source' .none (.ofTokens tail)).index := by
  induction hlength : cursor.rest.length using Nat.strong_induction_on
    generalizing cursor other scopes with
  | _ n ih =>
    by_cases hn : cursor.rest = []
    · obtain ⟨previous, rest⟩ := other
      obtain rfl : rest = tail := h.rest_eq_tail hn
      rw [parseBlocks_eq_of_opensPackage ht, parseBlocks_of_nil _ _ hn]
      rfl
    · have hread := Block.read_corresponds ht scopes h hn
      have hlt := Block.length_resume_lt scopes hn
      rw [parseBlocks_of_ne_nil _ _ hn] at hcut ⊢
      rw [parseBlocks_of_ne_nil _ _ (h.rest_ne_nil hn)]
      generalize Block.read scopes cursor = block, Block.read scopes other = block'
        at hread hlt hcut ⊢
      cases hread with
      | @cut error htail hfailure herror =>
        -- A name is missing where the tail begins, which the hypothesis excludes.
        have hno := hcut htail _ (List.mem_append_left _ (Block.mem_diagnostics_outcome hfailure))
        exact absurd (herror.symm.trans hno) (by decide)
      | alike hindex hfailure _ hcursor _ _ hscopes =>
        have hresume := Block.resume_alike ht h hn hfailure hcursor
        have hrest := ih _ (hlength ▸ hlt) block.scopes hresume
          (fun htail d hd => hcut htail d (List.mem_append_right _ hd)) rfl
        change unplaced (_ ++ _) = unplaced (_ ++ _) ++ _
        rw [Block.index_outcome, Block.index_outcome, unplaced_index_append, unplaced_index_append,
          hscopes, hrest, hindex, Index.append_assoc]

/-! ### A text after another one -/

/-- A place in a text that itself begins at a place. -/
def Location.after (base place : Location) : Location where
  line := base.line + (place.line - 1)
  column := if place.line = 1 then base.column + (place.column - 1) else place.column
  offset := base.offset + place.offset

/-- A token of a text that begins at a place. -/
def Token.after (base : Location) (token : Token) : Token :=
  { token with start := base.after token.start }

lemma touches_after (base : Location) (last token : Token) :
    touches (some (last.after base)) (token.after base) ↔ touches (some last) token := by
  simp only [touches, Option.some.injEq, exists_eq_left', Token.finish, offset_advance, Token.after,
    Location.after]
  omega

lemma alike_after (base : Location) (tokens : List Token) :
    (Cursor.ofTokens tokens).Alike [] (.ofTokens (tokens.map (·.after base))) := by
  have hsome : ∀ (tokens : List Token) (last : Token),
      Cursor.Alike [] ⟨some last, tokens⟩ ⟨some (last.after base), tokens.map (·.after base)⟩ := by
    intro tokens
    induction tokens with
    | nil => exact fun last => .atEnd rfl (by simp)
    | cons token tokens ih =>
      exact fun last => .ahead rfl rfl (touches_after base last token) (ih token)
  cases tokens with
  | nil => exact .atEnd rfl (by simp)
  | cons token tokens => exact .ahead rfl rfl (by simp [touches]) (hsome tokens token)

lemma alike_append {tokens tail : List Token} (previous : Option Token)
    (h : ∀ last ∈ (tokens.getLast?).or previous, last.kind.bindsName = false) :
    Cursor.Alike tail ⟨previous, tokens⟩ ⟨previous, tokens ++ tail⟩ := by
  induction tokens generalizing previous with
  | nil => exact .atEnd rfl fun _ => h
  | cons token tokens ih =>
    refine .ahead rfl rfl .rfl (ih (some token) fun last hlast => h last ?_)
    cases tokens with
    | nil => simpa using hlast
    | cons other tokens => simpa [List.getLast?_cons] using hlast

lemma opensPackage_after (base : Location) {tokens : List Token}
    (hfirst : tokens.head?.map (·.kind) = some .packageWord)
    (hsecond : tokens[1]?.map (·.kind) ≠ some .equals) :
    OpensPackage (tokens.map (·.after base)) := by
  match tokens with
  | [] => contradiction
  | [token] => exact ⟨by simpa [Token.after] using hfirst, by simp⟩
  | token :: other :: tokens =>
    exact ⟨by simpa [Token.after] using hfirst, by simpa [Token.after] using hsecond⟩

/-- The place at which a text begins when it stands on the line after another text. -/
def placeAfter (first : String) : Location := Location.start.advance (first ++ "\n").toList

/-- **Recovery.** A text that opens a package adds to an index what it says alone, with the places
moved, and what stands before it contributes what it contributes alone, however malformed it is.
Where the text before it ends with the name of an element missing this fails: the header of the
second text is taken for that name. -/
theorem parse_after_malformed {first second : String}
    (htokens : significantTokens (first ++ "\n" ++ second) =
      significantTokens first ++ (significantTokens second).map (·.after (placeAfter first)))
    (hlast : ∀ last ∈ (significantTokens first).getLast?, last.kind ∉ [.dot, .slash, .atSign])
    (hpackage : (significantTokens second).head?.map (·.kind) = some .packageWord)
    (hheader : (significantTokens second)[1]?.map (·.kind) ≠ some .equals)
    (hname : ∀ diagnostic ∈ (parse first).diagnostics, diagnostic.missesElementName = false) :
    unplaced (parse (first ++ "\n" ++ second)).index =
      unplaced (parse first).index ++ unplaced (parse second).index := by
  have ht := opensPackage_after (placeAfter first) hpackage hheader
  have hjoined : (Cursor.ofTokens (significantTokens first)).Alike
      ((significantTokens second).map (·.after (placeAfter first)))
      (.ofTokens (significantTokens (first ++ "\n" ++ second))) := by
    rw [htokens]
    exact alike_append none (by simpa [TokenKind.bindsName] using hlast)
  have hmoved := unplaced_parseBlocks opensPackage_nil second.toList
    (first ++ "\n" ++ second).toList .none
      (alike_after (placeAfter first) (significantTokens second))
    nofun
  rw [parseBlocks_of_nil (c := .ofTokens []) _ _ rfl] at hmoved
  unfold parse at hname ⊢
  rw [unplaced_parseBlocks ht first.toList _ .none hjoined fun _ => hname, hmoved]
  exact congrArg _ (Index.ext (List.append_nil _) (List.append_nil _))

/-- A block that breaks off in a descriptor does not reach the package after it. -/
theorem parse_after_malformed_descriptor :
    unplaced (parse ("package a: class A: @X( method f()V: @Y method g(I" ++ "\n" ++
      "package p: class C: method h()V: @Foo")).index =
      unplaced (parse "package a: class A: @X( method f()V: @Y method g(I").index ++
        unplaced (parse "package p: class C: method h()V: @Foo").index :=
  parse_after_malformed (by decide +kernel) (by decide +kernel) (by decide +kernel)
    (by decide +kernel) (by
      have hall : (parse "package a: class A: @X( method f()V: @Y method g(I").diagnostics.all
          (!·.missesElementName) = true := by decide +kernel
      simpa using hall)

/-- An element without a name takes the header of the package for its name, and the class after it
is given to the package before. -/
theorem parse_reads_header_as_name :
    significantTokens ("package a: annotation @X: int" ++ "\n" ++ "package p: class C: @Foo") =
        significantTokens "package a: annotation @X: int" ++
          (significantTokens "package p: class C: @Foo").map
            (·.after (placeAfter "package a: annotation @X: int")) ∧
      (∀ last ∈ (significantTokens "package a: annotation @X: int").getLast?,
        last.kind ∉ [.dot, .slash, .atSign]) ∧
      (significantTokens "package p: class C: @Foo").head?.map (·.kind) = some .packageWord ∧
      (significantTokens "package p: class C: @Foo")[1]?.map (·.kind) ≠ some .equals ∧
      (parse "package p: class C: @Foo").diagnostics.isEmpty ∧
      ¬ ∃ entries : List Entry, unplaced (parse ("package a: annotation @X: int" ++ "\n" ++
        "package p: class C: @Foo")).index.entries =
          entries ++ unplaced (parse "package p: class C: @Foo").index.entries := by
  refine ⟨by decide +kernel, by decide +kernel, by decide +kernel, by decide +kernel,
    by decide +kernel, fun ⟨entries, h⟩ => ?_⟩
  have howners := congrArg (List.map (·.owner)) h
  rw [List.map_append] at howners
  have hjoined : (unplaced (parse ("package a: annotation @X: int" ++ "\n" ++
      "package p: class C: @Foo")).index.entries).map (·.owner) = ["a.C"] := by decide +kernel
  have hsecond : (unplaced (parse "package p: class C: @Foo").index.entries).map (·.owner) =
      ["p.C"] := by decide +kernel
  rw [hjoined, hsecond] at howners
  have hends := congrArg List.getLast? howners
  simp at hends

end ExternalAnnotations
