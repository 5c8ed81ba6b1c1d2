import ExternalAnnotations.Proofs.Index.CarriedBlocks
import ExternalAnnotations.Proofs.Index.Ended
import ExternalAnnotations.Proofs.Token.Seam

/-!
# Fragments of an index

An index can be given in several texts or in one. Behind a text without diagnostics, a text that
opens a package is read as it is read alone.
-/

namespace ExternalAnnotations

open Cursor (carried Detached)

/-! ### Lines -/

lemma splitAtOffset_append (first second : List Char) (offset : Nat) :
    splitAtOffset (byteLength first + offset) (first ++ second) =
      (first ++ (splitAtOffset offset second).1, (splitAtOffset offset second).2) := by
  induction first with
  | nil =>
    rw [byteLength, Nat.zero_add]
    rfl
  | cons c first ih =>
    have hle : c.utf8Size ≤ byteLength (c :: first) + offset := by
      rw [byteLength]
      omega
    have hsub : byteLength (c :: first) + offset - c.utf8Size = byteLength first + offset := by
      rw [byteLength]
      omega
    rw [List.cons_append, splitAtOffset, if_pos hle, hsub, ih]
    rfl

lemma lineOf_append (first second : String) (place : Location) :
    lineOf (first ++ "\n" ++ second).toList (moved (Shift.past (first ++ "\n")) place) =
      lineOf second.toList place := by
  have hoffset : (moved (Shift.past (first ++ "\n")) place).offset =
      byteLength (first ++ "\n").toList + place.offset := Nat.add_comm _ _
  have hbefore (before : List Char) :
      ((first ++ "\n").toList ++ before).reverse.takeWhile (· ≠ '\n') =
        before.reverse.takeWhile (· ≠ '\n') := by
    have hends : (first ++ "\n").toList.reverse = '\n' :: first.toList.reverse := by
      rw [String.toList_append, List.reverse_append]
      rfl
    rw [List.reverse_append, hends, List.takeWhile_append]
    split
    · rename_i hall
      rw [List.takeWhile_cons_of_neg (by decide), List.append_nil]
      exact ((List.takeWhile_prefix _).eq_of_length hall).symm
    · rfl
  have htext : (first ++ "\n" ++ second).toList = (first ++ "\n").toList ++ second.toList :=
    String.toList_append
  rw [lineOf, lineOf, hoffset, htext, splitAtOffset_append]
  dsimp only
  rw [hbefore]

variable {shift : Shift} {tail : List Token}

lemma place_moved (error : SyntaxError) :
    (moved shift error).place = moved shift error.place := by
  cases error <;> rfl

lemma Block.outcome_carried {source source' : List Char} {block : Block}
    (h : block.failure = none ∨ ∀ place, lineOf source' (moved shift place) = lineOf source place) :
    (block.carried shift tail).outcome source' = moved shift (block.outcome source) := by
  rw [outcome, outcome, moved_parsed_append]
  refine congrArg (moved shift block.parsed ++ ·) ?_
  change (moved shift block.failure).elim _ _ = _
  cases hfailure : block.failure with
  | none => rfl
  | some error =>
    rw [hfailure] at h
    have hlines := h.resolve_left nofun
    have hline : Diagnostic.ofSyntaxError source' (moved shift error) =
        moved shift (Diagnostic.ofSyntaxError source error) := by
      rw [Diagnostic.ofSyntaxError, place_moved, hlines]
      rfl
    exact congrArg Parsed.ofDiagnostic hline

/-- What blocks say is the same, moved, in a longer text, and then comes what the tail says. -/
lemma parseBlocks_carried (ht : OpensPackage tail) {source source' : List Char} {scopes : Scopes}
    {cursor : Cursor} (h : cursor.Detached tail)
    (hlines : tail = [] → ∀ place, lineOf source' (moved shift place) = lineOf source place)
    (hfine : tail ≠ [] → scopes.Sound ∧ (parseBlocks source scopes cursor).diagnostics = []) :
    parseBlocks source' scopes (cursor.carried shift tail) =
      moved shift (parseBlocks source scopes cursor) ++
        parseBlocks source' .none (.ofTokens tail) := by
  -- by the number of tokens that are left: reading on behind a block leaves fewer of them, and
  -- both readers stand on the same ones
  induction hlength : cursor.rest.length using Nat.strong_induction_on
    generalizing scopes cursor with
  | _ length ih =>
  subst hlength
  by_cases hn : cursor.rest = []
  · have hrest : cursor.carried shift tail = ⟨moved shift cursor.previous, tail⟩ := by
      rw [carried, hn]
      rfl
    rw [hrest, parseBlocks_eq_of_opensPackage ht, parseBlocks_of_nil _ _ hn]
    exact (Parsed.empty_append _).symm
  · have hn' : (cursor.carried shift tail).rest ≠ [] := by
      rw [← List.length_pos_iff, Cursor.length_carried]
      exact Nat.add_pos_left (List.length_pos_iff.2 hn) _
    rw [parseBlocks_of_ne_nil source' scopes hn']
    rw [parseBlocks_of_ne_nil source scopes hn] at hfine ⊢
    -- a wrong block is passed over, and behind the last one that would pass over the tail
    have hfailure : tail = [] ∨ (Block.read scopes cursor).failure = none := by
      by_cases htail : tail = []
      · exact .inl htail
      · exact .inr (Block.failure_of_diagnostics (List.append_eq_nil_iff.1 (hfine htail).2).1)
    have hcarries : Block.Carries shift tail (Block.read scopes cursor)
        (Block.read scopes (cursor.carried shift tail)) :=
      Block.read_carries ht h hn fun htail => (hfine htail).1
    obtain ⟨hread, hdetached⟩ := hcarries hfailure
    obtain ⟨hresume, hnext⟩ : _ = Cursor.carried shift tail _ ∧ _ :=
      Block.resume_carries hn hdetached hfailure
    have hshorter := Block.length_resume_lt scopes hn
    have hsound : tail ≠ [] → (Block.read scopes cursor).scopes.Sound := fun htail =>
      (Block.read_stands (hfine htail).1 (hfailure.resolve_left htail)).sound
    have hdiagnostics (htail : tail ≠ []) := (List.append_eq_nil_iff.1 (hfine htail).2).2
    have hrest := ih _ hshorter hnext (fun htail => ⟨hsound htail, hdiagnostics htail⟩) rfl
    have houtcome : ((Block.read scopes cursor).carried shift tail).outcome source' =
        moved shift ((Block.read scopes cursor).outcome source) :=
      Block.outcome_carried (hfailure.symm.imp_right hlines)
    rw [hread, houtcome, hresume, moved_parsed_append, Parsed.append_assoc]
    exact congrArg _ hrest

/-! ### Lookup -/

namespace Index

variable (first second index : Index)

lemma entriesFor_append (owner : String) : (first ++ second).entriesFor owner =
    first.entriesFor owner ++ second.entriesFor owner := by
  simp only [entriesFor_eq_filter]
  exact List.filter_append _ _

lemma entriesFor_moved (owner : String) :
    (moved shift index).entriesFor owner = moved shift (index.entriesFor owner) := by
  simp only [entriesFor_eq_filter]
  exact List.filter_map

lemma findRev?_append (isIt : Declaration → Bool) : (first ++ second).declarations.findRev? isIt =
    (second.declarations.findRev? isIt).or (first.declarations.findRev? isIt) := by
  change (first.declarations ++ second.declarations).findRev? isIt = _
  simp only [List.findRev?_eq_find?_reverse, List.reverse_append, List.find?_append]

lemma findRev?_moved {isIt : Declaration → Bool}
    (h : ∀ declaration, isIt (moved shift declaration) = isIt declaration) :
    (moved shift index).declarations.findRev? isIt =
      moved shift (index.declarations.findRev? isIt) := by
  change (index.declarations.map (moved shift)).findRev? isIt = _
  have hsame : isIt ∘ moved shift = isIt := funext h
  rw [List.findRev?_eq_find?_reverse, ← List.map_reverse, List.find?_map, hsame,
    List.findRev?_eq_find?_reverse]
  rfl

end Index

/-! ### Fragments -/

lemma opensPackage_moved {tokens : List Token}
    (hfirst : tokens.head?.map (·.kind) = some .packageWord)
    (hsecond : tokens[1]?.map (·.kind) ≠ some .equals) : OpensPackage (moved shift tokens) := by
  match tokens with
  | [] => contradiction
  | [token] => exact ⟨fun _ h => by cases h; exact Option.some.inj hfirst, nofun⟩
  | token :: other :: tokens =>
    refine ⟨fun _ h => ?_, fun _ h => ?_⟩
    · cases h
      exact Option.some.inj hfirst
    · cases h
      exact fun hequals => hsecond (congrArg some hequals)

lemma moved_none_parsed {parsed : Parsed} (h : parsed.diagnostics = []) :
    moved Shift.none parsed = parsed := by
  obtain ⟨index, diagnostics⟩ := parsed
  obtain rfl : diagnostics = [] := h
  exact congrArg (Parsed.mk · []) (moved_none_index index)

lemma moved_eq_nil {tokens : List Token} : moved shift tokens = [] ↔ tokens = [] :=
  List.map_eq_nil_iff

lemma ofTokens_carried (tokens : List Token) :
    (Cursor.ofTokens tokens).carried shift tail = .ofTokens (moved shift tokens ++ tail) := rfl

lemma parseBlocks_moved (first : String) {second : String} (hne : significantTokens second ≠ []) :
    parseBlocks (first ++ "\n" ++ second).toList .none
        (.ofTokens (moved (Shift.past (first ++ "\n")) (significantTokens second))) =
      moved (Shift.past (first ++ "\n")) (parse second) := by
  have hdetached : (Cursor.ofTokens (significantTokens second)).Detached [] :=
    ⟨fun _ => hne, fun h => absurd rfl h⟩
  have hmoved : parseBlocks _ .none _ = _ := parseBlocks_carried opensPackage_nil hdetached
    (fun _ => lineOf_append first second) (fun h => absurd rfl h)
  rwa [ofTokens_carried, List.append_nil, parseBlocks_of_nil (c := .ofTokens []) _ _ rfl,
    Parsed.append_empty] at hmoved

/-- Behind a text without diagnostics, a text that opens a package says what it says alone. -/
lemma parse_append {first second : String} (hfirst : (parse first).diagnostics = [])
    (hpackage : (significantTokens second).head?.map (·.kind) = some .packageWord)
    (hheader : (significantTokens second)[1]?.map (·.kind) ≠ some .equals) :
    parse (first ++ "\n" ++ second) =
      parse first ++ moved (Shift.past (first ++ "\n")) (parse second) := by
  obtain ⟨hknown, hlast⟩ := Production.blocks_le_ended (significantTokens_mem_blocks hfirst)
  have ht : OpensPackage (moved (Shift.past (first ++ "\n")) (significantTokens second)) :=
    opensPackage_moved hpackage hheader
  have hne : significantTokens second ≠ [] := by
    intro hnil
    rw [hnil] at hpackage
    contradiction
  have hsecond := parseBlocks_moved first hne
  rw [parse, significantTokens_append hknown]
  by_cases hnil : significantTokens first = []
  · have hempty : parse first = {} := by
      rw [parse, hnil, parseBlocks_of_nil (c := .ofTokens []) _ _ rfl]
    rw [hnil, hempty]
    exact hsecond
  · have htail : moved (Shift.past (first ++ "\n")) (significantTokens second) ≠ [] := by
      rwa [Ne, moved_eq_nil]
    have hsound : Scopes.none.Sound := ⟨by decide, by decide⟩
    have hdetached : (Cursor.ofTokens (significantTokens first)).Detached
        (moved (Shift.past (first ++ "\n")) (significantTokens second)) := by
      refine ⟨fun _ => hnil, fun _ last h => hlast last ?_⟩
      rwa [Cursor.ofTokens, Option.or_none] at h
    have hcarried : parseBlocks (first ++ "\n" ++ second).toList .none
        (Cursor.carried Shift.none _ _) = _ :=
      parseBlocks_carried ht hdetached (fun h => absurd h htail) (fun _ => ⟨hsound, hfirst⟩)
    rw [ofTokens_carried, moved_none_list moved_none_token, hsecond] at hcarried
    rw [hcarried]
    exact congrArg (· ++ _) (moved_none_parsed hfirst)

lemma parseAll_pair (first second : String) :
    parseAll [first, second] = parse first ++ parse second :=
  congrArg (· ++ parse second) (Parsed.empty_append _)

/-- **Fragments.** A text without diagnostics and a text that opens a package say the same as two
fragments and as one text, in which the places of the second are moved down by the first. The
answers are the same too: entries of the first come first, and declarations of the second hold. -/
theorem parse_fragments {first second : String} (hfirst : (parse first).diagnostics = [])
    (hpackage : (significantTokens second).head?.map (·.kind) = some .packageWord)
    (hheader : (significantTokens second)[1]?.map (·.kind) ≠ some .equals) :
    (parseAll [first, second] = parse first ++ parse second ∧
      parse (first ++ "\n" ++ second) =
        parse first ++ moved (Shift.past (first ++ "\n")) (parse second)) ∧
    (∀ owner,
      (parseAll [first, second]).index.entriesFor owner =
        (parse first).index.entriesFor owner ++ (parse second).index.entriesFor owner ∧
      (parse (first ++ "\n" ++ second)).index.entriesFor owner =
        (parse first).index.entriesFor owner ++
          moved (Shift.past (first ++ "\n")) ((parse second).index.entriesFor owner)) ∧
    (∀ name,
      (parseAll [first, second]).index.declaration? name =
        ((parse second).index.declaration? name).or ((parse first).index.declaration? name) ∧
      (parse (first ++ "\n" ++ second)).index.declaration? name =
        (moved (Shift.past (first ++ "\n")) ((parse second).index.declaration? name)).or
          ((parse first).index.declaration? name)) ∧
    ∀ name,
      (parseAll [first, second]).index.declarationOfSimpleName? name =
        ((parse second).index.declarationOfSimpleName? name).or
          ((parse first).index.declarationOfSimpleName? name) ∧
      (parse (first ++ "\n" ++ second)).index.declarationOfSimpleName? name =
        (moved (Shift.past (first ++ "\n"))
          ((parse second).index.declarationOfSimpleName? name)).or
            ((parse first).index.declarationOfSimpleName? name) := by
  have hjoined := parse_append hfirst hpackage hheader
  have hanswer (isIt : Declaration → Bool)
      (hsame : ∀ declaration : Declaration,
        isIt (moved (Shift.past (first ++ "\n")) declaration) = isIt declaration) :
      (parse first ++ moved (Shift.past (first ++ "\n")) (parse second)).index.declarations.findRev?
          isIt = (moved (Shift.past (first ++ "\n"))
            ((parse second).index.declarations.findRev? isIt)).or
              ((parse first).index.declarations.findRev? isIt) := by
    rw [← Index.findRev?_moved _ hsame]
    exact Index.findRev?_append _ _ isIt
  rw [parseAll_pair, hjoined]
  refine ⟨⟨rfl, rfl⟩, fun owner => ⟨Index.entriesFor_append _ _ owner, ?_⟩, fun name => ?_,
    fun name => ?_⟩
  · rw [← Index.entriesFor_moved]
    exact Index.entriesFor_append _ _ owner
  · simp only [Index.declaration?_eq_findRev?]
    exact ⟨Index.findRev?_append _ _ _, hanswer _ fun _ => rfl⟩
  · simp only [Index.declarationOfSimpleName?_eq_findRev?]
    exact ⟨Index.findRev?_append _ _ _, hanswer _ fun _ => rfl⟩

/-- The second text has a block that is passed over and one that is not. -/
theorem parse_fragments_malformed :
    (parse "package p: annotation @Q: int v class A: @Q(1)").diagnostics = [] ∧
    (parse "package q: class B @Q class C: @p.Q").diagnostics.length = 1 ∧
    (parse "package q: class B @Q class C: @p.Q").index.entries.length = 1 ∧
    parse ("package p: annotation @Q: int v class A: @Q(1)" ++ "\n" ++
        "package q: class B @Q class C: @p.Q") =
      parse "package p: annotation @Q: int v class A: @Q(1)" ++
        moved ⟨1, 47⟩ (parse "package q: class B @Q class C: @p.Q") := by
  refine ⟨by decide +kernel, by decide +kernel, by decide +kernel, ?_⟩
  have hshift :
      Shift.past ("package p: annotation @Q: int v class A: @Q(1)" ++ "\n") = ⟨1, 47⟩ := by
    decide +kernel
  rw [← hshift]
  exact (parse_fragments (by decide +kernel) (by decide +kernel) (by decide +kernel)).1.2

end ExternalAnnotations
