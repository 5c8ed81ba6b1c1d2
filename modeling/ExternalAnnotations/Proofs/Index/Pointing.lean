import ExternalAnnotations.Proofs.Index.Fragments
import ExternalAnnotations.Proofs.Index.WellFormed
import ExternalAnnotations.Proofs.Text.Segments
import ExternalAnnotations.Proofs.Token.Lossless

/-!
# What diagnostics point at

The place of an error is a place between two characters of the text, and the line that is quoted
with it is the line of the text on which that place lies.
-/

namespace ExternalAnnotations

/-! ### Places in a text -/

/-- A place comes after some of the characters of a text, and before the others. -/
def Location.LiesIn (place : Location) (source : String) : Prop :=
  ∃ before after : String, source = before ++ after ∧ place = Location.start.advance before.toList

lemma Location.liesIn_start (source : String) : Location.start.LiesIn source :=
  ⟨"", source, (String.empty_append).symm, rfl⟩

lemma Token.liesIn {source : String} {token : Token} (h : token ∈ tokens source) :
    token.start.LiesIn source ∧ token.finish.LiesIn source := by
  obtain ⟨before, after, htokens⟩ := List.append_of_mem h
  have hcontiguous : Contiguous .start (before ++ token :: after) :=
    htokens ▸ Lexer.contiguous_tokensFrom .start source.toList
  have hstart := hcontiguous.start_eq
  have hsource : source = spelled before ++ (token.lexeme ++ spelled after) := by
    rw [← spelled_split, ← htokens, spelled_tokens]
  refine ⟨⟨_, _, hsource, hstart⟩, spelled before ++ token.lexeme, spelled after, ?_, ?_⟩
  · rw [String.append_assoc]
    exact hsource
  · rw [Token.finish, hstart, String.toList_append, Location.advance_append]

lemma Cursor.LeadsTo.previous_mem {tokens : List Token} {next : Cursor}
    (h : (Cursor.ofTokens tokens).LeadsTo next) : ∀ token ∈ next.previous, token ∈ tokens := by
  induction h with
  | refl => simp [Cursor.ofTokens]
  | @tail middle next hlead hstep ih =>
    obtain rfl := hstep
    have hsuffix : middle.rest <:+ tokens := LeadsTo.suffix hlead
    obtain ⟨previous, rest⟩ := middle
    cases rest with
    | nil => exact ih
    | cons first rest =>
      intro token htoken
      obtain rfl := Option.some.inj htoken
      exact hsuffix.subset List.mem_cons_self

lemma Cursor.LeadsTo.liesIn {source : String} {next : Cursor}
    (h : (Cursor.ofTokens (significantTokens source)).LeadsTo next) :
    next.place.LiesIn source := by
  have hlies {token : Token} (htoken : token ∈ significantTokens source) :=
    Token.liesIn (List.mem_filter.1 htoken).1
  have hsuffix : next.rest <:+ significantTokens source := h.suffix
  have hprevious := h.previous_mem
  obtain ⟨previous, rest⟩ := next
  cases rest with
  | cons token rest => exact (hlies (hsuffix.subset List.mem_cons_self)).1
  | nil =>
    cases previous with
    | none => exact Location.liesIn_start source
    | some token => exact (hlies (hprevious token rfl)).2

/-! ### The line of a place -/

lemma trim_append_of_blank {blanks : List Char} (h : ∀ c ∈ blanks, isBlank c = true)
    (text : List Char) : trim (text ++ blanks) = trim text := by
  rw [trim, trim, List.dropWhile_append]
  split
  · rename_i hall
    rw [List.isEmpty_iff.1 hall, List.dropWhile_eq_nil_iff.2 h]
  · rw [List.reverse_append, List.dropWhile_append_of_pos]
    exact fun c hc => h c (List.mem_reverse.1 hc)

lemma trim_dropCarriageReturns (text : List Char) :
    trim (dropCarriageReturns text) = trim text := by
  have hsplit : dropCarriageReturns text ++ (text.reverse.takeWhile (· = '\r')).reverse = text := by
    rw [dropCarriageReturns, ← List.reverse_append, List.takeWhile_append_dropWhile,
      List.reverse_reverse]
  have hblank : ∀ c ∈ (text.reverse.takeWhile (· = '\r')).reverse, isBlank c = true := by
    intro c hc
    obtain rfl : c = '\r' := by simpa using List.mem_takeWhile_imp (List.mem_reverse.1 hc)
    decide
  rw [← trim_append_of_blank hblank, hsplit]

lemma splitAtOffset_byteLength (before after : List Char) :
    splitAtOffset (byteLength before) (before ++ after) = (before, after) := by
  have hnone : splitAtOffset 0 after = ([], after) := by
    cases after with
    | nil => rfl
    | cons c after => rw [splitAtOffset, if_neg (Nat.not_le.2 c.utf8Size_pos)]
  have hsplit := splitAtOffset_append before after 0
  rwa [hnone, Nat.add_zero, List.append_nil] at hsplit

/-- The line of a place is the one whose number is that of the line feeds before it. -/
lemma exists_segment_lineOf (before after : List Char) :
    ∃ whole, (segments (· == '\n') (before ++ after))[before.count '\n']? = some whole ∧
      trim (lineOf (before ++ after) (Location.start.advance before)) = trim whole := by
  refine ⟨_, getElem?_segments_count '\n' before after, ?_⟩
  have hoffset : (Location.start.advance before).offset = byteLength before :=
    (offset_advance _ _).trans (Nat.zero_add _)
  rw [lineOf, hoffset, splitAtOffset_byteLength]
  exact trim_dropCarriageReturns _

/-! ### Diagnostics -/

/-- **Diagnostics point at the text.** The place of a diagnostic for a text comes behind some of its
characters: its offset is the number of their bytes, which is on a boundary of characters, and its
line and column count their line feeds and what comes behind the last of these. The text is cut
there into what is before and what is after, and the line that is quoted is that line of the text
without the blank characters around it. -/
theorem parse_diagnostics_point (source : String) :
    ∀ diagnostic ∈ (parse source).diagnostics, ∃ error line,
      diagnostic = .malformed error line ∧
      error.place.offset ≤ source.utf8ByteSize ∧
      String.Pos.Raw.IsValid source ⟨error.place.offset⟩ ∧
      ∃ before after : String, source = before ++ after ∧
        error.place.offset = before.utf8ByteSize ∧
        splitAtOffset error.place.offset source.toList = (before.toList, after.toList) ∧
        error.place.line = before.toList.count '\n' + 1 ∧
        error.place.column = (before.toList.reverse.takeWhile (· ≠ '\n')).length + 1 ∧
        ∃ whole, (segments (· == '\n') source.toList)[error.place.line - 1]? = some whole ∧
          line = String.ofList (trim whole) := by
  intro diagnostic hdiagnostic
  have hscopes : Scopes.none.Grounded source := nofun
  obtain ⟨-, -, -, -, errors, herrors, -, hfaults⟩ := parseBlocks_wellFormed List.suffix_rfl
    (Cursor.ordered_significantTokens source) hscopes
  rw [parse, herrors] at hdiagnostic
  obtain ⟨error, herror, rfl⟩ := List.mem_map.1 hdiagnostic
  obtain ⟨fault, hfault, hplace⟩ := hfaults error herror
  obtain ⟨before, after, hsource, hbefore⟩ := Cursor.LeadsTo.liesIn hfault
  rw [← hplace] at hbefore
  have hlist : source.toList = before.toList ++ after.toList := by
    rw [hsource, String.toList_append]
  have hbytes : error.place.offset = byteLength before.toList := by
    rw [hbefore, offset_advance]
    exact Nat.zero_add _
  have hoffset : error.place.offset = before.utf8ByteSize :=
    hbytes.trans (byteLength_toList before)
  have hline : error.place.line = before.toList.count '\n' + 1 := by
    rw [hbefore, line_advance]
    exact Nat.add_comm _ _
  refine ⟨error, _, rfl, ?_, ?_, before, after, hsource, hoffset, ?_, hline, ?_, ?_⟩
  · rw [hoffset, hsource, String.utf8ByteSize_append]
    exact Nat.le_add_right _ _
  · exact String.Pos.Raw.isValid_iff_exists_append.2 ⟨_, _, hsource, congrArg _ hoffset⟩
  · rw [hbytes, hlist, splitAtOffset_byteLength]
  · rw [hbefore]
    exact column_advance _
  · obtain ⟨whole, hwhole, htrim⟩ := exists_segment_lineOf before.toList after.toList
    rw [← hlist] at hwhole
    rw [← hlist, ← hbefore] at htrim
    rw [hline, Nat.add_sub_cancel]
    exact ⟨whole, hwhole, congrArg String.ofList htrim⟩

/-- The place and the line that are shown for what is malformed. -/
def Diagnostic.pointed : Diagnostic → Location × String
  | malformed error line => (error.place, line)
  | _ => default

/-- A text with carriage returns and a character of two bytes, which ends too early. -/
theorem parse_diagnostics_point_carriageReturn :
    let source := "package p:\r\nclass A: /*\u00e9*/ @\r"
    ∃ error before after, (parse source).diagnostics = [.malformed error "class A: /*\u00e9*/ @"] ∧
      source = before ++ after ∧ error.place = ⟨2, 17, 29⟩ ∧ before.utf8ByteSize = 29 ∧
      before.toList.count '\n' = 1 := by
  intro source
  have hread : (parse source).diagnostics.map (·.pointed) =
      [(⟨2, 17, 29⟩, "class A: /*\u00e9*/ @")] := by
    decide +kernel
  obtain ⟨diagnostic, hsingle, hread⟩ := List.map_eq_singleton_iff.1 hread
  have hmem : diagnostic ∈ (parse source).diagnostics := hsingle ▸ List.mem_singleton_self _
  obtain ⟨error, line, rfl, -, -, before, after, hsource, hoffset, -, hline, -⟩ :=
    parse_diagnostics_point source diagnostic hmem
  obtain ⟨hplace, rfl⟩ := Prod.mk.inj hread
  rw [hplace] at hoffset hline
  exact ⟨error, before, after, hsingle, hsource, hplace, hoffset.symm, (Nat.succ.inj hline).symm⟩

end ExternalAnnotations
