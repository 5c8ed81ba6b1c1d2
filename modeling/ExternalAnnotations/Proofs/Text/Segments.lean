import ExternalAnnotations.Text.Segments
import Mathlib.Data.List.TakeWhile
import Mathlib.Tactic

/-!
# Pieces of a text

The pieces between separators make up the text again, and pieces without separators are found again
in the text that they make up. A place in a text lies in the piece whose number is that of the
separators before it.
-/

namespace ExternalAnnotations

lemma segments_ne_nil (isSeparator : Char → Bool) (text : List Char) :
    segments isSeparator text ≠ [] := by
  cases text with
  | nil => simp [segments]
  | cons c text =>
    rw [segments]
    split
    · split <;> simp
    · simp

lemma segments_join {separator : Char} {text first : List Char} {others : List (List Char)}
    (h : segments (· == separator) text = first :: others) :
    text = first ++ others.flatMap (separator :: ·) := by
  induction text generalizing first others with
  | nil =>
    obtain ⟨rfl, rfl⟩ := List.cons.inj h
    rfl
  | cons c text ih =>
    obtain ⟨next, rest, hrest⟩ :=
      List.exists_cons_of_ne_nil (segments_ne_nil (· == separator) text)
    rw [segments, hrest] at h
    dsimp only at h
    split at h
    · rename_i hc
      obtain ⟨rfl, rfl⟩ := List.cons.inj h
      rw [ih hrest, eq_of_beq hc]
      rfl
    · obtain ⟨rfl, rfl⟩ := List.cons.inj h
      rw [ih hrest]
      rfl

lemma subset_of_mem_segments {separator : Char} {text piece : List Char}
    (h : piece ∈ segments (· == separator) text) : piece ⊆ text := by
  obtain ⟨first, others, hpieces⟩ :=
    List.exists_cons_of_ne_nil (segments_ne_nil (· == separator) text)
  rw [hpieces] at h
  rw [segments_join hpieces]
  rcases List.mem_cons.1 h with rfl | hother
  · exact List.subset_append_left _ _
  · intro c hc
    apply List.mem_append_right
    exact List.mem_flatMap.2 ⟨piece, hother, List.mem_cons_of_mem _ hc⟩

lemma segments_of_notMem {separator : Char} {text : List Char} (h : separator ∉ text) :
    segments (· == separator) text = [text] := by
  induction text with
  | nil => rfl
  | cons c text ih =>
    simp only [List.mem_cons, not_or] at h
    have hc : (c == separator) = false := beq_eq_false_iff_ne.2 (Ne.symm h.1)
    rw [segments, ih h.2]
    simp [hc]

lemma segments_append_cons {separator : Char} {first : List Char} (h : separator ∉ first)
    (others : List Char) : segments (· == separator) (first ++ separator :: others) =
      first :: segments (· == separator) others := by
  induction first with
  | nil =>
    obtain ⟨next, rest, hrest⟩ :=
      List.exists_cons_of_ne_nil (segments_ne_nil (· == separator) others)
    rw [List.nil_append, segments, hrest]
    simp
  | cons c first ih =>
    simp only [List.mem_cons, not_or] at h
    have hc : (c == separator) = false := beq_eq_false_iff_ne.2 (Ne.symm h.1)
    rw [List.cons_append, segments, ih h.2]
    simp [hc]

/-- Pieces without the separator are found again in the text that they make up. -/
lemma segments_flatMap {separator : Char} {first : List Char} {others : List (List Char)}
    (hfirst : separator ∉ first) (h : ∀ other ∈ others, separator ∉ other) :
    segments (· == separator) (first ++ others.flatMap (separator :: ·)) = first :: others := by
  induction others generalizing first with
  | nil => rw [List.flatMap_nil, List.append_nil, segments_of_notMem hfirst]
  | cons other others ih =>
    obtain ⟨hother, hothers⟩ := List.forall_mem_cons.1 h
    rw [List.flatMap_cons, List.cons_append, segments_append_cons hfirst, ih hother hothers]

lemma segments_flatMap_concat {separator : Char} {pieces : List (List Char)}
    (h : ∀ piece ∈ pieces, separator ∉ piece) :
    segments (· == separator) (pieces.flatMap (· ++ [separator])) = pieces ++ [[]] := by
  induction pieces with
  | nil => rfl
  | cons piece pieces ih =>
    obtain ⟨hpiece, hpieces⟩ := List.forall_mem_cons.1 h
    rw [List.flatMap_cons, List.append_assoc, List.singleton_append, segments_append_cons hpiece,
      ih hpieces, List.cons_append]

lemma takeWhile_eq_self_of_notMem {separator : Char} {text : List Char} (h : separator ∉ text) :
    text.takeWhile (· ≠ separator) = text := by
  refine List.takeWhile_eq_self_iff.2 fun c hc => ?_
  simpa using ne_of_mem_of_not_mem hc h

lemma takeWhile_append_separator {separator : Char} {first : List Char} (h : separator ∉ first)
    (others : List Char) :
    (first ++ separator :: others).takeWhile (· ≠ separator) = first := by
  rw [List.takeWhile_append, takeWhile_eq_self_of_notMem h, if_pos rfl,
    List.takeWhile_cons_of_neg (by simp), List.append_nil]

lemma head?_segments (separator : Char) (text : List Char) :
    (segments (· == separator) text).head? = some (text.takeWhile (· ≠ separator)) := by
  by_cases hmem : separator ∈ text
  · obtain ⟨first, others, rfl, hfirst⟩ := List.eq_append_cons_of_mem hmem
    rw [segments_append_cons hfirst, takeWhile_append_separator hfirst]
    rfl
  · rw [segments_of_notMem hmem, takeWhile_eq_self_of_notMem hmem]
    rfl

/-- The piece around a place: what comes since the last separator, and up to the next one. -/
lemma getElem?_segments_count (separator : Char) (before after : List Char) :
    (segments (· == separator) (before ++ after))[before.count separator]? =
      some ((before.reverse.takeWhile (· ≠ separator)).reverse ++
        after.takeWhile (· ≠ separator)) := by
  induction hlength : before.length using Nat.strong_induction_on generalizing before with
  | _ length ih =>
    by_cases hmem : separator ∈ before
    · obtain ⟨first, others, rfl, hfirst⟩ := List.eq_append_cons_of_mem hmem
      have hshorter : others.length < length := by
        rw [← hlength, List.length_append, List.length_cons]
        omega
      have hcount :
        (first ++ separator :: others).count separator = others.count separator + 1 := by
        rw [List.count_append, List.count_eq_zero_of_not_mem hfirst, List.count_cons_self,
          Nat.zero_add]
      have hlast : (first ++ separator :: others).reverse.takeWhile (· ≠ separator) =
          others.reverse.takeWhile (· ≠ separator) := by
        rw [List.reverse_append, List.reverse_cons, List.append_assoc, List.takeWhile_append]
        split
        · rename_i hall
          rw [List.singleton_append, List.takeWhile_cons_of_neg (by simp), List.append_nil]
          exact ((List.takeWhile_prefix _).eq_of_length hall).symm
        · rfl
      rw [List.append_assoc, List.cons_append, segments_append_cons hfirst, hcount,
        List.getElem?_cons_succ, ih _ hshorter others rfl, hlast]
    · have hreverse : separator ∉ before.reverse := by simpa using hmem
      rw [List.count_eq_zero_of_not_mem hmem, ← List.head?_eq_getElem?, head?_segments,
        takeWhile_eq_self_of_notMem hreverse, List.reverse_reverse, List.takeWhile_append,
        takeWhile_eq_self_of_notMem hmem, if_pos rfl]

end ExternalAnnotations
