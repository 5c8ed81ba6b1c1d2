import ExternalAnnotations.Header.Contents
import ExternalAnnotations.Proofs.Signature.Codec
import ExternalAnnotations.Proofs.Text.Segments

/-!
# Selectors and declarations

The selector of a method is made of keywords with a colon behind each, one for every parameter. A
declaration takes the selector apart at its colons. Where no name has a colon in it, it finds the
keywords again, and two methods of one name have one selector only if their parameter types are
called alike.
-/

namespace ExternalAnnotations

/-! ### Texts without colons -/

def Colonless (text : String) : Prop := ':' ∉ text.toList

instance (text : String) : Decidable (Colonless text) :=
  inferInstanceAs (Decidable (':' ∉ text.toList))

@[simp] lemma colonless_append {text other : String} :
    Colonless (text ++ other) ↔ Colonless text ∧ Colonless other := by
  simp [Colonless]

lemma colonless_repr (n : Nat) : Colonless n.repr := by
  unfold Colonless
  rw [Nat.toList_repr]
  intro hcolon
  exact absurd (Nat.isDigit_of_mem_toDigits (by omega) (by omega) hcolon) (by decide)

lemma toList_join_colons (pieces : List String) :
    (String.join (pieces.map (· ++ ":"))).toList =
      (pieces.map String.toList).flatMap (· ++ [':']) := by
  rw [String.toList_join, List.flatMap_map, List.flatMap_map]
  simp only [String.toList_append]
  rfl

lemma segments_join_colons {pieces : List String} (h : ∀ piece ∈ pieces, Colonless piece) :
    segments (· == ':') (String.join (pieces.map (· ++ ":"))).toList =
      pieces.map String.toList ++ [[]] := by
  rw [toList_join_colons]
  apply segments_flatMap_concat
  rw [List.forall_mem_map]
  exact h

lemma join_colons_inj {pieces others : List String} (h : ∀ piece ∈ pieces, Colonless piece)
    (hothers : ∀ other ∈ others, Colonless other) :
    String.join (pieces.map (· ++ ":")) = String.join (others.map (· ++ ":")) ↔
      pieces = others := by
  constructor
  · intro hjoin
    have hsegments := segments_join_colons h
    rw [hjoin, segments_join_colons hothers, List.append_left_inj] at hsegments
    exact (List.map_inj_right fun _ _ => String.toList_inj.1).1 hsegments.symm
  · rintro rfl
    rfl

lemma count_intercalate {texts : List String} (h : ∀ text ∈ texts, text.toList.count ':' = 1) :
    (" ".intercalate texts).toList.count ':' = texts.length := by
  induction texts with
  | nil => rfl
  | cons text texts ih =>
    obtain ⟨htext, htexts⟩ := List.forall_mem_cons.1 h
    cases texts with
    | nil => rw [String.intercalate_singleton, htext, List.length_singleton]
    | cons next texts =>
      have hspace : " ".toList.count ':' = 0 := by decide
      rw [String.intercalate_cons_cons, String.toList_append, String.toList_append,
        List.count_append, List.count_append, htext, hspace, ih htexts]
      simp only [List.length_cons]
      omega

/-! ### Names of types -/

lemma eq_of_ofNat_eq_colon {code : Nat} (h : Char.ofNat code = ':') : code = 58 := by
  by_cases hvalid : code.isValidChar
  · rw [Char.ofNat, dif_pos hvalid] at h
    exact congrArg Char.toNat h
  · rw [Char.ofNat, dif_neg hvalid] at h
    contradiction

lemma colon_notMem_uppercase {c : Char} (h : c ≠ ':') : ':' ∉ uppercase c := by
  have hexpansions : ∀ expansion ∈ uppercaseExpansions, 58 ∉ expansion.2 := by decide +kernel
  have hruns : ∀ run ∈ uppercaseRuns, 58 < (run.1 : Int) + run.2.2.2 := by decide +kernel
  unfold uppercase
  dsimp only
  split
  · rename_i code codes hfind
    intro hcolon
    obtain ⟨expanded, hexpanded, hchar⟩ := List.mem_map.1 hcolon
    rw [eq_of_ofNat_eq_colon hchar] at hexpanded
    exact hexpansions _ (List.mem_of_find?_eq_some hfind) hexpanded
  · split
    · rename_i first last step distance hfind
      intro hcolon
      have hcode := eq_of_ofNat_eq_colon (List.mem_singleton.1 hcolon).symm
      have hrun := hruns _ (List.mem_of_find?_eq_some hfind)
      have hwithin := List.find?_some hfind
      simp only [Bool.and_eq_true, decide_eq_true_eq] at hwithin
      dsimp only at hrun
      omega
    · exact fun hcolon => h (List.mem_singleton.1 hcolon).symm

lemma colon_notMem_capitalize {text : List Char} (h : ':' ∉ text) : ':' ∉ capitalize text := by
  cases text with
  | nil => exact h
  | cons c text =>
    rw [List.mem_cons, not_or] at h
    rw [capitalize, List.mem_append, not_or]
    exact ⟨colon_notMem_uppercase (Ne.symm h.1), h.2⟩

lemma colonless_headerClassName {name : String} (h : Colonless name) :
    Colonless (headerClassName name) := by
  unfold headerClassName
  split
  · decide
  · split
    · decide
    · unfold Colonless
      rw [String.toList_ofList, List.mem_map]
      rintro ⟨c, hc, hcolon⟩
      obtain ⟨piece, hpiece, hc⟩ := List.mem_flatMap.1 hc
      have hnone : ':' ∉ piece := fun hmem => h (subset_of_mem_segments hpiece hmem)
      split at hcolon
      · exact absurd hcolon (by decide)
      · subst hcolon
        exact colon_notMem_capitalize hnone hc

lemma Primitive.colonless_keyword (p : Primitive) : Colonless p.keyword := by
  cases p <;> decide

lemma Primitive.colonless_capitalized (p : Primitive) : Colonless p.capitalized := by
  cases p <;> decide

namespace ErasedType

/-- The name of a class type, or of that of the innermost items of an array. -/
def className? : ErasedType → Option String
  | named name => some name
  | array item => item.className?
  | _ => none

lemma className?_innermost (type : ErasedType) : type.innermost.1.className? = type.className? := by
  induction type with
  | array item ih => exact ih
  | _ => rfl

/-- What stands behind the name of the items of an array, by the number of dimensions. -/
def dimensionsText : Nat → String
  | 0 => ""
  | 1 => "Array"
  | several => "Array" ++ several.repr

lemma selectorText_eq (type : ErasedType) :
    type.selectorText = type.innermost.1.selectorBase ++ dimensionsText type.innermost.2 := by
  unfold selectorText
  congr 1

lemma colonless_selectorBase {type : ErasedType} (h : ∀ name ∈ type.className?, Colonless name) :
    Colonless type.selectorBase := by
  cases type with
  | void => decide
  | primitive p => exact p.colonless_capitalized
  | named name =>
    rw [selectorBase]
    split
    · decide
    · exact colonless_headerClassName (h name rfl)
  | array item => exact List.not_mem_nil

lemma colonless_dimensionsText (dimensions : Nat) : Colonless (dimensionsText dimensions) := by
  unfold dimensionsText
  split
  · decide
  · decide
  · exact colonless_append.2 ⟨by decide, colonless_repr _⟩

lemma colonless_selectorText {type : ErasedType} (h : ∀ name ∈ type.className?, Colonless name) :
    Colonless type.selectorText := by
  rw [← className?_innermost] at h
  rw [selectorText_eq, colonless_append]
  exact ⟨colonless_selectorBase h, colonless_dimensionsText _⟩

lemma colonless_headerText {type : ErasedType} (h : ∀ name ∈ type.className?, Colonless name) :
    Colonless type.headerText := by
  unfold headerText
  split
  · decide
  · exact colonless_append.2 ⟨by decide, Primitive.colonless_keyword _⟩
  · split
    · decide
    · exact colonless_append.2 ⟨colonless_headerClassName (h _ rfl), by decide⟩
  · simp only [colonless_append]
    exact ⟨⟨by decide, Primitive.colonless_capitalized _⟩, by decide⟩
  · decide

/-! ### Types that selectors tell apart -/

/-- Primitive types, strings and objects, and arrays of these of any number of dimensions. -/
inductive IsBasic : ErasedType → Prop
  | primitive (p : Primitive) : IsBasic (primitive p)
  | string : IsBasic (named "java.lang.String")
  | object : IsBasic (named "java.lang.Object")
  | array {item : ErasedType} : IsBasic item → IsBasic (array item)

/-- The basic types that are not arrays. -/
def basicItems : List ErasedType :=
  Primitive.all.map primitive ++ [named "java.lang.String", named "java.lang.Object"]

lemma IsBasic.innermost_mem {type : ErasedType} (h : type.IsBasic) :
    type.innermost.1 ∈ basicItems := by
  induction h with
  | primitive p => cases p <;> decide
  | string => decide
  | object => decide
  | array _ ih => exact ih

lemma eq_of_prefix_selectorBase : ∀ item ∈ basicItems, ∀ other ∈ basicItems,
    item.selectorBase.toList <+: other.selectorBase.toList → item = other := by
  decide +kernel

lemma dimensionsText_injective : Function.Injective dimensionsText := by
  have hvalue (n : Nat) : Nat.ofDigitChars 10 (Nat.toDigits 10 n) 0 = n :=
    Nat.ofDigitChars_toDigits (by decide) (by decide)
  have hnone (n : Nat) : dimensionsText (n + 1) ≠ "" := by
    cases n <;> simp [dimensionsText]
  have hsome (n : Nat) : "Array" ++ (n + 2).repr ≠ "Array" := by
    intro h
    rw [String.append_eq_left_iff] at h
    exact Nat.repr_ne_empty h
  intro m n h
  match m, n with
  | 0, 0 => rfl
  | 0, n + 1 => exact absurd h.symm (hnone n)
  | m + 1, 0 => exact absurd h (hnone m)
  | 1, 1 => rfl
  | 1, n + 2 => exact absurd h.symm (hsome n)
  | m + 2, 1 => exact absurd h (hsome m)
  | m + 2, n + 2 =>
    have hdigits := congrArg String.toList ((String.append_right_inj _).1 h)
    rw [Nat.toList_repr, Nat.toList_repr] at hdigits
    rw [← hvalue (m + 2), hdigits, hvalue]

lemma IsBasic.selectorText_inj {type other : ErasedType} (h : type.IsBasic)
    (hother : other.IsBasic) : type.selectorText = other.selectorText ↔ type = other := by
  constructor
  · intro htext
    rw [selectorText_eq, selectorText_eq] at htext
    have hlist := congrArg String.toList htext
    rw [String.toList_append, String.toList_append] at hlist
    -- both names begin the same text, so that one begins the other
    have hitem : type.innermost.1 = other.innermost.1 := by
      have htypePrefix := List.prefix_append type.innermost.1.selectorBase.toList
        (dimensionsText type.innermost.2).toList
      have hotherPrefix := List.prefix_append other.innermost.1.selectorBase.toList
        (dimensionsText other.innermost.2).toList
      rw [hlist] at htypePrefix
      rcases List.prefix_or_prefix_of_prefix htypePrefix hotherPrefix with hle | hge
      · exact eq_of_prefix_selectorBase _ h.innermost_mem _ hother.innermost_mem hle
      · exact (eq_of_prefix_selectorBase _ hother.innermost_mem _ h.innermost_mem hge).symm
    rw [hitem, String.append_right_inj] at htext
    rw [← arrayOf_innermost type, ← arrayOf_innermost other, hitem, dimensionsText_injective htext]
  · rintro rfl
    rfl

/-- Other types can be called alike. -/
example : (named "p.Box").selectorText = (named "pBox").selectorText := by decide +kernel

lemma forall₂_selectorText_iff {types others : List ErasedType}
    (h : ∀ type ∈ types, type.IsBasic) (hothers : ∀ other ∈ others, other.IsBasic) :
    List.Forall₂ (fun type other => type.selectorText = other.selectorText) types others ↔
      types = others := by
  induction types generalizing others with
  | nil => rw [List.forall₂_nil_left_iff, eq_comm]
  | cons type types ih =>
    obtain ⟨htype, htypes⟩ := List.forall_mem_cons.1 h
    cases others with
    | nil => simp
    | cons other others =>
      obtain ⟨hother, hothers⟩ := List.forall_mem_cons.1 hothers
      rw [List.forall₂_cons, htype.selectorText_inj hother, ih htypes hothers, List.cons.injEq]

end ErasedType

/-! ### Keywords -/

namespace Method

/-- The selector of the method is not given, and no name that it is made of has a colon. -/
structure HasPlainSelector (method : Method) : Prop where
  notGiven : method.givenSelector? = none
  name : Colonless method.name
  parameters : ∀ parameter ∈ method.parameters, Colonless parameter.name
  classes : ∀ type ∈ method.parameterTypes, ∀ name ∈ type.className?, Colonless name

/-- The name at the beginning of the selector. -/
def bareName (method : Method) : String := if method.isConstructor then "init" else method.name

/-- The pieces of the selector. The name stands before the first one. -/
def keywords (method : Method) : List String :=
  match selectorPieces method.parameterTypes with
  | [] => []
  | first :: others => (method.bareName ++ first) :: others

lemma length_selectorPieces (types : List ErasedType) :
    (selectorPieces types).length = types.length := by
  cases types with
  | nil => rfl
  | cons type types => rw [selectorPieces, List.length_cons, List.length_map, List.length_cons]

lemma length_keywords (method : Method) : method.keywords.length = method.parameters.length := by
  have hlength := length_selectorPieces method.parameterTypes
  rw [parameterTypes, List.length_map] at hlength
  rw [← hlength]
  unfold keywords parameterTypes
  split
  · rename_i hnil
    rw [hnil]
  · rename_i first others hcons
    rw [hcons, List.length_cons, List.length_cons]

lemma selectorPieces_written {types : List ErasedType}
    (h : ∀ type ∈ types, ∀ name ∈ type.className?, Colonless name) :
    ∀ piece ∈ selectorPieces types, piece ≠ "" ∧ Colonless piece := by
  cases types with
  | nil => exact List.forall_mem_nil _
  | cons type types =>
    obtain ⟨htype, htypes⟩ := List.forall_mem_cons.1 h
    rw [selectorPieces, List.forall_mem_cons, List.forall_mem_map]
    refine ⟨⟨by simp, ?_⟩, fun other hother => ⟨by simp, ?_⟩⟩
    · exact colonless_append.2 ⟨by decide, ErasedType.colonless_selectorText htype⟩
    · exact colonless_append.2 ⟨by decide, ErasedType.colonless_selectorText (htypes other hother)⟩

/-- The types of a list are called alike if the pieces that they add are the same. -/
lemma selectorPieces_inj {types others : List ErasedType} :
    selectorPieces types = selectorPieces others ↔
      List.Forall₂ (fun type other => type.selectorText = other.selectorText) types others := by
  have hmap (types others : List ErasedType) :
      types.map ("with" ++ ·.selectorText) = others.map ("with" ++ ·.selectorText) ↔
        List.Forall₂ (fun type other => type.selectorText = other.selectorText) types others := by
    rw [← List.forall₂_eq_eq_eq, List.forall₂_map_left_iff, List.forall₂_map_right_iff]
    simp only [String.append_right_inj]
  cases types with
  | nil => cases others <;> simp [selectorPieces]
  | cons type types =>
    cases others with
    | nil => simp [selectorPieces]
    | cons other others =>
      rw [selectorPieces, selectorPieces, List.cons.injEq, String.append_right_inj, hmap,
        List.forall₂_cons]

lemma bareName_eq {method other : Method} (hkind : method.kind = other.kind)
    (hname : method.name = other.name) : method.bareName = other.bareName := by
  unfold bareName isConstructor
  rw [hkind, hname]

lemma derivedSelector_eq (method : Method) : method.derivedSelector =
    method.bareName ++ String.join ((selectorPieces method.parameterTypes).map (· ++ ":")) := rfl

namespace HasPlainSelector

variable {method other : Method}

lemma colonless_bareName (h : method.HasPlainSelector) : Colonless method.bareName := by
  unfold bareName
  split
  · decide
  · exact h.name

lemma selector_eq_derived (h : method.HasPlainSelector) :
    method.selector = method.derivedSelector := by
  rw [selector, h.notGiven, Option.getD_none]

lemma keywords_written (h : method.HasPlainSelector) :
    ∀ keyword ∈ method.keywords, keyword ≠ "" ∧ Colonless keyword := by
  have hpieces := selectorPieces_written h.classes
  unfold keywords
  split
  · exact List.forall_mem_nil _
  · rename_i first others hcons
    rw [hcons, List.forall_mem_cons] at hpieces
    obtain ⟨⟨hne, hfirst⟩, hothers⟩ := hpieces
    refine List.forall_mem_cons.2 ⟨⟨?_, ?_⟩, hothers⟩
    · exact fun hnil => hne (String.append_eq_empty_iff.1 hnil).2
    · exact colonless_append.2 ⟨h.colonless_bareName, hfirst⟩

lemma selector_eq (h : method.HasPlainSelector) :
    method.selector = if method.keywords = [] then method.bareName
      else String.join (method.keywords.map (· ++ ":")) := by
  rw [h.selector_eq_derived, derivedSelector_eq]
  unfold keywords
  split
  · rename_i hnil
    rw [hnil, List.map_nil, String.join_nil, String.append_empty, if_pos rfl]
  · rename_i first others hcons
    rw [hcons, if_neg (List.cons_ne_nil _ _), List.map_cons, List.map_cons, String.join_cons,
      String.join_cons, ← String.append_assoc, ← String.append_assoc]

lemma selector_inj (h : method.HasPlainSelector) (hother : other.HasPlainSelector)
    (hname : method.bareName = other.bareName) :
    method.selector = other.selector ↔
      List.Forall₂ (fun type other => type.selectorText = other.selectorText)
        method.parameterTypes other.parameterTypes := by
  have hpieces := fun piece hpiece => (selectorPieces_written h.classes piece hpiece).2
  have hothers := fun piece hpiece => (selectorPieces_written hother.classes piece hpiece).2
  rw [h.selector_eq_derived, hother.selector_eq_derived, derivedSelector_eq, derivedSelector_eq,
    hname, String.append_right_inj, join_colons_inj hpieces hothers, selectorPieces_inj]

end HasPlainSelector

end Method

/-! ### Declarations -/

namespace MethodHeader

lemma pieces_eq {header : MethodHeader} {keywords : List String}
    (hselector : header.selector = String.join (keywords.map (· ++ ":")))
    (h : ∀ keyword ∈ keywords, keyword ≠ "" ∧ Colonless keyword) : header.pieces = keywords := by
  have hwritten :
      (keywords.map String.toList).filter (!·.isEmpty) = keywords.map String.toList := by
    rw [List.filter_eq_self, List.forall_mem_map]
    intro keyword hkeyword
    simpa using (h keyword hkeyword).1
  unfold pieces
  rw [hselector, segments_join_colons fun keyword hkeyword => (h keyword hkeyword).2,
    List.filter_append, hwritten, List.map_append, List.map_map]
  simp [Function.comp_def]

/-- The text between the result of a method and the semicolon: the keywords with a parameter behind
each, or the name if there is none. -/
def worded (header : MethodHeader) (name : String) (keywords : List String) : String :=
  if keywords = [] then name
  else " ".intercalate
    (List.zipWith (fun keyword parameter => keyword ++ parameter.text) keywords header.parameters)

end MethodHeader

/-- A declaration of a method shows its selector by keywords, one before each parameter. -/
structure Method.ShownBy (method : Method) (header : MethodHeader) (keywords : List String) :
    Prop where
  length : keywords.length = method.parameters.length
  written : ∀ keyword ∈ keywords, keyword ≠ "" ∧ Colonless keyword
  /-- The keywords make up the selector. -/
  selector : method.selector =
    if keywords = [] then method.bareName else String.join (keywords.map (· ++ ":"))
  declaration : header.declaration = (if method.isStatic then "+" else "-") ++ " (" ++
    markedType header.result header.resultNullability ++ ")" ++
    header.worded method.bareName keywords ++ ";"
  /-- There is no colon but the one between a keyword and its parameter. -/
  colons : (header.worded method.bareName keywords).toList.count ':' = method.parameters.length

namespace Method.ShownBy

variable {method : Method} {header : MethodHeader} {keywords others : List String}

lemma unique (h : method.ShownBy header keywords) (hothers : method.ShownBy header others) :
    keywords = others := by
  have hlength : keywords.length = others.length := h.length.trans hothers.length.symm
  by_cases hnil : keywords = []
  · rw [hnil, List.length_nil] at hlength
    rw [hnil, List.eq_nil_of_length_eq_zero hlength.symm]
  · have hother : others ≠ [] := by
      rintro rfl
      exact hnil (List.eq_nil_of_length_eq_zero hlength)
    have hjoin := h.selector.symm.trans hothers.selector
    rw [if_neg hnil, if_neg hother] at hjoin
    exact (join_colons_inj (fun keyword hkeyword => (h.written keyword hkeyword).2)
      fun keyword hkeyword => (hothers.written keyword hkeyword).2).1 hjoin

end Method.ShownBy

namespace HeaderOptions

variable (options : HeaderOptions) (program : Program) (slot : Slot) {method : Method}

lemma colonless_markedType {type : String} (h : Colonless type)
    (nullability : Option Nullability) : Colonless (markedType type nullability) := by
  unfold markedType
  refine colonless_append.2 ⟨h, ?_⟩
  rcases nullability with _ | _ | _ <;> decide

lemma count_colon_describeParameter (h : method.HasPlainSelector) {parameter : Parameter}
    (hparameter : parameter ∈ method.parameters) {keyword : String} (hkeyword : Colonless keyword) :
    (keyword ++ (options.describeParameter parameter).text).toList.count ':' = 1 := by
  have htype := ErasedType.colonless_headerText
    (h.classes _ (List.mem_map_of_mem hparameter))
  have hmarked := colonless_markedType htype (options.shown parameter.nullability?)
  have hname := h.parameters parameter hparameter
  unfold Colonless at hkeyword hmarked hname
  have hopening : ":(".toList.count ':' = 1 := by decide
  have hclosing : ")".toList.count ':' = 0 := by decide
  simp only [ParameterHeader.text, describeParameter, String.toList_append, List.count_append,
    hopening, hclosing, List.count_eq_zero.2 hkeyword, List.count_eq_zero.2 hmarked,
    List.count_eq_zero.2 hname]

lemma length_parameters_describeMethod (method : Method) :
    (options.describeMethod program slot method).parameters.length = method.parameters.length :=
  List.length_map _

lemma signature_describeMethod (h : method.HasPlainSelector) :
    (options.describeMethod program slot method).signature =
      (options.describeMethod program slot method).worded method.bareName method.keywords := by
  have hselector : (options.describeMethod program slot method).selector = method.selector := rfl
  have hparameters := options.length_parameters_describeMethod program slot method
  have hlength := method.length_keywords
  unfold MethodHeader.signature MethodHeader.worded
  by_cases hnil : method.keywords = []
  · rw [hnil, List.length_nil] at hlength
    rw [if_pos hnil, if_pos (List.isEmpty_iff_length_eq_zero.2 (hparameters.trans hlength.symm)),
      hselector, h.selector_eq, if_pos hnil]
  · have hpieces : (options.describeMethod program slot method).pieces = method.keywords := by
      apply MethodHeader.pieces_eq _ h.keywords_written
      rw [hselector, h.selector_eq, if_neg hnil]
    have hsome : ¬(options.describeMethod program slot method).parameters.isEmpty = true := by
      rw [List.isEmpty_iff_length_eq_zero, hparameters, ← hlength, List.length_eq_zero_iff]
      exact hnil
    rw [if_neg hnil, if_neg hsome, hpieces, if_pos (hlength.trans hparameters.symm)]

lemma count_colon_worded (h : method.HasPlainSelector) :
    ((options.describeMethod program slot method).worded method.bareName
      method.keywords).toList.count ':' = method.parameters.length := by
  have hlength := method.length_keywords
  unfold MethodHeader.worded
  split
  · rename_i hnil
    rw [hnil, List.length_nil] at hlength
    rw [← hlength]
    exact List.count_eq_zero.2 h.colonless_bareName
  · rw [count_intercalate]
    · rw [List.length_zipWith, hlength, options.length_parameters_describeMethod, Nat.min_self]
    · intro text htext
      rw [← List.map_uncurry_zip_eq_zipWith] at htext
      obtain ⟨⟨keyword, described⟩, hpair, rfl⟩ := List.mem_map.1 htext
      obtain ⟨hkeyword, hdescribed⟩ := List.of_mem_zip hpair
      obtain ⟨parameter, hparameter, rfl⟩ := List.mem_map.1 hdescribed
      exact options.count_colon_describeParameter h hparameter (h.keywords_written _ hkeyword).2

lemma shownBy_describeMethod (h : method.HasPlainSelector) :
    method.ShownBy (options.describeMethod program slot method) method.keywords where
  length := method.length_keywords
  written := h.keywords_written
  selector := h.selector_eq
  declaration := by
    unfold MethodHeader.declaration
    rw [options.signature_describeMethod program slot h]
    rfl
  colons := options.count_colon_worded program slot h

end HeaderOptions

/-- **Declarations and selectors agree.** The declaration of a method whose selector is not given
has a keyword for each parameter, and the keywords make up the selector. Methods of one kind and
name have one selector if and only if their parameter types are called alike, one by one, and basic
types are called alike only if they are the same. -/
theorem declaration_agrees_with_selector (options : HeaderOptions) (program : Program) (slot : Slot)
    {method : Method} (h : method.HasPlainSelector) :
    (∃! keywords, method.ShownBy (options.describeMethod program slot method) keywords) ∧
      ∀ other : Method, other.HasPlainSelector → method.kind = other.kind →
        method.name = other.name →
        (method.selector = other.selector ↔
          List.Forall₂ (fun type other => type.selectorText = other.selectorText)
            method.parameterTypes other.parameterTypes) ∧
        ((∀ type ∈ method.parameterTypes, type.IsBasic) →
          (∀ type ∈ other.parameterTypes, type.IsBasic) →
          (method.selector = other.selector ↔ method.parameterTypes = other.parameterTypes)) := by
  have hshown := options.shownBy_describeMethod program slot h
  refine ⟨⟨_, hshown, fun keywords hkeywords => hkeywords.unique hshown⟩, ?_⟩
  intro other hother hkind hname
  have hinj := h.selector_inj hother (Method.bareName_eq hkind hname)
  refine ⟨hinj, fun htypes hothers => ?_⟩
  rw [hinj, ErasedType.forall₂_selectorText_iff htypes hothers]

/-- A method that draws a grid of a number of dimensions under a title. -/
def drawing (dimensions : Nat) : Method :=
  { Method.ofName "draw" with
    parameters :=
      [⟨"grid", .plain (.arrayOf dimensions (.primitive .int)), []⟩,
        ⟨"title", .plain (.named "java.lang.String"), []⟩] }

theorem declaration_agrees_with_selector_drawing :
    (drawing 2).HasPlainSelector ∧ (drawing 1).HasPlainSelector ∧
      (∃ keywords, keywords.length = 2 ∧
        (drawing 2).ShownBy (HeaderOptions.describeMethod ⟨true, false⟩ {} 0 (drawing 2))
          keywords) ∧
      (drawing 2).selector ≠ (drawing 1).selector ∧
      (HeaderOptions.describeMethod ⟨true, false⟩ {} 0 (drawing 2)).declaration =
        "- (void)drawWithIntArray2:(IOSObjectArray *)grid withNSString:(NSString *)title;" := by
  have hgrid : (drawing 2).HasPlainSelector := ⟨rfl, by decide, by decide, by decide⟩
  have hrow : (drawing 1).HasPlainSelector := ⟨rfl, by decide, by decide, by decide⟩
  have hgridTypes : ∀ type ∈ (drawing 2).parameterTypes, type.IsBasic :=
    List.forall_mem_cons.2 ⟨.array (.array (.primitive .int)), List.forall_mem_singleton.2 .string⟩
  have hrowTypes : ∀ type ∈ (drawing 1).parameterTypes, type.IsBasic :=
    List.forall_mem_cons.2 ⟨.array (.primitive .int), List.forall_mem_singleton.2 .string⟩
  obtain ⟨⟨keywords, hshown, -⟩, hselectors⟩ :=
    declaration_agrees_with_selector ⟨true, false⟩ {} 0 hgrid
  have hinj := (hselectors _ hrow rfl rfl).2 hgridTypes hrowTypes
  refine ⟨hgrid, hrow, ⟨keywords, hshown.length, hshown⟩, ?_, ?_⟩
  · rw [Ne, hinj]
    decide
  · decide +kernel

end ExternalAnnotations
