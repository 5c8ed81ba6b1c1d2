import ExternalAnnotations.Proofs.Index.Alike
import ExternalAnnotations.Proofs.Index.Soundness

/-!
# What ends a text without diagnostics

The tokens of a text that is parsed without a diagnostic are all known, and the last of them ends
whatever it belongs to. A keyword that comes next is then no part of a name.
-/

namespace ExternalAnnotations

open scoped Computability

namespace Production

def known : Language Token := {tokens | ∀ token ∈ tokens, token.kind ≠ .unknown}

/-- Known tokens of which the last one does not make a name of what follows. -/
def ended : Language Token :=
  {tokens | tokens ∈ known ∧ ∀ last ∈ tokens.getLast?, last.kind.bindsName = false}

variable {l m : Language Token}

lemma ended_le_known : ended ≤ known := fun _ h => h.1

lemma ends_of_kind {kind : TokenKind}
    (h : kind.isName = true ∨ kind.isKeyword = true ∨ kind.isLiteral = true) :
    kind ≠ .unknown ∧ kind.bindsName = false := by
  revert h
  cases kind <;> decide

lemma one_le_known {isIn : Token → Prop} (h : ∀ token, isIn token → token.kind ≠ .unknown) :
    one isIn ≤ known := by
  rintro _ ⟨token, hin, rfl⟩ token' htoken
  obtain rfl := List.mem_singleton.1 htoken
  exact h _ hin

lemma one_le_ended {isIn : Token → Prop}
    (h : ∀ token, isIn token → token.kind ≠ .unknown ∧ token.kind.bindsName = false) :
    one isIn ≤ ended := by
  intro tokens htokens
  refine ⟨one_le_known (fun token hin => (h token hin).1) htokens, ?_⟩
  obtain ⟨token, hin, rfl⟩ := htokens
  intro last hlast
  obtain rfl := Option.some.inj hlast
  exact (h _ hin).2

lemma word_le_ended {kind : TokenKind} (h : kind ≠ .unknown ∧ kind.bindsName = false) :
    word kind ≤ ended := by
  refine one_le_ended fun token htoken => ?_
  rw [htoken]
  exact h

lemma word_le_known {kind : TokenKind} (h : kind ≠ .unknown) : word kind ≤ known := by
  refine one_le_known fun token htoken => ?_
  rw [htoken]
  exact h

lemma mul_le_known (hl : l ≤ known) (hm : m ≤ known) : l * m ≤ known := by
  rintro _ ⟨first, hfirst, second, hsecond, rfl⟩ token htoken
  obtain htoken | htoken := List.mem_append.1 htoken
  · exact hl hfirst token htoken
  · exact hm hsecond token htoken

lemma mul_le_ended (hl : l ≤ ended) (hm : m ≤ ended) : l * m ≤ ended := by
  intro tokens htokens
  refine ⟨mul_le_known (hl.trans ended_le_known) (hm.trans ended_le_known) htokens, ?_⟩
  obtain ⟨first, hfirst, second, hsecond, rfl⟩ := htokens
  intro last hlast
  change last ∈ (first ++ second).getLast? at hlast
  rw [List.getLast?_append, Option.mem_def, Option.or_eq_some_iff] at hlast
  obtain hlast | ⟨-, hlast⟩ := hlast
  · exact (hm hsecond).2 last hlast
  · exact (hl hfirst).2 last hlast

lemma mul_le_ended_of_nil_notMem (hl : l ≤ known) (hm : m ≤ ended) (hnil : [] ∉ m) :
    l * m ≤ ended := by
  intro tokens htokens
  refine ⟨mul_le_known hl (hm.trans ended_le_known) htokens, ?_⟩
  obtain ⟨first, hfirst, second, hsecond, rfl⟩ := htokens
  intro last hlast
  change last ∈ (first ++ second).getLast? at hlast
  have hne : second ≠ [] := by
    rintro rfl
    exact hnil hsecond
  rw [List.getLast?_append_of_ne_nil _ hne] at hlast
  exact (hm hsecond).2 last hlast

lemma unit_le_ended : (1 : Language Token) ≤ ended := by
  rintro tokens htokens
  obtain rfl : tokens = [] := htokens
  exact ⟨nofun, nofun⟩

lemma opt_le_ended (hl : l ≤ ended) : opt l ≤ ended := sup_le unit_le_ended hl

lemma kstar_le_ended (hl : l ≤ ended) : l∗ ≤ ended := by
  have hstep : l * ended ≤ ended := mul_le_ended hl le_rfl
  calc l∗ = l∗ * 1 := (mul_one _).symm
    _ ≤ l∗ * ended := mul_le_mul' le_rfl unit_le_ended
    _ ≤ ended := kstar_mul_le_self hstep

lemma separated_le_ended (hl : l ≤ ended) : separated l ≤ ended :=
  mul_le_ended hl (kstar_le_ended (mul_le_ended (word_le_ended (by decide)) hl))

lemma name_le_ended : name ≤ ended := one_le_ended fun _ htoken => ends_of_kind (.inl htoken)

lemma qualifiedName_le_ended : qualifiedName ≤ ended := by
  have hdot : word .dot * name ≤ ended :=
    mul_le_ended_of_nil_notMem (word_le_known (by decide)) name_le_ended nil_notMem_one
  exact mul_le_ended name_le_ended (kstar_le_ended hdot)

/-! ### Annotations and values -/

lemma elementName_le_ended : Dialect.accepted.elementName ≤ ended := by
  refine one_le_ended ?_
  rintro token (hidentifier | hkeyword)
  · rw [hidentifier]
    decide
  · exact ends_of_kind (.inr (.inl hkeyword.1))

lemma useOf_le_ended (hl : l ≤ ended) : useOf .accepted l ≤ ended := by
  have htype : word .atSign * qualifiedName ≤ ended :=
    mul_le_ended_of_nil_notMem (word_le_known (by decide)) qualifiedName_le_ended
      nil_notMem_one_mul
  have hargument : Dialect.accepted.elementName * word .equals * l ≤ ended :=
    mul_le_ended (mul_le_ended elementName_le_ended (word_le_ended (by decide))) hl
  have harguments : l + separated (Dialect.accepted.elementName * word .equals * l) +
      Dialect.accepted.noArguments ≤ ended :=
    sup_le (sup_le hl (separated_le_ended hargument)) unit_le_ended
  exact mul_le_ended htype (opt_le_ended (mul_le_ended
    (mul_le_ended (word_le_ended (by decide)) harguments) (word_le_ended (by decide))))

lemma value_le_ended : value .accepted ≤ ended := by
  apply OrderHom.lfp_le
  have hliteral : literal ≤ ended :=
    one_le_ended fun _ htoken => ends_of_kind (.inr (.inr htoken.1))
  have hclass : word .dot * word .classWord ≤ ended :=
    mul_le_ended_of_nil_notMem (word_le_known (by decide)) (word_le_ended (by decide))
      nil_notMem_one
  have harray : word .openBrace * opt (separated ended) * word .closeBrace ≤ ended :=
    mul_le_ended (mul_le_ended (word_le_ended (by decide))
      (opt_le_ended (separated_le_ended le_rfl))) (word_le_ended (by decide))
  exact sup_le (sup_le (sup_le hliteral
    (mul_le_ended qualifiedName_le_ended (opt_le_ended hclass))) harray) (useOf_le_ended le_rfl)

lemma uses_le_ended : uses .accepted ≤ ended := kstar_le_ended (useOf_le_ended value_le_ended)

/-! ### Blocks -/

lemma element_le_ended : element .accepted ≤ ended := by
  have hnamed : ∀ kind, kind ≠ TokenKind.unknown ∧ kind.bindsName = false →
      word kind * qualifiedName ≤ ended :=
    fun kind hkind => mul_le_ended (word_le_ended hkind) qualifiedName_le_ended
  have htypeName : Dialect.accepted.typeName ≤ ended := fun _ h => qualifiedName_le_ended h.1
  have hbrackets : word .openBracket * word .closeBracket ≤ ended :=
    mul_le_ended (word_le_ended (by decide)) (word_le_ended (by decide))
  have htype : elementType .accepted ≤ ended :=
    mul_le_ended (sup_le (sup_le htypeName (hnamed _ (by decide))) (hnamed _ (by decide)))
      (kstar_le_ended hbrackets)
  exact mul_le_ended (mul_le_ended htype elementName_le_ended)
    (opt_le_ended (mul_le_ended (word_le_ended (by decide)) value_le_ended))

lemma declaration_le_ended : declaration .accepted ≤ ended := by
  have hkeyword : word .annotationWord * word .atSign ≤ known :=
    mul_le_known (word_le_known (by decide)) (word_le_known (by decide))
  have hhead : word .annotationWord * word .atSign * name ≤ ended :=
    mul_le_ended_of_nil_notMem hkeyword name_le_ended nil_notMem_one
  exact mul_le_ended (mul_le_ended (mul_le_ended hhead (word_le_ended (by decide)))
    uses_le_ended) (kstar_le_ended element_le_ended)

lemma header_le_ended (hl : l ≤ known) : l * word .colon * uses .accepted ≤ ended :=
  mul_le_ended (mul_le_ended_of_nil_notMem hl (word_le_ended (by decide)) nil_notMem_one)
    uses_le_ended

lemma descriptor_le_known : descriptor ≤ known := by
  rintro _ ⟨⟨opening, parts, rfl, hopening, hparts⟩, -⟩ token htoken
  obtain rfl | htoken := List.mem_cons.1 htoken
  · rw [hopening]
    decide
  · intro hunknown
    have hfits := hparts token htoken
    rw [hunknown] at hfits
    contradiction

lemma member_le_ended : member .accepted ≤ ended := by
  have hname : name ≤ known := name_le_ended.trans ended_le_known
  have hresult : resultSection .accepted ≤ ended := header_le_ended (word_le_known (by decide))
  have htype : typeSection .accepted ≤ ended := header_le_ended (word_le_known (by decide))
  have hposition : position ≤ known := one_le_known fun token htoken => by
    rw [htoken.1]
    decide
  have hparameter : parameterSection .accepted ≤ ended :=
    mul_le_ended (header_le_ended (mul_le_known
      (mul_le_known (word_le_known (by decide)) (word_le_known (by decide))) hposition))
        (opt_le_ended htype)
  have hmethodName : name + word .specialName ≤ known :=
    sup_le hname (word_le_known (by decide))
  have hmethod : method .accepted ≤ ended :=
    mul_le_ended (header_le_ended (mul_le_known
      (mul_le_known (word_le_known (by decide)) hmethodName) descriptor_le_known))
        (kstar_le_ended (sup_le hresult hparameter))
  have hfield : field .accepted ≤ ended :=
    mul_le_ended (header_le_ended (mul_le_known (word_le_known (by decide)) hname))
      (opt_le_ended htype)
  exact sup_le hmethod hfield

lemma blocks_le_ended : blocks .accepted ≤ ended := by
  have hitem : member .accepted + declaration .accepted ≤ ended :=
    sup_le member_le_ended declaration_le_ended
  have hclass : classHead .accepted ≤ ended :=
    header_le_ended (mul_le_known (word_le_known (by decide))
      (name_le_ended.trans ended_le_known))
  have hclasses : classes .accepted ≤ ended :=
    kstar_le_ended (mul_le_ended hclass (kstar_le_ended hitem))
  have hpackage : packageHead ≤ ended :=
    mul_le_ended (mul_le_ended (word_le_ended (by decide)) (opt_le_ended qualifiedName_le_ended))
      (word_le_ended (by decide))
  have hpackages : packages .accepted ≤ ended :=
    kstar_le_ended (mul_le_ended hpackage
      (mul_le_ended (kstar_le_ended declaration_le_ended) hclasses))
  exact mul_le_ended (kstar_le_ended declaration_le_ended) (mul_le_ended hclasses hpackages)

end Production

end ExternalAnnotations
