set_option autoImplicit false

/-!
The order in which operator symbols are tried: longer ones first, so that the first symbol that
stands at the front of a text is the longest.

The sort looks at nothing but the lengths. It is stable, so symbols of one length stay in the order
in which a table has its keys, which is that of the symbols themselves.
-/

namespace Reckoner.Lexicon

/-- Whether `s` may be tried before `t`: whether it takes as many bytes in UTF-8. -/
def asLong (s t : String) : Bool :=
  t.utf8ByteSize ≤ s.utf8ByteSize

def longestFirst (symbols : List String) : List String :=
  symbols.mergeSort asLong

theorem asLong_iff {s t : String} : asLong s t ↔ t.utf8ByteSize ≤ s.utf8ByteSize :=
  decide_eq_true_iff

theorem asLong_trans (s t u : String) (first : asLong s t) (second : asLong t u) : asLong s u := by
  rw [asLong_iff] at first second ⊢
  omega

theorem asLong_total (s t : String) : asLong s t || asLong t s := by
  rw [Bool.or_eq_true, asLong_iff, asLong_iff]
  omega

theorem longestFirst_perm (symbols : List String) : (longestFirst symbols).Perm symbols :=
  List.mergeSort_perm symbols asLong

@[simp] theorem mem_longestFirst {s : String} {symbols : List String} :
    s ∈ longestFirst symbols ↔ s ∈ symbols :=
  List.mem_mergeSort

/-- The symbols of one length stay in their order. -/
theorem filter_longestFirst (size : Nat) (symbols : List String) :
    (longestFirst symbols).filter (·.utf8ByteSize == size) =
      symbols.filter (·.utf8ByteSize == size) := by
  have even : (symbols.filter (·.utf8ByteSize == size)).Pairwise fun s t => asLong s t := by
    refine List.pairwise_of_forall_mem_list fun s first t second => ?_
    have here : s.utf8ByteSize = size := beq_iff_eq.1 (List.mem_filter.1 first).2
    have there : t.utf8ByteSize = size := beq_iff_eq.1 (List.mem_filter.1 second).2
    rw [asLong_iff]
    omega
  have kept : (symbols.filter (·.utf8ByteSize == size)).Sublist (longestFirst symbols) :=
    List.sublist_mergeSort asLong_trans asLong_total even List.filter_sublist
  have among := kept.filter (·.utf8ByteSize == size)
  rw [List.filter_filter] at among
  simp only [Bool.and_self] at among
  have size_eq := ((longestFirst_perm symbols).filter (·.utf8ByteSize == size)).length_eq
  exact (among.eq_of_length size_eq.symm).symm

/-- Whether `s` is tried before `t`, if the symbols came in ascending order: it is the longer, or as
long and the smaller. -/
def ComesBefore (s t : String) : Prop :=
  t.utf8ByteSize < s.utf8ByteSize ∨ (t.utf8ByteSize = s.utf8ByteSize ∧ s < t)

instance (s t : String) : Decidable (ComesBefore s t) :=
  inferInstanceAs (Decidable (_ ∨ _))

theorem ComesBefore.asymm {s t : String} (before : ComesBefore s t) : ¬ ComesBefore t s := by
  intro after
  rcases before with longer | ⟨even, smaller⟩ <;> rcases after with longer' | ⟨even', smaller'⟩
  · omega
  · omega
  · omega
  · exact String.lt_irrefl s (String.lt_trans smaller smaller')

/-- Ascending symbols are put in order by their lengths, and ties by the symbols themselves. -/
theorem pairwise_longestFirst {symbols : List String} (ascending : symbols.Pairwise (· < ·)) :
    (longestFirst symbols).Pairwise ComesBefore := by
  rw [List.pairwise_iff_forall_sublist]
  intro s t order
  have sorted := List.pairwise_mergeSort asLong_trans asLong_total symbols
  have long := asLong_iff.1 (List.pairwise_iff_forall_sublist.1 sorted order)
  rcases Nat.lt_or_eq_of_le long with longer | even
  · exact .inl longer
  · have tied := order.filter (·.utf8ByteSize == s.utf8ByteSize)
    rw [filter_longestFirst] at tied
    simp only [List.filter_cons, even, beq_self_eq_true, if_true, List.filter_nil] at tied
    exact .inr ⟨even, List.pairwise_iff_forall_sublist.1 ascending (tied.trans List.filter_sublist)⟩

end Reckoner.Lexicon
