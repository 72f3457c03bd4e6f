import Reckoner.Config

set_option autoImplicit false

namespace Reckoner

namespace Lexicon

variable {s t : String}

theorem exists_eq_append_of_isPrefix (front : s.toList <+: t.toList) : ∃ u, t = s ++ u := by
  obtain ⟨rest, whole⟩ := front
  refine ⟨String.ofList rest, ?_⟩
  rw [← String.toList_inj, String.toList_append, String.toList_ofList, whole]

theorem utf8ByteSize_le_of_isPrefix (front : s.toList <+: t.toList) :
    s.utf8ByteSize ≤ t.utf8ByteSize := by
  obtain ⟨u, rfl⟩ := exists_eq_append_of_isPrefix front
  rw [String.utf8ByteSize_append]
  omega

theorem eq_of_isPrefix (front : s.toList <+: t.toList) (size : t.utf8ByteSize ≤ s.utf8ByteSize) :
    s = t := by
  obtain ⟨u, rfl⟩ := exists_eq_append_of_isPrefix front
  rw [String.utf8ByteSize_append] at size
  have nothing : u.utf8ByteSize = 0 := by omega
  rw [String.utf8ByteSize_eq_zero_iff] at nothing
  rw [nothing, String.append_empty]

/-- Of two symbols that fit the same text neither comes before the other unless it is longer. -/
theorem ComesBefore.longer {cs : List Char} (before : ComesBefore s t)
    (first : s.toList <+: cs) (second : t.toList <+: cs) : t.utf8ByteSize < s.utf8ByteSize := by
  rcases before with longer | ⟨even, smaller⟩
  · exact longer
  · have same : s = t := by
      rcases List.prefix_or_prefix_of_prefix first second with front | front
      · exact eq_of_isPrefix front (by omega)
      · exact (eq_of_isPrefix front (by omega)).symm
    rw [same] at smaller
    exact absurd smaller (String.lt_irrefl t)

theorem fits_iff {cs : List Char} :
    (!s.isEmpty && s.toList.isPrefixOf cs) = true ↔ s ≠ "" ∧ s.toList <+: cs := by
  simp only [Bool.and_eq_true, Bool.not_eq_true', String.isEmpty_eq_false_iff, ne_eq,
    List.isPrefixOf_iff_prefix]

end Lexicon

namespace Config

open Lexicon

variable {φ : Type} {c : Config φ} {cs : List Char} {symbol : String}

/-- The keys of a table ascend, so the order of the symbols is settled. -/
theorem pairwise_symbols (c : Config φ) : c.symbols.Pairwise ComesBefore :=
  pairwise_longestFirst (c.operators.ordered_keys.imp compareOfLessAndEq_eq_lt.1)

theorem nodup_symbols (c : Config φ) : c.symbols.Nodup :=
  (longestFirst_perm _).nodup_iff.2 Std.TreeMap.nodup_keys

/-- The symbols of the operators have one order only. -/
theorem symbols_eq {symbols : List String} (same : ∀ s, s ∈ symbols ↔ s ∈ c.operators)
    (ordered : symbols.Pairwise ComesBefore) : c.symbols = symbols := by
  have distinct : symbols.Nodup := ordered.imp fun {s t} before => by
    rintro rfl
    exact before.asymm before
  have perm : c.symbols.Perm symbols := by
    rw [List.perm_ext_iff_of_nodup c.nodup_symbols distinct]
    exact fun s => by rw [mem_symbols, same s]
  exact perm.eq_of_pairwise (fun s t _ _ before after => absurd after before.asymm)
    c.pairwise_symbols ordered

theorem symbolAt?_eq_none_iff :
    c.lexicon.symbolAt? cs = none ↔ ∀ s ∈ c.symbols, s ≠ "" → ¬ s.toList <+: cs := by
  rw [symbolAt?, List.find?_eq_none]
  refine forall₂_congr fun s _ => ?_
  rw [fits_iff, not_and]

/-- The symbol that a text begins with is the longest of those at its front. -/
theorem symbolAt?_eq_some_iff :
    c.lexicon.symbolAt? cs = some symbol ↔
      symbol ∈ c.symbols ∧ symbol ≠ "" ∧ symbol.toList <+: cs ∧
        ∀ s ∈ c.symbols, s.toList <+: cs → s.utf8ByteSize ≤ symbol.utf8ByteSize := by
  have ordered := c.pairwise_symbols
  rw [symbolAt?, List.find?_eq_some_iff_append, fits_iff]
  constructor
  · rintro ⟨⟨nonempty, front⟩, before, after, split, passed⟩
    have member : symbol ∈ c.symbols := by
      change symbol ∈ c.lexicon.symbols
      rw [split]
      exact List.mem_append_right _ List.mem_cons_self
    refine ⟨member, nonempty, front, fun s known fits => ?_⟩
    by_cases empty : s = ""
    · rw [empty]
      exact Nat.zero_le _
    · change s ∈ c.lexicon.symbols at known
      rw [split, List.mem_append, List.mem_cons] at known
      rcases known with earlier | rfl | later
      · have skipped := passed s earlier
        rw [Bool.not_eq_true', ← Bool.not_eq_true, fits_iff] at skipped
        exact absurd ⟨empty, fits⟩ skipped
      · exact Nat.le_refl _
      · change c.lexicon.symbols.Pairwise _ at ordered
        rw [split, List.pairwise_append, List.pairwise_cons] at ordered
        exact Nat.le_of_lt ((ordered.2.1.1 s later).longer front fits)
  · rintro ⟨member, nonempty, front, longest⟩
    obtain ⟨before, after, split⟩ := List.append_of_mem member
    refine ⟨⟨nonempty, front⟩, before, after, split, fun s earlier => ?_⟩
    rw [Bool.not_eq_true', ← Bool.not_eq_true, fits_iff]
    rintro ⟨_, fits⟩
    rw [split, List.pairwise_append] at ordered
    have sooner : ComesBefore s symbol := ordered.2.2 s earlier symbol List.mem_cons_self
    have known : s ∈ c.symbols := by
      rw [split]
      exact List.mem_append_left _ earlier
    have size := longest s known fits
    have longer := sooner.longer fits front
    omega

end Config

end Reckoner
