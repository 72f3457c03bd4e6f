import Reckoner.Evaluation
import Reckoner.Proofs.Term.Basic

set_option autoImplicit false

namespace Reckoner

variable {φ : Type}

theorem Mark.isRead_operator (symbol : Term.Symbol) :
    (operator symbol).IsRead (Config.standard : Config φ).lexicon :=
  Standard.reads_symbol symbol.property

theorem Mark.isRead_of_bracket {m : Mark} {c : Char}
    (bracket : Lexicon.bracket? c = some m.kind) (written : m.text.toList = [c]) :
    m.IsRead (Config.standard : Config φ).lexicon := by
  rw [IsRead, written]
  exact Standard.reads_bracket bracket

namespace Term

theorem Numeral.isRead (n : Numeral) :
    (Mark.number n.raw).IsRead (Config.standard : Config φ).lexicon := by
  rw [Mark.IsRead, Mark.text, Numeral.raw, String.toList_ofList]
  exact Standard.reads_number n.first_isDigit (List.all_eq_true.1 n.rest_within)

theorem Quotation.isRead (q : Quotation) :
    (Mark.string q.raw).IsRead (Config.standard : Config φ).lexicon := by
  rw [Mark.IsRead, Mark.text, Quotation.raw, String.toList_ofList]
  exact Standard.reads_string q.isQuote q.not_mem_body

theorem Name.isRead (n : Name) :
    (Mark.word n.raw).IsRead (Config.standard : Config φ).lexicon := by
  obtain ⟨c, first, start⟩ := n.first_not_digit
  have within := List.all_eq_true.1 n.within
  have apart := n.apart
  rw [Mark.IsRead, Mark.text]
  cases spelled : n.raw.toList with
  | nil =>
    rw [spelled] at first
    cases first
  | cons d rest =>
    rw [spelled] at first within apart
    obtain rfl : d = c := Option.some.inj first
    exact Standard.reads_word start within apart

mutual

theorem isRead_atom (t : Term) :
    ∀ m ∈ t.atom.marks, m.IsRead (Config.standard : Config φ).lexicon := by
  have openParen : Mark.openParen.IsRead (Config.standard : Config φ).lexicon :=
    Mark.isRead_of_bracket (c := '(') rfl (by decide)
  have closeParen : Mark.closeParen.IsRead (Config.standard : Config φ).lexicon :=
    Mark.isRead_of_bracket (c := ')') rfl (by decide)
  cases t with
  | number n =>
    rw [atom, Atom.marks, List.forall_mem_singleton]
    exact n.isRead
  | string q =>
    rw [atom, Atom.marks, List.forall_mem_singleton]
    exact q.isRead
  | name n =>
    rw [atom, Atom.marks, List.forall_mem_singleton]
    exact n.isRead
  | unary symbol operand =>
    have inner := isRead_atom operand
    have sign := Mark.isRead_operator (φ := φ) symbol
    simp only [atom, Atom.marks, Phrase.marks, List.forall_mem_cons, List.forall_mem_append]
    exact ⟨openParen, ⟨sign, inner⟩, closeParen, nofun⟩
  | binary left symbol right =>
    have first := isRead_atom left
    have sign := Mark.isRead_operator (φ := φ) symbol
    have second := isRead_atom right
    simp only [atom, Atom.marks, Phrase.marks, List.forall_mem_cons, List.forall_mem_append]
    exact ⟨openParen, ⟨first, sign, second⟩, closeParen, nofun⟩
  | array items =>
    have openBracket : Mark.openBracket.IsRead (Config.standard : Config φ).lexicon :=
      Mark.isRead_of_bracket (c := '[') rfl (by decide)
    have closeBracket : Mark.closeBracket.IsRead (Config.standard : Config φ).lexicon :=
      Mark.isRead_of_bracket (c := ']') rfl (by decide)
    have inner := isRead_separated items
    simp only [atom, Atom.marks, List.forall_mem_cons, List.forall_mem_append]
    exact ⟨openBracket, inner, closeBracket, nofun⟩
  | call callee operands =>
    have front := isRead_atom callee
    have inner := isRead_separated operands
    simp only [atom, Atom.marks, List.forall_mem_cons, List.forall_mem_append]
    exact ⟨front, openParen, inner, closeParen, nofun⟩

theorem isRead_separated (ts : List Term) :
    ∀ m ∈ Phrase.separated (phrases ts), m.IsRead (Config.standard : Config φ).lexicon := by
  match ts with
  | [] => exact nofun
  | [t] => exact isRead_atom t
  | t :: next :: rest =>
    have first := isRead_atom t
    have comma := Mark.isRead_operator (φ := φ) ⟨",", by decide⟩
    have others := isRead_separated (next :: rest)
    simp only [phrases, Phrase.separated, Phrase.marks, List.forall_mem_append,
      List.forall_mem_cons] at others ⊢
    exact ⟨first, comma, others⟩

end

theorem exists_items_tokens {config : Config φ}
    (reading : config.lexicon = (Config.standard : Config φ).lexicon) (t : Term) :
    ∃ tokens : List Token,
      Source.items (config.tokens t.text) = tokens.map .ok ∧
        tokens.filterMap Token.mark? = t.atom.marks := by
  rw [Config.tokens, Lexer.new, reading]
  exact Lexer.exists_items_spaced Standard.split?_space t.isRead_atom (t.atom.depthAfter?_marks 0) 0

end Term

end Reckoner
