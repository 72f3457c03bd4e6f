import Reckoner.Proofs.Evaluation
import Reckoner.Proofs.Term.Reading
import Reckoner.Proofs.Tree.Execution
import Reckoner.Proofs.Yard.Ordering

set_option autoImplicit false

namespace Reckoner

namespace Term

@[simp] theorem length_trees (ts : List Term) : (trees ts).length = ts.length := by
  induction ts with
  | nil => rfl
  | cons t rest ih => rw [trees, List.length_cons, List.length_cons, ih]

@[simp] theorem length_phrases (ts : List Term) : (phrases ts).length = ts.length := by
  induction ts with
  | nil => rfl
  | cons t rest ih => rw [phrases, List.length_cons, List.length_cons, ih]

theorem length_le_separated (ts : List Term) :
    ts.length ≤ (Phrase.separated (phrases ts)).length := by
  have whole := Phrase.length_le_separated (phrases ts)
  rwa [length_phrases] at whole

mutual

theorem fits_program (t : Term) (size : t.atom.marks.length ≤ Instruction.maxNeed) :
    ∀ i ∈ t.tree.program, i.Fits := by
  cases t with
  | number n => simp [tree, Tree.program, Instruction.Fits]
  | string q => simp [tree, Tree.program, Instruction.Fits]
  | name n => simp [tree, Tree.program, Instruction.Fits]
  | unary symbol operand =>
    simp only [atom, Atom.marks, Phrase.marks, List.length_cons, List.length_append,
      List.length_nil] at size
    have inner := fits_program operand (by omega)
    simp only [tree, Tree.program, Tree.programs, List.append_nil, List.forall_mem_append]
    exact ⟨inner, by simp [Instruction.Fits]⟩
  | binary left symbol right =>
    simp only [atom, Atom.marks, Phrase.marks, List.length_cons, List.length_append,
      List.length_nil] at size
    have first := fits_program left (by omega)
    have second := fits_program right (by omega)
    simp only [tree, Tree.program, Tree.programs, List.append_nil, List.forall_mem_append]
    exact ⟨⟨first, second⟩, by simp [Instruction.Fits]⟩
  | array items =>
    simp only [atom, Atom.marks, List.length_cons, List.length_append, List.length_nil] at size
    have inner := fits_programs items (by omega)
    simp only [tree, Tree.program, List.forall_mem_append]
    exact ⟨inner, by simp [Instruction.Fits]⟩
  | call callee operands =>
    simp only [atom, Atom.marks, List.length_cons, List.length_append, List.length_nil] at size
    have front := fits_program callee (by omega)
    have others := fits_programs operands (by omega)
    have fewer := length_le_separated operands
    simp only [tree, Tree.program, List.forall_mem_append, List.forall_mem_singleton, length_trees]
    refine ⟨⟨front, others⟩, ?_⟩
    show operands.length < Instruction.maxNeed
    omega

theorem fits_programs (ts : List Term)
    (size : (Phrase.separated (phrases ts)).length ≤ Instruction.maxNeed) :
    ∀ i ∈ Tree.programs (trees ts), i.Fits := by
  match ts with
  | [] => exact nofun
  | [t] =>
    simp only [trees, Tree.programs, List.append_nil]
    exact fits_program t size
  | t :: next :: rest =>
    simp only [phrases, Phrase.separated, Phrase.marks, List.length_append, List.length_cons] at size
    have first := fits_program t (by omega)
    have others := fits_programs (next :: rest) (by simp only [phrases]; omega)
    simp only [trees, Tree.programs, List.forall_mem_append] at others ⊢
    exact ⟨first, others⟩

end

/-- The instructions made of the source of a term are the program of its tree. -/
theorem items_instructions {φ : Type} {config : Config φ}
    (reading : config.lexicon = (Config.standard : Config φ).lexicon) (t : Term) :
    Source.items (config.instructions (config.tokens t.text)) = t.tree.program.map .ok := by
  obtain ⟨tokens, split, marked⟩ := exists_items_tokens reading t
  have ordered : Yard.empty.run config.precedence (tokens.map .ok) =
      ((t.atom.tree config.precedence).program, none) :=
    Yard.run_phrase (e := .atom t.atom) config.precedence t.commasFit_atom marked
  rw [t.tree_atom config.precedence] at ordered
  exact config.items_of_run split ordered

end Term

/-- The source of a term, split, ordered and carried out, comes to the value of the tree of the term
or to the first fault of its evaluation from left to right. It does so with whatever precedence and
bindings, as long as sources are split by the standard symbols and classes; and the source is one
that a 64-bit machine can hold. -/
theorem Config.execute_text {φ : Type} [Host φ] {config : Config φ}
    (reading : config.lexicon = (standard : Config φ).lexicon) (t : Term)
    (size : t.text.utf8ByteSize ≤ Instruction.maxNeed) :
    config.execute t.text = (t.tree.eval config 0).map Prod.fst := by
  have enough : t.atom.marks.length ≤ t.text.utf8ByteSize :=
    Mark.length_le_utf8ByteSize_spaced (t.isRead_atom (φ := φ))
  have fits : ∀ i ∈ t.tree.program, i.Fits := t.fits_program (Nat.le_trans enough size)
  have items := Term.items_instructions reading t
  rw [Config.execute_of_items items, Tree.run_program config t.tree fits]

/-- In `f ( ( - x ) , ( 1.5 , 'a b' ) )` the text after the sign is found at fault before it is found
that nothing is bound to `f`, and this where no operator has a precedence. -/
theorem Config.execute_text_operand_first :
    let host : Host Unit := ⟨fun _ operands => return .list operands⟩
    let config : Config Unit :=
      .build [.levels ∅, .rightAssociative ["+"], .bind "x" (.text "two")]
    let t : Term :=
      .call (.name ⟨"f", ⟨'f', rfl, rfl⟩, by decide, by decide⟩)
        [.unary ⟨"-", by decide⟩ (.name ⟨"x", ⟨'x', rfl, rfl⟩, by decide, by decide⟩),
         .binary (.number ⟨'1', ['.', '5'], rfl, by decide⟩) ⟨",", by decide⟩
          (.string ⟨'\x27', "a b", .inr rfl, by decide⟩)]
    (t.text = "f ( ( - x ) , ( 1.5 , 'a b' ) )" ∧
        config.lexicon = (standard : Config Unit).lexicon ∧
        t.text.utf8ByteSize ≤ Instruction.maxNeed) ∧
      config.execute t.text =
        .error (.typeMismatch "\x60-\x60 expects a number, got text") := by
  intro host config t
  have written : t.text = "f ( ( - x ) , ( 1.5 , 'a b' ) )" := by decide
  have reading : config.lexicon = (standard : Config Unit).lexicon := rfl
  have size : t.text.utf8ByteSize ≤ Instruction.maxNeed := by
    rw [written]
    decide
  refine ⟨⟨written, reading, size⟩, ?_⟩
  rw [Config.execute_text reading t size]
  rfl

end Reckoner
