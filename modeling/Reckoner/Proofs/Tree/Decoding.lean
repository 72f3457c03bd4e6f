import Reckoner.Proofs.Tree.Basic

set_option autoImplicit false

namespace Reckoner

namespace Instruction

/-- How many values an instruction asks for, the callee of a call among them. -/
def operands : Instruction → Nat
  | push _ => 0
  | load _ => 0
  | apply _ arity => arity
  | collect count => count
  | call arity => arity + 1

/-- Whether a 64-bit word holds the number of values that a call asks for. -/
def Fits : Instruction → Prop
  | call arity => arity < maxNeed
  | _ => True

instance (i : Instruction) : Decidable i.Fits :=
  match i with
  | call arity => inferInstanceAs (Decidable (arity < maxNeed))
  | push _ => inferInstanceAs (Decidable True)
  | load _ => inferInstanceAs (Decidable True)
  | apply _ _ => inferInstanceAs (Decidable True)
  | collect _ => inferInstanceAs (Decidable True)

/-- The number of values after an instruction, if there are as many before it as it asks for. -/
def depthAfter? (depth : Nat) (i : Instruction) : Option Nat :=
  if i.operands ≤ depth then some (depth - i.operands + 1) else none

theorem need_call {arity : Nat} (fits : (call arity).Fits) : (call arity).need = arity + 1 :=
  Nat.min_eq_left (Nat.succ_le_of_lt fits)

end Instruction

namespace Program

/-- The number of values after a program, if no instruction asks for more than there are. -/
def depthFrom? (depth : Nat) (program : Program) : Option Nat :=
  program.foldlM Instruction.depthAfter? depth

/-- From no value at all on, no instruction asks for more values than there are. -/
def DepthSafe (program : Program) : Prop :=
  (program.depthFrom? 0).isSome ∧ ∀ i ∈ program, i.Fits

instance (program : Program) : Decidable program.DepthSafe :=
  inferInstanceAs (Decidable (_ ∧ _))

end Program

namespace Tree

/-- The trees after an instruction, the latest first; it takes the latest as its operands. -/
def grow (stack : List Tree) : Instruction → List Tree
  | .push l => literal l :: stack
  | .load s => name s :: stack
  | .apply symbol arity => apply symbol (stack.take arity).reverse :: stack.drop arity
  | .collect count => collect (stack.take count).reverse :: stack.drop count
  | .call arity =>
    match stack.drop arity with
    | callee :: below => call callee (stack.take arity).reverse :: below
    | [] => stack

def ofProgram (program : Program) : List Tree :=
  (program.foldl grow []).reverse

theorem grow_apply (symbol : String) (operands stack : List Tree) :
    grow (operands.reverse ++ stack) (.apply symbol operands.length) =
      apply symbol operands :: stack := by
  simp only [grow, List.take_left' List.length_reverse, List.drop_left' List.length_reverse,
    List.reverse_reverse]

theorem grow_collect (items stack : List Tree) :
    grow (items.reverse ++ stack) (.collect items.length) = collect items :: stack := by
  simp only [grow, List.take_left' List.length_reverse, List.drop_left' List.length_reverse,
    List.reverse_reverse]

theorem grow_call (callee : Tree) (operands stack : List Tree) :
    grow (operands.reverse ++ callee :: stack) (.call operands.length) =
      call callee operands :: stack := by
  simp only [grow, List.take_left' List.length_reverse, List.drop_left' List.length_reverse,
    List.reverse_reverse]

mutual

theorem foldl_program (t : Tree) (stack : List Tree) (rest : Program) :
    (t.program ++ rest).foldl grow stack = rest.foldl grow (t :: stack) := by
  cases t with
  | literal l => rfl
  | name s => rfl
  | apply symbol operands =>
    rw [program, List.append_assoc, foldl_programs operands, List.singleton_append,
      List.foldl_cons, grow_apply]
  | collect items =>
    rw [program, List.append_assoc, foldl_programs items, List.singleton_append,
      List.foldl_cons, grow_collect]
  | call callee operands =>
    rw [program, List.append_assoc, List.append_assoc, foldl_program callee,
      foldl_programs operands, List.singleton_append, List.foldl_cons, grow_call]

theorem foldl_programs (trees stack : List Tree) (rest : Program) :
    (programs trees ++ rest).foldl grow stack = rest.foldl grow (trees.reverse ++ stack) := by
  cases trees with
  | nil => rfl
  | cons t others =>
    rw [programs, List.append_assoc, foldl_program t, foldl_programs others]
    simp only [List.reverse_cons, List.append_assoc, List.singleton_append]

end

theorem ofProgram_programs (trees : List Tree) : ofProgram (programs trees) = trees := by
  have grown := foldl_programs trees [] []
  rw [List.append_nil] at grown
  rw [ofProgram, grown, List.foldl_nil, List.append_nil, List.reverse_reverse]

/-- As many of the latest trees as there are operands, in their order. -/
theorem exists_operands {stack : List Tree} {n : Nat} (enough : n ≤ stack.length) :
    ∃ operands below : List Tree, stack = operands.reverse ++ below ∧ operands.length = n := by
  refine ⟨(stack.take n).reverse, stack.drop n, ?_, ?_⟩
  · rw [List.reverse_reverse, List.take_append_drop]
  · rw [List.length_reverse, List.length_take_of_le enough]

/-- An instruction that finds its operands puts the tree made of them in their place. -/
theorem exists_grow {stack : List Tree} {i : Instruction} (enough : i.operands ≤ stack.length) :
    ∃ t operands below, stack = operands.reverse ++ below ∧ operands.length = i.operands ∧
      grow stack i = t :: below ∧ t.program = programs operands ++ [i] := by
  obtain ⟨operands, below, rfl, length⟩ := exists_operands enough
  cases i with
  | push l =>
    obtain rfl := List.eq_nil_of_length_eq_zero length
    exact ⟨literal l, [], below, rfl, rfl, rfl, rfl⟩
  | load s =>
    obtain rfl := List.eq_nil_of_length_eq_zero length
    exact ⟨name s, [], below, rfl, rfl, rfl, rfl⟩
  | apply symbol arity =>
    obtain rfl : operands.length = arity := length
    exact ⟨apply symbol operands, operands, below, rfl, rfl, grow_apply .., by rw [program]⟩
  | collect count =>
    obtain rfl : operands.length = count := length
    exact ⟨collect operands, operands, below, rfl, rfl, grow_collect .., by rw [program]⟩
  | call arity =>
    cases operands with
    | nil => cases length
    | cons callee others =>
      obtain rfl : others.length = arity := Nat.succ.inj length
      refine ⟨call callee others, callee :: others, below, rfl, rfl, ?_, by rw [program, programs]⟩
      rw [List.reverse_cons, List.append_assoc, List.singleton_append, grow_call]

/-- Where the count goes through, the trees grown have as program what they were grown from. -/
theorem programs_foldl_grow {program : Program} {stack : List Tree}
    (counted : (program.depthFrom? stack.length).isSome) :
    programs (program.foldl grow stack).reverse = programs stack.reverse ++ program := by
  induction program generalizing stack with
  | nil => rw [List.foldl_nil, List.append_nil]
  | cons i rest ih =>
    rw [Program.depthFrom?, List.foldlM_cons] at counted
    by_cases enough : i.operands ≤ stack.length
    · obtain ⟨t, operands, below, rfl, length, grown, made⟩ := exists_grow enough
      have depth : i.depthAfter? (operands.reverse ++ below).length = some (t :: below).length := by
        rw [Instruction.depthAfter?, if_pos enough]
        simp only [← length, List.length_append, List.length_reverse, List.length_cons,
          Nat.add_sub_cancel_left]
      rw [depth] at counted
      rw [List.foldl_cons, grown, ih counted]
      simp only [List.reverse_cons, List.reverse_append, List.reverse_reverse, programs_append,
        programs, made, List.append_nil, List.append_assoc, List.singleton_append]
    · simp [Instruction.depthAfter?, enough] at counted

theorem programs_ofProgram {program : Program} (safe : program.DepthSafe) :
    programs (ofProgram program) = program :=
  @programs_foldl_grow program [] safe.1

end Tree

end Reckoner
