import Reckoner.Proofs.Lexicon.Standard
import Reckoner.Proofs.Tree.Basic

set_option autoImplicit false

namespace Reckoner

variable {φ : Type}

theorem Standard.nodup_symbols : Standard.symbols.Nodup := by decide

theorem Config.operator?_standard {symbol : String} {o : Operator φ}
    (listed : (symbol, o) ∈ Standard.operators) :
    (Config.standard : Config φ).operator? symbol = some o := by
  have distinct : (Standard.operators : List (String × Operator φ)).Pairwise
      fun a b => ¬ compare a.1 b.1 = .eq := by
    have apart := Standard.nodup_symbols
    rw [← Standard.map_fst_operators (φ := φ), List.nodup_iff_pairwise_ne,
      List.pairwise_map] at apart
    exact apart.imp fun differ same => differ (Std.LawfulEqOrd.eq_of_compare same)
  exact Std.TreeMap.getElem?_ofList_of_mem Std.ReflCmp.compare_self distinct listed

theorem Standard.applied_of_listed {symbol : String}
    {f : Value φ → Value φ → Except Fault (Value φ)}
    (listed : (symbol, Standard.binary f) ∈ Standard.operators) (a b : Value φ) (made : Nat) :
    Tree.applied Config.standard symbol [a, b] made = (f a b).map fun value => (value, made) := by
  have found := Config.operator?_standard listed
  have chosen : (Standard.binary f).implementation? [a, b].length =
      some (.ofBinary fun a b => liftM (f a b)) := by
    rw [Standard.binary, Operator.binary, Operator.withBinary, Operator.implementation?_withArity]
    rfl
  simp only [Tree.applied, found, chosen]
  change (liftM (f a b) : Run (Value φ)) made = _
  cases f a b <;> rfl

namespace Standard

theorem applied_equal (a b : Value φ) (made : Nat) :
    Tree.applied Config.standard "=" [a, b] made = .ok (.bool (a.looselyEqual b), made) := by
  have listed : ("=", binary fun a b => .ok (.bool (a.looselyEqual b))) ∈
      (operators : List (String × Operator φ)) := by
    simp [operators]
  exact applied_of_listed listed a b made

theorem applied_add (a b : Value φ) (made : Nat) :
    Tree.applied Config.standard "+" [a, b] made = (add a b).map fun value => (value, made) := by
  have listed : ("+", binary add) ∈ (operators : List (String × Operator φ)) := by
    simp [operators]
  exact applied_of_listed listed a b made

theorem applied_contains (a b : Value φ) (made : Nat) :
    Tree.applied Config.standard "in" [a, b] made =
      (contains a b).map fun value => (value, made) := by
  have listed : ("in", binary contains) ∈ (operators : List (String × Operator φ)) := by
    simp [operators]
  exact applied_of_listed listed a b made

theorem applied_relation (r : Relation) (a b : Value φ) (made : Nat) :
    Tree.applied Config.standard r.symbol [a, b] made =
      (compare r a b).map fun value => (value, made) := by
  have listed : relation r ∈ (operators : List (String × Operator φ)) := by
    cases r <;> simp [operators]
  exact applied_of_listed listed a b made

/-- A standard operator gives a truth value for two operands, and makes no callable. -/
def Answers (symbol : String) (a b : Value φ) (answer : Bool) : Prop :=
  ∀ made, Tree.applied Config.standard symbol [a, b] made = .ok (.bool answer, made)

/-- A standard operator refuses two operands for what kind of values they are. -/
def Refuses (symbol : String) (a b : Value φ) : Prop :=
  ∃ detail, ∀ made,
    Tree.applied Config.standard symbol [a, b] made = .error (.typeMismatch detail)

variable {symbol : String} {a b : Value φ} {answer other : Bool}

theorem Answers.unique (first : Answers symbol a b answer) (second : Answers symbol a b other) :
    answer = other := by
  have same := (first 0).symm.trans (second 0)
  cases same
  rfl

theorem Answers.not_refuses (answers : Answers symbol a b answer) : ¬ Refuses symbol a b := by
  rintro ⟨detail, refused⟩
  have same := (answers 0).symm.trans (refused 0)
  cases same

section outcome

variable {outcome : Except Fault (Value φ)} (applied : ∀ made,
  Tree.applied Config.standard symbol [a, b] made = outcome.map fun value => (value, made))

include applied

theorem answers_of_applied (answered : outcome = .ok (.bool answer)) :
    Answers symbol a b answer := by
  intro made
  rw [applied, answered]
  rfl

theorem refuses_of_applied {detail : String} (refused : outcome = .error (.typeMismatch detail)) :
    Refuses symbol a b := by
  refine ⟨detail, ?_⟩
  intro made
  rw [applied, refused]
  rfl

end outcome

theorem answers_equal (a b : Value φ) : Answers "=" a b (a.looselyEqual b) :=
  applied_equal a b

end Standard

end Reckoner
