import Reckoner.Proofs.Double.Order
import Reckoner.Proofs.Text.Order
import Reckoner.Proofs.Value.Equality

set_option autoImplicit false

namespace Reckoner

namespace Standard.Relation

def admits : Relation → Ordering → Bool
  | less => Ordering.isLT
  | lessEqual => Ordering.isLE
  | greater => Ordering.isGT
  | greaterEqual => Ordering.isGE

def converse : Relation → Relation
  | less => greater
  | lessEqual => greaterEqual
  | greater => less
  | greaterEqual => lessEqual

theorem admits_converse (r : Relation) (way : Ordering) :
    r.converse.admits way.swap = r.admits way := by
  cases r <;> cases way <;> rfl

theorem ofNumbers_eq (r : Relation) (x y : Float) :
    r.ofNumbers x y = (Double.order? x y).any r.admits := by
  have back : Double.order? x y = (Double.order? y x).map Ordering.swap := Double.order?_swap y x
  cases r with
  | less => exact Double.decide_lt x y
  | lessEqual => exact Double.decide_le x y
  | greater =>
    change decide (y < x) = _
    rw [Double.decide_lt, back]
    rcases Double.order? y x with _ | way
    · rfl
    · cases way <;> rfl
  | greaterEqual =>
    change decide (y ≤ x) = _
    rw [Double.decide_le, back]
    rcases Double.order? y x with _ | way
    · rfl
    · cases way <;> rfl

theorem ofTexts_eq (r : Relation) (s t : String) : r.ofTexts s t = r.admits (Ord.compare s t) := by
  cases r with
  | less =>
    change decide (s < t) = (Ord.compare s t).isLT
    rw [Bool.eq_iff_iff, decide_eq_true_iff, Ordering.isLT_iff_eq_lt, compare_lt_iff_lt]
  | lessEqual =>
    change decide (s ≤ t) = (Ord.compare s t).isLE
    rw [Bool.eq_iff_iff, decide_eq_true_iff, Ordering.isLE_iff_ne_gt, compare_gt_iff_gt, not_lt]
  | greater =>
    change decide (t < s) = (Ord.compare s t).isGT
    rw [Bool.eq_iff_iff, decide_eq_true_iff, Ordering.isGT_iff_eq_gt, compare_gt_iff_gt]
  | greaterEqual =>
    change decide (t ≤ s) = (Ord.compare s t).isGE
    rw [Bool.eq_iff_iff, decide_eq_true_iff, Ordering.isGE_iff_ne_lt, compare_lt_iff_lt, not_lt]

end Standard.Relation

namespace Value

variable {φ : Type} {a b c : Value φ}

inductive Comparable : Value φ → Value φ → Prop
  | numbers (x y : Float) : Comparable (number x) (number y)
  | texts (s t : String) : Comparable (text s) (text t)

/-- How the first value stands to the second in the order of their kind, if it has one. -/
def order? : Value φ → Value φ → Option Ordering
  | number x, number y => Double.order? x y
  | text s, text t => some (Ord.compare s t)
  | _, _ => none

namespace Comparable

theorem symm (comparable : a.Comparable b) : b.Comparable a := by
  cases comparable with
  | numbers x y => exact .numbers y x
  | texts s t => exact .texts t s

/-- Only NaN stands in no order. -/
theorem order?_eq_none_iff (comparable : a.Comparable b) :
    a.order? b = none ↔ a.isNaN = true ∨ b.isNaN = true := by
  cases comparable with
  | numbers x y => exact Double.order?_eq_none_iff
  | texts s t => exact iff_of_false nofun (not_or.2 ⟨nofun, nofun⟩)

theorem order?_swap (comparable : a.Comparable b) :
    b.order? a = (a.order? b).map Ordering.swap := by
  cases comparable with
  | numbers x y => exact Double.order?_swap x y
  | texts s t => exact congrArg some Std.OrientedOrd.eq_swap

theorem of_order? {way : Ordering} (stands : a.order? b = some way) : a.Comparable b := by
  cases a with
  | number x =>
    cases b with
    | number y => exact .numbers x y
    | _ => cases stands
  | text s =>
    cases b with
    | text t => exact .texts s t
    | _ => cases stands
  | _ => cases stands

end Comparable

theorem order?_trans (first : a.order? b = some .lt) (second : b.order? c = some .lt) :
    a.order? c = some .lt := by
  cases Comparable.of_order? first with
  | numbers x y =>
    cases Comparable.of_order? second with
    | numbers _ z => exact Double.order?_trans first second
  | texts s t =>
    cases Comparable.of_order? second with
    | texts _ u =>
      exact congrArg some (Std.TransCmp.lt_trans (Option.some.inj first) (Option.some.inj second))

/-- Values of a kind that has an order are loosely equal exactly if neither is before the other. -/
theorem Comparable.looselyEqual_eq (comparable : a.Comparable b) :
    a.looselyEqual b = (a.order? b).any Ordering.isEq := by
  cases comparable with
  | numbers x y => exact Double.beq_eq x y
  | texts s t =>
    change (s == t) = (Ord.compare s t).isEq
    rw [Bool.eq_iff_iff, beq_iff_eq, Ordering.isEq_iff_eq_eq, Std.LawfulEqCmp.compare_eq_iff_eq]

end Value

namespace Standard

variable {φ : Type} {a b : Value φ}

/-- A comparison asks how the left operand stands to the right one. -/
theorem answers_comparable (comparable : a.Comparable b) (r : Relation) :
    Answers r.symbol a b ((a.order? b).any r.admits) := by
  cases comparable with
  | numbers x y =>
    have answered : compare r (.number x) (.number y : Value φ) =
        .ok (.bool ((Double.order? x y).any r.admits)) := by
      rw [← r.ofNumbers_eq]
      rfl
    exact answers_of_applied (applied_relation r _ _) answered
  | texts s t =>
    have answered : compare r (.text s) (.text t : Value φ) =
        .ok (.bool (r.admits (Ord.compare s t))) := by
      rw [← r.ofTexts_eq]
      rfl
    exact answers_of_applied (applied_relation r _ _) answered

theorem refuses_incomparable (apart : ¬ a.Comparable b) (r : Relation) : Refuses r.symbol a b := by
  have refused : compare r a b = .error (.typeMismatch
      ("cannot compare " ++ a.kind.name ++ " " ++ r.symbol ++ " " ++ b.kind.name)) := by
    cases a with
    | number x =>
      cases b with
      | number y => exact absurd (.numbers x y) apart
      | _ => rfl
    | text s =>
      cases b with
      | text t => exact absurd (.texts s t) apart
      | _ => rfl
    | _ => cases b <;> rfl
  exact refuses_of_applied (applied_relation r a b) refused

theorem answers_less_iff : Answers "<" a b true ↔ a.order? b = some .lt := by
  constructor
  · intro less
    by_cases comparable : a.Comparable b
    · have asked := less.unique (answers_comparable comparable .less)
      cases stands : a.order? b with
      | none =>
        rw [stands] at asked
        cases asked
      | some way =>
        rw [stands] at asked
        cases way with
        | lt => rfl
        | _ => cases asked
    · exact absurd (refuses_incomparable comparable .less) less.not_refuses
  · intro stands
    have answers := answers_comparable (.of_order? stands) .less
    rwa [stands] at answers

/-- A comparison asks the same as its converse asks with the operands exchanged. -/
theorem answers_converse (comparable : a.Comparable b) (r : Relation) :
    Answers r.converse.symbol b a ((a.order? b).any r.admits) := by
  have answers := answers_comparable comparable.symm r.converse
  rw [comparable.order?_swap] at answers
  cases stands : a.order? b with
  | none => rwa [stands] at answers
  | some way =>
    rw [stands] at answers
    change Answers _ b a (r.converse.admits way.swap) at answers
    rwa [r.admits_converse] at answers

/-- On two numbers or two texts the standard `<`, `=` and `>` answer the same with the operands
exchanged, `<` and `>` taking each other's place. Without NaN exactly one of the three holds, and `<=`
and `>=` are the negations of `>` and `<`; with NaN none of the five holds either way round. What is
less is less transitively, which for texts is the order of their characters, and of their bytes. No
comparison takes any other two values. -/
theorem comparisons_cohere (a b c : Value φ) (s t : String) :
    (a.Comparable b → ∃ less equal greater : Bool,
      Answers "<" a b less ∧ Answers "=" a b equal ∧ Answers ">" a b greater ∧
      Answers ">" b a less ∧ Answers "=" b a equal ∧ Answers "<" b a greater ∧
      (¬ (a.isNaN ∨ b.isNaN) → [less, equal, greater].count true = 1 ∧
        Answers "<=" a b (!greater) ∧ Answers ">=" a b (!less)) ∧
      (a.isNaN ∨ b.isNaN → equal = false ∧
        ∀ r : Relation, Answers r.symbol a b false ∧ Answers r.symbol b a false)) ∧
    (Answers "<" a b true → Answers "<" b c true → Answers "<" a c true) ∧
    (∃ less : Bool, Answers "<" (.text s : Value φ) (.text t) less ∧
      (less ↔ List.Lex (fun c d : Char => c.toNat < d.toNat) s.toList t.toList) ∧
      (less ↔ s.toByteArray.data.toList < t.toByteArray.data.toList)) ∧
    (¬ a.Comparable b → ∀ r : Relation, Refuses r.symbol a b ∧ Refuses r.symbol b a) := by
  refine ⟨fun comparable => ?_, fun first second => ?_, ?_, fun apart r => ?_⟩
  · have equal : Answers "=" a b ((a.order? b).any Ordering.isEq) := by
      rw [← comparable.looselyEqual_eq]
      exact answers_equal a b
    have equal' : Answers "=" b a ((a.order? b).any Ordering.isEq) := by
      rw [← comparable.looselyEqual_eq, Value.looselyEqual_comm]
      exact answers_equal b a
    refine ⟨(a.order? b).any Ordering.isLT, (a.order? b).any Ordering.isEq,
      (a.order? b).any Ordering.isGT, answers_comparable comparable .less, equal,
      answers_comparable comparable .greater, answers_converse comparable .less, equal',
      answers_converse comparable .greater, fun sound => ?_, fun nan => ?_⟩
    · rw [← comparable.order?_eq_none_iff] at sound
      obtain ⟨way, stands⟩ := Option.ne_none_iff_exists'.1 sound
      have atMost := answers_comparable comparable .lessEqual
      have atLeast := answers_comparable comparable .greaterEqual
      rw [stands] at atMost atLeast ⊢
      cases way with
      | lt => exact ⟨rfl, atMost, atLeast⟩
      | eq => exact ⟨rfl, atMost, atLeast⟩
      | gt => exact ⟨rfl, atMost, atLeast⟩
    · have apart : a.order? b = none := comparable.order?_eq_none_iff.2 nan
      have apart' : b.order? a = none := by rw [comparable.order?_swap, apart]; rfl
      refine ⟨by rw [apart]; rfl, fun r => ⟨?_, ?_⟩⟩
      · have answers := answers_comparable comparable r
        rwa [apart] at answers
      · have answers := answers_comparable comparable.symm r
        rwa [apart'] at answers
  · rw [answers_less_iff] at first second ⊢
    exact Value.order?_trans first second
  · have less : Answers "<" (.text s : Value φ) (.text t) (decide (s < t)) :=
      answers_of_applied (applied_relation .less _ _) rfl
    refine ⟨decide (s < t), less, ?_, ?_⟩
    · exact decide_eq_true_iff
    · rw [decide_eq_true_iff]
      exact Text.lt_iff_bytes_lt
  · exact ⟨refuses_incomparable apart r, refuses_incomparable (fun other => apart other.symm) r⟩

end Standard

end Reckoner
