import Reckoner.Proofs.Decimal.Exact
import Reckoner.Proofs.Term.Execution
import Reckoner.Proofs.Value.Equality
import Reckoner.Proofs.Value.Numerals

set_option autoImplicit false

namespace Reckoner

namespace Text

theorem trim_of_solid {cs : List Char} (solid : ∀ c ∈ cs, isBlank c = false) : trim cs = cs := by
  have kept {ds : List Char} (solid : ∀ c ∈ ds, isBlank c = false) : ds.dropWhile isBlank = ds := by
    cases ds with
    | nil => rfl
    | cons c rest =>
      simp only [List.dropWhile_cons, solid c List.mem_cons_self, Bool.false_eq_true, if_false]
  have backward : ∀ c ∈ cs.reverse, isBlank c = false := by
    intro c member
    exact solid c (List.mem_reverse.1 member)
  rw [trim, kept solid, kept backward, List.reverse_reverse]

end Text

namespace Value

open Float.Model.UnpackedFloat

theorem isBlank_of_spellsSigned {cs : List Char} {negative : Bool} {n : Decimal.Numeral}
    (spelled : Decimal.SpellsSigned cs negative n) : ∀ c ∈ cs, Text.isBlank c = false := by
  intro c member
  exact isBlank_of_isNumeralChar (spelled.isNumeralChar c member)

/-- The text of a number is read as that number, and that of a minus zero as zero. -/
theorem textNumber_numberText (x : Float) :
    textNumber (numberText x) = if x == 0 then 0 else x := by
  rcases Double.special_or_finite x with rfl | rfl | rfl | rfl | rfl | ⟨s, m, e, pos, unpacked⟩
  · decide +kernel
  · decide +kernel
  · decide +kernel
  · decide +kernel
  · decide +kernel
  · obtain ⟨n, spelled, value⟩ := Decimal.exists_spellsSigned_plain unpacked
    have written : numberText x = String.ofList (Decimal.plain x) := by
      simp only [numberText, Decimal.isNaN_of_finite unpacked, Decimal.isInf_of_finite unpacked,
        Decimal.ne_zero_of_finite unpacked, Bool.false_eq_true, if_false]
    have counts := Counts.numeral spelled
    rw [value, ← Text.trim_of_solid (isBlank_of_spellsSigned spelled),
      ← String.toList_ofList (l := Decimal.plain x)] at counts
    rw [written, Decimal.ne_zero_of_finite unpacked, if_neg Bool.false_ne_true]
    exact textNumber_of_counts counts

variable {φ : Type} {x y : Float}

/-- A number is loosely equal to the text of another exactly if it is equal to the other. -/
theorem looselyEqual_numberText (x y : Float) :
    (number x : Value φ).looselyEqual (text (numberText y)) = (x == y) := by
  change (x == textNumber (numberText y)) = (x == y)
  rw [textNumber_numberText]
  split
  · next zero => exact (BEq.congr_right zero).symm
  · rfl

theorem looselyEqual_list_number (x y : Float) :
    (number x : Value φ).looselyEqual (list [number y]) = (x == y) := by
  have alone : commaText [(number y : Value φ)] = numberText y := by
    simp only [commaText, List.map_cons, List.map_nil, itemText, String.intercalate_singleton]
  rw [← looselyEqual_numberText (φ := φ), looselyEqual_comm _ (text _)]
  change textEqual (commaText [(number y : Value φ)]) (number x : Value φ) =
    textEqual (numberText y) (number x : Value φ)
  rw [alone]

end Value

namespace Standard

variable {φ : Type}

theorem add_blank_number (y : Float) :
    add (.text "") (.number y : Value φ) = .ok (.text (Value.numberText y)) := by
  change Except.ok (Value.text ("" ++ Value.numberText y)) = _
  rw [String.empty_append]

theorem add_number_blank (y : Float) :
    add (.number y : Value φ) (.text "") = .ok (.text (Value.numberText y)) := by
  change Except.ok (Value.text (Value.numberText y ++ "")) = _
  rw [String.append_empty]

theorem applied_congr {config : Config φ} (same : config.operators = Config.standard.operators)
    (symbol : String) (operands : List (Value φ)) :
    Tree.applied config symbol operands = Tree.applied Config.standard symbol operands := by
  simp only [Tree.applied, Config.operator?, same]

section sources

variable [Host φ] {config : Config φ} {left right : Tree} {a b : Value φ} {made between after : Nat}

theorem evalAll_one (first : left.eval config made = .ok (a, after)) :
    Tree.evalAll config [left] made = .ok ([a], after) := by
  rw [Tree.evalAll, Run.bind_of_ok first]
  rfl

/-- An operator of two operands is applied to what they are worth, the left one first. -/
theorem eval_apply (first : left.eval config made = .ok (a, between))
    (second : right.eval config between = .ok (b, after)) (symbol : String) :
    (Tree.apply symbol [left, right]).eval config made =
      Tree.applied config symbol [a, b] after := by
  have operands : Tree.evalAll config [left, right] made = .ok ([a, b], after) := by
    rw [Tree.evalAll, Run.bind_of_ok first, Run.bind_of_ok (evalAll_one second)]
    rfl
  rw [Tree.eval, Run.bind_of_ok operands]

abbrev withNames (a b : Value φ) : Config φ :=
  .withBindings [("x", a), ("y", b)]

omit [Host φ] in
theorem operators_withNames (a b : Value φ) :
    (withNames a b).operators = Config.standard.operators := rfl

def equalsX (t : Term) : Term :=
  .binary (.name ⟨"x", ⟨'x', rfl, rfl⟩, by decide, by decide⟩) ⟨"=", by decide⟩ t

theorem execute_equalsX {t : Term} {value : Value φ}
    (other : t.tree.eval (withNames a b) 0 = .ok (value, 0))
    (small : (equalsX t).atom.marks.length ≤ Instruction.maxNeed) :
    (withNames a b).execute (equalsX t).text = .ok (.bool (a.looselyEqual value)) := by
  have reading : (withNames a b).lexicon = (Config.standard : Config φ).lexicon := rfl
  have first : (Tree.name "x").eval (withNames a b) 0 = .ok (a, 0) := rfl
  have value : (equalsX t).tree.eval (withNames a b) 0 =
      .ok (.bool (a.looselyEqual value), 0) := by
    rw [equalsX, Term.tree, Term.tree, eval_apply first other,
      applied_congr (operators_withNames a b), applied_equal]
  rw [Config.execute_of_items (Term.items_instructions reading (equalsX t)),
    Tree.run_program _ (equalsX t).tree ((equalsX t).fits_program small), value]
  rfl

end sources

end Standard

namespace Value

variable {φ : Type} {x : Float}

theorem beq_textNumber_numberText (x : Float) : (textNumber (numberText x) == x) = !x.isNaN := by
  rw [textNumber_numberText, ← Double.beq_self]
  split
  · next zero => rw [BEq.comm, BEq.congr_right zero]
  · rfl

theorem isNaN_textNumber_numberText (x : Float) :
    (textNumber (numberText x)).isNaN = x.isNaN := by
  rw [textNumber_numberText]
  split
  · next zero =>
    cases nan : x.isNaN with
    | true =>
      rw [Double.beq_of_isNaN nan 0] at zero
      cases zero
    | false => decide +kernel
  · rfl

end Value

/-- Numbers survive being turned into text: the text of a number is read as that number, and that of a
minus zero as zero. So under the standard operators a number equals the text of another, made by
joining it with the empty text on either side, and the list of it, exactly if it equals the other;
and it equals itself unless it is NaN. -/
theorem Standard.number_equals_shown {φ : Type} [Host φ] (x y : Float) :
    let shown := Value.textNumber (Value.number x : Value φ).display
    let config : Config φ := .withBindings [("x", .number x), ("y", .number y)]
    (shown = if x == 0 then 0 else x) ∧
    (shown == x) = !x.isNaN ∧
    shown.isNaN = x.isNaN ∧
    config.execute "( x = ( '' + y ) )" = .ok (.bool (x == y)) ∧
    config.execute "( x = ( y + '' ) )" = .ok (.bool (x == y)) ∧
    config.execute "( x = [ y ] )" = .ok (.bool (x == y)) ∧
    (x == x) = !x.isNaN := by
  let name : Term := .name ⟨"y", ⟨'y', rfl, rfl⟩, by decide, by decide⟩
  let blank : Term := .string ⟨'\x27', "", .inr rfl, by decide⟩
  let before : Term := .binary blank ⟨"+", by decide⟩ name
  let behind : Term := .binary name ⟨"+", by decide⟩ blank
  intro shown config
  have ofName : (Tree.name "y").eval config 0 = .ok (.number y, 0) := rfl
  have ofBlank : (Tree.literal (.text "")).eval config 0 = .ok (.text "", 0) := rfl
  have joined : before.tree.eval config 0 = .ok (.text (Value.numberText y), 0) := by
    rw [Term.tree, Term.tree, Term.tree, eval_apply ofBlank ofName,
      applied_congr (operators_withNames _ _), applied_add, add_blank_number]
    rfl
  have joined' : behind.tree.eval config 0 = .ok (.text (Value.numberText y), 0) := by
    rw [Term.tree, Term.tree, Term.tree, eval_apply ofName ofBlank,
      applied_congr (operators_withNames _ _), applied_add, add_number_blank]
    rfl
  have collected : (Term.array [name]).tree.eval config 0 = .ok (.list [.number y], 0) := rfl
  refine ⟨Value.textNumber_numberText x, Value.beq_textNumber_numberText x,
    Value.isNaN_textNumber_numberText x, ?_, ?_, ?_, Double.beq_self x⟩
  · have written : (equalsX before).text = "( x = ( '' + y ) )" := by decide
    rw [← written, execute_equalsX joined (by decide), Value.looselyEqual_numberText]
  · have written : (equalsX behind).text = "( x = ( y + '' ) )" := by decide
    rw [← written, execute_equalsX joined' (by decide), Value.looselyEqual_numberText]
  · have written : (equalsX (.array [name])).text = "( x = [ y ] )" := by decide
    rw [← written, execute_equalsX collected (by decide), Value.looselyEqual_list_number]

end Reckoner
