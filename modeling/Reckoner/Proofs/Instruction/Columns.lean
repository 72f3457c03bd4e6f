import Reckoner.Instruction.Listing
import Reckoner.Proofs.Decimal.Exact
import Reckoner.Proofs.Decimal.Lenient
import Reckoner.Proofs.Text.Quoted

set_option autoImplicit false

/-!
Programs are read back from their listings.

A line is its columns with tabs between them. Every character in a column is shown, so the tabs of a
line are those between its columns, and a line break stands only between lines. The first column says
what kind of instruction the line is of, and each of the others is read as what was written there:
quoted text, a double or a count. So no two programs have the same listing.
-/

namespace Reckoner

namespace Text

section parts

variable {mark : Char} {parts : List String}

def splitAt (mark : Char) (s : String) : List String :=
  (s.split mark).toList.map fun part => part.copy

/-- Parts without the mark are found again between the marks; where there are none, an empty one is
found. -/
theorem splitAt_intercalate (apart : ∀ s ∈ parts, mark ∉ s.toList) :
    splitAt mark ((String.singleton mark).intercalate parts) =
      if parts = [] then [""] else parts :=
  String.toList_split_intercalate apart

theorem mem_intercalate {separator : String} {c : Char}
    (member : c ∈ (separator.intercalate parts).toList) :
    c ∈ separator.toList ∨ ∃ s ∈ parts, c ∈ s.toList := by
  induction parts with
  | nil => cases member
  | cons s parts ih =>
    cases parts with
    | nil =>
      rw [String.intercalate_singleton] at member
      exact .inr ⟨s, List.mem_cons_self, member⟩
    | cons t parts =>
      rw [String.intercalate_cons_cons, String.toList_append, String.toList_append] at member
      rcases List.mem_append.1 member with front | later
      · rcases List.mem_append.1 front with here | between
        · exact .inr ⟨s, List.mem_cons_self, here⟩
        · exact .inl between
      · rcases ih later with between | ⟨u, among, within⟩
        · exact .inl between
        · exact .inr ⟨u, List.mem_cons_of_mem s among, within⟩

end parts

section characters

variable {c : Char}

/-- The characters from the plus to the last small letter. They are shown, and the quote is none of
them. -/
def isColumnChar (c : Char) : Bool :=
  0x2B ≤ c.toNat && c.toNat ≤ 0x7A

theorem isColumnChar_iff : isColumnChar c ↔ 0x2B ≤ c.toNat ∧ c.toNat ≤ 0x7A := by
  rw [isColumnChar, Bool.and_eq_true, decide_eq_true_eq, decide_eq_true_eq]

theorem isShown_of_isColumnChar (column : isColumnChar c) : isShown c := by
  have range := isColumnChar_iff.1 column
  have visible : 0x20 ≤ c.toNat ∧ c.toNat < 0x7F := by omega
  simp only [isShown, visible, decide_true, Bool.and_self, Bool.true_or]

theorem isColumnChar_of_isNumeralChar (numeral : Decimal.isNumeralChar c) : isColumnChar c := by
  have range := Decimal.toNat_of_isNumeralChar numeral
  exact isColumnChar_iff.2 (by omega)

end characters

theorem shown_toString (n : Nat) : Shown (toString n) := by
  intro c member
  rw [Nat.toString_eq_repr, Nat.toList_repr] at member
  have range : 48 ≤ c.toNat ∧ c.toNat ≤ 57 :=
    Char.isDigit_iff_toNat.1 (Decimal.isDigit_of_mem_toDigits c member)
  exact isShown_of_isColumnChar (isColumnChar_iff.2 (by omega))

end Text

namespace Decimal

/-- How a double is spelled in a listing: by a word if it is not finite, and else by a numeral. -/
inductive Spelled : Float → List Char → Prop
  | numeral {x : Float} {cs : List Char} {negative : Bool} {n : Numeral}
      (spelled : SpellsSigned cs negative n) (value : signed negative n.value.toFloat = x) :
      Spelled x cs
  | noNumber : Spelled noNumber "NaN".toList
  | infinity : Spelled infinity "inf".toList
  | minusInfinity : Spelled (-infinity) "-inf".toList

namespace Spelled

variable {x : Float} {cs : List Char}

theorem read? (spelled : Spelled x cs) : Decimal.read? cs = some x := by
  cases spelled with
  | numeral spelled value => rw [read?_of_spellsSigned spelled, value]
  | noNumber => decide +kernel
  | infinity => decide +kernel
  | minusInfinity => decide +kernel

theorem isColumnChar (spelled : Spelled x cs) : ∀ c ∈ cs, Text.isColumnChar c := by
  cases spelled with
  | numeral spelled value =>
    intro c member
    exact Text.isColumnChar_of_isNumeralChar (spelled.isNumeralChar c member)
  | noNumber => exact List.all_eq_true.1 (by decide)
  | infinity => exact List.all_eq_true.1 (by decide)
  | minusInfinity => exact List.all_eq_true.1 (by decide)

end Spelled

end Decimal

namespace Literal

open Decimal (Spelled Spells)

theorem spelled_numberColumn (x : Float) : Spelled x (numberColumn x).toList := by
  have zero : Spells ['0'] ⟨['0'], [], 0⟩ :=
    .of (Decimal.isDigit_of_mem_replicate (n := 1)) .none (.inl (List.cons_ne_nil '0' [])) .none
  rcases Double.special_or_finite x with rfl | rfl | rfl | rfl | rfl | ⟨s, m, e, pos, unpacked⟩
  · have written : (numberColumn Decimal.noNumber).toList = "NaN".toList := by decide +kernel
    rw [written]
    exact .noNumber
  · have written : (numberColumn Decimal.infinity).toList = "inf".toList := by decide +kernel
    rw [written]
    exact .infinity
  · have written : (numberColumn (-Decimal.infinity)).toList = "-inf".toList := by decide +kernel
    rw [written]
    exact .minusInfinity
  · have written : (numberColumn 0).toList = ['0'] := by decide +kernel
    rw [written]
    exact .numeral (.of .none zero) (by decide +kernel)
  · have written : (numberColumn (-0)).toList = ['-', '0'] := by decide +kernel
    rw [written]
    exact .numeral (.of .minus zero) (by decide +kernel)
  · obtain ⟨n, spelled, value⟩ := Decimal.exists_spellsSigned_plain unpacked
    have written : (numberColumn x).toList = Decimal.plain x := by
      simp only [numberColumn, Decimal.isNaN_of_finite unpacked, Decimal.isInf_of_finite unpacked,
        Bool.false_eq_true, if_false, String.toList_ofList]
    rw [written]
    exact .numeral spelled value

def column : Literal → String
  | number x => numberColumn x
  | text s => Text.quoted s

def ofColumn? (column : String) : Option Literal :=
  ((Text.ofQuoted? column).map text).or ((Decimal.read? column.toList).map number)

theorem ofColumn?_column (literal : Literal) : ofColumn? literal.column = some literal := by
  cases literal with
  | number x =>
    have spelled := spelled_numberColumn x
    have unquoted : '\x22' ∉ (numberColumn x).toList := by
      intro member
      have quote := spelled.isColumnChar _ member
      cases quote
    rw [column, ofColumn?, Text.ofQuoted?_eq_none unquoted, spelled.read?]
    rfl
  | text s =>
    rw [column, ofColumn?, Text.ofQuoted?_quoted]
    rfl

theorem shown_column (literal : Literal) : Text.Shown literal.column := by
  cases literal with
  | number x =>
    intro c member
    exact Text.isShown_of_isColumnChar ((spelled_numberColumn x).isColumnChar c member)
  | text s => exact Text.shown_quoted s

end Literal

namespace Instruction

def tag : Instruction → String
  | push _ => "RAW_VALUE"
  | load _ => "VARIABLE"
  | apply _ _ => "CALL_OP"
  | collect _ => "MAKE_ARRAY"
  | call _ => "CALL_FUNC"

def columns : Instruction → List String
  | push literal => [literal.column]
  | load name => [Text.quoted name]
  | apply symbol arity => [Text.quoted symbol, toString arity]
  | collect count => [toString count]
  | call arity => [toString arity]

theorem line_eq (i : Instruction) : i.line = "\t".intercalate (i.tag :: i.columns) := by
  cases i with
  | push literal => cases literal <;> rfl
  | load name => rfl
  | apply symbol arity => rfl
  | collect count => rfl
  | call arity => rfl

example : (apply "\t→\u0301" 2).line = "CALL_OP\t\"\\t→\\u\x7b301\x7d\"\t2" := by decide +kernel

theorem shown_tag (i : Instruction) : Text.Shown i.tag := by
  cases i with
  | push literal =>
    change Text.Shown "RAW_VALUE"
    decide
  | load name =>
    change Text.Shown "VARIABLE"
    decide
  | apply symbol arity =>
    change Text.Shown "CALL_OP"
    decide
  | collect count =>
    change Text.Shown "MAKE_ARRAY"
    decide
  | call arity =>
    change Text.Shown "CALL_FUNC"
    decide

theorem shown_columns (i : Instruction) : ∀ column ∈ i.tag :: i.columns, Text.Shown column := by
  refine List.forall_mem_cons.2 ⟨i.shown_tag, ?_⟩
  cases i with
  | push literal => exact List.forall_mem_singleton.2 literal.shown_column
  | load name => exact List.forall_mem_singleton.2 (Text.shown_quoted name)
  | apply symbol arity =>
    have second := List.forall_mem_singleton.2 (Text.shown_toString arity)
    exact List.forall_mem_cons.2 ⟨Text.shown_quoted symbol, second⟩
  | collect count => exact List.forall_mem_singleton.2 (Text.shown_toString count)
  | call arity => exact List.forall_mem_singleton.2 (Text.shown_toString arity)

theorem eq_tab_or_isShown {i : Instruction} {c : Char} (member : c ∈ i.line.toList) :
    c = '\t' ∨ Text.isShown c := by
  rw [line_eq] at member
  rcases Text.mem_intercalate member with tab | ⟨column, among, within⟩
  · exact .inl (List.mem_singleton.1 tab)
  · exact .inr (i.shown_columns column among c within)

theorem not_mem_line {c : Char} (hidden : Text.isShown c = false) (other : c ≠ '\t')
    (i : Instruction) : c ∉ i.line.toList := by
  intro member
  rcases eq_tab_or_isShown member with tab | shown
  · exact other tab
  · rw [hidden] at shown
    cases shown

theorem line_ne_empty (i : Instruction) : i.line ≠ "" := by
  cases i with
  | push literal => cases literal <;> simp [line]
  | load name => simp [line]
  | apply symbol arity => simp [line]
  | collect count => simp [line]
  | call arity => simp [line]

def ofColumns? (tag : String) (columns : List String) : Option Instruction :=
  match columns with
  | [column] =>
    if tag = "RAW_VALUE" then (Literal.ofColumn? column).map push
    else if tag = "VARIABLE" then (Text.ofQuoted? column).map load
    else if tag = "MAKE_ARRAY" then column.toNat?.map collect
    else if tag = "CALL_FUNC" then column.toNat?.map call
    else none
  | [symbol, arity] =>
    if tag = "CALL_OP" then do return apply (← Text.ofQuoted? symbol) (← arity.toNat?) else none
  | _ => none

theorem ofColumns?_columns (i : Instruction) : ofColumns? i.tag i.columns = some i := by
  have count (n : Nat) : (toString n).toNat? = some n := by
    rw [Nat.toString_eq_repr, Nat.toNat?_repr]
  cases i with
  | push literal =>
    simp only [ofColumns?, tag, columns, if_true, Literal.ofColumn?_column, Option.map_some]
  | load name =>
    simp only [ofColumns?, tag, columns, if_true, Text.ofQuoted?_quoted, Option.map_some]
    rfl
  | apply symbol arity =>
    simp only [ofColumns?, tag, columns, if_true, Text.ofQuoted?_quoted, count]
    rfl
  | collect n =>
    simp only [ofColumns?, tag, columns, if_true, count, Option.map_some]
    rfl
  | call arity =>
    simp only [ofColumns?, tag, columns, if_true, count, Option.map_some]
    rfl

def ofLine? (line : String) : Option Instruction :=
  match Text.splitAt '\t' line with
  | tag :: columns => ofColumns? tag columns
  | [] => none

theorem ofLine?_line (i : Instruction) : ofLine? i.line = some i := by
  have apart : ∀ column ∈ i.tag :: i.columns, '\t' ∉ column.toList := by
    intro column member
    exact (i.shown_columns column member).not_mem (by decide)
  have split : Text.splitAt '\t' i.line = i.tag :: i.columns := by
    rw [line_eq]
    exact Text.splitAt_intercalate apart
  rw [ofLine?, split]
  exact ofColumns?_columns i

theorem line_inj {i j : Instruction} : i.line = j.line ↔ i = j := by
  constructor
  · intro same
    have read := ofLine?_line i
    rw [same, ofLine?_line] at read
    exact (Option.some.inj read).symm
  · exact congrArg line

end Instruction

namespace Program

variable {mark : Char} {p q : Program}

/-- The program that a text with marks between its lines is the listing of; empty lines are passed
over. -/
def ofListing? (mark : Char) (text : String) : Option Program :=
  ((Text.splitAt mark text).filter (· ≠ "")).mapM Instruction.ofLine?

/-- A program is read back from its listing, whatever is put between the lines that is in none of
them. -/
theorem ofListing?_listing (hidden : Text.isShown mark = false) (other : mark ≠ '\t')
    (p : Program) : ofListing? mark ((String.singleton mark).intercalate p.listing) = some p := by
  have apart : ∀ line ∈ p.listing, mark ∉ line.toList := by
    intro line member
    obtain ⟨i, -, rfl⟩ := List.mem_map.1 member
    exact i.not_mem_line hidden other
  have solid : ∀ line ∈ p.listing, decide (line ≠ "") = true := by
    intro line member
    obtain ⟨i, -, rfl⟩ := List.mem_map.1 member
    exact decide_eq_true i.line_ne_empty
  have lines : (Text.splitAt mark ((String.singleton mark).intercalate p.listing)).filter
      (· ≠ "") = p.listing := by
    rw [Text.splitAt_intercalate apart]
    split
    · next nothing =>
      rw [nothing]
      rfl
    · exact List.filter_eq_self.2 solid
  have back : Instruction.ofLine? ∘ Instruction.line = fun i => pure (id i) :=
    funext Instruction.ofLine?_line
  rw [ofListing?, lines, listing, List.mapM_map, back, List.mapM_pure, List.map_id]
  rfl

theorem listing_inj (hidden : Text.isShown mark = false) (other : mark ≠ '\t') :
    (String.singleton mark).intercalate p.listing =
      (String.singleton mark).intercalate q.listing ↔ p = q := by
  constructor
  · intro same
    have read := ofListing?_listing hidden other p
    rw [same, ofListing?_listing hidden other] at read
    exact (Option.some.inj read).symm
  · rintro rfl
    rfl

/-- Listings are unambiguous. Two instructions have the same line exactly if they are the same; for
numbers this means the same bits, or NaN on both sides. No line holds a line feed or a carriage
return, so a program is told by its lines with either of them in between. -/
theorem listing_unambiguous :
    (∀ i j : Instruction, i.line = j.line ↔ i = j) ∧
    (∀ x y : Float, (Instruction.push (.number x)).line = (Instruction.push (.number y)).line ↔
      x.toBits = y.toBits ∨ x.isNaN ∧ y.isNaN) ∧
    (∀ i : Instruction, '\n' ∉ i.line.toList ∧ '\r' ∉ i.line.toList) ∧
    ∀ p q : Program,
      ("\n".intercalate p.listing = "\n".intercalate q.listing ↔ p = q) ∧
      ("\r".intercalate p.listing = "\r".intercalate q.listing ↔ p = q) := by
  have feed : Text.isShown '\n' = false := by decide
  have ret : Text.isShown '\r' = false := by decide
  refine ⟨fun i j => Instruction.line_inj, ?_, ?_, ?_⟩
  · intro x y
    rw [Instruction.line_inj, Instruction.push.injEq, Literal.number.injEq, Float.toBits_inj]
    constructor
    · exact .inl
    · rintro (same | ⟨left, right⟩)
      · exact same
      · rw [Float.isNaN_eq_decide_eq_nan, decide_eq_true_eq] at left right
        rw [left, right]
  · intro i
    exact ⟨i.not_mem_line feed (by decide), i.not_mem_line ret (by decide)⟩
  · intro p q
    exact ⟨listing_inj feed (by decide), listing_inj ret (by decide)⟩

end Program

end Reckoner
