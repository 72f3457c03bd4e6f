import Reckoner.Proofs.Token.Role

set_option autoImplicit false

namespace Reckoner

namespace Role

variable {outer : List Enclosure} {previous : Option Role} {role : Role} {rest : List Role}

theorem WellPlaced.cons (admitted : ∀ before ∈ previous, before.admits role = true)
    (later : WellPlaced (role :: rest)) : WellPlaced (previous.toList ++ role :: rest) := by
  cases previous with
  | none => exact later
  | some before =>
    constructor
    · intro pair member
      rcases List.mem_cons.1 member with rfl | after
      · exact admitted before rfl
      · exact later.between pair after
    · exact later.last

theorem admits_of_endsOperand {before : Role} (ends : before.endsOperand = true) (next : Role) :
    before.admits next = true := by
  cases before with
  | operand => rfl
  | closer => rfl
  | operator => cases ends
  | separator => cases ends
  | opener e => cases ends

/-- What ends no part may come first in one, after another operator and after an operand. -/
theorem admits_of_not_endsPart (before : Role) {next : Role} (inside : next.endsPart = false) :
    before.admits next = true := by
  have other : next ≠ separator := by
    rintro rfl
    cases inside
  cases before with
  | operand => rfl
  | closer => rfl
  | operator => simp [admits, inside]
  | separator => simp [admits, inside]
  | opener e => cases e <;> simp [admits, inside, other]

/-- Marks within `outer` are well placed after `previous`. -/
def Placed (outer : List Enclosure) (previous : Option Role) (marks : List Mark) : Prop :=
  WellPlaced (previous.toList ++ ofMarks outer previous marks)

/-- Marks within `outer` are well placed after an operand, whichever role it ends in. -/
def FollowOperand (outer : List Enclosure) (marks : List Mark) : Prop :=
  ∀ last : Role, last.endsOperand = true → Placed outer (some last) marks

variable {marks : List Mark} {m : Mark}

theorem Placed.cons (admitted : ∀ before ∈ previous, before.admits (ofMark outer previous m) = true)
    (later : Placed ((ofMark outer previous m).enclosing outer) (some (ofMark outer previous m))
      marks) : Placed outer previous (m :: marks) :=
  WellPlaced.cons admitted later

theorem Placed.cons_of_inside (inside : (ofMark outer previous m).endsPart = false)
    (later : Placed ((ofMark outer previous m).enclosing outer) (some (ofMark outer previous m))
      marks) : Placed outer previous (m :: marks) :=
  Placed.cons (fun before _ => admits_of_not_endsPart before inside) later

/-- A mark may follow an operand if the marks after it follow its role. -/
theorem FollowOperand.cons
    (later : ∀ last : Role, last.endsOperand = true →
      Placed ((ofMark outer (some last) m).enclosing outer) (some (ofMark outer (some last) m))
        marks) : FollowOperand outer (m :: marks) := by
  intro last ends
  refine Placed.cons ?_ (later last ends)
  rintro before ⟨rfl⟩
  exact admits_of_endsOperand ends _

theorem followOperand_nil : FollowOperand outer [] := by
  intro last ends
  constructor
  · intro pair member
    cases member
  · rintro role ⟨rfl⟩
    cases last with
    | operand => rfl
    | closer => rfl
    | operator => cases ends
    | separator => cases ends
    | opener e => cases ends

theorem FollowOperand.closer {e : Enclosure} (closes : ∀ last : Option Role,
    ofMark (e :: outer) last m = Role.closer) (after : FollowOperand outer marks) :
    FollowOperand (e :: outer) (m :: marks) := by
  apply FollowOperand.cons
  intro last _
  rw [closes]
  exact after .closer rfl

/-- An operator that separates nothing starts no operand and ends none. -/
theorem ofMark_operator {symbol : String} {separates : Bool}
    (within : outer.head?.any Enclosure.separates = separates)
    (fits : (!(separates && symbol == ",")) = true) (previous : Option Role) :
    ofMark outer previous (.operator symbol) = Role.operator := by
  rw [ofMark, if_neg]
  rintro ⟨rfl, counted⟩
  rw [← within, counted] at fits
  cases fits

theorem ofMark_comma (within : outer.head?.any Enclosure.separates = true)
    (previous : Option Role) : ofMark outer previous (.operator ",") = Role.separator := by
  rw [ofMark, if_pos ⟨rfl, within⟩]

end Role

open Role in
mutual

theorem Atom.placed (a : Atom) {outer : List Enclosure} {previous : Option Role} {rest : List Mark}
    (fits : a.commasFit = true) (opens : previous.any Role.endsOperand = false)
    (after : FollowOperand outer rest) : Placed outer previous (a.marks ++ rest) := by
  cases a with
  | number raw => exact Placed.cons_of_inside rfl (after .operand rfl)
  | string raw => exact Placed.cons_of_inside rfl (after .operand rfl)
  | word raw => exact Placed.cons_of_inside rfl (after .operand rfl)
  | group inner =>
    have role : ofMark outer previous .openParen = .opener .group := by simp [ofMark, opens]
    simp only [Atom.marks, List.cons_append, List.append_assoc]
    apply Placed.cons_of_inside <;> rw [role]
    · rfl
    · exact inner.placed rfl fits rfl (after.closer fun _ => rfl)
  | array items =>
    simp only [Atom.marks, List.cons_append, List.append_assoc]
    exact Placed.cons_of_inside rfl
      (Phrase.placed_separated items rfl fits rfl (fun _ => rfl) (fun _ => rfl) after)
  | call callee operands =>
    simp only [Atom.commasFit, Bool.and_eq_true] at fits
    simp only [Atom.marks, List.cons_append, List.append_assoc]
    refine callee.placed fits.1 opens (FollowOperand.cons ?_)
    intro last ends
    have role : ofMark outer (some last) .openParen = .opener .call := by simp [ofMark, ends]
    rw [role]
    exact Phrase.placed_separated operands rfl fits.2 rfl (fun _ => rfl) (fun _ => rfl) after

theorem Phrase.placed (e : Phrase) {outer : List Enclosure} {previous : Option Role}
    {separates : Bool} {rest : List Mark}
    (within : outer.head?.any Enclosure.separates = separates)
    (fits : e.commasFit separates = true) (opens : previous.any Role.endsOperand = false)
    (after : FollowOperand outer rest) : Placed outer previous (e.marks ++ rest) := by
  cases e with
  | atom a => exact a.placed fits opens after
  | unary symbol rest =>
    simp only [Phrase.commasFit, Bool.and_eq_true] at fits
    have role := ofMark_operator within fits.1 previous
    apply Placed.cons_of_inside <;> rw [role]
    · rfl
    · exact rest.placed within fits.2 rfl after
  | binary left symbol rest =>
    simp only [Phrase.commasFit, Bool.and_eq_true] at fits
    simp only [Phrase.marks, List.append_assoc, List.cons_append]
    refine left.placed fits.1.1 opens (FollowOperand.cons ?_)
    intro last _
    rw [ofMark_operator within fits.1.2]
    exact rest.placed within fits.2 rfl after

/-- What lies between the delimiters of a call or an array is well placed, and so is what comes
after the one that closes. -/
theorem Phrase.placed_separated (es : List Phrase) {outer : List Enclosure} {e : Enclosure}
    {previous : Role} {closer : Mark} {rest : List Mark}
    (within : e.separates = true) (fits : Phrase.allCommasFit es = true)
    (opens : previous.endsOperand = false)
    (closes : ∀ last : Option Role, ofMark (e :: outer) last closer = Role.closer)
    (admitted : es = [] → previous.admits .closer = true) (after : FollowOperand outer rest) :
    Placed (e :: outer) (some previous) (Phrase.separated es ++ closer :: rest) := by
  have counted : (e :: outer).head?.any Enclosure.separates = true := within
  match es with
  | [] =>
    apply Placed.cons <;> rw [closes]
    · rintro before ⟨rfl⟩
      exact admitted rfl
    · exact after .closer rfl
  | [first] =>
    simp only [Phrase.allCommasFit, Bool.and_true] at fits
    exact first.placed counted fits opens (after.closer closes)
  | first :: next :: others =>
    simp only [Phrase.allCommasFit, Bool.and_eq_true] at fits
    have remaining : Phrase.allCommasFit (next :: others) = true := by
      simpa only [Phrase.allCommasFit, Bool.and_eq_true] using fits.2
    simp only [Phrase.separated, List.append_assoc, List.cons_append]
    refine first.placed counted fits.1 opens (FollowOperand.cons ?_)
    intro last _
    rw [ofMark_comma counted]
    exact Phrase.placed_separated (next :: others) within remaining rfl closes nofun after

end

theorem Phrase.wellPlaced {e : Phrase} {tokens : List Token} (fits : e.commasFit false = true)
    (spelled : tokens.filterMap Token.mark? = e.marks) : Role.WellPlaced (Token.roles tokens) := by
  have placed : Role.Placed [] none (e.marks ++ []) :=
    e.placed rfl fits rfl Role.followOperand_nil
  rw [List.append_nil, ← spelled] at placed
  exact placed

end Reckoner
