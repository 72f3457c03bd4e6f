import Reckoner.Proofs.Decimal.Scanning
import Reckoner.Value.Equality

set_option autoImplicit false

namespace Reckoner

namespace Text

theorem mem_trim {cs : List Char} {c : Char} (solid : isBlank c = false) (member : c ∈ cs) :
    c ∈ trim cs := by
  have kept {ds : List Char} (inside : c ∈ ds) : c ∈ ds.dropWhile isBlank := by
    rw [← List.takeWhile_append_dropWhile (p := isBlank) (l := ds), List.mem_append] at inside
    rcases inside with taken | left
    · have blank := List.all_eq_true.1 List.all_takeWhile c taken
      rw [solid] at blank
      cases blank
    · exact left
  rw [trim, List.mem_reverse]
  exact kept (List.mem_reverse.2 (kept member))

end Text

namespace Value

theorem textNumber_of_mem {s : String} {c : Char} (member : c ∈ s.toList)
    (solid : Text.isBlank c = false) (other : Decimal.isNumeralChar c = false)
    (letter : c ∉ "Infinity".toList) : textNumber s = Decimal.noNumber := by
  have within := Text.mem_trim solid member
  have apart : c ≠ '-' ∧ c ≠ '+' := by
    constructor <;>
    · rintro rfl
      cases other
  unfold textNumber
  cases trimmed : Text.trim s.toList with
  | nil =>
    rw [trimmed] at within
    cases within
  | cons d rest =>
    rw [trimmed] at within
    have left := Decimal.mem_sign apart.1 apart.2 within
    have worded : (Decimal.sign (d :: rest)).2 ≠ "Infinity".toList := by
      intro same
      rw [same] at left
      exact letter left
    have unread := Decimal.parse?_eq_none_of_mem left other
    simp only [worded, unread, if_false]

end Value

end Reckoner
