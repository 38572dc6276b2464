/-!
# Decimal digits of every script

Each script that writes numbers in base ten has its digits zero to nine at ten consecutive code
points; the table lists the code point of each zero (Unicode 14).
-/

namespace TextEditor.Text

/-- Code points of the digit zero in every script, in increasing order. -/
def decimalZeros : List Nat :=
  [48, 1632, 1776, 1984, 2406, 2534, 2662, 2790, 2918, 3046, 3174, 3302, 3430, 3558, 3664, 3792,
   3872, 4160, 4240, 6112, 6160, 6470, 6608, 6784, 6800, 6992, 7088, 7232, 7248, 42528, 43216,
   43264, 43472, 43504, 43600, 44016, 65296, 66720, 68912, 69734, 69872, 69942, 70096, 70384,
   70736, 70864, 71248, 71360, 71472, 71904, 72016, 72784, 73040, 73120, 92768, 92864, 93008,
   120782, 120792, 120802, 120812, 120822, 123200, 123632, 125264, 130032]

/-- The value of a decimal digit, or `none` for any other character. -/
def decimalValue? (c : Char) : Option Nat :=
  (decimalZeros.find? fun first => first ≤ c.toNat && c.toNat < first + 10).map (c.toNat - ·)

theorem decimalValue?_lt_ten {c : Char} {value : Nat} (h : decimalValue? c = some value) :
    value < 10 := by
  obtain ⟨first, hfound, rfl⟩ := Option.map_eq_some_iff.1 h
  have hrange := List.find?_some hfound
  simp only [Bool.and_eq_true, decide_eq_true_eq] at hrange
  omega

end TextEditor.Text
