import TextEditor.Text.Basic

/-!
# UTF-16 units

A character above `U+FFFF` takes two UTF-16 code units and every other character one.  `units`
measures a text in them and `indexOfUnits` leads back from a unit offset to a character offset.
-/

namespace TextEditor.Text

/-- The number of UTF-16 code units of one character. -/
def charUnits (c : Char) : Nat :=
  if c.toNat > 0xFFFF then 2 else 1

/-- The number of UTF-16 code units of a text. -/
def units (t : Text) : Nat :=
  t.foldr (fun c total => charUnits c + total) 0

/-- The index of the character that starts at the UTF-16 offset `target`.  An offset inside a
surrogate pair resolves to the character after it, and one past the end to the length. -/
def indexOfUnits : Text → Int → Nat
  | [], _ => 0
  | c :: rest, target =>
    if target ≤ 0 then 0 else indexOfUnits rest (target - charUnits c) + 1

@[simp]
theorem units_nil : units [] = 0 := rfl

@[simp]
theorem units_cons (c : Char) (t : Text) : units (c :: t) = charUnits c + units t := rfl

theorem units_append (a b : Text) : units (a ++ b) = units a + units b := by
  induction a with
  | nil => simp
  | cons c rest ih => simp [ih]; omega

theorem length_le_units (t : Text) : t.length ≤ units t := by
  induction t with
  | nil => simp
  | cons c rest ih =>
    have hpos : 1 ≤ charUnits c := by unfold charUnits; split <;> omega
    simp
    omega

end TextEditor.Text
