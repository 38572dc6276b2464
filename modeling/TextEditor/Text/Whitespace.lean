import TextEditor.Text.Basic

/-!
# White space

Three different sets go by this name: the white space of Unicode, which surrounds names and
numbers that a person typed; the blanks, space and tab, that indent a line; and the white space of
the ASCII control set, which surrounds a number in a header.
-/

namespace TextEditor.Text

/-- White space in the sense of Unicode, with the separators 28 to 31. -/
def isWhitespace (c : Char) : Bool :=
  let n := c.toNat
  (9 ≤ n && n ≤ 13) || (28 ≤ n && n ≤ 32) || n == 0x85 || n == 0xA0 || n == 0x1680 ||
    (0x2000 ≤ n && n ≤ 0x200A) || n == 0x2028 || n == 0x2029 || n == 0x202F || n == 0x205F ||
    n == 0x3000

/-- The white space of ASCII: the space and the controls 9 to 13. -/
def isAsciiWhitespace (c : Char) : Bool :=
  c = ' ' || (9 ≤ c.toNat && c.toNat ≤ 13)

/-- A space or a tab. -/
def isBlank (c : Char) : Bool :=
  c = ' ' || c = '\t'

/-- The text without the white space at its end. -/
def trimRight (t : Text) : Text :=
  (t.reverse.dropWhile isWhitespace).reverse

/-- The text without the white space at either end. -/
def trim (t : Text) : Text :=
  trimRight (t.dropWhile isWhitespace)

theorem isWhitespace_of_core {c : Char} (h : c.isWhitespace = true) : isWhitespace c = true := by
  simp only [Char.isWhitespace, Bool.or_eq_true, decide_eq_true_eq] at h
  rcases h with ((rfl | rfl) | rfl) | rfl <;> decide

theorem isWhitespace_of_isBlank {c : Char} (h : isBlank c = true) : isWhitespace c = true := by
  simp only [isBlank, Bool.or_eq_true, decide_eq_true_eq] at h
  rcases h with rfl | rfl <;> decide

end TextEditor.Text
