import TextEditor.History.Delta
import TextEditor.Proofs.Document.LineIndex
import TextEditor.Proofs.Text.Units

/-!
# Positions lead back to offsets

A position names a line and a column in it, counted in characters or in UTF-16 units.  Whoever
knows the text can find the offset again: the line begins where the index says, and the column is
counted off within the line.  This holds for either way of counting, because the characters
between the start of a line and an offset on it are the first ones of that line.
-/

namespace TextEditor

namespace Document

/-- The offset that a position stands for, where its column counts as the encoding says.  A column
in UTF-16 units is converted back within its line. -/
def offsetAt (d : Document) (e : Encoding) (p : Position) : Int :=
  match e with
  | .utf32 => d.lineStart p.line + p.column
  | .utf16 => d.lineStart p.line + Text.indexOfUnits (d.line p.line) p.column

/-- The position of an offset with its column counted as the encoding says. -/
def positionIn (d : Document) : Encoding → Int → Position
  | .utf32 => d.position
  | .utf16 => d.position16

theorem lineStart_lineOf {d : Document} (h : d.Indexed) (offset : Int) :
    d.lineStart (d.lineOf offset) ≤ d.clamp offset := by
  obtain ⟨s, hs, hle⟩ := starts_le_clamp h (Nat.le_refl (d.lineOf offset))
  unfold lineStart
  split
  · exact Nat.zero_le _
  · simpa [hs] using hle

theorem clamp_le_lineStart_succ {d : Document} (h : d.Indexed) (offset : Int) :
    d.clamp offset ≤ d.lineStart (d.lineOf offset + 1) := by
  have hindex : ((d.lineOf offset : Int) + 1).toNat = d.lineOf offset + 1 := by omega
  rw [lineStart, if_neg (by omega), hindex]
  cases hs : d.starts[d.lineOf offset + 1]? with
  | none => exact d.clamp_le_length offset
  | some s => exact Nat.le_of_lt (clamp_lt_starts h hs)

/-- The characters from the start of its line to an offset are the first ones of the line. -/
theorem line_lineOf {d : Document} (h : d.Indexed) (offset : Int) :
    ∃ rest, d.line (d.lineOf offset) =
      Text.slice d.text (d.lineStart (d.lineOf offset)) (d.clamp offset) ++ rest :=
  ⟨_, (Text.slice_append_slice d.text (lineStart_lineOf h offset)
    (clamp_le_lineStart_succ h offset)).symm⟩

theorem length_slice {t : Text} {start stop : Nat} (h : stop ≤ t.length) :
    (Text.slice t start stop).length = stop - start := by
  simp only [Text.slice, List.length_take, List.length_drop]
  omega

/-- A column in UTF-16 units counts those between the start of the line and the offset. -/
theorem column_position16 {d : Document} (h : d.Indexed) (offset : Int) :
    (d.position16 offset).column =
      (Text.units (Text.slice d.text (d.lineStart (d.lineOf offset)) (d.clamp offset)) : Nat) := by
  have hstart := lineStart_lineOf h offset
  have hslice : d.slice (d.lineStart (d.lineOf offset)) offset =
      Text.slice d.text (d.lineStart (d.lineOf offset)) (d.clamp offset) := by
    have hinside : d.lineStart (d.lineOf offset) ≤ d.length :=
      Nat.le_trans hstart (d.clamp_le_length offset)
    simp only [slice, clamp_of_le hinside, Nat.min_eq_left hstart, Nat.max_eq_right hstart]
  have hcolumn : offset - (offset - (d.lineStart (d.lineOf offset) : Int)) =
      d.lineStart (d.lineOf offset) := by omega
  simp only [position16, positionOf, hcolumn, hslice]

/-- A position leads back to its offset. -/
theorem clamp_offsetAt_positionIn {d : Document} (h : d.Indexed) (e : Encoding) (offset : Int) :
    d.clamp (d.offsetAt e (d.positionIn e offset)) = d.clamp offset := by
  cases e with
  | utf32 =>
    simp only [offsetAt, positionIn, position, positionOf]
    congr 1
    omega
  | utf16 =>
    have hstart := lineStart_lineOf h offset
    obtain ⟨rest, hrest⟩ := line_lineOf h offset
    have hline : (d.position16 offset).line = d.lineOf offset := rfl
    have hback : (d.lineStart (d.lineOf offset) : Int) +
        (d.clamp offset - d.lineStart (d.lineOf offset) : Nat) = d.clamp offset := by omega
    simp only [offsetAt, positionIn, hline, column_position16 h, hrest,
      Text.indexOfUnits_units_append]
    rw [length_slice (d.clamp_le_length offset), hback, clamp_of_le (d.clamp_le_length offset)]

/-- The positions are those that the text alone gives when the index is right. -/
theorem positionIn_ofText {d : Document} (h : d.Indexed) (e : Encoding) (offset : Int) :
    (ofText d.text).positionIn e offset = d.positionIn e offset := by
  obtain ⟨text, starts, version⟩ := d
  obtain rfl : starts = Text.lineStarts text := h
  cases e <;> rfl

end Document

end TextEditor
