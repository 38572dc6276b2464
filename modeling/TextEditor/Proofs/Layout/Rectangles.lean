import TextEditor.Proofs.Buffer.Stops
import TextEditor.Proofs.Document.Lines
import TextEditor.Proofs.Document.Position
import TextEditor.Proofs.Layout.Cells

/-!
# Rectangles in cells of size one

The rectangle of the caret is the way back from an offset to a point: who points at it hits the
offset again.  The rectangles of a range are one for each row in which something of it shows, and
together they cover the cells of those of its characters that the view shows, and no other cell.
-/

namespace TextEditor

namespace Document

variable {d : Document} {row offset : Nat}

/-- Offsets lie on lines in their order. -/
theorem lineOf_mono (h : d.Indexed) {offset offset' : Int} (hle : offset ≤ offset') :
    d.lineOf offset ≤ d.lineOf offset' := by
  by_contra hless
  obtain ⟨s, hs, hbegins⟩ := starts_le_clamp h (Nat.le_refl (d.lineOf offset))
  have hinside : d.lineOf offset < d.starts.length := lineOf_lt_lineCount h offset
  have hnext : d.starts[d.lineOf offset' + 1]? = some d.starts[d.lineOf offset' + 1] :=
    List.getElem?_eq_getElem (by omega)
  have hbehind := clamp_lt_starts h hnext
  have hsorted := starts_le_starts h hnext hs (by omega)
  have hclamp : d.clamp offset ≤ d.clamp offset' := by
    simp only [clamp]
    omega
  omega

/-- An offset lies behind the content of its line only inside a pair. -/
theorem le_lineStart_add_contentLength (h : d.Indexed) (hoffset : offset ≤ d.length)
    (hpair : ¬ Text.CutsPair (d.text.take offset) (d.text.drop offset)) :
    offset ≤ d.lineStart (d.lineOf offset) + d.contentLength (d.lineOf offset) := by
  have hclamp : d.clamp offset = offset := clamp_of_le hoffset
  have hstart := lineStart_lineOf h offset
  have hline := lineOf_lt_lineCount h offset
  have hnext : d.lineStart ((d.lineOf offset : Int) + 1) =
      d.starts[d.lineOf offset + 1]?.getD d.length := by
    rw [lineStart, if_neg (by omega)]
    rfl
  rw [contentLength, if_neg (by simp; omega), breakWidth, if_neg (by omega), hnext,
    Int.toNat_natCast]
  cases hs : d.starts[d.lineOf offset + 1]? with
  | none =>
    simp only [Option.getD_none]
    omega
  | some stop =>
    have hbehind := clamp_lt_starts h hs
    simp only [Option.getD_some]
    split
    · next hwide =>
      simp only [Bool.and_eq_true, decide_eq_true_eq] at hwide
      obtain ⟨htwo, hslice⟩ := hwide
      -- The break takes two characters, and between them is the only offset that is behind.
      have hinner : offset ≠ stop - 1 := by
        rintro rfl
        have hwidth : stop - (stop - 2) = 2 := by omega
        have hreturn := congrArg (fun t : Text => t[0]?) hslice
        have hfeed := congrArg (fun t : Text => t[1]?) hslice
        simp only [Text.slice, hwidth, List.getElem?_take, List.getElem?_drop] at hreturn hfeed
        exact hpair ((Text.cutsPair_iff _ _).2 ⟨stop - 2, by omega, hreturn, hfeed⟩)
      omega
    · omega

/-- Only a line of the document has content. -/
theorem exists_row_of_contentLength {line : Int} (hcontent : 0 < d.contentLength line) :
    ∃ row : Nat, line = row ∧ row < d.lineCount := by
  rw [contentLength] at hcontent
  split at hcontent
  · omega
  · next hline =>
    simp only [Bool.or_eq_true, decide_eq_true_eq] at hline
    exact ⟨line.toNat, by omega, by omega⟩

end Document

/-- Whether a rectangle covers a cell of size one. -/
def Rect.Covers (r : Rect Int) (row column : Int) : Prop :=
  (r.top ≤ row ∧ row < r.top + r.height) ∧ (r.left ≤ column ∧ column < r.left + r.width)

namespace CellGrid

/-! ## The caret -/

section Caret

variable {text : Text} {offset : Nat}

theorem caretRect_one (hoffset : offset ≤ text.length) {column : Int}
    (hcolumn : offset - (Document.ofText text).lineStart ((Document.ofText text).lineOf offset) =
      column) (shift : Nat) :
    (⟨1, 1⟩ : CellGrid Int).caretRect text offset 0 shift =
      .ok (if column - shift < 0 then none
        else some ⟨column - shift, (Document.ofText text).lineOf offset, 0, 1⟩) := by
  have habsolute : min ((offset : Int) + 0) text.length = offset := by omega
  rw [caretRect, if_neg (by simp; omega)]
  simp only [habsolute, hcolumn, Coordinate.ofInt, Coordinate.mul, Coordinate.zero, Int.mul_one,
    bind, Except.bind, pure, Except.pure]
  split <;> rfl

/-- The caret has a rectangle unless its column is scrolled out of view, and who points at its
left upper corner hits the offset of the caret. -/
theorem hit_caretRect (hoffset : offset ≤ text.length)
    (hpair : ¬ Text.CutsPair (text.take offset) (text.drop offset)) (shift : Nat) :
    ∃ rect?, (⟨1, 1⟩ : CellGrid Int).caretRect text offset 0 shift = .ok rect? ∧
      (rect?.isSome ↔ (shift : Int) ≤ ((Document.ofText text).positionOf offset).2) ∧
      ∀ rect ∈ rect?, (⟨1, 1⟩ : CellGrid Int).hit text rect.left rect.top shift =
        .ok ⟨offset, 0⟩ := by
  have hindexed := Document.indexed_ofText text
  have hline := Document.lineOf_lt_lineCount hindexed offset
  have hstart := Document.lineStart_lineOf hindexed offset
  have hend := Document.le_lineStart_add_contentLength hindexed hoffset hpair
  rw [Document.clamp_of_le hoffset] at hstart
  obtain ⟨column, hcolumn⟩ := Nat.exists_eq_add_of_le hstart
  have hposition : ((Document.ofText text).positionOf offset).2 = column := by
    simp only [Document.positionOf]
    omega
  rw [hposition]
  refine ⟨_, caretRect_one hoffset hposition shift, ?_, ?_⟩
  · split
    · simp
      omega
    · simp
      omega
  · intro rect hrect
    split at hrect
    · cases hrect
    · next hshown =>
      obtain rfl := Option.some.inj hrect
      obtain ⟨shown, rfl⟩ : ∃ shown, column = shown + shift := ⟨column - shift, by omega⟩
      have hleft : ((shown + shift : Nat) : Int) - shift = shown := by omega
      have hbound := exact_int (shown + shift + (Document.ofText text).lineOf offset + 1)
      have hhit := hit_cell hbound hline (by omega) (by omega : shown + shift < _)
      rw [Nat.min_eq_left (by omega), ← hcolumn] at hhit
      rw [hleft]
      exact hhit

/-- The end of a line before a CR LF pair, in a view that is scrolled by two columns. -/
theorem hit_caretRect_before_pair :
    3 ≤ "xyz\r\nbc".toList.length ∧
      ¬ Text.CutsPair ("xyz\r\nbc".toList.take 3) ("xyz\r\nbc".toList.drop 3) ∧
      ((Document.ofText "xyz\r\nbc".toList).positionOf (3 : Nat)).2 = 3 ∧
      ∃ rect?, (⟨1, 1⟩ : CellGrid Int).caretRect "xyz\r\nbc".toList (3 : Nat) 0 (2 : Nat) =
          .ok rect? ∧
        (rect?.isSome ↔
          ((2 : Nat) : Int) ≤ ((Document.ofText "xyz\r\nbc".toList).positionOf (3 : Nat)).2) ∧
        ∀ rect ∈ rect?, (⟨1, 1⟩ : CellGrid Int).hit "xyz\r\nbc".toList rect.left rect.top
          (2 : Nat) = .ok ⟨(3 : Nat), 0⟩ :=
  ⟨by decide, by decide, by decide, hit_caretRect (by decide) (by decide) 2⟩

end Caret

/-! ## Ranges -/

section Ranges

variable {d : Document} {text : Text}

/-- The rectangle of one row of a range, as exact whole numbers measure it. -/
def rowSpan (d : Document) (start stop shift : Int) (row : Nat) : Option (Rect Int) :=
  let columns := coveredColumns d start stop shift row
  if columns.2 ≤ columns.1 then none else some ⟨columns.1, row, columns.2 - columns.1, 1⟩

theorem rowRect_one (d : Document) (start stop shift : Int) (row : Nat) :
    (⟨1, 1⟩ : CellGrid Int).rowRect d start stop shift row =
      .ok (rowSpan d start stop shift row) := by
  simp only [rowRect, rowSpan, Coordinate.ofInt, Coordinate.mul, Int.mul_one, bind, Except.bind,
    pure, Except.pure]
  split <;> rfl

/-- The rows between the lines of both ends of a range. -/
def rangeRows (d : Document) (start stop : Int) : List Nat :=
  List.range' (d.lineOf start) (d.lineOf stop + 1 - d.lineOf start)

theorem rangeRects_one (text : Text) (start length shift : Int) :
    (⟨1, 1⟩ : CellGrid Int).rangeRects text start length shift =
      .ok (if min (start + length) text.length ≤ start then []
        else (rangeRows (Document.ofText text) start (min (start + length) text.length)).filterMap
          (rowSpan (Document.ofText text) start (min (start + length) text.length) shift)) := by
  have hrows : ∀ (d : Document) (stop : Int) (rows : List Nat),
      rows.mapM ((⟨1, 1⟩ : CellGrid Int).rowRect d start stop shift) =
        .ok (rows.map (rowSpan d start stop shift)) := by
    intro d stop rows
    rw [funext (rowRect_one d start stop shift)]
    exact List.mapM_pure
  rw [rangeRects]
  split
  · rfl
  · simp only [hrows, bind, Except.bind, pure, Except.pure, List.filterMap_map, rangeRows]
    rfl

/-- The rectangle of a row is as high as the row. -/
theorem rowSpan_eq_some {start stop shift : Int} {row : Nat} {rect : Rect Int}
    (h : rowSpan d start stop shift row = some rect) :
    rect.top = row ∧ 0 < rect.width ∧ rect.height = 1 := by
  simp only [rowSpan] at h
  split at h
  · cases h
  · cases h
    exact ⟨rfl, by dsimp only; omega, rfl⟩

/-- The rectangle of a row covers the columns in which the view shows something of the range. -/
theorem exists_rowSpan_covers {start stop : Nat} {shift column row : Nat} :
    (∃ rect ∈ rowSpan d start stop shift row, rect.Covers row column) ↔
      column + shift < d.contentLength row ∧ start ≤ d.lineStart row + (column + shift) ∧
        d.lineStart row + (column + shift) < stop := by
  have hspan : ∀ first last : Int, (∃ rect ∈ if last ≤ first then none
      else some (⟨first, row, last - first, 1⟩ : Rect Int), rect.Covers row column) ↔
      first ≤ column ∧ column < last := by
    intro first last
    split
    · simp
      omega
    · simp [Rect.Covers]
  rw [rowSpan, hspan]
  simp only [coveredColumns]
  omega

/-- A range has one rectangle for each row in which something of it shows. They cover the cells of
those of its characters that the view shows, and no other cell. -/
theorem covers_rangeRects (text : Text) (start length shift : Nat) :
    ∃ rects, (⟨1, 1⟩ : CellGrid Int).rangeRects text start length shift = .ok rects ∧
      rects.Pairwise (fun first second => first.top < second.top) ∧
      (∀ rect ∈ rects, 0 < rect.width ∧ rect.height = 1) ∧
      ∀ (row : Int) (column : Nat), (∃ rect ∈ rects, rect.Covers row column) ↔
        column + shift < (Document.ofText text).contentLength row ∧
          start ≤ (Document.ofText text).lineStart row + (column + shift) ∧
          (Document.ofText text).lineStart row + (column + shift) <
            min (start + length) text.length := by
  have hindexed := Document.indexed_ofText text
  obtain ⟨stop, hstop⟩ : ∃ stop, min (start + length) text.length = stop := ⟨_, rfl⟩
  have hstop' : min ((start : Int) + length) text.length = stop := by omega
  have hrects := rangeRects_one text start length shift
  rw [hstop'] at hrects
  rw [hstop]
  refine ⟨_, hrects, ?_, ?_, fun row column => ?_⟩
  · split
    · exact .nil
    refine List.pairwise_filterMap.2 ((List.pairwise_lt_range' 1).imp ?_)
    intro first second hless rect hrect rect' hrect'
    rw [(rowSpan_eq_some hrect).1, (rowSpan_eq_some hrect').1]
    exact Int.ofNat_lt.2 hless
  · intro rect hrect
    split at hrect
    · cases hrect
    obtain ⟨row, -, hrow⟩ := List.mem_filterMap.1 hrect
    exact (rowSpan_eq_some hrow).2
  · constructor
    · rintro ⟨rect, hrect, hcovers⟩
      split at hrect
      · cases hrect
      obtain ⟨row', -, hrow⟩ := List.mem_filterMap.1 hrect
      obtain ⟨htop, -, hheight⟩ := rowSpan_eq_some hrow
      obtain rfl : row = row' := by
        have := hcovers.1
        omega
      exact exists_rowSpan_covers.1 ⟨rect, hrow, hcovers⟩
    · rintro ⟨hcolumn, hfirst, hlast⟩
      obtain ⟨row, rfl, hrow⟩ := Document.exists_row_of_contentLength (Nat.zero_lt_of_lt hcolumn)
      have hline := Document.lineOf_lineStart_add hindexed hrow (Nat.le_of_lt hcolumn)
      have hbegin := Document.lineOf_mono hindexed (Int.ofNat_le.2 hfirst)
      have hend := Document.lineOf_mono hindexed (Int.ofNat_le.2 (Nat.le_of_lt hlast))
      obtain ⟨rect, hrect, hcovers⟩ := exists_rowSpan_covers.2 ⟨hcolumn, hfirst, hlast⟩
      rw [if_neg (by omega)]
      refine ⟨rect, List.mem_filterMap.2 ⟨row, List.mem_range'_1.2 ?_, hrect⟩, hcovers⟩
      omega

end Ranges

end CellGrid

end TextEditor
