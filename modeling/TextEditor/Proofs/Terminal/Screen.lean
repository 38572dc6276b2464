import TextEditor.Proofs.Document.Lines
import TextEditor.Terminal.Render

/-!
# What the cells of a frame show

A frame is drawn as one text.  `screen` lays it out in rows of cells and says of each cell whether
it belongs to the margin, shows a character of the text on screen, or is the blank that stands for
the caret behind a line.  The text of the frame is the characters of these cells, row by row.
-/

namespace TextEditor.Terminal

open StyledText (isDropped)

/-- What a cell of the screen shows. -/
inductive Cell where
  /-- Part of the number of the line, or the space behind it. -/
  | margin (c : Char)
  /-- The character at an offset in the text on screen. -/
  | glyph (offset : Int) (c : Char)
  /-- The place of the caret behind the end of its line. -/
  | blank
  deriving DecidableEq, Repr

def Cell.char : Cell → Char
  | .margin c => c
  | .glyph _ c => c
  | .blank => ' '

/-- The cells that show the characters between two offsets. -/
def glyphs (t : Text) (first last : Int) : List Cell :=
  (cut t first last).zipIdx.map fun (c, column) => .glyph (first + column) c

/-- What there is to show in a row. -/
def rowCells (s : Snapshot) (lines : Document) (width : Int) (row : Nat) (number : Int) :
    List Cell :=
  let lineStart : Int := lines.lineStart row
  let length : Int := lines.contentLength row
  let first := lineStart + min s.columnOffset length
  let last := lineStart + min (s.columnOffset + width) length
  let caret := s.caret + s.caretTrailing
  (gutter s.marginWidth number).map .margin ++ glyphs s.text first last ++
    if caret = last && last = lineStart + length then [.blank] else []

/-- The rows of a frame in the given number of columns.  Characters that a terminal does not show
have no cell. -/
def screen (s : Snapshot) (columns : Int) : List (List Cell) :=
  let lines := Document.ofText s.text
  let width := max 1 (columns - s.marginWidth)
  (s.lineNumbers.take lines.lineCount).zipIdx.map fun (number, row) =>
    (rowCells s lines width row number).filter fun cell => !isDropped cell.char

/-! ## The text of the frame -/

theorem map_char_glyphs (t : Text) (first last : Int) :
    (glyphs t first last).map Cell.char = cut t first last := by
  rw [glyphs, List.map_map]
  exact List.zipIdx_map_fst 0 _

@[simp]
theorem plain_append (s : StyledText) (t : Text) (style : Option String) :
    (s.append t style).plain = s.plain ++ t.filter fun c => !isDropped c := by
  unfold StyledText.append
  split
  · next hempty => simp [List.isEmpty_iff.1 hempty]
  · rfl

@[simp]
theorem plain_stylize (s : StyledText) (style : String) (start stop : Int) :
    (s.stylize style start stop).plain = s.plain := by
  simp only [StyledText.stylize, apply_ite StyledText.plain, ite_self]

theorem plain_foldl {α : Type} {step : StyledText → α → StyledText}
    (hstep : ∀ output a, (step output a).plain = output.plain) (items : List α)
    (output : StyledText) : (items.foldl step output).plain = output.plain := by
  induction items generalizing output with
  | nil => rfl
  | cons a rest ih => rw [List.foldl_cons, ih, hstep]

@[simp]
theorem plain_stylizeRange (segments : List Segment) (start stop : Int) (style : String)
    (output : StyledText) :
    (stylizeRange segments start stop style output).plain = output.plain := by
  refine plain_foldl (fun output segment => ?_) segments output
  simp only [apply_ite StyledText.plain, plain_stylize, ite_self]

/-- The characters of a row as they come out. -/
def rowText (s : Snapshot) (lines : Document) (width : Int) (row : Nat) (number : Int) : Text :=
  ((rowCells s lines width row number).filter fun cell => !isDropped cell.char).map Cell.char

theorem plain_drawRow (s : Snapshot) (lines : Document) (width : Int) (row : Nat) (number : Int)
    (drawn : StyledText × List Segment) :
    (drawRow s lines width row number drawn).1.plain =
      drawn.1.plain ++ (if row = 0 then [] else ['\n']) ++ rowText s lines width row number := by
  have hbreak : (if row = 0 then drawn.1 else drawn.1.append ['\n']).plain =
      drawn.1.plain ++ if row = 0 then [] else ['\n'] := by
    split
    · rw [List.append_nil]
    · exact plain_append _ _ _
  have hfilter : ∀ cells : List Cell,
      (cells.filter fun cell => !isDropped cell.char).map Cell.char =
        (cells.map Cell.char).filter fun c => !isDropped c := by
    intro cells
    rw [List.filter_map]
    rfl
  have hgutter : ((gutter s.marginWidth number).map Cell.margin).map Cell.char =
      gutter s.marginWidth number := by
    rw [List.map_map]
    exact List.map_id _
  simp only [drawRow, rowText, rowCells, hfilter, List.map_append, List.filter_append, hgutter,
    map_char_glyphs]
  split
  · simp only [plain_append, hbreak, List.append_assoc]
    rfl
  · simp only [plain_append, hbreak, List.append_assoc]
    simp

theorem plain_drawRows (s : Snapshot) (lines : Document) (width : Int) (rows : List (Int × Nat))
    (drawn : StyledText × List Segment) :
    (rows.foldl (fun drawn (number, row) => drawRow s lines width row number drawn) drawn).1.plain =
      drawn.1.plain ++ (rows.map fun (number, row) =>
        (if row = 0 then [] else ['\n']) ++ rowText s lines width row number).flatten := by
  induction rows generalizing drawn with
  | nil => simp
  | cons first rest ih =>
    rw [List.foldl_cons, ih, plain_drawRow, List.map_cons, List.flatten_cons, List.append_assoc,
      List.append_assoc, List.append_assoc]

theorem intercalate_cons (first : Text) (rest : List Text) :
    ['\n'].intercalate (first :: rest) = first ++ (rest.map fun t => '\n' :: t).flatten := by
  induction rest generalizing first with
  | nil => simp
  | cons second rest ih =>
    rw [List.intercalate_cons_cons, ih, List.map_cons, List.flatten_cons]
    simp

/-- Numbered rows that begin with a line feed, the first one excepted, are joined by them. -/
theorem flatten_rows {α : Type} (items : List α) (text : α × Nat → Text) :
    (items.zipIdx.map fun item => (if item.2 = 0 then [] else ['\n']) ++ text item).flatten =
      ['\n'].intercalate (items.zipIdx.map text) := by
  cases items with
  | nil => rfl
  | cons first rest =>
    have hlater : ∀ item ∈ rest.zipIdx 1,
        (if item.2 = 0 then [] else ['\n']) ++ text item = '\n' :: text item := by
      intro item hitem
      have := List.le_snd_of_mem_zipIdx hitem
      rw [if_neg (by omega)]
      rfl
    rw [List.zipIdx_cons, List.map_cons, List.map_cons, List.flatten_cons, intercalate_cons,
      List.map_congr_left hlater, List.map_map]
    rfl

/-- The text of a frame is made of the characters of its cells, row by row. -/
theorem plain_render (s : Snapshot) (columns : Int) :
    (render (some s) columns).plain =
      ['\n'].intercalate ((screen s columns).map fun cells => cells.map Cell.char) := by
  have hrows : (drawRows s (Document.ofText s.text) (max 1 (columns - s.marginWidth))).1.plain =
      ['\n'].intercalate ((screen s columns).map fun cells => cells.map Cell.char) := by
    rw [drawRows, plain_drawRows, screen, List.map_map]
    exact flatten_rows _ fun (number, row) => rowText s _ _ row number
  rw [← hrows]
  simp only [render, apply_ite StyledText.plain, plain_stylizeRange, ite_self]
  -- Whichever styles there are, they change nothing of the text.
  cases s.selection <;> cases s.brackets <;> simp only [plain_stylizeRange]
  all_goals
    refine plain_foldl (fun output span => ?_) _ _
    split
    · exact plain_stylizeRange _ _ _ _ _
    · rfl

/-! ## The characters of a row -/

theorem toNat_mem_of_isDropped {c : Char} (h : isDropped c = true) :
    c.toNat ∈ [7, 8, 11, 12, 13] :=
  List.contains_iff_mem.1 h

/-- Of the characters of a line, a terminal leaves out bell and backspace. -/
theorem isDropped_eq_false {c : Char} (hbreak : Text.isLineBreak c = false) (hbell : c ≠ '\x07')
    (hbackspace : c ≠ '\x08') : isDropped c = false := by
  rw [Bool.eq_false_iff]
  intro hdropped
  have hcode := toNat_mem_of_isDropped hdropped
  rw [← Char.ofNat_toNat c] at hbell hbackspace hbreak
  simp only [List.mem_cons, List.not_mem_nil, or_false] at hcode
  rcases hcode with hc | hc | hc | hc | hc <;> rw [hc] at hbell hbackspace hbreak
  · exact hbell rfl
  · exact hbackspace rfl
  all_goals exact absurd hbreak (by decide)

theorem cut_eq_slice (t : Text) {first last : Nat} (hfirst : first ≤ t.length)
    (hlast : last ≤ t.length) : cut t first last = Text.slice t first last := by
  simp only [cut, Int.toNat_natCast]
  rw [if_neg (by omega), if_neg (by omega), Nat.min_eq_left hfirst, Nat.min_eq_left hlast]

/-- A glyph among the cells of a range shows the character at its offset. -/
theorem glyph_of_glyphs {t : Text} {first last column : Nat} (hlast : last ≤ t.length)
    (hfirst : first ≤ last) {cell : Cell} (hcell : (glyphs t first last)[column]? = some cell) :
    first + column < last ∧
      ∃ c, t[first + column]? = some c ∧ cell = .glyph (first + column : Nat) c := by
  rw [glyphs, cut_eq_slice t (by omega) hlast, List.getElem?_map, List.getElem?_zipIdx,
    Text.slice, List.getElem?_take, List.getElem?_drop] at hcell
  split at hcell
  · next hinside =>
    refine ⟨by omega, ?_⟩
    simp only [Option.map_map, Option.map_eq_some_iff] at hcell
    obtain ⟨c, hc, rfl⟩ := hcell
    refine ⟨c, hc, ?_⟩
    simp
  · cases hcell

/-- Where a row shows a glyph, this is the character of the line in that column, counted from the
first one that is not scrolled away. -/
theorem glyph_of_rowCells {s : Snapshot} {shift row : Nat} (hshift : s.columnOffset = shift)
    (hrow : row < (Document.ofText s.text).lineCount) {width : Int} (hwidth : 0 ≤ width)
    {number : Int} {cell : Nat} {offset : Int} {c : Char}
    (hcell : (rowCells s (Document.ofText s.text) width row number)[cell]? =
      some (.glyph offset c)) :
    ∃ column : Nat, cell = (gutter s.marginWidth number).length + column ∧
      column + shift < (Document.ofText s.text).contentLength row ∧
        offset = ((Document.ofText s.text).lineStart row + (column + shift) : Nat) ∧
          s.text[(Document.ofText s.text).lineStart row + (column + shift)]? = some c := by
  have hbound := Document.lineStart_add_contentLength_le (Document.indexed_ofText s.text) hrow
  rw [Document.length_ofText] at hbound
  obtain ⟨extent, rfl⟩ := Int.eq_ofNat_of_zero_le hwidth
  simp only [rowCells, hshift] at hcell
  generalize (Document.ofText s.text).lineStart row = start at hcell hbound ⊢
  generalize (Document.ofText s.text).contentLength row = length at hcell hbound ⊢
  have hfirst : (start : Int) + min (shift : Int) length = (start + min shift length : Nat) := by
    omega
  have hlast : (start : Int) + min ((shift : Int) + extent) length =
      (start + min (shift + extent) length : Nat) := by
    omega
  rw [hfirst, hlast, List.append_assoc, List.getElem?_append, List.length_map] at hcell
  split at hcell
  · rw [List.getElem?_map] at hcell
    obtain ⟨_, _, heq⟩ := Option.map_eq_some_iff.1 hcell
    cases heq
  rw [List.getElem?_append] at hcell
  split at hcell
  · obtain ⟨hinside, c', hc', heq⟩ := glyph_of_glyphs (by omega) (by omega) hcell
    obtain ⟨rfl, rfl⟩ := Cell.glyph.inj heq
    refine ⟨cell - (gutter s.marginWidth number).length, by omega, by omega, by omega, ?_⟩
    rw [← hc']
    congr 1
    omega
  · have hmem := List.mem_of_getElem? hcell
    split at hmem
    · cases List.mem_singleton.1 hmem
    · cases hmem

theorem row_of_screen {s : Snapshot} {columns : Int} {row : Nat} {cells : List Cell}
    (hcells : (screen s columns)[row]? = some cells) :
    ∃ number, s.lineNumbers[row]? = some number ∧ row < (Document.ofText s.text).lineCount ∧
      cells = (rowCells s (Document.ofText s.text) (max 1 (columns - s.marginWidth)) row
        number).filter fun cell => !isDropped cell.char := by
  simp only [screen, List.getElem?_map, List.getElem?_zipIdx, Option.map_map,
    Option.map_eq_some_iff] at hcells
  obtain ⟨number, hnumber, rfl⟩ := hcells
  rw [List.getElem?_take] at hnumber
  split at hnumber
  · next hrow =>
    refine ⟨number, hnumber, hrow, ?_⟩
    simp
  · cases hnumber

theorem mem_gutter_of_rowCells {s : Snapshot} {lines : Document} {width : Int} {row : Nat}
    {number : Int} {c : Char} (hcell : .margin c ∈ rowCells s lines width row number) :
    c ∈ gutter s.marginWidth number := by
  simp only [rowCells, glyphs, List.mem_append, List.mem_map] at hcell
  rcases hcell with (⟨c', hc', heq⟩ | ⟨_, _, heq⟩) | hblank
  · cases heq
    exact hc'
  · cases heq
  · split at hblank
    · cases List.mem_singleton.1 hblank
    · cases hblank

/-- Where the text on screen has no bell and no backspace, every character of a row has its cell. -/
theorem filter_rowCells {s : Snapshot} {shift row : Nat} (hshift : s.columnOffset = shift)
    (hrow : row < (Document.ofText s.text).lineCount) {width : Int} (hwidth : 0 ≤ width)
    {number : Int} (hgutter : ∀ c ∈ gutter s.marginWidth number, isDropped c = false)
    (hshown : ∀ c ∈ s.text, c ≠ '\x07' ∧ c ≠ '\x08') :
    ((rowCells s (Document.ofText s.text) width row number).filter fun cell =>
      !isDropped cell.char) = rowCells s (Document.ofText s.text) width row number := by
  rw [List.filter_eq_self]
  intro cell hcell
  cases cell with
  | blank => rfl
  | margin c =>
    simp [Cell.char, hgutter c (mem_gutter_of_rowCells hcell)]
  | glyph offset c =>
    obtain ⟨k, hk⟩ := List.mem_iff_getElem?.1 hcell
    obtain ⟨column, -, hcolumn, -, hc⟩ := glyph_of_rowCells hshift hrow hwidth hk
    have hline := Document.isLineBreak_eq_false_of_lt_contentLength
      (Document.indexed_ofText s.text) hrow hcolumn hc
    obtain ⟨hbell, hbackspace⟩ := hshown c (List.mem_of_getElem? hc)
    simp [Cell.char, isDropped_eq_false hline hbell hbackspace]

/-! ## The margin -/

theorem isDropped_eq_false_of_mem_gutter {marginWidth : Int} {number : Nat} {c : Char}
    (hc : c ∈ gutter marginWidth number) : isDropped c = false := by
  have hdigits : (toString (number : Int)).toList = Nat.toDigits 10 number := Nat.toList_repr
  rw [gutter, Text.padLeft, hdigits] at hc
  simp only [List.mem_append, List.mem_replicate, List.mem_singleton] at hc
  rcases hc with (⟨-, rfl⟩ | hdigit) | rfl
  · rfl
  · have hrange := Char.isDigit_iff_toNat.1
      (Nat.isDigit_of_mem_toDigits (by decide) (by decide) hdigit)
    have hlow : 48 ≤ c.toNat := hrange.1
    rw [Bool.eq_false_iff]
    intro hdropped
    have hcode := toNat_mem_of_isDropped hdropped
    simp only [List.mem_cons, List.not_mem_nil, or_false] at hcode
    omega
  · rfl

theorem length_gutter {marginWidth : Int} {number : Nat}
    (hfits : ((toString (number : Int)).length : Int) + 1 ≤ marginWidth) :
    ((gutter marginWidth number).length : Int) = marginWidth := by
  rw [← String.length_toList] at hfits
  rw [gutter, List.length_append, Text.length_padLeft, List.length_singleton]
  omega

end TextEditor.Terminal
