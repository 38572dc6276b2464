import TextEditor.Proofs.Terminal.Screen

/-!
# What the characters of a frame stand for

While a frame is drawn, its segments write down which offsets on screen a row shows and where in the
text of the frame the first of them is.  The frame is read here as a row of marks, each a character
and the offset that it stands for, with the characters that a terminal leaves out still in it.  The
segments tell where each offset is among these marks, but count only what is shown before it.
-/

namespace TextEditor.Terminal

open StyledText (isDropped)

/-! ## The characters of a frame and what they stand for -/

/-- A character of a frame, and the offset on screen that it stands for, if it does for one. -/
structure Mark where
  char : Char
  offset? : Option Int
  deriving DecidableEq, Repr

/-- Whether a terminal shows the character. -/
def Mark.isKept (m : Mark) : Bool :=
  !isDropped m.char

/-- The mark of a cell in a line whose content ends at `stop`. -/
def Cell.mark (stop : Int) : Cell → Mark
  | .margin c => ⟨c, none⟩
  | .glyph offset c => ⟨c, some offset⟩
  | .blank => ⟨' ', some stop⟩

/-- The marks of a row, and of what separates it from the row above. -/
def rowMarks (s : Snapshot) (lines : Document) (width : Int) (row : Nat) (number : Int) :
    List Mark :=
  (if row = 0 then [] else [⟨'\n', none⟩]) ++ (rowCells s lines width row number).map
    (Cell.mark (lines.lineStart row + lines.contentLength row))

/-- All that there is to show in a frame, with the characters that a terminal leaves out. -/
def marks (s : Snapshot) (columns : Int) : List Mark :=
  let lines := Document.ofText s.text
  let width := max 1 (columns - s.marginWidth)
  (s.lineNumbers.take lines.lineCount).zipIdx.flatMap fun (number, row) =>
    rowMarks s lines width row number

/-- What is shown of a frame. -/
def shown (s : Snapshot) (columns : Int) : List Mark :=
  (marks s columns).filter Mark.isKept

/-- What is drawn of a frame before its ranges get their styles. -/
def unstyled (s : Snapshot) (columns : Int) : StyledText × List Segment :=
  drawRows s (Document.ofText s.text) (max 1 (columns - s.marginWidth))

/-- The offsets from `first` to before `last`. -/
def interval (first last : Int) : List (Option Int) :=
  (List.range (last - first).toNat).map fun column : Nat => some (first + column)

theorem interval_succ {first last : Int} (h : first ≤ last) :
    interval first (last + 1) = interval first last ++ [some last] := by
  have hlength : (last + 1 - first).toNat = (last - first).toNat + 1 := by omega
  have hend : first + ((last - first).toNat : Int) = last := by omega
  rw [interval, hlength, List.range_succ, List.map_append, List.map_singleton, hend, interval]

theorem getElem?_interval {first last : Int} {k : Nat} {o : Int} :
    (interval first last)[k]? = some (some o) ↔ o = first + k ∧ o < last := by
  rw [interval, List.getElem?_map]
  rcases Nat.lt_or_ge k (last - first).toNat with hin | hout
  · simp [List.getElem?_range hin]
    omega
  · simp [List.getElem?_eq_none, hout]
    omega

/-! ## The marks of a row -/

section Row

variable {s : Snapshot} {lines : Document} {width : Int} {row : Nat} {number : Int}

/-- The marks ahead of the text of a row. -/
def rowMargin (s : Snapshot) (row : Nat) (number : Int) : List Mark :=
  (if row = 0 then [] else [⟨'\n', none⟩]) ++ (gutter s.marginWidth number).map fun c => ⟨c, none⟩

/-- The offsets that a row shows, and where the first one is. -/
def rowSegment (s : Snapshot) (lines : Document) (width : Int) (row : Nat) (index : Int) :
    Segment :=
  let lineStart : Int := lines.lineStart row
  let length : Int := lines.contentLength row
  let first := lineStart + min s.columnOffset length
  let last := lineStart + min (s.columnOffset + width) length
  ⟨first, if s.caret + s.caretTrailing = last && last = lineStart + length then last + 1 else last,
    index⟩

theorem char_mark (stop : Int) (cell : Cell) : (cell.mark stop).char = cell.char := by
  cases cell <;> rfl

theorem drawRow_segments (drawn : StyledText × List Segment) :
    (drawRow s lines width row number drawn).2 = drawn.2 ++ [rowSegment s lines width row
      ((drawn.1.plain.length + ((rowMargin s row number).filter Mark.isKept).length : Nat))] := by
  have hgutter : ((gutter s.marginWidth number).map fun c => (⟨c, none⟩ : Mark)).filter
      Mark.isKept = ((gutter s.marginWidth number).filter fun c => !isDropped c).map
        fun c => ⟨c, none⟩ := by
    rw [List.filter_map]
    rfl
  have hindex : (((if row = 0 then drawn.1 else drawn.1.append ['\n']).append
      (gutter s.marginWidth number) (some gutterStyle)).plain.length : Nat) =
      drawn.1.plain.length + ((rowMargin s row number).filter Mark.isKept).length := by
    rw [plain_append, rowMargin, List.filter_append, hgutter]
    split
    · simp
    · simp [Mark.isKept, isDropped]
  simp only [drawRow, hindex, rowSegment]
  split
  · rfl
  · rfl

theorem plain_drawRow_marks (drawn : StyledText × List Segment) :
    (drawRow s lines width row number drawn).1.plain = drawn.1.plain ++
      ((rowMarks s lines width row number).filter Mark.isKept).map Mark.char := by
  have hcells : ∀ (cells : List Cell) (stop : Int),
      ((cells.map (Cell.mark stop)).filter Mark.isKept).map Mark.char =
        (cells.filter fun cell => !isDropped cell.char).map Cell.char := by
    intro cells stop
    rw [List.filter_map, List.map_map]
    have hkept : Mark.isKept ∘ Cell.mark stop = fun cell => !isDropped cell.char :=
      funext fun cell => by rw [Function.comp, Mark.isKept, char_mark]
    rw [hkept]
    exact List.map_congr_left fun cell _ => char_mark stop cell
  rw [plain_drawRow, rowMarks, List.filter_append, List.map_append, hcells, rowText,
    List.append_assoc]
  congr 2
  split <;> rfl

theorem style_of_append {text : StyledText} {t : Text} {style : Option String} {span : StyleSpan}
    (h : span ∈ (text.append t style).spans) : span ∈ text.spans ∨ some span.style = style := by
  unfold StyledText.append at h
  split at h
  · exact .inl h
  · refine (List.mem_append.1 h).imp_right fun hadded => ?_
    obtain ⟨style, hstyle, rfl⟩ := List.mem_map.1 hadded
    exact (Option.mem_toList.1 hstyle).symm

/-- A row gives a style to its margin only. -/
theorem style_of_drawRow {drawn : StyledText × List Segment} {span : StyleSpan}
    (h : span ∈ (drawRow s lines width row number drawn).1.spans) :
    span ∈ drawn.1.spans ∨ span.style = gutterStyle := by
  have hplain : ∀ {text : StyledText} {t : Text},
      span ∈ (text.append t).spans → span ∈ text.spans := fun h =>
    (style_of_append h).resolve_right nofun
  have hmargin : span ∈ ((if row = 0 then drawn.1 else drawn.1.append ['\n']).append
      (gutter s.marginWidth number) (some gutterStyle)).spans := by
    simp only [drawRow] at h
    split at h
    · exact hplain (hplain h)
    · exact hplain h
  refine (style_of_append hmargin).imp (fun h => ?_) Option.some.inj
  split at h
  · exact h
  · exact hplain h

/-- The characters between two offsets stand for these offsets. -/
theorem offsets_glyphs {t : Text} {first last : Nat} (hfirst : first ≤ last)
    (hlast : last ≤ t.length) (stop : Int) :
    (glyphs t first last).map (fun cell => (cell.mark stop).offset?) = interval first last := by
  have hlength : (Text.slice t first last).length = last - first := by
    rw [Text.slice, List.length_take, List.length_drop]
    omega
  have hcolumns : List.range ((last : Int) - first).toNat =
      (Text.slice t first last).zipIdx.map Prod.snd := by
    rw [List.zipIdx_map_snd, hlength, List.range_eq_range']
    congr 1
    omega
  rw [glyphs, cut_eq_slice t (by omega) hlast, interval, hcolumns, List.map_map, List.map_map]
  rfl

/-- Behind its margin, a row shows the offsets of its segment one by one. -/
theorem rowMarks_eq (hshift : 0 ≤ s.columnOffset) (hwidth : 0 ≤ width)
    (hrow : row < (Document.ofText s.text).lineCount) (number index : Int) :
    ∃ content, rowMarks s (Document.ofText s.text) width row number =
        rowMargin s row number ++ content ∧
      content.map Mark.offset? = interval
        (rowSegment s (Document.ofText s.text) width row index).first
        (rowSegment s (Document.ofText s.text) width row index).last := by
  have hbound := Document.lineStart_add_contentLength_le (Document.indexed_ofText s.text) hrow
  rw [Document.length_ofText] at hbound
  obtain ⟨shift, hshift⟩ := Int.eq_ofNat_of_zero_le hshift
  obtain ⟨extent, rfl⟩ := Int.eq_ofNat_of_zero_le hwidth
  simp only [rowMarks, rowMargin, rowCells, rowSegment, hshift]
  generalize (Document.ofText s.text).lineStart row = start at hbound ⊢
  generalize (Document.ofText s.text).contentLength row = length at hbound ⊢
  have hfirst : (start : Int) + min (shift : Int) length = (start + min shift length : Nat) := by
    omega
  have hlast : (start : Int) + min ((shift : Int) + extent) length =
      (start + min (shift + extent) length : Nat) := by
    omega
  have hle : start + min shift length ≤ start + min (shift + extent) length := by omega
  have hglyphs := offsets_glyphs hle (t := s.text) (by omega) (start + length)
  rw [hfirst, hlast, List.map_append, List.map_append, List.map_map]
  simp only [List.append_assoc]
  refine ⟨_, rfl, ?_⟩
  rw [List.map_append, List.map_map, List.map_map]
  refine (congrArg (· ++ _) hglyphs).trans ?_
  split
  · next hcaret =>
    rw [Bool.and_eq_true, decide_eq_true_iff, decide_eq_true_iff] at hcaret
    rw [interval_succ (by omega), hcaret.2]
    rfl
  · exact List.append_nil _

end Row

/-! ## Where the segments of a frame begin -/

/-- The segment shows its offsets from the end of `front` on, a part of the marks of a frame, and
counts of this part what is shown. -/
structure Begins (marks front : List Mark) (segment : Segment) : Prop where
  ahead : front <+: marks
  index : segment.index = (front.filter Mark.isKept).length
  offset {o : Int} : segment.first ≤ o → o < segment.last →
    marks[front.length + (o - segment.first).toNat]?.map Mark.offset? = some (some o)

/-- What was drawn, segments included, tells the marks. -/
structure Tells (drawn : StyledText × List Segment) (marks : List Mark) : Prop where
  plain : drawn.1.plain = (marks.filter Mark.isKept).map Mark.char
  style {span : StyleSpan} : span ∈ drawn.1.spans → span.style = gutterStyle
  begins {segment : Segment} : segment ∈ drawn.2 → ∃ front, Begins marks front segment
  segment {i : Nat} {o : Int} : marks[i]?.map Mark.offset? = some (some o) →
    ∃ segment ∈ drawn.2, ∃ front, Begins marks front segment ∧
      (segment.first ≤ o ∧ o < segment.last) ∧ (i : Int) = front.length + (o - segment.first)

theorem Begins.append {marks front : List Mark} {segment : Segment}
    (h : Begins marks front segment) (more : List Mark) : Begins (marks ++ more) front segment where
  ahead := h.ahead.trans (List.prefix_append _ _)
  index := h.index
  offset := by
    intro o hfirst hlast
    have hmark := h.offset hfirst hlast
    have hinside : front.length + (o - segment.first).toNat < marks.length := by
      by_contra hout
      rw [List.getElem?_eq_none (by omega)] at hmark
      cases hmark
    rwa [List.getElem?_append_left hinside]

theorem begins_content {front content : List Mark} {segment : Segment}
    (hindex : segment.index = (front.filter Mark.isKept).length)
    (hoffsets : content.map Mark.offset? = interval segment.first segment.last) :
    Begins (front ++ content) front segment where
  ahead := List.prefix_append _ _
  index := hindex
  offset := by
    intro o hfirst hlast
    rw [List.getElem?_append_right (Nat.le_add_right _ _), Nat.add_sub_cancel_left,
      ← List.getElem?_map, hoffsets, getElem?_interval]
    omega

theorem Tells.nil : Tells ({}, []) [] where
  plain := rfl
  style := nofun
  begins := nofun
  segment := nofun

section Drawing

variable {s : Snapshot} {width : Int} {row : Nat} {drawn : StyledText × List Segment}
  {marks : List Mark}

theorem offset_of_rowMargin {number : Int} {mark : Mark} (h : mark ∈ rowMargin s row number) :
    mark.offset? = none := by
  rcases List.mem_append.1 h with hbreak | hgutter
  · split at hbreak
    · cases hbreak
    · rw [List.mem_singleton.1 hbreak]
  · obtain ⟨c, -, rfl⟩ := List.mem_map.1 hgutter
    rfl

/-- A row is told by its segment. -/
theorem Tells.drawRow (h : Tells drawn marks) (hshift : 0 ≤ s.columnOffset) (hwidth : 0 ≤ width)
    (hrow : row < (Document.ofText s.text).lineCount) (number : Int) :
    Tells (drawRow s (Document.ofText s.text) width row number drawn)
      (marks ++ rowMarks s (Document.ofText s.text) width row number) := by
  have hsegments := @drawRow_segments s (Document.ofText s.text) width row number drawn
  generalize hindex : ((drawn.1.plain.length +
    ((rowMargin s row number).filter Mark.isKept).length : Nat) : Int) = index at hsegments
  obtain ⟨content, hcontent, hoffsets⟩ := rowMarks_eq hshift hwidth hrow number index
  have hbegins : Begins (marks ++ rowMarks s (Document.ofText s.text) width row number)
      (marks ++ rowMargin s row number)
      (rowSegment s (Document.ofText s.text) width row index) := by
    rw [hcontent, ← List.append_assoc]
    refine begins_content ?_ hoffsets
    change index = _
    rw [← hindex, h.plain, List.filter_append, List.length_append, List.length_map]
  constructor
  · rw [plain_drawRow_marks, h.plain, List.filter_append, List.map_append]
  · exact fun hspan => (style_of_drawRow hspan).elim h.style id
  · intro segment hsegment
    rw [hsegments] at hsegment
    rcases List.mem_append.1 hsegment with hold | hnew
    · obtain ⟨front, hfront⟩ := h.begins hold
      exact ⟨front, hfront.append _⟩
    · rw [List.mem_singleton.1 hnew]
      exact ⟨_, hbegins⟩
  · intro i o hmark
    rw [hsegments]
    rcases Nat.lt_or_ge i marks.length with hold | hnew
    · rw [List.getElem?_append_left hold] at hmark
      obtain ⟨segment, hsegment, front, hfront, hrest⟩ := h.segment hmark
      exact ⟨segment, List.mem_append_left _ hsegment, front, hfront.append _, hrest⟩
    rw [hcontent, ← List.append_assoc] at hmark
    rcases Nat.lt_or_ge i (marks ++ rowMargin s row number).length with hmargin | hinside
    · -- The margin stands for no offset.
      rw [List.getElem?_append_left hmargin, List.getElem?_append_right hnew] at hmark
      obtain ⟨mark, hmem, hoffset⟩ := Option.map_eq_some_iff.1 hmark
      rw [offset_of_rowMargin (List.mem_of_getElem? hmem)] at hoffset
      cases hoffset
    · rw [List.getElem?_append_right hinside, ← List.getElem?_map, hoffsets,
        getElem?_interval] at hmark
      exact ⟨_, List.mem_append_right _ (List.mem_singleton_self _), _, hbegins, by omega,
        by omega⟩

theorem Tells.foldl_drawRow (hshift : 0 ≤ s.columnOffset) (hwidth : 0 ≤ width)
    {rows : List (Int × Nat)} (hrows : ∀ item ∈ rows, item.2 < (Document.ofText s.text).lineCount)
    (h : Tells drawn marks) :
    Tells (rows.foldl (fun drawn (number, row) =>
        Terminal.drawRow s (Document.ofText s.text) width row number drawn) drawn)
      (marks ++ rows.flatMap fun (number, row) =>
        rowMarks s (Document.ofText s.text) width row number) := by
  induction rows generalizing drawn marks with
  | nil => rwa [List.flatMap_nil, List.append_nil]
  | cons first rest ih =>
    obtain ⟨hfirst, hrest⟩ := List.forall_mem_cons.1 hrows
    rw [List.flatMap_cons, ← List.append_assoc]
    exact ih hrest (h.drawRow hshift hwidth hfirst first.1)

theorem mem_rows {item : Int × Nat}
    (h : item ∈ (s.lineNumbers.take (Document.ofText s.text).lineCount).zipIdx) :
    item.1 ∈ s.lineNumbers ∧ item.2 < (Document.ofText s.text).lineCount := by
  have hrow := List.snd_lt_of_mem_zipIdx h
  rw [List.length_take] at hrow
  exact ⟨List.mem_of_mem_take (List.fst_mem_of_mem_zipIdx h), by omega⟩

theorem tells_unstyled (hshift : 0 ≤ s.columnOffset) (columns : Int) :
    Tells (unstyled s columns) (Terminal.marks s columns) :=
  Tells.nil.foldl_drawRow hshift (by omega) fun _ hitem => (mem_rows hitem).2

end Drawing

/-! ## What a mark stands for -/

section Frame

variable {s : Snapshot} {columns width : Int} {row : Nat} {mark : Mark} {o : Int}

/-- A mark separates two rows or is that of a cell. -/
theorem mem_marks (h : mark ∈ marks s columns) : mark = ⟨'\n', none⟩ ∨
    ∃ number ∈ s.lineNumbers, ∃ row < (Document.ofText s.text).lineCount,
      ∃ cell ∈ rowCells s (Document.ofText s.text) (max 1 (columns - s.marginWidth)) row number,
        mark = cell.mark ((Document.ofText s.text).lineStart row +
          (Document.ofText s.text).contentLength row) := by
  obtain ⟨⟨number, row⟩, hitem, hmem⟩ := List.mem_flatMap.1 h
  obtain ⟨hnumber, hrow⟩ := mem_rows hitem
  rcases List.mem_append.1 hmem with hbreak | hmapped
  · split at hbreak
    · cases hbreak
    · exact .inl (List.mem_singleton.1 hbreak)
  · obtain ⟨cell, hcell, rfl⟩ := List.mem_map.1 hmapped
    exact .inr ⟨number, hnumber, row, hrow, cell, hcell, rfl⟩

/-- A character that stands for an offset is the one of the text there, or the blank behind the
content of a line. -/
theorem char_of_mark (hshift : 0 ≤ s.columnOffset) (hmark : mark ∈ marks s columns)
    (ho : mark.offset? = some o) :
    (∃ p : Nat, o = p ∧ s.text[p]? = some mark.char) ∨
      (mark.char = ' ' ∧ ∃ row < (Document.ofText s.text).lineCount,
        o = (Document.ofText s.text).lineStart row +
          (Document.ofText s.text).contentLength row) := by
  obtain ⟨shift, hshift⟩ := Int.eq_ofNat_of_zero_le hshift
  have hwidth : 0 ≤ max 1 (columns - s.marginWidth) := by omega
  rcases mem_marks hmark with rfl | ⟨number, -, row, hrow, cell, hcell, rfl⟩
  · cases ho
  cases cell with
  | margin c => cases ho
  | glyph o' c =>
    obtain rfl := Option.some.inj ho
    obtain ⟨k, hk⟩ := List.mem_iff_getElem?.1 hcell
    obtain ⟨column, -, -, hoffset, hc⟩ := glyph_of_rowCells hshift hrow hwidth hk
    exact .inl ⟨_, hoffset, hc⟩
  | blank => exact .inr ⟨rfl, row, hrow, (Option.some.inj ho).symm⟩

/-- A terminal leaves out only what stands for an offset. -/
theorem exists_offset_of_not_kept
    (hmargin : ∀ number ∈ s.lineNumbers, ∀ c ∈ gutter s.marginWidth number, isDropped c = false)
    (hmark : mark ∈ marks s columns) (hkept : mark.isKept = false) :
    ∃ o, mark.offset? = some o := by
  rcases mem_marks hmark with rfl | ⟨number, hnumber, row, -, cell, hcell, rfl⟩
  · exact absurd hkept (by decide)
  cases cell with
  | margin c =>
    rw [Mark.isKept, char_mark, Cell.char,
      hmargin number hnumber c (mem_gutter_of_rowCells hcell)] at hkept
    exact absurd hkept (by decide)
  | glyph o c => exact ⟨o, rfl⟩
  | blank => exact ⟨_, rfl⟩

/-- It leaves nothing out where the text on screen has no bell and no backspace. -/
theorem isKept_of_plain (hshift : 0 ≤ s.columnOffset)
    (hmargin : ∀ number ∈ s.lineNumbers, ∀ c ∈ gutter s.marginWidth number, isDropped c = false)
    (hplain : ∀ c ∈ s.text, c ≠ '\x07' ∧ c ≠ '\x08') (hmark : mark ∈ marks s columns) :
    mark.isKept = true := by
  obtain ⟨shift, hshift⟩ := Int.eq_ofNat_of_zero_le hshift
  have hwidth : 0 ≤ max 1 (columns - s.marginWidth) := by omega
  rcases mem_marks hmark with rfl | ⟨number, hnumber, row, hrow, cell, hcell, rfl⟩
  · rfl
  · rw [Mark.isKept, char_mark]
    exact List.filter_eq_self.1
      (filter_rowCells hshift hrow hwidth (hmargin number hnumber) hplain) cell hcell

end Frame

/-! ## The order of the offsets -/

section Order

variable {s : Snapshot} {width : Int} {row : Nat} {number : Int} {mark : Mark} {o : Int}

/-- The marks of a row stand for offsets of its line. -/
theorem offset_bounds (hshift : 0 ≤ s.columnOffset) (hwidth : 0 ≤ width)
    (hrow : row < (Document.ofText s.text).lineCount)
    (hmark : mark ∈ rowMarks s (Document.ofText s.text) width row number)
    (ho : mark.offset? = some o) :
    (Document.ofText s.text).lineStart row ≤ o ∧
      o ≤ (Document.ofText s.text).lineStart row + (Document.ofText s.text).contentLength row := by
  obtain ⟨content, hcontent, hoffsets⟩ := rowMarks_eq hshift hwidth hrow number 0
  rw [hcontent] at hmark
  rcases List.mem_append.1 hmark with hmargin | hmem
  · rw [offset_of_rowMargin hmargin] at ho
    cases ho
  · have hinterval : some o ∈ content.map Mark.offset? := ho ▸ List.mem_map_of_mem hmem
    rw [hoffsets, interval] at hinterval
    obtain ⟨column, hcolumn, heq⟩ := List.mem_map.1 hinterval
    have := List.mem_range.1 hcolumn
    have := Option.some.inj heq
    simp only [rowSegment] at *
    split at * <;> omega

theorem pairwise_interval (first last : Int) :
    (interval first last).Pairwise fun before behind =>
      ∀ o, before = some o → ∀ p, behind = some p → o < p := by
  refine List.pairwise_map.2 (List.pairwise_lt_range.imp fun {column column'} hless => ?_)
  rintro o ⟨⟩ p ⟨⟩
  omega

theorem pairwise_rowMarks (hshift : 0 ≤ s.columnOffset) (hwidth : 0 ≤ width)
    (hrow : row < (Document.ofText s.text).lineCount) (number : Int) :
    (rowMarks s (Document.ofText s.text) width row number).Pairwise fun before behind =>
      ∀ o, before.offset? = some o → ∀ p, behind.offset? = some p → o < p := by
  obtain ⟨content, hcontent, hoffsets⟩ := rowMarks_eq hshift hwidth hrow number 0
  have hmargin : ∀ mark ∈ rowMargin s row number, ∀ o, mark.offset? ≠ some o := by
    intro mark hmark o
    rw [offset_of_rowMargin hmark]
    nofun
  rw [hcontent]
  refine List.pairwise_append.2 ⟨List.pairwise_of_forall_mem_list ?_, ?_, ?_⟩
  · exact fun mark hmark _ _ o ho => absurd ho (hmargin mark hmark o)
  · exact List.pairwise_map.1 (hoffsets ▸ pairwise_interval _ _)
  · exact fun mark hmark _ _ o ho => absurd ho (hmargin mark hmark o)

/-- The offsets that marks stand for come in their order. -/
theorem pairwise_marks (hshift : 0 ≤ s.columnOffset) (columns : Int) :
    (marks s columns).Pairwise fun before behind =>
      ∀ o, before.offset? = some o → ∀ p, behind.offset? = some p → o < p := by
  have hindexed := Document.indexed_ofText s.text
  have hwidth : 0 ≤ max 1 (columns - s.marginWidth) := by omega
  have hrow : ∀ item ∈ (s.lineNumbers.take (Document.ofText s.text).lineCount).zipIdx,
      item.2 < (Document.ofText s.text).lineCount := fun _ hitem => (mem_rows hitem).2
  have hrows : (s.lineNumbers.take (Document.ofText s.text).lineCount).zipIdx.Pairwise
      fun above below => above.2 < below.2 := by
    refine List.pairwise_map.1 ?_
    rw [List.zipIdx_map_snd]
    exact List.pairwise_lt_range' 1
  refine List.pairwise_flatMap.2 ⟨fun item hitem =>
    pairwise_rowMarks hshift hwidth (hrow item hitem) item.1, ?_⟩
  refine hrows.imp_of_mem fun {above below} habove hbelow hless => ?_
  intro mark hmark mark' hmark' o ho p hp
  have hbefore := offset_bounds hshift hwidth (hrow above habove) hmark ho
  have hbehind := offset_bounds hshift hwidth (hrow below hbelow) hmark' hp
  -- The content of a line ends before the next line begins.
  have hinside : above.2 + 1 < (Document.ofText s.text).lineCount :=
    Nat.lt_of_le_of_lt hless (hrow below hbelow)
  have hend := Document.lineStart_add_contentLength_lt hindexed
    (Document.getElem?_lineStarts hindexed hinside)
  have hmono := Document.lineStart_mono hindexed
    (show ((above.2 + 1 : Nat) : Int) ≤ below.2 from Int.ofNat_le.2 hless)
  omega

end Order

end TextEditor.Terminal
