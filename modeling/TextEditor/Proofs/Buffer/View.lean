import Mathlib.Data.Nat.Digits.Lemmas
import TextEditor.Proofs.Buffer.Caret

/-!
# The view stays with the document and the caret

A view is framed when it begins on a line of its document and its bounds and its margin are those of
the lines that show.  Edits leave the view as it is, framed for a text that is gone; `reconcile`
frames it anew and scrolls it to the caret.  It does so in two rounds, because the line on which
the view begins decides how wide the margin is, and the margin how many columns are left: the view
is scrolled to the column of the caret beside the margin of the first round.
-/

namespace TextEditor

/-- A number is written with as many characters as it has digits. -/
theorem length_toString_of_pos {n : Nat} (hn : 0 < n) :
    (toString (n : Int)).length = (Nat.digits 10 n).length := by
  change (String.ofList (Nat.toDigits 10 n)).length = _
  rw [String.length_ofList]
  induction n using Nat.strongRecOn with
  | ind n ih =>
    rcases Nat.lt_or_ge n 10 with hlt | hge
    · rw [Nat.toDigits_of_lt_base hlt, Nat.digits_of_lt 10 n hn.ne' hlt]
      rfl
    · have hquotient : 0 < n / 10 := Nat.div_pos hge (by decide)
      rw [Nat.toDigits_of_base_le (by decide) hge, Nat.digits_def' (by decide) hn,
        List.length_append, ih (n / 10) (Nat.div_lt_self hn (by decide)) hquotient]
      rfl

namespace Document

theorem lineCount_pos {d : Document} (h : d.Indexed) : 0 < d.lineCount := by
  rw [lineCount, h]
  exact List.length_pos_iff.2 (Text.lineStarts_ne_nil _)

end Document

namespace Buffer

/-! ## Where the caret is, and what the view shows -/

/-- The line of the caret. -/
def caretLine (b : Buffer) : Int :=
  b.document.lineOf b.caret.absolute

/-- How many characters stand before the caret on its line. -/
def caretColumn (b : Buffer) : Int :=
  b.caret.absolute - b.document.lineStart b.caretLine

/-- The number of the last line that shows, counted from one, where the view begins on a line. -/
def lastNumber (b : Buffer) (line : Int) : Int :=
  min (line + b.viewport.rows) b.document.lineCount

/-- The width of the margin where the view begins on a line: the digits of the last number, and a
space. -/
def marginAt (b : Buffer) (line : Int) : Int :=
  (Nat.digits 10 (b.lastNumber line).toNat).length + 1

/-- What every operation leaves right, whether it reconciles or not. -/
structure Sound (b : Buffer) : Prop where
  indexed : b.document.Indexed
  rows : 1 ≤ b.viewport.rows
  columnOffset : 0 ≤ b.viewport.columnOffset

/-- The view begins on a line of the document, and its bounds and its margin are those of the lines
that show. -/
structure Framed (b : Buffer) : Prop extends Sound b where
  lineOffset : 0 ≤ b.viewport.lineOffset
  lineOffset_lt : b.viewport.lineOffset < b.document.lineCount
  start : b.viewport.start = b.document.lineStart b.viewport.lineOffset
  stop : b.viewport.stop = b.document.lineStart (b.lastNumber b.viewport.lineOffset)
  margin : b.viewport.marginWidth = b.marginAt b.viewport.lineOffset

/-- The view is framed, and anchor and caret are offsets of the document. -/
structure Kept (b : Buffer) : Prop extends Framed b where
  inside : b.Inside

/-- The view has a row for the line of the caret. -/
def Shows (b : Buffer) : Prop :=
  b.viewport.lineOffset ≤ b.caretLine ∧ b.caretLine ≤ b.viewport.lineOffset + b.viewport.rows - 1

/-- The caret stands in one of the columns that a margin of the given width leaves. -/
def Reaches (b : Buffer) (margin : Int) : Prop :=
  b.viewport.columnOffset ≤ b.caretColumn ∧
    b.caretColumn < b.viewport.columnOffset + max 1 (b.viewport.columns - margin)

/-- The buffer is as `reconcile` leaves one: the view shows the line of the caret, and its column as
far as the margin allows that the view has on some line of the document. -/
structure Settled (b : Buffer) : Prop extends Kept b where
  shows : b.Shows
  reaches : ∃ line : Int, 0 ≤ line ∧ line < b.document.lineCount ∧ b.Reaches (b.marginAt line)

variable {b c : Buffer}

theorem caretColumn_nonneg (h : b.document.Indexed)
    (hinside : b.document.Within b.caret.absolute) : 0 ≤ b.caretColumn := by
  have hstart := Document.lineStart_lineOf h b.caret.absolute
  have hclamp := hinside.clamp
  simp only [caretColumn, caretLine]
  omega

/-- The further down the view begins, the wider is its margin. -/
theorem marginAt_le (b : Buffer) {line line' : Int} (h : line ≤ line') :
    b.marginAt line ≤ b.marginAt line' := by
  have hnumber : (b.lastNumber line).toNat ≤ (b.lastNumber line').toNat := by
    simp only [lastNumber]
    omega
  have hdigits := Nat.le_length_digits_le 10 _ _ hnumber
  simp only [marginAt]
  omega

theorem Reaches.mono {margin margin' : Int} (h : b.Reaches margin) (hle : margin' ≤ margin) :
    b.Reaches margin' := by
  obtain ⟨hlow, hhigh⟩ := h
  exact ⟨hlow, by omega⟩

/-! ## What only document, view and caret decide -/

/-- Document and caret decide line and column. -/
theorem place_congr (hdocument : c.document = b.document)
    (hcaret : c.caret = b.caret) : c.caretLine = b.caretLine ∧ c.caretColumn = b.caretColumn := by
  have hline : c.caretLine = b.caretLine := by rw [caretLine, caretLine, hdocument, hcaret]
  refine ⟨hline, ?_⟩
  rw [caretColumn, caretColumn, hline, hdocument, hcaret]

theorem Sound.of_eq (h : b.Sound) (hdocument : c.document = b.document)
    (hviewport : c.viewport = b.viewport) : c.Sound :=
  ⟨hdocument ▸ h.indexed, hviewport ▸ h.rows, hviewport ▸ h.columnOffset⟩

theorem marginAt_congr (hdocument : c.document = b.document)
    (hviewport : c.viewport = b.viewport) : c.marginAt = b.marginAt := by
  funext line
  rw [marginAt, marginAt, lastNumber, lastNumber, hdocument, hviewport]

theorem Framed.of_eq (h : b.Framed) (hdocument : c.document = b.document)
    (hviewport : c.viewport = b.viewport) : c.Framed := by
  refine ⟨h.toSound.of_eq hdocument hviewport, ?_, ?_, ?_, ?_, ?_⟩
  · rw [hviewport]
    exact h.lineOffset
  · rw [hdocument, hviewport]
    exact h.lineOffset_lt
  · rw [hdocument, hviewport]
    exact h.start
  · rw [lastNumber, hdocument, hviewport]
    exact h.stop
  · rw [marginAt_congr hdocument hviewport, hviewport]
    exact h.margin

theorem Kept.of_eq (h : b.Kept) (hdocument : c.document = b.document)
    (hviewport : c.viewport = b.viewport) (hcaret : c.caret = b.caret) : c.Kept :=
  ⟨h.toFramed.of_eq hdocument hviewport, h.inside.of_eq hdocument hcaret⟩

theorem Settled.of_eq (h : b.Settled) (hdocument : c.document = b.document)
    (hviewport : c.viewport = b.viewport) (hcaret : c.caret = b.caret) : c.Settled := by
  obtain ⟨hline, hcolumn⟩ := place_congr hdocument hcaret
  refine ⟨h.toKept.of_eq hdocument hviewport hcaret, ?_, ?_⟩
  · rw [Shows, hline, hviewport]
    exact h.shows
  · rw [marginAt_congr hdocument hviewport]
    simp only [Reaches, hcolumn, hviewport, hdocument]
    exact h.reaches

/-! ## Reconciling -/

theorem lineOffset_updateBounds (h : 0 ≤ b.viewport.lineOffset)
    (hlt : b.viewport.lineOffset < b.document.lineCount) :
    b.updateBounds.viewport.lineOffset = b.viewport.lineOffset := by
  simp only [updateBounds]
  omega

theorem framed_updateBounds (h : b.Sound) : b.updateBounds.Framed := by
  have hcount := Document.lineCount_pos h.indexed
  have hrows := h.rows
  have hrange : 0 ≤ b.updateBounds.viewport.lineOffset ∧
      b.updateBounds.viewport.lineOffset < b.document.lineCount := by
    simp only [updateBounds]
    omega
  refine ⟨⟨h.indexed, hrows, h.columnOffset⟩, hrange.1, hrange.2, rfl, rfl, ?_⟩
  let last := b.updateBounds.lastNumber b.updateBounds.viewport.lineOffset
  have hlast : 1 ≤ last := by
    simp only [last, lastNumber, updateBounds]
    omega
  have hmargin : b.updateBounds.viewport.marginWidth = (toString last).length + 1 := rfl
  obtain ⟨n, hn⟩ := Int.eq_ofNat_of_zero_le (Int.le_trans (by decide) hlast)
  rw [hmargin, marginAt, show b.updateBounds.lastNumber _ = last from rfl, hn,
    length_toString_of_pos (by omega), Int.toNat_natCast]

theorem lineOffset_followCaret (b : Buffer) :
    b.followCaret.viewport.lineOffset =
      if b.caretLine < b.viewport.lineOffset then b.caretLine
      else if b.viewport.lastLine < b.caretLine then b.caretLine - b.viewport.rows + 1
      else b.viewport.lineOffset := rfl

theorem columnOffset_followCaret (b : Buffer) :
    b.followCaret.viewport.columnOffset =
      if b.caretColumn < b.viewport.columnOffset then b.caretColumn
      else if b.viewport.columnOffset + b.viewport.textWidth ≤ b.caretColumn then
        b.caretColumn - b.viewport.textWidth + 1
      else b.viewport.columnOffset := rfl

/-- Following the caret takes the view to its line, and to its column beside the margin that the
view had. -/
theorem followCaret_spec (h : b.Framed) (hinside : b.document.Within b.caret.absolute) :
    b.followCaret.Shows ∧ b.followCaret.Reaches b.viewport.marginWidth ∧
      0 ≤ b.followCaret.viewport.columnOffset ∧ 0 ≤ b.followCaret.viewport.lineOffset ∧
        b.followCaret.viewport.lineOffset < b.document.lineCount := by
  have hline : 0 ≤ b.caretLine ∧ b.caretLine < b.document.lineCount :=
    ⟨Int.natCast_nonneg _, Int.ofNat_lt.2 (Document.lineOf_lt_lineCount h.indexed _)⟩
  have hcolumn := caretColumn_nonneg h.indexed hinside
  obtain ⟨⟨-, hrows, hoffset⟩, hlow, hhigh, -, -, -⟩ := h
  have hlines := lineOffset_followCaret b
  have hcolumns := columnOffset_followCaret b
  simp only [Viewport.lastLine] at hlines
  simp only [Viewport.textWidth] at hcolumns
  have hcaretLine : b.followCaret.caretLine = b.caretLine := rfl
  have hcaretColumn : b.followCaret.caretColumn = b.caretColumn := rfl
  have hsize : b.followCaret.viewport.rows = b.viewport.rows ∧
      b.followCaret.viewport.columns = b.viewport.columns := ⟨rfl, rfl⟩
  rw [Shows, Reaches, hcaretLine, hcaretColumn, hsize.1, hsize.2, hlines, hcolumns]
  refine ⟨?_, ?_, ?_, ?_, ?_⟩ <;> split_ifs <;> omega

/-- A view that shows the line of the caret is not moved up or down to follow it. -/
theorem lineOffset_followCaret_of_shows (h : b.Shows) :
    b.followCaret.viewport.lineOffset = b.viewport.lineOffset := by
  obtain ⟨hlow, hhigh⟩ := h
  rw [lineOffset_followCaret, if_neg (by omega),
    if_neg (by simp only [Viewport.lastLine]; omega)]

theorem settled_reconcile (h : b.Sound) (hlanded : b.Landed) : b.reconcile.Settled := by
  let first := b.clampCaret.updateBounds
  have hframed : first.Framed := framed_updateBounds (h.of_eq rfl rfl)
  have hinside : b.reconcile.Inside := inside_reconcile hlanded
  have habsolute : first.document.Within first.caret.absolute := hinside.absolute
  obtain ⟨hshows, hreaches, hcolumn, hline, hline'⟩ := followCaret_spec hframed habsolute
  have hfollowed : first.followCaret.Sound := ⟨h.indexed, h.rows, hcolumn⟩
  have hagain : b.reconcile.Framed := (framed_updateBounds hfollowed).of_eq rfl rfl
  have hsame : b.reconcile.viewport.lineOffset = first.followCaret.viewport.lineOffset :=
    lineOffset_updateBounds hline hline'
  refine ⟨⟨hagain, hinside⟩, ?_, first.viewport.lineOffset, hframed.lineOffset,
    hframed.lineOffset_lt, ?_⟩
  · rw [Shows, hsame]
    exact hshows
  · rw [hframed.margin] at hreaches
    exact hreaches

/-- Where the view shows the line of the caret already, both rounds find the same margin. -/
theorem reaches_reconcile (h : b.Kept) (hshows : b.Shows) :
    b.reconcile.Reaches b.reconcile.viewport.marginWidth := by
  let first := b.clampCaret.updateBounds
  have hcaret : first.caret = b.caret := caret_reconcile h.inside
  have hframed : first.Framed := framed_updateBounds (h.toSound.of_eq rfl rfl)
  have hline : first.viewport.lineOffset = b.viewport.lineOffset :=
    lineOffset_updateBounds (b := b.clampCaret) h.lineOffset h.lineOffset_lt
  have hcaretLine : first.caretLine = b.caretLine := by
    rw [caretLine, hcaret]
    rfl
  have hfollow : first.followCaret.viewport.lineOffset = first.viewport.lineOffset := by
    apply lineOffset_followCaret_of_shows
    rw [Shows, hcaretLine, hline]
    exact hshows
  have habsolute : first.document.Within first.caret.absolute := by
    rw [hcaret]
    exact h.inside.absolute
  obtain ⟨-, hreaches, -, hlow, hhigh⟩ := followCaret_spec hframed habsolute
  have hsame : b.reconcile.viewport.lineOffset = first.viewport.lineOffset :=
    (lineOffset_updateBounds hlow hhigh).trans hfollow
  have hmargin : b.reconcile.viewport.marginWidth = first.viewport.marginWidth := by
    rw [(settled_reconcile h.toSound h.inside.landed).margin, hframed.margin, hsame]
    rfl
  rw [hmargin]
  exact hreaches

theorem settled_create (path : String) (t : Text) (rows columns : Int) (settings : Settings) :
    (create path t rows columns settings).Settled :=
  settled_reconcile ⟨Document.indexed_ofText t, by simp only; omega, Int.le_refl 0⟩ (.inl rfl)

/-! ## Groups and replaced ranges -/

theorem viewport_endGroup (b : Buffer) : b.endGroup.viewport = b.viewport := by
  unfold endGroup
  split <;> rfl

theorem viewport_abandonGroup (b : Buffer) (reason : String) :
    (b.abandonGroup reason).viewport = b.viewport := by
  unfold abandonGroup
  split <;> rfl

theorem caret_endGroup (b : Buffer) : b.endGroup.caret = b.caret := by
  unfold endGroup
  split <;> rfl

theorem caret_abandonGroup (b : Buffer) (reason : String) :
    (b.abandonGroup reason).caret = b.caret := by
  unfold abandonGroup
  split <;> rfl

theorem Sound.endGroup (h : b.Sound) : b.endGroup.Sound :=
  h.of_eq (rests_endGroup b).document (viewport_endGroup b)

theorem Settled.endGroup (h : b.Settled) : b.endGroup.Settled :=
  h.of_eq (rests_endGroup b).document (viewport_endGroup b) (caret_endGroup b)

theorem Sound.grouped (h : b.Sound) (label : String) {operation : Buffer → Buffer}
    (hoperation : ∀ c, c.Sound → (operation c).Sound) : (b.grouped label operation).Sound := by
  unfold Buffer.grouped
  split
  · exact hoperation b h
  · exact (hoperation (b.beginGroup label) (h.of_eq rfl rfl)).endGroup

/-- An operation that settles a buffer settles it as one of a group, too. -/
theorem settled_grouped (h : b.Kept) (label : String) {operation : Buffer → Buffer}
    (hoperation : ∀ c, c.Kept → (operation c).Settled) : (b.grouped label operation).Settled := by
  unfold Buffer.grouped
  split
  · exact hoperation b h
  · exact (hoperation (b.beginGroup label) (h.of_eq rfl rfl rfl)).endGroup

theorem Sound.splice (h : b.Sound) (start stop : Int) (new : Text) (label : String) :
    (b.splice start stop new label).Sound :=
  ⟨indexed_splice h.indexed start stop new label, h.rows, h.columnOffset⟩

theorem Sound.replaceRange (h : b.Sound) (start stop : Int) (new : Text) (label : String) :
    (b.replaceRange start stop new label).Sound := by
  simp only [Buffer.replaceRange]
  split
  · exact h
  · exact h.grouped label fun c hc => (hc.splice _ _ new label).of_eq rfl rfl

theorem Sound.collapse (h : b.Sound) (offset : Int) : (b.collapse offset).Sound :=
  h.of_eq rfl rfl

theorem Sound.forgetColumn (h : b.Sound) : b.forgetColumn.Sound :=
  h.of_eq rfl rfl

theorem Sound.removeSelection (h : b.Sound) : b.removeSelection.Sound := by
  unfold Buffer.removeSelection
  split
  · exact h
  · exact (h.replaceRange _ _ _ _).collapse _

theorem Sound.dedentBefore (h : b.Sound) (offset : Int) : (b.dedentBefore offset).Sound := by
  simp only [Buffer.dedentBefore]
  split
  · exact h
  · split
    · exact h
    · exact (h.replaceRange _ _ _ _).collapse _

theorem Sound.breakLine (h : b.Sound) : b.breakLine.Sound := by
  have hremoved := h.removeSelection
  simp only [Buffer.breakLine]
  split
  · exact (hremoved.replaceRange _ _ _ _).collapse _
  · split <;> exact (hremoved.replaceRange _ _ _ _).collapse _

theorem Sound.moveLines (h : b.Sound) (delta : Int) (extending : Bool) :
    (b.moveLines delta extending).Sound := by
  simp only [Buffer.moveLines]
  split
  · exact h
  · exact ⟨h.indexed, h.rows, h.columnOffset⟩

/-! ## Motion, mouse and scrolling -/

theorem settled_move (h : b.Kept) (motion : Motion) (count : Int) (extending : Bool) :
    (b.move motion count extending).Settled := by
  cases motion with
  | up | down =>
    exact settled_reconcile (h.toSound.moveLines _ _) (landed_moveLines h.inside _ _)
  | left | right | leftWord | rightWord =>
    exact settled_reconcile (h.toSound.of_eq rfl rfl) (landed_place b _ _).forgetColumn

theorem kept_scrollToLine (h : b.Kept) (line : Int) : (b.scrollToLine line).Kept := by
  have hsound : Sound { b with viewport := { b.viewport with lineOffset := line } } :=
    ⟨h.indexed, h.rows, h.columnOffset⟩
  exact ⟨(framed_updateBounds hsound).of_eq rfl rfl, inside_scrollToLine h.inside line⟩

theorem kept_scrollToColumn (h : b.Kept) {column : Int} (hcolumn : 0 ≤ column) :
    (b.scrollToColumn column).Kept := by
  have hsound : Sound { b with viewport := { b.viewport with columnOffset := column } } :=
    ⟨h.indexed, h.rows, hcolumn⟩
  exact ⟨(framed_updateBounds hsound).of_eq rfl rfl, inside_scrollToColumn h.inside column⟩

theorem settled_click (h : b.Kept) (hit : Hit) (extending : Bool) :
    (b.click hit extending).Settled := by
  have hwithin := within_placeOfHit b hit
  unfold click
  generalize b.placeOfHit hit = place at hwithin ⊢
  obtain ⟨offset, trailing⟩ := place
  have hplace := inside_place h.inside extending hwithin.1 hwithin.2
  let down : Buffer := { (b.place offset trailing extending).forgetColumn with selecting := true }
  have hdown : down.Kept :=
    ⟨h.toFramed.of_eq rfl rfl, hplace.anchor, hplace.position, hplace.absolute⟩
  have hscrolled := kept_scrollToLine hdown
    (min ((down.document.lineCount : Int) - 1) (down.viewport.lineOffset + max 0 1))
  dsimp only
  split
  · exact settled_reconcile hscrolled.toSound hscrolled.inside.landed
  · exact settled_reconcile hdown.toSound hdown.inside.landed

theorem settled_drag (h : b.Kept) (hselecting : b.selecting = true) (hit : Hit) :
    (b.drag hit).Settled := by
  have hwithin := within_placeOfHit b hit
  rw [drag, if_pos hselecting]
  generalize b.placeOfHit hit = place at hwithin ⊢
  obtain ⟨offset, trailing⟩ := place
  exact settled_reconcile (h.toSound.of_eq rfl rfl)
    (inside_place h.inside true hwithin.1 hwithin.2).landed

theorem settled_selectRun (h : b.Kept) (hit : Hit) : (b.selectRun hit).Settled := by
  unfold selectRun
  obtain ⟨offset, trailing⟩ := b.placeOfHit hit
  dsimp only
  split <;> exact settled_reconcile (h.toSound.of_eq rfl rfl) (.inl rfl)

theorem settled_resize (h : b.Kept) (rows columns : Int) : (b.resize rows columns).Settled := by
  let size : Viewport := { b.viewport with rows := max 1 rows, columns := max 1 columns }
  have hrows : 1 ≤ size.rows := by
    simp only [size]
    omega
  have hinside : Inside { b with viewport := size } := h.inside.of_eq rfl rfl
  exact settled_reconcile (b := { b with viewport := size }) ⟨h.indexed, hrows, h.columnOffset⟩
    hinside.landed

/-! ## Edits -/

/-- Inserting something settles a buffer, wherever its caret was. -/
theorem settled_insertText (h : b.Sound) {t : Text} (ht : t.isEmpty = false) :
    (b.insertText t).Settled := by
  simp only [insertText, ht, Bool.false_eq_true, if_false]
  refine settled_reconcile (Sound.forgetColumn ?_) (Landed.forgetColumn ?_)
  · exact h.grouped _ fun c hc => (hc.removeSelection.replaceRange _ _ _ _).collapse _
  · exact grouped_induction b _ (fun _ _ _ => landed_collapse _ _) fun _ hc => hc.endGroup

theorem Sound.insertText (h : b.Sound) (t : Text) : (b.insertText t).Sound := by
  cases ht : t.isEmpty with
  | false => exact (settled_insertText h ht).toSound
  | true =>
    rw [Buffer.insertText, if_pos ht]
    exact h

theorem settled_insertNewline (h : b.Sound) : b.insertNewline.Settled := by
  refine settled_reconcile (Sound.forgetColumn ?_) (Landed.forgetColumn ?_)
  · exact h.grouped _ fun c hc => hc.breakLine
  · exact grouped_induction b _ (fun c _ _ => landed_breakLine c) fun _ hc => hc.endGroup

theorem settled_insertCloser (h : b.Kept) {t : Text} (ht : t.isEmpty = false) :
    (b.insertCloser t).Settled :=
  settled_grouped h _ fun _ hc => settled_insertText (hc.toSound.dedentBefore _) ht

theorem settled_insertOpener (h : b.Sound) {t : Text} (ht : t.isEmpty = false) :
    (b.insertOpener t).Settled := by
  refine settled_reconcile (h.grouped _ fun c hc => ?_)
    (grouped_induction b _ (fun c _ _ => ?_) fun _ hc => hc.endGroup)
  · split
    · exact hc.insertText t
    · exact (hc.insertText _).collapse _
  · split
    · exact (inside_insertText_of_ne c ht).landed
    · exact landed_collapse _ _

theorem settled_insertTyped (h : b.Kept) {t : Text} (ht : t.isEmpty = false) :
    (b.insertTyped t).Settled := by
  have hunit : b.settings.indentUnit.isEmpty = false := by
    have hpos := b.settings.indentWidth_pos
    rw [← b.settings.length_indentUnit] at hpos
    exact List.isEmpty_eq_false_iff.2 (List.ne_nil_of_length_pos hpos)
  unfold insertTyped
  rw [if_neg (by simp [ht])]
  split
  · exact settled_insertText h.toSound hunit
  split
  · exact settled_insertNewline h.toSound
  split
  · split
    · exact settled_move h _ _ _
    · exact settled_insertCloser h ht
  · exact settled_insertOpener h.toSound ht

theorem settled_deleteSelection (h : b.Kept) : b.deleteSelection.Settled :=
  settled_reconcile h.toSound.removeSelection.forgetColumn
    (landed_removeSelection h.inside).forgetColumn

/-- What a deletion key does where nothing is selected. -/
theorem settled_removeIf (h : b.Kept) (condition : Prop) [Decidable condition]
    (start stop offset : Int) (label : String) :
    (if condition then (b.replaceRange start stop [] label).collapse offset
      else b).forgetColumn.reconcile.Settled := by
  refine settled_reconcile (Sound.forgetColumn ?_) (Landed.forgetColumn ?_)
  · split
    · exact (h.toSound.replaceRange _ _ _ _).collapse _
    · exact h.toSound
  · split
    · exact landed_collapse _ _
    · exact h.inside.landed

theorem settled_deleteLeft (h : b.Kept) : b.deleteLeft.Settled := by
  simp only [deleteLeft]
  split
  · exact settled_deleteSelection h
  · exact settled_removeIf h _ _ _ _ _

theorem settled_deleteRight (h : b.Kept) : b.deleteRight.Settled := by
  simp only [deleteRight]
  split
  · exact settled_deleteSelection h
  · exact settled_removeIf h _ _ _ _ _

theorem settled_deleteWord (h : b.Kept) (motion : Motion) (label : String) :
    (b.deleteWord motion label).Settled :=
  settled_grouped h label fun _ hc => settled_deleteSelection (settled_move hc motion 1 true).toKept

theorem settled_removeCopied (h : b.Kept) : b.removeCopied.Settled := by
  refine settled_reconcile (Sound.forgetColumn ?_) (Landed.forgetColumn ?_)
  · refine h.toSound.grouped _ fun c hc => ?_
    split
    · exact hc.removeSelection
    · exact (hc.replaceRange _ _ _ _).collapse _
  · refine grouped_induction b _ (fun c hdocument hcaret => ?_) fun _ hc => hc.endGroup
    split
    · exact landed_removeSelection (h.inside.of_eq hdocument hcaret)
    · exact landed_collapse _ _

theorem settled_insertPasted (h : b.Kept) {t : Text} (ht : t.isEmpty = false) :
    (b.insertPasted t).Settled :=
  settled_grouped h _ fun _ hc => settled_insertText hc.toSound ht

/-! ## Undo and redo -/

theorem Sound.foldl_splice {step : Buffer → Edit → Buffer}
    (hstep : ∀ (c : Buffer) (edit : Edit), c.Sound → (step c edit).Sound) (edits : List Edit)
    (h : b.Sound) : (edits.foldl step b).Sound := by
  induction edits generalizing b with
  | nil => exact h
  | cons edit rest ih => exact ih (hstep b edit h)

theorem Sound.reverted (h : b.Sound) (entry : UndoEntry) (timeline : Timeline) :
    (b.reverted entry timeline).Sound :=
  Sound.foldl_splice (fun _ _ hc => hc.splice _ _ _ _) _ (h.of_eq rfl rfl)

theorem Sound.repeated (h : b.Sound) (entry : UndoEntry) (timeline : Timeline) :
    (b.repeated entry timeline).Sound :=
  Sound.foldl_splice (fun _ _ hc => hc.splice _ _ _ _) _ (h.of_eq rfl rfl)

theorem settled_undo (h : b.Kept) (hundone : b.undo.2 = true) : b.undo.1.Settled := by
  cases hentry : b.timeline.undo? with
  | none => simp [undo, hentry] at hundone
  | some next =>
    obtain ⟨entry, timeline⟩ := next
    rw [undo_eq hentry]
    exact settled_reconcile ((h.toSound.reverted entry timeline).of_eq rfl rfl) (.inl rfl)

theorem settled_redo (h : b.Kept) (hredone : b.redo.2 = true) : b.redo.1.Settled := by
  cases hentry : b.timeline.redo? with
  | none => simp [redo, hentry] at hredone
  | some next =>
    obtain ⟨entry, timeline⟩ := next
    rw [redo_eq hentry]
    exact settled_reconcile ((h.toSound.repeated entry timeline).of_eq rfl rfl) (.inl rfl)

end Buffer

end TextEditor
