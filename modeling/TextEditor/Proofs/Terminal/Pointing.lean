import TextEditor.Proofs.Buffer.Pointing
import TextEditor.Proofs.Layout.Cells
import TextEditor.Proofs.Terminal.Screen
import TextEditor.Proofs.Workspace.Drawing
import TextEditor.Proofs.Workspace.Run
import TextEditor.Terminal.Session

/-!
# Drawing and pointing agree

A frame is drawn from the text on screen, split into lines anew, behind a margin of its own making;
a point is taken to a character by the margin that the view remembers and another splitting of the
same text.  Both find the same characters: wherever a cell shows a character of the document, a
press of the mouse on that cell leaves the caret before it.
-/

namespace TextEditor.Terminal

open WholeFloat (float)

/-! ## The cell of a character -/

variable {b : Buffer}

/-- The margin that the view remembers is as wide as every number that is drawn in it. -/
theorem gutter_of_framed (h : b.Framed) {row : Nat} {number : Int}
    (hnumber : b.snapshot.lineNumbers[row]? = some number) :
    ∃ n : Nat, number = n ∧
      ((gutter b.viewport.marginWidth n).length : Int) = b.viewport.marginWidth := by
  have hlow := h.lineOffset
  simp only [Buffer.snapshot, List.getElem?_map, Option.map_eq_some_iff] at hnumber
  obtain ⟨k, hk, rfl⟩ := hnumber
  obtain ⟨hinside, rfl⟩ := List.getElem?_eq_some_iff.1 hk
  rw [List.getElem_range]
  rw [List.length_range] at hinside
  refine ⟨(b.viewport.lineOffset + 1 + row).toNat, by omega, length_gutter ?_⟩
  have hdigits := Nat.le_length_digits_le 10 (b.viewport.lineOffset + 1 + row).toNat
    (b.lastNumber b.viewport.lineOffset).toNat (by simp only [Buffer.lastNumber]; omega)
  rw [length_toString_of_pos (by omega), h.margin, Buffer.marginAt]
  omega

/-- The margin is hardly wider than the document is long. -/
theorem marginWidth_le (h : b.Framed) :
    0 ≤ b.viewport.marginWidth ∧ b.viewport.marginWidth ≤ b.document.length + 2 := by
  have hlow := h.lineOffset
  have hinside := h.lineOffset_lt
  have hline : b.document.lineCount - 1 < b.document.lineCount := by omega
  have hlast := Document.le_lineStart h.indexed hline
  have hlength := Document.lineStart_le_length h.indexed (b.document.lineCount - 1 : Nat)
  have hdigits : ∀ n : Nat, (Nat.digits 10 n).length ≤ n := fun n =>
    (Nat.digits_length_le_iff (by decide) n).2 (Nat.lt_pow_self (by decide))
  have hnumber := hdigits (b.lastNumber b.viewport.lineOffset).toNat
  rw [h.margin, Buffer.marginAt]
  simp only [Buffer.lastNumber] at hnumber ⊢
  omega

/-- The character `c` stands at `offset` of the text on screen, in its line `row`, where `shift`
columns are scrolled away and `column` more are before it. -/
structure Shown (b : Buffer) (row column shift : Nat) (offset : Int) (c : Char) : Prop where
  shift_eq : b.viewport.columnOffset = shift
  row_lt : row < (Document.ofText b.viewText).lineCount
  column_lt : column + shift < (Document.ofText b.viewText).contentLength row
  offset_eq : offset = ((Document.ofText b.viewText).lineStart row + (column + shift) : Nat)
  char : b.viewText[(Document.ofText b.viewText).lineStart row + (column + shift)]? = some c

/-- Every cell of a frame that shows a character shows the one that stands in its row, as far behind
the margin as it is itself. -/
theorem shown_of_screen (h : b.Framed) (hplain : ∀ c ∈ b.viewText, c ≠ '\x07' ∧ c ≠ '\x08')
    {columns : Int} {row cell : Nat} {cells : List Cell} {offset : Int} {c : Char}
    (hcells : (screen b.snapshot columns)[row]? = some cells)
    (hcell : cells[cell]? = some (.glyph offset c)) :
    ∃ column shift : Nat, (cell : Int) = b.viewport.marginWidth + column ∧
      Shown b row column shift offset c := by
  obtain ⟨shift, hshift⟩ := Int.eq_ofNat_of_zero_le h.columnOffset
  obtain ⟨number, hnumber, hrow, rfl⟩ := row_of_screen hcells
  obtain ⟨n, rfl, hgutter⟩ := gutter_of_framed h hnumber
  have hwidth : 0 ≤ max 1 (columns - b.snapshot.marginWidth) := by omega
  rw [filter_rowCells (s := b.snapshot) hshift hrow hwidth
    (fun c hc => isDropped_eq_false_of_mem_gutter hc) hplain] at hcell
  obtain ⟨column, hcolumn, hinside, hoffset, hc⟩ :=
    glyph_of_rowCells (s := b.snapshot) hshift hrow hwidth hcell
  have hsum : (cell : Int) = (gutter b.viewport.marginWidth n).length + column := by
    rw [hcolumn]
    rfl
  exact ⟨column, shift, hgutter ▸ hsum, hshift, hrow, hinside, hoffset, hc⟩

namespace Shown

variable {row column shift : Nat} {offset : Int} {c : Char}

/-- The point of its cell, right of the margin, hits the character. -/
theorem hit_eq (h : Shown b row column shift offset c) {α : Type} [Coordinate α] {of : Nat → α}
    {bound : Nat} (hexact : Coordinate.Exact of bound) (hrow : row < bound)
    (hcolumn : column + shift < bound) :
    (⟨of 1, of 1⟩ : CellGrid α).hit b.viewText (of column) (of row) b.viewport.columnOffset =
      .ok ⟨offset, 0⟩ := by
  rw [h.shift_eq, CellGrid.hit_cell hexact h.row_lt hrow hcolumn,
    Nat.min_eq_left (Nat.le_of_lt h.column_lt), h.offset_eq]

theorem not_break (h : Shown b row column shift offset c) : Text.isLineBreak c = false :=
  Document.isLineBreak_eq_false_of_lt_contentLength (Document.indexed_ofText _) h.row_lt h.column_lt
    h.char

/-- The character in the document. -/
theorem exists_place (h : Shown b row column shift offset c) (hframed : b.Framed) :
    ∃ p : Nat, (p : Int) = b.viewport.start + offset ∧ b.text[p]? = some c := by
  refine ⟨_, ?_, Buffer.getElem?_viewText hframed h.char⟩
  rw [hframed.start, h.offset_eq]
  omega

/-- Row and column are no more than the document has characters, and the margin hardly wider. -/
theorem bounds (h : Shown b row column shift offset c) (hframed : b.Framed) :
    row ≤ b.document.length ∧ column + shift < b.document.length ∧
      0 ≤ b.viewport.marginWidth ∧ b.viewport.marginWidth ≤ b.document.length + 2 := by
  have hview : b.viewText.length ≤ b.document.length := by
    rw [Buffer.viewText_eq hframed, Text.slice, List.length_take, List.length_drop]
    exact Nat.le_trans (Nat.min_le_right _ _) (Nat.sub_le _ _)
  have hcolumn := Document.lineStart_add_contentLength_le (Document.indexed_ofText b.viewText)
    h.row_lt
  have hinside := h.column_lt
  have hrow := Document.le_lineStart (Document.indexed_ofText b.viewText) h.row_lt
  rw [Document.length_ofText] at hcolumn
  have hmargin := marginWidth_le hframed
  exact ⟨by omega, by omega, hmargin.1, hmargin.2⟩

end Shown

/-! ## A press of the mouse -/

variable {w : Workspace} {id : Nat} {hit : Hit}

/-- The workspace after a click made a buffer into `c`. -/
def clicked (w : Workspace) (id : Nat) (c : Buffer) : Workspace :=
  let hub := w.hub.alterBuffer id fun _ => { c with journal := [] }
  ({ w with hub }.collect c.journal).resetBlink

theorem getElem?_clicked (hb : w.hub.buffers[id]? = some b) (c : Buffer) :
    (clicked w id c).hub.buffers[id]? = some { c with journal := [] } := by
  change (w.hub.buffers.modify id fun _ => { c with journal := [] })[id]? = _
  rw [List.getElem?_modify_eq, hb]
  rfl

/-- The tokens of a server are of use after a click if they were before. -/
theorem isOk_clicked (w : Workspace) (id : Nat) {b c : Buffer} (h : b.Rests c) :
    ((clicked w id c).hub.semanticSpans { c with journal := [] }).isOk =
      (w.hub.semanticSpans b).isOk :=
  Server.Hub.isOk_semanticSpans rfl
    ⟨h.path, h.profile, h.settings, h.document, h.changes, h.tracking⟩

/-- The workspace after a click where the layout, which it leaves alone, has an answer. -/
theorem start_leftClick (hactive : w.activeNumber? = some id) (hb : w.hub.buffers[id]? = some b)
    {x y : Float}
    (hhit : w.host.layout.hit b.viewText x y b.viewport.columnOffset = (.ok hit, w.host.layout)) :
    (Workspace.execute .leftClick { point := some (x, y) }).start w =
      (.ok true, clicked w id (b.click hit)) := by
  have hperform : Desk.perform ⟨b, w.host⟩ (.click x y false) =
      (.ok .done, ⟨b.click hit, w.host⟩) := by
    simp only [Desk.perform, Desk.withHit, hhit]
    rfl
  rw [Workspace.execute, Step.start_bind, Step.start_get]
  simp only [hactive]
  rw [Step.start_bind, Workspace.applyInput, Step.start_bind, Step.start_get]
  simp only [Workspace.handledBy]
  rw [Step.start_bind, Workspace.start_performOn hb]
  simp only [hperform]
  rfl

/-- Showing the present state does to the workspace what drawing it does, and fails where that
does. -/
theorem start_refresh (s : Session) :
    (Session.refresh.start s).1 =
        ((Workspace.renderSnapshot.start s.workspace).1.map fun _ => ()) ∧
      (Session.refresh.start s).2.workspace = (Workspace.renderSnapshot.start s.workspace).2 := by
  rw [Session.refresh, Step.start_bind, Session.onWorkspace, Step.start_zoom]
  generalize Workspace.renderSnapshot.start s.workspace = result
  obtain ⟨outcome, w⟩ := result
  cases outcome with
  | error fault => exact ⟨rfl, rfl⟩
  | ok snapshot =>
    simp only [Step.start_bind, Step.start_modify, apply_ite Session.workspace]
    exact ⟨rfl, ite_self _⟩

/-- Where the tokens of the server are of use, showing the present state comes about, and the caret
stays where it is. -/
theorem caret_refresh {s : Session} (hactive : s.workspace.activeNumber? = some id)
    (hb : s.workspace.hub.buffers[id]? = some b)
    (hsemantic : (s.workspace.hub.semanticSpans b).isOk = true) :
    (Session.refresh.start s).1 = .ok () ∧
      ∃ b', (Session.refresh.start s).2.workspace.activeBuffer? = some b' ∧ b'.caret = b.caret := by
  obtain ⟨semantic, hdrawn⟩ := Workspace.renderSnapshot_of_isOk hactive hb hsemantic
  obtain ⟨houtcome, hworkspace⟩ := start_refresh s
  rw [houtcome, hworkspace, hdrawn]
  exact ⟨rfl, _, Workspace.activeBuffer?_drawn hactive hb b, rfl⟩

/-- A press of the mouse that hits something clicks there and shows what came of it. -/
theorem start_pressMouse {s : Session} (hactive : s.workspace.activeNumber? = some id)
    (hb : s.workspace.hub.buffers[id]? = some b) {x y : Float}
    (hhit : s.workspace.host.layout.hit b.viewText (x - Float.ofInt b.viewport.marginWidth) y
      b.viewport.columnOffset = (.ok hit, s.workspace.host.layout)) :
    (Session.pressMouse x y).start s =
      (Session.refreshIf true).start
        { s with workspace := clicked s.workspace id (b.click hit) } := by
  have hpoint : Session.textPoint? s.workspace x y =
      some (x - Float.ofInt b.viewport.marginWidth, y) := by
    rw [Session.textPoint?, Workspace.activeBuffer?_of_active hactive, hb]
    rfl
  rw [Session.pressMouse, Step.start_bind, Step.start_get]
  simp only [hpoint]
  rw [Step.start_bind, Session.onWorkspace, Step.start_zoom, if_neg (by decide),
    start_leftClick hactive hb hhit]

/-- Where a frame can be drawn, it can be drawn after the press as well, and the caret is where the
click puts it. -/
theorem pressMouse_hit {s : Session} (hactive : s.workspace.activeNumber? = some id)
    (hb : s.workspace.hub.buffers[id]? = some b) {x y : Float}
    (hhit : s.workspace.host.layout.hit b.viewText (x - Float.ofInt b.viewport.marginWidth) y
      b.viewport.columnOffset = (.ok hit, s.workspace.host.layout))
    (hsemantic : (s.workspace.hub.semanticSpans b).isOk = true) :
    ((Session.pressMouse x y).start s).1 = .ok true ∧
      ∃ b', ((Session.pressMouse x y).start s).2.workspace.activeBuffer? = some b' ∧
        b'.caret = (b.click hit).caret := by
  have hrests := (Buffer.quiet_click b hit false).toRests
  rw [start_pressMouse hactive hb hhit, Session.refreshIf, if_pos rfl, Step.start_bind]
  have hshown := caret_refresh (s := { s with workspace := clicked s.workspace id (b.click hit) })
    hactive (getElem?_clicked hb (b.click hit))
    ((isOk_clicked s.workspace id hrests).trans hsemantic)
  generalize Session.refresh.start _ = result at hshown ⊢
  obtain ⟨outcome, s'⟩ := result
  obtain rfl : outcome = .ok () := hshown.1
  exact ⟨rfl, hshown.2⟩

/-- What the standard layout answers to a press on the cell of a character.  The point is exact, and
so are all numbers on the way to the answer, unless the document is longer than any memory. -/
theorem hit_standard {row column shift cell : Nat} {offset : Int} {c : Char}
    (h : Shown b row column shift offset c) (hframed : b.Framed)
    (hcell : (cell : Int) = b.viewport.marginWidth + column)
    (hlength : b.document.length < 2 ^ 52) :
    Layout.standard.hit b.viewText (Float.ofNat cell - Float.ofInt b.viewport.marginWidth)
        (Float.ofNat row) b.viewport.columnOffset = (.ok ⟨offset, 0⟩, .standard) := by
  obtain ⟨hrow, hcolumn, hmargin, hmargin'⟩ := h.bounds hframed
  obtain ⟨margin, heq⟩ := Int.eq_ofNat_of_zero_le hmargin
  rw [heq] at hcell hmargin'
  have hpoint : Float.ofNat cell - Float.ofInt margin = float column := by
    change Float.ofNat cell - Float.ofNat margin = float column
    rw [WholeFloat.ofNat_eq (by omega), WholeFloat.ofNat_eq (by omega),
      WholeFloat.float_sub (by omega) (by omega)]
    congr 1
    omega
  have hhit := h.hit_eq exact_float (by omega) (by omega)
  rw [Layout.standard, Layout.hit, heq, hpoint, WholeFloat.ofNat_eq (by omega),
    ← WholeFloat.float_one, hhit]

/-- Frames and the mouse agree.  However a workspace was used, wherever a frame of its active buffer
shows a character of the document, a press of the mouse on that cell leaves the caret before this
character, with nothing selected.  In exact coordinates this holds without any bound; floats are
exact for every document that fits a memory. -/
theorem pressMouse_shown {w : Workspace} (hfresh : w.hub.Fresh) (acts : List Workspace.Act)
    {s : Session} (hreached : s.workspace = acts.foldl Workspace.act w)
    (hlayout : s.workspace.host.layout = .standard) {b : Buffer}
    (hactive : s.workspace.activeBuffer? = some b)
    (hplain : ∀ c ∈ b.viewText, c ≠ '\x07' ∧ c ≠ '\x08') {snapshot : Snapshot}
    (hdrawn : (Workspace.renderSnapshot.start s.workspace).1 = .ok (some snapshot))
    {columns : Int} {row cell : Nat} {cells : List Cell} {offset : Int} {c : Char}
    (hrow : (screen snapshot columns)[row]? = some cells)
    (hcell : cells[cell]? = some (.glyph offset c)) :
    (render (some snapshot) columns).plain =
        ['\n'].intercalate ((screen snapshot columns).map fun cells => cells.map Cell.char) ∧
      ∃ p : Nat, (p : Int) = snapshot.viewStart + offset ∧ b.text[p]? = some c ∧
        (∃ hit, (⟨1, 1⟩ : CellGrid Int).hit b.viewText (cell - b.viewport.marginWidth) row
              b.viewport.columnOffset = .ok hit ∧
            (b.click hit).caret.absolute = p ∧ (b.click hit).caret.selection? = none) ∧
        (b.document.length < 2 ^ 52 →
          let pressed := (Session.pressMouse (Float.ofNat cell) (Float.ofNat row)).start s
          pressed.1 = .ok true ∧
            ∃ b', pressed.2.workspace.activeBuffer? = some b' ∧
              b'.caret.absolute = p ∧ b'.caret.selection? = none) := by
  have hworkspace : s.workspace.Kept :=
    hreached ▸ Workspace.kept_foldl_act (Server.Hub.kept_fresh hfresh) acts
  obtain ⟨id, hnumber, hb⟩ := Option.bind_eq_some_iff.1 hactive
  have hkept : b.Kept := Server.Hub.Kept.buffer hworkspace hb
  obtain ⟨semantic, hsemantic, heq⟩ := Workspace.renderSnapshot_eq_ok hnumber hb hdrawn
  obtain rfl := Option.some.inj heq
  obtain ⟨column, shift, hplace, hshown⟩ := shown_of_screen hkept.toFramed hplain hrow hcell
  obtain ⟨p, hp, hc⟩ := hshown.exists_place hkept.toFramed
  have hclick : (b.click ⟨offset, 0⟩).caret.absolute = p ∧
      (b.click ⟨offset, 0⟩).caret.selection? = none :=
    Buffer.absolute_click hkept.inside hp.symm rfl hc hshown.not_break
  refine ⟨plain_render _ _, p, hp, hc, ⟨⟨offset, 0⟩, ?_, hclick⟩, fun hlength => ?_⟩
  · have hcolumn : (cell : Int) - b.viewport.marginWidth = column := by omega
    rw [hcolumn]
    exact hshown.hit_eq (exact_int (row + (column + shift) + 1)) (by omega) (by omega)
  · have hhit := hit_standard hshown hkept.toFramed hplace hlength
    rw [← hlayout] at hhit
    obtain ⟨houtcome, b', hb', hcaret⟩ := pressMouse_hit hnumber hb hhit
      (by rw [hsemantic]; rfl)
    refine ⟨houtcome, b', hb', ?_⟩
    rw [hcaret]
    exact hclick

/-- The second of the shown lines, scrolled down by one, with a CR LF pair before it. -/
theorem pressMouse_shown_scrolled :
    let settings : Settings := { wheelLines := 1 }
    let hub : Server.Hub := { settings, root := none, fleet := { capacity := 4 } }
    let w : Workspace := { hub, keymap := {}, rows := 2, columns := 8 }
    let acts : List Workspace.Act :=
      [.add "a.txt" "a\r\nbc\r\nd".toList 2 8 settings {} [], .execute .scrollDown {}]
    let s : Session := { workspace := acts.foldl Workspace.act w }
    w.hub.Fresh ∧ s.workspace.host.layout = .standard ∧ ∃ b snapshot cells,
      s.workspace.activeBuffer? = some b ∧ (∀ c ∈ b.viewText, c ≠ '\x07' ∧ c ≠ '\x08') ∧
        (Workspace.renderSnapshot.start s.workspace).1 = .ok (some snapshot) ∧
        (screen snapshot 8)[1]? = some cells ∧ cells[2]? = some (.glyph 4 'd') ∧
        let pressed := (Session.pressMouse (Float.ofNat 2) (Float.ofNat 1)).start s
        pressed.1 = .ok true ∧ ∃ b', pressed.2.workspace.activeBuffer? = some b' ∧
          b'.caret.absolute = 7 ∧ b'.caret.selection? = none := by
  intro settings hub w acts s
  have hfresh : w.hub.Fresh := ⟨rfl, rfl, rfl⟩
  have hlayout : s.workspace.host.layout = .standard := rfl
  have hactive : s.workspace.activeNumber? = some 0 := rfl
  have hbuffer : (s.workspace.hub.buffers[0]?.any fun b =>
      ((b.viewText.all fun c => c ≠ '\x07' && c ≠ '\x08') &&
        (s.workspace.hub.semanticSpans b).isOk) &&
      (b.document.length = 8 && b.viewport.start = 3) &&
        (screen b.snapshot 8)[1]?.any fun cells => cells[2]? = some (.glyph 4 'd')) = true := by
    decide +kernel
  obtain ⟨b, hb, hfacts⟩ := (Option.any_eq_true _ _).1 hbuffer
  simp only [Bool.and_eq_true, decide_eq_true_eq, List.all_eq_true, Option.any_eq_true] at hfacts
  obtain ⟨⟨⟨hplain, hsemantic⟩, hlength, hstart⟩, cells, hrow, hcell⟩ := hfacts
  obtain ⟨semantic, hdrawn⟩ := Workspace.renderSnapshot_of_isOk hactive hb hsemantic
  have hdrawn' := congrArg Prod.fst hdrawn
  have hshort : b.document.length < 2 ^ 52 := by
    rw [hlength]
    decide
  obtain ⟨-, p, hp, -, -, hpressed⟩ := pressMouse_shown hfresh acts rfl hlayout hb hplain hdrawn'
    hrow hcell
  obtain rfl : p = 7 := by
    have hview : (s.workspace.frame b semantic).viewStart = 3 := hstart
    omega
  exact ⟨hfresh, hlayout, b, _, cells, hb, hplain, hdrawn', hrow, hcell, hpressed hshort⟩

end TextEditor.Terminal
