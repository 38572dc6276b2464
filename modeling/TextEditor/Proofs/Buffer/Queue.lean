import TextEditor.Proofs.Buffer.Operation

/-!
# The queue is only appended to

No operation on a buffer looks at the changes that wait for the server.  It adds its own behind
them, and these are the same whatever waits: the deltas of its splices, which are what it leaves in
the queue of a buffer that has just begun to be followed.
-/

namespace TextEditor

namespace Buffer

/-- The buffer with more changes in front of those that wait. -/
def prepend (b : Buffer) (earlier : List Delta) : Buffer :=
  { b with changes := earlier ++ b.changes }

variable (b : Buffer) (q : List Delta)

theorem ite_prepend (condition : Prop) [Decidable condition] (c : Buffer) :
    (if condition then b.prepend q else c.prepend q) = (if condition then b else c).prepend q :=
  (apply_ite (prepend · q) condition b c).symm

@[simp]
theorem document_prepend : (b.prepend q).document = b.document := rfl

@[simp]
theorem caret_prepend : (b.prepend q).caret = b.caret := rfl

@[simp]
theorem viewport_prepend : (b.prepend q).viewport = b.viewport := rfl

@[simp]
theorem settings_prepend : (b.prepend q).settings = b.settings := rfl

@[simp]
theorem grouping_prepend : (b.prepend q).grouping = b.grouping := rfl

@[simp]
theorem selecting_prepend : (b.prepend q).selecting = b.selecting := rfl

/-! ## Motion and mouse -/

theorem collapse_prepend (offset : Int) :
    (b.prepend q).collapse offset = (b.collapse offset).prepend q := rfl

theorem forgetColumn_prepend : (b.prepend q).forgetColumn = b.forgetColumn.prepend q := rfl

theorem clampCaret_prepend : (b.prepend q).clampCaret = b.clampCaret.prepend q := rfl

theorem updateBounds_prepend : (b.prepend q).updateBounds = b.updateBounds.prepend q := rfl

theorem followCaret_prepend : (b.prepend q).followCaret = b.followCaret.prepend q := rfl

theorem refreshView_prepend : (b.prepend q).refreshView = b.refreshView.prepend q := rfl

theorem reconcile_prepend : (b.prepend q).reconcile = b.reconcile.prepend q := by
  change (b.prepend q).clampCaret.updateBounds.followCaret.refreshView = _
  rw [clampCaret_prepend, updateBounds_prepend, followCaret_prepend, refreshView_prepend]
  rfl

theorem place_prepend (offset trailing : Int) (extending : Bool) :
    (b.prepend q).place offset trailing extending =
      (b.place offset trailing extending).prepend q := rfl

theorem moveLines_prepend (delta : Int) (extending : Bool) :
    (b.prepend q).moveLines delta extending = (b.moveLines delta extending).prepend q := by
  simp only [moveLines, document_prepend, caret_prepend]
  rw [← ite_prepend]
  rfl

theorem moveSteps_prepend (step : Int → Int) (count : Nat) (extending : Bool) :
    (b.prepend q).moveSteps step count extending = (b.moveSteps step count extending).prepend q :=
  rfl

theorem move_prepend (motion : Motion) (count : Int) (extending : Bool) :
    (b.prepend q).move motion count extending = (b.move motion count extending).prepend q := by
  cases motion <;>
    simp only [move, moveLines_prepend, moveSteps_prepend, document_prepend, reconcile_prepend]

theorem scrollDown_prepend (lines : Int) :
    (b.prepend q).scrollDown lines = (b.scrollDown lines).prepend q := rfl

theorem click_prepend (hit : Hit) (extending : Bool) :
    (b.prepend q).click hit extending = (b.click hit extending).prepend q := by
  have hplace : (b.prepend q).placeOfHit hit = b.placeOfHit hit := rfl
  have hscroll : ∀ c : Buffer,
      (if (c.document.lineOf c.caret.absolute : Int) = c.viewport.lastLine &&
          (c.document.lineOf c.caret.absolute : Int) < (c.document.lineCount : Int) - 1 then
        (c.prepend q).scrollDown
      else c.prepend q).reconcile =
      (if (c.document.lineOf c.caret.absolute : Int) = c.viewport.lastLine &&
          (c.document.lineOf c.caret.absolute : Int) < (c.document.lineCount : Int) - 1 then
        c.scrollDown
      else c).reconcile.prepend q := by
    intro c
    rw [scrollDown_prepend, ite_prepend, reconcile_prepend]
  unfold click
  rw [hplace]
  obtain ⟨offset, trailing⟩ := b.placeOfHit hit
  exact hscroll { (b.place offset trailing extending).forgetColumn with selecting := true }

theorem drag_prepend (hit : Hit) : (b.prepend q).drag hit = (b.drag hit).prepend q := by
  have hplace : (b.prepend q).placeOfHit hit = b.placeOfHit hit := rfl
  unfold drag
  rw [hplace, selecting_prepend]
  obtain ⟨offset, trailing⟩ := b.placeOfHit hit
  simp only [place_prepend, reconcile_prepend, ite_prepend]

theorem selectRun_prepend (hit : Hit) :
    (b.prepend q).selectRun hit = (b.selectRun hit).prepend q := by
  have hplace : (b.prepend q).placeOfHit hit = b.placeOfHit hit := rfl
  have hrelease : ∀ c : Buffer, ({ (c.prepend q).forgetColumn with selecting := false }).reconcile =
      ({ c.forgetColumn with selecting := false }).reconcile.prepend q := fun c =>
    reconcile_prepend { c.forgetColumn with selecting := false } q
  unfold selectRun
  rw [hplace, document_prepend]
  obtain ⟨offset, trailing⟩ := b.placeOfHit hit
  dsimp only
  cases b.document.charAt? offset with
  | none => exact hrelease (b.collapse offset)
  | some c =>
    simp only [caret_prepend]
    generalize Caret.place _ _ _ _ = caret
    exact hrelease { b with caret }

/-! ## Edits -/

theorem splice_prepend (start stop : Int) (new : Text) (label : String) :
    (b.prepend q).splice start stop new label = (b.splice start stop new label).prepend q := by
  cases htracking : b.tracking <;> simp [splice, prepend, htracking]

theorem endGroup_prepend : (b.prepend q).endGroup = b.endGroup.prepend q := by
  simp only [endGroup, grouping_prepend]
  split <;> rfl

theorem abandonGroup_prepend (reason : String) :
    (b.prepend q).abandonGroup reason = (b.abandonGroup reason).prepend q := by
  simp only [abandonGroup, grouping_prepend]
  split <;> rfl

theorem grouped_prepend (label : String) {operation operation' : Buffer → Buffer}
    (h : ∀ c : Buffer, operation (c.prepend q) = (operation' c).prepend q) :
    (b.prepend q).grouped label operation = (b.grouped label operation').prepend q := by
  have hbegin : (b.prepend q).beginGroup label = (b.beginGroup label).prepend q := rfl
  simp only [grouped, grouping_prepend, hbegin, h, endGroup_prepend]
  split <;> rfl

theorem replaceRange_prepend (start stop : Int) (new : Text) (label : String) :
    (b.prepend q).replaceRange start stop new label =
      (b.replaceRange start stop new label).prepend q := by
  unfold replaceRange
  rw [← ite_prepend]
  refine if_congr Iff.rfl rfl (grouped_prepend b q label fun c => ?_)
  rw [splice_prepend]
  rfl

theorem removeSelection_prepend :
    (b.prepend q).removeSelection = b.removeSelection.prepend q := by
  simp only [removeSelection, caret_prepend]
  split
  · rfl
  · rw [replaceRange_prepend, collapse_prepend]

theorem insertText_prepend (t : Text) :
    (b.prepend q).insertText t = (b.insertText t).prepend q := by
  simp only [insertText]
  rw [grouped_prepend b q _ fun c => ?_, forgetColumn_prepend, reconcile_prepend, ite_prepend]
  simp only [removeSelection_prepend, caret_prepend, replaceRange_prepend, collapse_prepend]

theorem dedentBefore_prepend (offset : Int) :
    (b.prepend q).dedentBefore offset = (b.dedentBefore offset).prepend q := by
  simp only [dedentBefore, document_prepend, settings_prepend, replaceRange_prepend,
    collapse_prepend, ite_prepend]

theorem breakLine_prepend : (b.prepend q).breakLine = b.breakLine.prepend q := by
  have hopener : ∀ (c : Buffer) offset, (c.prepend q).openerBefore? offset =
      c.openerBefore? offset := fun _ _ => rfl
  have hcloser : ∀ (c : Buffer) offset closing, (c.prepend q).closerAfter? offset closing =
      c.closerAfter? offset closing := fun _ _ _ => rfl
  have hending : ∀ c : Buffer, (c.prepend q).lineEnding = c.lineEnding := fun _ => rfl
  simp only [breakLine, removeSelection_prepend, document_prepend, caret_prepend, settings_prepend,
    hopener, hcloser, hending, replaceRange_prepend, collapse_prepend]
  split
  · rfl
  · split <;> rfl

theorem insertNewline_prepend : (b.prepend q).insertNewline = b.insertNewline.prepend q := by
  rw [insertNewline, grouped_prepend b q _ fun c => breakLine_prepend c q, forgetColumn_prepend,
    reconcile_prepend]
  rfl

theorem insertCloser_prepend (t : Text) :
    (b.prepend q).insertCloser t = (b.insertCloser t).prepend q := by
  simp only [insertCloser, caret_prepend]
  apply grouped_prepend b q _
  intro c
  rw [dedentBefore_prepend, insertText_prepend]

theorem insertOpener_prepend (t : Text) :
    (b.prepend q).insertOpener t = (b.insertOpener t).prepend q := by
  unfold insertOpener
  rw [grouped_prepend b q _ fun c => ?_, reconcile_prepend]
  simp only [settings_prepend]
  split
  · exact insertText_prepend c q t
  · rw [insertText_prepend]
    rfl

theorem insertTyped_prepend (t : Text) :
    (b.prepend q).insertTyped t = (b.insertTyped t).prepend q := by
  simp only [insertTyped, settings_prepend, caret_prepend, document_prepend, insertText_prepend,
    insertNewline_prepend, move_prepend, insertCloser_prepend, insertOpener_prepend, ite_prepend]

theorem deleteSelection_prepend : (b.prepend q).deleteSelection = b.deleteSelection.prepend q := by
  rw [deleteSelection, removeSelection_prepend, forgetColumn_prepend, reconcile_prepend,
    deleteSelection]

theorem deleteLeft_prepend : (b.prepend q).deleteLeft = b.deleteLeft.prepend q := by
  have hwidth : ∀ beside, (b.prepend q).deletionWidth beside = b.deletionWidth beside :=
    fun _ => rfl
  simp only [deleteLeft, caret_prepend, document_prepend, hwidth, deleteSelection_prepend,
    replaceRange_prepend, collapse_prepend, ite_prepend, forgetColumn_prepend, reconcile_prepend]

theorem deleteRight_prepend : (b.prepend q).deleteRight = b.deleteRight.prepend q := by
  have hwidth : ∀ beside, (b.prepend q).deletionWidth beside = b.deletionWidth beside :=
    fun _ => rfl
  simp only [deleteRight, caret_prepend, document_prepend, hwidth, deleteSelection_prepend,
    replaceRange_prepend, collapse_prepend, ite_prepend, forgetColumn_prepend, reconcile_prepend]

theorem deleteWord_prepend (motion : Motion) (label : String) :
    (b.prepend q).deleteWord motion label = (b.deleteWord motion label).prepend q := by
  apply grouped_prepend b q label
  intro c
  rw [move_prepend, deleteSelection_prepend]

theorem removeCopied_prepend : (b.prepend q).removeCopied = b.removeCopied.prepend q := by
  simp only [removeCopied]
  rw [grouped_prepend b q _ fun c => ?_, forgetColumn_prepend, reconcile_prepend]
  have hbounds : (c.prepend q).caretLineBounds = c.caretLineBounds := rfl
  simp only [caret_prepend, hbounds, removeSelection_prepend, replaceRange_prepend,
    collapse_prepend, ite_prepend]

theorem insertPasted_prepend (t : Text) :
    (b.prepend q).insertPasted t = (b.insertPasted t).prepend q :=
  grouped_prepend b q _ fun c => insertText_prepend c q t

/-! ## Undo and redo -/

theorem foldl_prepend {step : Buffer → Edit → Buffer}
    (hstep : ∀ (c : Buffer) edit, step (c.prepend q) edit = (step c edit).prepend q)
    (edits : List Edit) : edits.foldl step (b.prepend q) = (edits.foldl step b).prepend q := by
  induction edits generalizing b with
  | nil => rfl
  | cons edit rest ih => rw [List.foldl_cons, hstep, ih, List.foldl_cons]

theorem revertEdit_prepend (edit : Edit) :
    (b.prepend q).revertEdit edit = (b.revertEdit edit).prepend q :=
  splice_prepend b q _ _ _ _

theorem repeatEdit_prepend (edit : Edit) :
    (b.prepend q).repeatEdit edit = (b.repeatEdit edit).prepend q :=
  splice_prepend b q _ _ _ _

theorem reverted_prepend (entry : UndoEntry) (timeline : Timeline) :
    (b.prepend q).reverted entry timeline = (b.reverted entry timeline).prepend q :=
  foldl_prepend { b.report [.started (replayActivity "undo" entry)] with timeline } q
    (fun c edit => revertEdit_prepend c q edit) entry.edits.reverse

theorem repeated_prepend (entry : UndoEntry) (timeline : Timeline) :
    (b.prepend q).repeated entry timeline = (b.repeated entry timeline).prepend q :=
  foldl_prepend { b.report [.started (replayActivity "redo" entry)] with timeline } q
    (fun c edit => repeatEdit_prepend c q edit) entry.edits

theorem putCaret_prepend (caret anchor : Int) :
    (b.prepend q).putCaret caret anchor = (b.putCaret caret anchor).prepend q := rfl

theorem report_prepend (entries : Journal) :
    (b.prepend q).report entries = (b.report entries).prepend q := rfl

theorem undo_prepend : (b.prepend q).undo = (b.undo.1.prepend q, b.undo.2) := by
  cases h : b.timeline.undo? with
  | none =>
    have h' : (b.prepend q).timeline.undo? = none := h
    rw [undo, h', undo, h]
  | some next =>
    obtain ⟨entry, timeline⟩ := next
    rw [undo_eq (b := b.prepend q) h, undo_eq h, reverted_prepend, putCaret_prepend,
      report_prepend, reconcile_prepend]

theorem redo_prepend : (b.prepend q).redo = (b.redo.1.prepend q, b.redo.2) := by
  cases h : b.timeline.redo? with
  | none =>
    have h' : (b.prepend q).timeline.redo? = none := h
    rw [redo, h', redo, h]
  | some next =>
    obtain ⟨entry, timeline⟩ := next
    rw [redo_eq (b := b.prepend q) h, redo_eq h, repeated_prepend, collapse_prepend,
      report_prepend, reconcile_prepend]

end Buffer

/-! ## Commands and operations -/

namespace Desk

/-- The desk with more changes in front of those that wait. -/
def prepend (d : Desk) (earlier : List Delta) : Desk :=
  { d with buffer := d.buffer.prepend earlier }

variable (d : Desk) (q : List Delta)

theorem withHit_prepend (x y : Float) {f : Hit → Buffer → Buffer}
    (hf : ∀ hit (b : Buffer), f hit (b.prepend q) = (f hit b).prepend q) :
    (d.prepend q).withHit x y f = ((d.withHit x y f).1, (d.withHit x y f).2.prepend q) := by
  have hview : (d.buffer.prepend q).viewText = d.buffer.viewText := rfl
  simp only [withHit, prepend, hview, Buffer.viewport_prepend]
  cases (d.host.layout.hit d.buffer.viewText x y d.buffer.viewport.columnOffset).1 with
  | error fault => rfl
  | ok hit =>
    have hbuffer := hf hit d.buffer
    simp only [onBuffer, hbuffer]

theorem putOnClipboard_prepend (t : Text) :
    (d.prepend q).putOnClipboard t = (d.putOnClipboard t).prepend q := by
  have hhost : (d.prepend q).host = d.host := rfl
  unfold putOnClipboard
  rw [hhost]
  split
  · rfl
  · split
    · rfl
    · split <;> rfl

theorem paste_prepend : (d.prepend q).paste = d.paste.prepend q := by
  have hhost : (d.prepend q).host = d.host := rfl
  unfold paste
  rw [hhost]
  split
  · rfl
  · rfl
  · next bytes _ _ =>
    cases Utf8.decode bytes with
    | error defect => rfl
    | ok t =>
      have hbuffer := Buffer.insertPasted_prepend d.buffer q t
      simp only [onBuffer, prepend, hbuffer]

theorem perform_prepend (command : Command) :
    (d.prepend q).perform command = ((d.perform command).1, (d.perform command).2.prepend q) := by
  have hcopied : (d.buffer.prepend q).copiedText = d.buffer.copiedText := rfl
  have hcut : ∀ t, ((d.prepend q).putOnClipboard t).onBuffer (·.removeCopied) =
      ((d.putOnClipboard t).onBuffer (·.removeCopied)).prepend q := fun t => by
    rw [putOnClipboard_prepend, onBuffer, onBuffer, prepend, prepend, Buffer.removeCopied_prepend]
  have hclick : ∀ x y extending,
      (d.prepend q).withHit x y (fun hit b => b.click hit extending) =
        ((d.withHit x y fun hit b => b.click hit extending).1,
          (d.withHit x y fun hit b => b.click hit extending).2.prepend q) := fun x y extending =>
    withHit_prepend d q x y fun hit b => Buffer.click_prepend b q hit extending
  have hselect : ∀ x y, (d.prepend q).withHit x y (fun hit b => b.selectRun hit) =
      ((d.withHit x y fun hit b => b.selectRun hit).1,
        (d.withHit x y fun hit b => b.selectRun hit).2.prepend q) := fun x y =>
    withHit_prepend d q x y fun hit b => Buffer.selectRun_prepend b q hit
  have hdrag : ∀ x y, (d.prepend q).withHit x y (fun hit b => b.drag hit) =
      ((d.withHit x y fun hit b => b.drag hit).1,
        (d.withHit x y fun hit b => b.drag hit).2.prepend q) := fun x y =>
    withHit_prepend d q x y fun hit b => Buffer.drag_prepend b q hit
  cases command with
  | move motion count extending =>
    simp only [perform, onBuffer, prepend, Buffer.move_prepend]
  | page motion extending =>
    simp only [perform, onBuffer, prepend, Buffer.move_prepend, Buffer.viewport_prepend]
  | insertText text => simp only [perform, onBuffer, prepend, Buffer.insertText_prepend]
  | insertTyped text => simp only [perform, onBuffer, prepend, Buffer.insertTyped_prepend]
  | insertNewline => simp only [perform, onBuffer, prepend, Buffer.insertNewline_prepend]
  | deleteLeft => simp only [perform, onBuffer, prepend, Buffer.deleteLeft_prepend]
  | deleteRight => simp only [perform, onBuffer, prepend, Buffer.deleteRight_prepend]
  | deleteWordLeft =>
    simp only [perform, onBuffer, prepend, Buffer.deleteWordLeft, Buffer.deleteWord_prepend]
  | deleteWordRight =>
    simp only [perform, onBuffer, prepend, Buffer.deleteWordRight, Buffer.deleteWord_prepend]
  | deleteSelection => simp only [perform, onBuffer, prepend, Buffer.deleteSelection_prepend]
  | copy =>
    rw [perform, perform, ← putOnClipboard_prepend]
    rfl
  | cut =>
    rw [perform, perform, ← hcut]
    rfl
  | paste => rw [perform, perform, paste_prepend]
  | undo => simp only [perform, prepend, Buffer.undo_prepend]
  | redo => simp only [perform, prepend, Buffer.redo_prepend]
  | click x y extending => rw [perform, perform, hclick]
  | doubleClick x y => rw [perform, perform, hselect]
  | drag x y =>
    have hselecting : (d.prepend q).buffer.selecting = d.buffer.selecting := rfl
    rw [perform, perform, hselecting, hdrag]
    split <;> rfl
  | release => rfl
  | scrollUp lines => rfl
  | scrollDown lines => rfl
  | scrollLeft columns => rfl
  | scrollRight columns => rfl
  | resize rows columns =>
    have hresize : (d.buffer.prepend q).resize rows columns =
        (d.buffer.resize rows columns).prepend q :=
      Buffer.reconcile_prepend
        { d.buffer with
          viewport := { d.buffer.viewport with rows := max 1 rows, columns := max 1 columns } } q
    simp only [perform, onBuffer, prepend, hresize]
  | reconcile => simp only [perform, onBuffer, prepend, Buffer.reconcile_prepend]

theorem transaction_prepend (label : String) {body : Step Desk Unit}
    (hbody : ∀ d : Desk, body.start (d.prepend q) =
      ((body.start d).1, (body.start d).2.prepend q)) :
    (transaction label body).start (d.prepend q) =
      (((transaction label body).start d).1, ((transaction label body).start d).2.prepend q) := by
  have hgrouping : (d.prepend q).buffer.grouping = d.buffer.grouping := rfl
  have hbegin : (d.prepend q).onBuffer (·.beginGroup label) =
      (d.onBuffer (·.beginGroup label)).prepend q := rfl
  rw [start_transaction, start_transaction, hgrouping, hbegin]
  split
  · exact hbody d
  · rw [hbody]
    rcases body.start (d.onBuffer (·.beginGroup label)) with ⟨outcome, d'⟩
    cases outcome with
    | ok => simp only [onBuffer, prepend, Buffer.endGroup_prepend]
    | error fault => simp only [onBuffer, prepend, Buffer.abandonGroup_prepend]

theorem routine_prepend (routine : Routine) :
    routine.step.start (d.prepend q) =
      ((routine.step.start d).1, (routine.step.start d).2.prepend q) := by
  induction routine generalizing d with
  | done | raise => rfl
  | rehost host next ih => exact ih { d with host }
  | perform command next ih =>
    rw [start_perform, start_perform, perform_prepend]
    exact ih _
  | transaction label body next ihbody ihnext =>
    rw [start_nested, start_nested, transaction_prepend d q label ihbody]
    exact ihnext _

theorem operate_prepend (operation : Operation) :
    (d.prepend q).operate operation = (d.operate operation).prepend q := by
  cases operation with
  | rehost host => rfl
  | perform command =>
    rw [operate_perform, operate_perform, perform_prepend]
  | transaction label body =>
    have hstart := transaction_prepend d q label fun d => routine_prepend d q body
    exact congrArg Prod.snd hstart

/-- The deltas of the splices that an operation makes, in order. -/
def splices (d : Desk) (operation : Operation) : List Delta :=
  (({ d with buffer := d.buffer.track }).operate operation).buffer.changes

/-- The changes of a buffer that is followed grow by the splices of each operation. -/
theorem changes_operate {d : Desk} (h : d.buffer.tracking = true) (operation : Operation) :
    (d.operate operation).buffer.changes = d.buffer.changes ++ d.splices operation := by
  have hd : ({ d with buffer := d.buffer.track } : Desk).prepend d.buffer.changes = d := by
    obtain ⟨⟨_, _, _, _, _, _, _, _, _, tracking, changes, _, _⟩, host⟩ := d
    obtain rfl : tracking = true := h
    simp [prepend, Buffer.prepend, Buffer.track]
  have hoperate := operate_prepend { d with buffer := d.buffer.track } d.buffer.changes operation
  rw [hd] at hoperate
  rw [hoperate]
  rfl

end Desk

end TextEditor
