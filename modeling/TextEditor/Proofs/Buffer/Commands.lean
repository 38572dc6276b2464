import TextEditor.Proofs.Buffer.Undoable

/-!
# What each operation does to the text

The operations on a buffer are put together from moves of caret and view, which are quiet, and
from `replaceRange`, which can be taken back.  So each of them can be taken back, and undo and
redo, which splice without writing down, are still heard by a follower.
-/

namespace TextEditor

namespace Buffer

/-! ## Caret and view -/

theorem quiet_report (b : Buffer) (entries : Journal) : b.Quiet (b.report entries) := by
  constructor
  · constructor <;> rfl
  · rfl
  · rfl

/-- Only caret, view and what the screen shows were changed. -/
theorem quiet_of_caret (b : Buffer) (caret : Caret) (viewport : Viewport) (dirty selecting : Bool) :
    b.Quiet { b with caret, viewport, dirty, selecting } := by
  constructor
  · constructor <;> rfl
  · rfl
  · rfl

theorem quiet_collapse (b : Buffer) (offset : Int) : b.Quiet (b.collapse offset) :=
  quiet_of_caret b _ _ _ _

theorem quiet_forgetColumn (b : Buffer) : b.Quiet b.forgetColumn :=
  quiet_of_caret b _ _ _ _

theorem quiet_place (b : Buffer) (offset trailing : Int) (extending : Bool) :
    b.Quiet (b.place offset trailing extending) :=
  quiet_of_caret b _ _ _ _

theorem quiet_updateBounds (b : Buffer) : b.Quiet b.updateBounds :=
  quiet_of_caret b _ _ _ _

theorem quiet_refreshView (b : Buffer) : b.Quiet b.refreshView :=
  (quiet_updateBounds b).trans (quiet_of_caret _ _ _ _ _)

theorem quiet_reconcile (b : Buffer) : b.Quiet b.reconcile := by
  have hclamp : b.Quiet b.clampCaret := quiet_of_caret b _ _ _ _
  have hfollow : b.clampCaret.updateBounds.Quiet b.clampCaret.updateBounds.followCaret :=
    quiet_of_caret _ _ _ _ _
  have hview := (hclamp.trans (quiet_updateBounds _)).trans hfollow
  exact hview.trans (quiet_refreshView _)

theorem quiet_resize (b : Buffer) (rows columns : Int) : b.Quiet (b.resize rows columns) :=
  (quiet_of_caret b _ _ _ _).trans (quiet_reconcile _)

theorem quiet_scrollToLine (b : Buffer) (line : Int) : b.Quiet (b.scrollToLine line) :=
  (quiet_of_caret b _ _ _ _).trans (quiet_refreshView _)

theorem quiet_scrollToColumn (b : Buffer) (column : Int) : b.Quiet (b.scrollToColumn column) :=
  (quiet_of_caret b _ _ _ _).trans (quiet_refreshView _)

theorem quiet_scrollUp (b : Buffer) (lines : Int) : b.Quiet (b.scrollUp lines) :=
  quiet_scrollToLine b _

theorem quiet_scrollDown (b : Buffer) (lines : Int) : b.Quiet (b.scrollDown lines) :=
  quiet_scrollToLine b _

theorem quiet_scrollLeft (b : Buffer) (columns : Int) : b.Quiet (b.scrollLeft columns) :=
  quiet_scrollToColumn b _

theorem quiet_scrollRight (b : Buffer) (columns : Int) : b.Quiet (b.scrollRight columns) :=
  quiet_scrollToColumn b _

theorem quiet_moveLines (b : Buffer) (delta : Int) (extending : Bool) :
    b.Quiet (b.moveLines delta extending) := by
  simp only [moveLines]
  split
  · exact Quiet.refl b
  · exact quiet_of_caret b _ _ _ _

theorem quiet_moveSteps (b : Buffer) (step : Int → Int) (count : Nat) (extending : Bool) :
    b.Quiet (b.moveSteps step count extending) :=
  (quiet_place b _ _ _).trans (quiet_forgetColumn _)

theorem quiet_move (b : Buffer) (motion : Motion) (count : Int) (extending : Bool) :
    b.Quiet (b.move motion count extending) := by
  refine Quiet.trans ?_ (quiet_reconcile _)
  cases motion with
  | up | down => exact quiet_moveLines b _ _
  | left | right | leftWord | rightWord => exact quiet_moveSteps b _ _ _

theorem quiet_click (b : Buffer) (hit : Hit) (extending : Bool) :
    b.Quiet (b.click hit extending) := by
  unfold click
  obtain ⟨offset, trailing⟩ := b.placeOfHit hit
  refine Quiet.trans ?_ (quiet_reconcile _)
  split
  · refine Quiet.trans ?_ (quiet_scrollDown _ _)
    exact quiet_of_caret b _ _ _ _
  · exact quiet_of_caret b _ _ _ _

theorem quiet_drag (b : Buffer) (hit : Hit) : b.Quiet (b.drag hit) := by
  unfold drag
  split
  · refine Quiet.trans ?_ (quiet_reconcile _)
    exact quiet_place b _ _ _
  · exact Quiet.refl b

theorem quiet_selecting (b : Buffer) (selecting : Bool) : b.Quiet { b with selecting } :=
  quiet_of_caret b _ _ _ _

theorem quiet_selectRun (b : Buffer) (hit : Hit) : b.Quiet (b.selectRun hit) := by
  unfold selectRun
  obtain ⟨offset, trailing⟩ := b.placeOfHit hit
  refine Quiet.trans ?_ (quiet_reconcile _)
  refine Quiet.trans ?_ (quiet_selecting _ false)
  refine Quiet.trans ?_ (quiet_forgetColumn _)
  split
  · exact quiet_collapse b _
  · exact quiet_of_caret b _ _ _ _

/-! ## Typing -/

theorem undoable_removeSelection (b : Buffer) : b.Undoable b.removeSelection := by
  unfold removeSelection
  split
  · exact (Quiet.refl b).undoable
  · exact (undoable_replaceRange b _ _ _ _).quiet (quiet_collapse _ _)

theorem undoable_insertText (b : Buffer) (t : Text) : b.Undoable (b.insertText t) := by
  simp only [insertText]
  split
  · exact (Quiet.refl b).undoable
  · refine Undoable.quiet (undoable_grouped b _ fun c _ hgroup => ?_)
      ((quiet_forgetColumn _).trans (quiet_reconcile _))
    exact (undoable_removeSelection c).trans hgroup
      ((undoable_replaceRange _ _ _ _ _).quiet (quiet_collapse _ _))

theorem undoable_dedentBefore (b : Buffer) (offset : Int) :
    b.Undoable (b.dedentBefore offset) := by
  simp only [dedentBefore]
  split
  · exact (Quiet.refl b).undoable
  · split
    · exact (Quiet.refl b).undoable
    · exact (undoable_replaceRange b _ _ _ _).quiet (quiet_collapse _ _)

theorem undoable_breakLine {b : Buffer} (hgroup : b.grouping.isSome) :
    b.Undoable b.breakLine := by
  simp only [breakLine]
  apply (undoable_removeSelection b).trans hgroup
  split
  · exact (undoable_replaceRange _ _ _ _ _).quiet (quiet_collapse _ _)
  · split <;> exact (undoable_replaceRange _ _ _ _ _).quiet (quiet_collapse _ _)

theorem undoable_insertNewline (b : Buffer) : b.Undoable b.insertNewline :=
  (undoable_grouped b _ fun _ _ hgroup => undoable_breakLine hgroup).quiet
    ((quiet_forgetColumn _).trans (quiet_reconcile _))

theorem undoable_insertCloser (b : Buffer) (t : Text) : b.Undoable (b.insertCloser t) :=
  undoable_grouped b _ fun c _ hgroup =>
    (undoable_dedentBefore c _).trans hgroup (undoable_insertText _ t)

theorem undoable_insertOpener (b : Buffer) (t : Text) : b.Undoable (b.insertOpener t) := by
  refine Undoable.quiet (undoable_grouped b _ fun c _ _ => ?_) (quiet_reconcile _)
  split
  · exact undoable_insertText c t
  · exact (undoable_insertText c _).quiet (quiet_collapse _ _)

theorem undoable_insertTyped (b : Buffer) (t : Text) : b.Undoable (b.insertTyped t) := by
  unfold insertTyped
  split
  · exact (Quiet.refl b).undoable
  split
  · exact undoable_insertText b _
  split
  · exact undoable_insertNewline b
  split
  · split
    · exact (quiet_move b _ _ _).undoable
    · exact undoable_insertCloser b t
  · exact undoable_insertOpener b t

/-! ## Deletion, copying and pasting -/

theorem undoable_deleteSelection (b : Buffer) : b.Undoable b.deleteSelection :=
  (undoable_removeSelection b).quiet ((quiet_forgetColumn _).trans (quiet_reconcile _))

theorem undoable_deleteLeft (b : Buffer) : b.Undoable b.deleteLeft := by
  simp only [deleteLeft]
  split
  · exact undoable_deleteSelection b
  · refine Undoable.quiet ?_ ((quiet_forgetColumn _).trans (quiet_reconcile _))
    split
    · exact (undoable_replaceRange b _ _ _ _).quiet (quiet_collapse _ _)
    · exact (Quiet.refl b).undoable

theorem undoable_deleteRight (b : Buffer) : b.Undoable b.deleteRight := by
  simp only [deleteRight]
  split
  · exact undoable_deleteSelection b
  · refine Undoable.quiet ?_ ((quiet_forgetColumn _).trans (quiet_reconcile _))
    split
    · exact (undoable_replaceRange b _ _ _ _).quiet (quiet_collapse _ _)
    · exact (Quiet.refl b).undoable

theorem undoable_deleteWord (b : Buffer) (motion : Motion) (label : String) :
    b.Undoable (b.deleteWord motion label) :=
  undoable_grouped b label fun c _ hgroup =>
    (quiet_move c _ _ _).undoable.trans hgroup (undoable_deleteSelection _)

theorem undoable_removeCopied (b : Buffer) : b.Undoable b.removeCopied := by
  simp only [removeCopied]
  refine Undoable.quiet (undoable_grouped b _ fun c _ _ => ?_)
    ((quiet_forgetColumn _).trans (quiet_reconcile _))
  split
  · exact undoable_removeSelection c
  · exact (undoable_replaceRange c _ _ _ _).quiet (quiet_collapse _ _)

theorem undoable_insertPasted (b : Buffer) (t : Text) : b.Undoable (b.insertPasted t) :=
  undoable_grouped b _ fun c _ _ => undoable_insertText c t

/-! ## Undo and redo -/

theorem relays_foldl_splice {step : Buffer → Edit → Buffer}
    (hstep : ∀ (b : Buffer) (edit : Edit), b.Relays (step b edit)) (edits : List Edit)
    (b : Buffer) : b.Relays (edits.foldl step b) := by
  induction edits generalizing b with
  | nil => exact Relays.refl b
  | cons edit rest ih => exact (hstep b edit).trans (ih (step b edit))

theorem relays_revertEdit (b : Buffer) (edit : Edit) : b.Relays (b.revertEdit edit) :=
  relays_splice b (by omega) _ _

theorem relays_repeatEdit (b : Buffer) (edit : Edit) : b.Relays (b.repeatEdit edit) :=
  relays_splice b (by omega) _ _

/-- The buffer with caret and anchor at two offsets. -/
def putCaret (b : Buffer) (caret anchor : Int) : Buffer :=
  { b.collapse caret with caret := { (b.collapse caret).caret with anchor } }

/-- The buffer while the entry that stands behind it is taken back. -/
def reverted (b : Buffer) (entry : UndoEntry) (timeline : Timeline) : Buffer :=
  entry.edits.reverse.foldl revertEdit
    { b.report [.started (replayActivity "undo" entry)] with timeline }

/-- The buffer while the entry that stands before it is done again. -/
def repeated (b : Buffer) (entry : UndoEntry) (timeline : Timeline) : Buffer :=
  entry.edits.foldl repeatEdit
    { b.report [.started (replayActivity "redo" entry)] with timeline }

theorem undo_eq {b : Buffer} {entry : UndoEntry} {timeline : Timeline}
    (h : b.timeline.undo? = some (entry, timeline)) :
    b.undo = ((((b.reverted entry timeline).putCaret entry.caretBefore entry.anchorBefore).report
      [.ended (replayActivity "undo" entry)]).reconcile, true) := by
  rw [undo, h]
  rfl

theorem redo_eq {b : Buffer} {entry : UndoEntry} {timeline : Timeline}
    (h : b.timeline.redo? = some (entry, timeline)) :
    b.redo = ((((b.repeated entry timeline).collapse entry.caretAfter).report
      [.ended (replayActivity "redo" entry)]).reconcile, true) := by
  rw [redo, h]
  rfl

theorem quiet_putCaret (b : Buffer) (caret anchor : Int) : b.Quiet (b.putCaret caret anchor) :=
  quiet_of_caret b _ _ _ _

theorem relays_undo (b : Buffer) : b.Relays b.undo.1 := by
  cases h : b.timeline.undo? with
  | none =>
    rw [undo, h]
    exact Relays.refl b
  | some next =>
    obtain ⟨entry, timeline⟩ := next
    have hstart : b.Rests { b.report [.started (replayActivity "undo" entry)] with timeline } := by
      constructor <;> rfl
    have hedits : b.Relays (b.reverted entry timeline) :=
      hstart.relays.trans (relays_foldl_splice relays_revertEdit entry.edits.reverse _)
    rw [undo_eq h]
    refine hedits.trans (Rests.relays (Quiet.toRests ?_))
    exact ((quiet_putCaret _ _ _).trans (quiet_report _ _)).trans (quiet_reconcile _)

theorem relays_redo (b : Buffer) : b.Relays b.redo.1 := by
  cases h : b.timeline.redo? with
  | none =>
    rw [redo, h]
    exact Relays.refl b
  | some next =>
    obtain ⟨entry, timeline⟩ := next
    have hstart : b.Rests { b.report [.started (replayActivity "redo" entry)] with timeline } := by
      constructor <;> rfl
    have hedits : b.Relays (b.repeated entry timeline) :=
      hstart.relays.trans (relays_foldl_splice relays_repeatEdit entry.edits _)
    rw [redo_eq h]
    refine hedits.trans (Rests.relays (Quiet.toRests ?_))
    exact ((quiet_collapse _ _).trans (quiet_report _ _)).trans (quiet_reconcile _)

end Buffer

/-! ## Commands -/

/-- Undo and redo, which take up edits that were written down before. -/
def Command.isReplay : Command → Bool
  | .undo | .redo => true
  | _ => false

namespace Desk

theorem quiet_withHit (d : Desk) (x y : Float) {f : Hit → Buffer → Buffer}
    (h : ∀ hit, d.buffer.Quiet (f hit d.buffer)) : d.buffer.Quiet (d.withHit x y f).2.buffer := by
  simp only [withHit]
  split
  · exact Buffer.Quiet.refl _
  · exact h _

theorem quiet_putOnClipboard (d : Desk) (t : Text) :
    d.buffer.Quiet (d.putOnClipboard t).buffer := by
  unfold putOnClipboard
  split
  · exact Buffer.Quiet.refl _
  split
  · exact Buffer.Quiet.refl _
  split
  · exact Buffer.Quiet.refl _
  · exact Buffer.quiet_report _ _

theorem caret_putOnClipboard (d : Desk) (t : Text) :
    (d.putOnClipboard t).buffer.caret = d.buffer.caret := by
  unfold putOnClipboard
  split
  · rfl
  · split
    · rfl
    · split <;> rfl

theorem undoable_paste (d : Desk) : d.buffer.Undoable d.paste.buffer := by
  unfold paste
  split
  · exact (Buffer.Quiet.refl _).undoable
  · exact (Buffer.Quiet.refl _).undoable
  · simp only [onBuffer]
    split
    · exact (Buffer.quiet_report _ _).undoable
    · exact Buffer.undoable_insertPasted _ _

/-- Whatever a command other than undo and redo does to the text can be taken back. -/
theorem undoable_perform (d : Desk) {command : Command} (h : command.isReplay = false) :
    d.buffer.Undoable (d.perform command).2.buffer := by
  cases command with
  | undo | redo => simp [Command.isReplay] at h
  | move motion count extending =>
    exact (Buffer.quiet_move d.buffer motion count extending).undoable
  | page motion extending => exact (Buffer.quiet_move d.buffer motion _ extending).undoable
  | insertText text => exact Buffer.undoable_insertText _ _
  | insertTyped text => exact Buffer.undoable_insertTyped _ _
  | insertNewline => exact Buffer.undoable_insertNewline _
  | deleteLeft => exact Buffer.undoable_deleteLeft _
  | deleteRight => exact Buffer.undoable_deleteRight _
  | deleteWordLeft | deleteWordRight => exact Buffer.undoable_deleteWord _ _ _
  | deleteSelection => exact Buffer.undoable_deleteSelection _
  | copy => exact (quiet_putOnClipboard d _).undoable
  | cut =>
    exact (quiet_putOnClipboard d _).undoable_trans (caret_putOnClipboard d _)
      (Buffer.undoable_removeCopied _)
  | paste => exact undoable_paste d
  | click x y extending =>
    exact (quiet_withHit d x y (f := fun hit b => b.click hit extending) fun hit =>
      Buffer.quiet_click d.buffer hit extending).undoable
  | doubleClick x y =>
    exact (quiet_withHit d x y (f := fun hit b => b.selectRun hit) fun hit =>
      Buffer.quiet_selectRun d.buffer hit).undoable
  | drag x y =>
    simp only [perform]
    split
    · exact (quiet_withHit d x y (f := fun hit b => b.drag hit) fun hit =>
        Buffer.quiet_drag d.buffer hit).undoable
    · exact (Buffer.Quiet.refl _).undoable
  | release => exact (Buffer.quiet_selecting _ _).undoable
  | scrollUp lines => exact (Buffer.quiet_scrollUp d.buffer lines).undoable
  | scrollDown lines => exact (Buffer.quiet_scrollDown d.buffer lines).undoable
  | scrollLeft columns => exact (Buffer.quiet_scrollLeft d.buffer columns).undoable
  | scrollRight columns => exact (Buffer.quiet_scrollRight d.buffer columns).undoable
  | resize rows columns => exact (Buffer.quiet_resize _ _ _).undoable
  | reconcile => exact (Buffer.quiet_reconcile _).undoable

/-- A follower hears of everything that a command does to the text. -/
theorem relays_perform (d : Desk) (command : Command) :
    d.buffer.Relays (d.perform command).2.buffer := by
  cases h : command.isReplay with
  | false =>
    obtain ⟨edits, hedits, -⟩ := undoable_perform d h
    exact hedits.toRelays
  | true =>
    cases command <;> simp only [Command.isReplay, Bool.false_eq_true] at h
    · exact Buffer.relays_undo d.buffer
    · exact Buffer.relays_redo d.buffer

end Desk

end TextEditor
