import TextEditor.Proofs.Buffer.Calls
import TextEditor.Proofs.Buffer.Recall

/-!
# Where redo leaves the caret

An entry of the history holds the caret as it was when the group of the operation ended.  An
operation that moves the caret before that is done again with the caret where it left it.  Some
deletions leave the group to `replaceRange`, which ends it at once, and move the caret afterwards;
redo brings back their text, but with the caret where it was before them.
-/

namespace TextEditor

theorem Document.clamp_clamp (d : Document) (offset : Int) :
    d.clamp (d.clamp offset) = d.clamp offset :=
  Int.ofNat_inj.1 (d.within_clamp offset).clamp

theorem Document.clamp_congr {d e : Document} (h : d.text = e.text) (offset : Int) :
    d.clamp offset = e.clamp offset := by
  rw [clamp, clamp, length, length, h]

namespace Buffer

/-- Caret and anchor are at one place, and on no trailing edge. -/
def Upright (b : Buffer) : Prop :=
  b.caret.trailing = 0 ∧ b.caret.anchor = b.caret.position

/-- The operation did nothing to the text, or put caret and anchor at one place. -/
def Lands (b c : Buffer) : Prop :=
  c.document = b.document ∨ c.Upright

/-- The operation was written down as the latest entry, with the caret after it at an offset. -/
def Notes (b c : Buffer) (caretAfter : Int) : Prop :=
  ∃ label edits, Edit.Leads edits b.text c.text ∧
    c.timeline =
      b.timeline.push ⟨label, edits, b.caret.absolute, b.caret.anchor, caretAfter⟩

/-- The operation was written down with the place where it left the caret, as far as the text
reaches. -/
def Resumes (b c : Buffer) : Prop :=
  c.Upright ∧ ∃ caretAfter, b.Notes c caretAfter ∧
    c.document.clamp c.caret.position = c.document.clamp caretAfter

/-- Whether the command ends the group of its edit before it moves the caret. -/
def movesLate (b : Buffer) : Command → Bool
  | .deleteLeft | .deleteSelection => true
  | .deleteRight => b.caret.hasSelection
  | _ => false

variable {a b c : Buffer}

/-! ## Caret and anchor at one place -/

theorem Upright.absolute (h : b.Upright) : b.caret.absolute = b.caret.position := by
  rw [Caret.absolute, h.1, Int.add_zero]

theorem upright_collapse (b : Buffer) (offset : Int) : (b.collapse offset).Upright :=
  ⟨rfl, rfl⟩

theorem Upright.of_caret (h : b.Upright) (hcaret : c.caret = b.caret) : c.Upright := by
  rw [Upright, hcaret]
  exact h

theorem Upright.endGroup (h : b.Upright) : b.endGroup.Upright :=
  h.of_caret (caret_endGroup b)

theorem Upright.forgetColumn (h : b.Upright) : b.forgetColumn.Upright :=
  h

theorem Upright.reconcile (h : b.Upright) : b.reconcile.Upright := by
  obtain ⟨htrailing, hanchor⟩ := h
  constructor
  · change b.clampCaret.caret.trailing = 0
    simp only [clampCaret, htrailing, ite_self]
  · change b.clampCaret.caret.anchor = b.clampCaret.caret.position
    simp only [clampCaret, hanchor]

theorem position_reconcile (b : Buffer) :
    b.reconcile.caret.position = b.document.clamp b.caret.position :=
  rfl

theorem lands_removeSelection (b : Buffer) : b.Lands b.removeSelection := by
  unfold removeSelection
  split
  · exact .inl rfl
  · exact .inr (upright_collapse _ _)

theorem upright_insertText (b : Buffer) {t : Text} (ht : t.isEmpty = false) :
    (b.insertText t).Upright := by
  simp only [insertText, ht, Bool.false_eq_true, if_false]
  refine (Upright.forgetColumn ?_).reconcile
  exact grouped_induction b _ (fun _ _ _ => upright_collapse _ _) fun _ hc => hc.endGroup

theorem lands_insertText (b : Buffer) (t : Text) : b.Lands (b.insertText t) := by
  cases ht : t.isEmpty with
  | true =>
    rw [insertText, if_pos ht]
    exact .inl rfl
  | false => exact .inr (upright_insertText b ht)

theorem upright_breakLine (b : Buffer) : b.breakLine.Upright := by
  simp only [breakLine]
  split
  · exact upright_collapse _ _
  · split <;> exact upright_collapse _ _

theorem lands_deleteSelection (b : Buffer) : b.Lands b.deleteSelection := by
  rcases lands_removeSelection b with hdocument | hupright
  · exact .inl ((quiet_reconcile _).document.trans hdocument)
  · exact .inr (Upright.reconcile (b := b.removeSelection.forgetColumn) hupright)

/-! ## What is written down -/

theorem Notes.quiet {caretAfter : Int} (h : a.Notes b caretAfter) (hquiet : b.Quiet c) :
    a.Notes c caretAfter := by
  obtain ⟨label, edits, hleads, htimeline⟩ := h
  refine ⟨label, edits, ?_, hquiet.timeline.trans htimeline⟩
  rwa [text, text, hquiet.document]

/-- Reports and the clipboard may come first. -/
theorem Quiet.notes_trans {caretAfter : Int} (hquiet : a.Quiet b) (hcaret : b.caret = a.caret)
    (h : b.Notes c caretAfter) : a.Notes c caretAfter := by
  obtain ⟨label, edits, hleads, htimeline⟩ := h
  refine ⟨label, edits, ?_, ?_⟩
  · rwa [text, hquiet.document] at hleads
  · rwa [hquiet.timeline, hcaret] at htimeline

/-- A group of its own is written down with the caret at which it ended. -/
theorem notes_grouped (hidle : b.grouping = none) (label : String) {operation : Buffer → Buffer}
    (hundoable : ∀ c, b.Rests c → c.grouping.isSome → c.Undoable (operation c))
    (hversion : (b.grouped label operation).document.version ≠ b.document.version) :
    b.Notes (b.grouped label operation) (b.grouped label operation).caret.absolute := by
  have hbegin := rests_beginGroup b label
  obtain ⟨edits, hedits, hwritten⟩ := hundoable _ hbegin rfl
  have heq : b.grouped label operation = (operation (b.beginGroup label)).endGroup := by
    rw [grouped, hidle]
  rw [heq] at hversion ⊢
  generalize operation (b.beginGroup label) = c at hedits hwritten hversion ⊢
  have hne : edits ≠ [] := by
    intro hnil
    apply hversion
    rw [(rests_endGroup c).document, hedits.rests hnil, hbegin.document]
  simp only [beginGroup, Grouping.add, List.nil_append] at hwritten
  obtain ⟨htimeline, hgrouping⟩ := hwritten
  refine ⟨label, edits, ?_, ?_⟩
  · rw [text, text, (rests_endGroup c).document]
    exact hedits.leads
  · have hbefore : (b.report [.started (b.activity label)]).timeline = b.timeline := rfl
    rw [caret_endGroup]
    simp [endGroup, hgrouping, hne, htimeline, hbefore]

theorem caret_replaceRange (b : Buffer) (start stop : Int) (new : Text) (label : String) :
    (b.replaceRange start stop new label).caret = b.caret := by
  simp only [replaceRange]
  split
  · rfl
  · exact grouped_induction (motive := fun c => c.caret = b.caret) b label
      (fun _ _ hcaret => hcaret) fun c hc => (caret_endGroup c).trans hc

/-- A replacement by itself is written down with the caret where it was before. -/
theorem notes_replaceRange (hidle : b.grouping = none) (start stop : Int) (new : Text)
    (label : String)
    (hversion :
      (b.replaceRange start stop new label).document.version ≠ b.document.version) :
    b.Notes (b.replaceRange start stop new label) b.caret.absolute := by
  have heq : b.replaceRange start stop new label =
      b.grouped label fun c => c.replaceRange start stop new label := by
    have hbegin : (b.beginGroup label).document = b.document := rfl
    have hsome : (b.beginGroup label).grouping =
        some ⟨label, [], b.caret.absolute, b.caret.anchor⟩ := rfl
    by_cases hedit : min (b.document.clamp start) (b.document.clamp stop) =
        max (b.document.clamp start) (b.document.clamp stop) && new.isEmpty
    · exact absurd (by rw [replaceRange, if_pos hedit]) hversion
    · simp only [replaceRange, grouped, hidle, hbegin, hsome, if_neg hedit]
  have hcaret := congrArg Caret.absolute (caret_replaceRange b start stop new label)
  rw [← hcaret]
  rw [heq] at hversion ⊢
  exact notes_grouped hidle label (fun c _ _ => undoable_replaceRange c _ _ _ _) hversion

/-! ## Operations that move the caret in time -/

theorem Resumes.of_notes (hupright : c.Upright) (h : b.Notes c c.caret.absolute) :
    b.Resumes c :=
  ⟨hupright, _, h, by rw [hupright.absolute]⟩

theorem resumes_grouped (hidle : b.grouping = none) (label : String)
    {operation : Buffer → Buffer}
    (hundoable : ∀ c, b.Rests c → c.grouping.isSome → c.Undoable (operation c))
    (hlands : ∀ c : Buffer, c.Lands (operation c))
    (hversion : (b.grouped label operation).document.version ≠ b.document.version) :
    b.Resumes (b.grouped label operation) := by
  have hnotes := notes_grouped hidle label hundoable hversion
  refine Resumes.of_notes ?_ hnotes
  have hgrouped : b.Lands (b.grouped label operation) :=
    grouped_induction b label
      (fun c hdocument _ => (hlands c).imp (fun h => h.trans hdocument) id)
      fun c hc => hc.imp (fun h => (rests_endGroup c).document.trans h) Upright.endGroup
  exact hgrouped.resolve_left fun hdocument => hversion (congrArg Document.version hdocument)

theorem Resumes.forgetColumn (h : b.Resumes c) : b.Resumes c.forgetColumn := by
  obtain ⟨hupright, caretAfter, hnotes, hclamp⟩ := h
  exact ⟨hupright, caretAfter, hnotes.quiet (quiet_forgetColumn c), hclamp⟩

theorem Resumes.reconcile (h : b.Resumes c) : b.Resumes c.reconcile := by
  obtain ⟨hupright, caretAfter, hnotes, hclamp⟩ := h
  refine ⟨hupright.reconcile, caretAfter, hnotes.quiet (quiet_reconcile c), ?_⟩
  rw [position_reconcile, (quiet_reconcile c).document, Document.clamp_clamp, hclamp]

/-- The version tells the same of an operation and of what came before `reconcile`. -/
theorem version_reconcile (b : Buffer) : b.reconcile.document.version = b.document.version :=
  congrArg Document.version (quiet_reconcile b).document

theorem resumes_insertText (hidle : b.grouping = none) {t : Text}
    (hversion : (b.insertText t).document.version ≠ b.document.version) :
    b.Resumes (b.insertText t) := by
  cases ht : t.isEmpty with
  | true => exact absurd (by rw [insertText, if_pos ht]) hversion
  | false =>
    simp only [insertText, ht, Bool.false_eq_true, if_false, version_reconcile] at hversion ⊢
    refine Resumes.reconcile (Resumes.forgetColumn ?_)
    refine resumes_grouped hidle _ (fun c _ hgroup => ?_) (fun c => ?_) hversion
    · exact (undoable_removeSelection c).trans hgroup
        ((undoable_replaceRange _ _ _ _ _).quiet (quiet_collapse _ _))
    · exact .inr (upright_collapse _ _)

theorem resumes_insertNewline (hidle : b.grouping = none)
    (hversion : b.insertNewline.document.version ≠ b.document.version) :
    b.Resumes b.insertNewline := by
  simp only [insertNewline, version_reconcile] at hversion ⊢
  exact (resumes_grouped hidle _ (fun _ _ hgroup => undoable_breakLine hgroup)
    (fun c => .inr (upright_breakLine c)) hversion).forgetColumn.reconcile

theorem resumes_insertCloser (hidle : b.grouping = none) {t : Text} (ht : t.isEmpty = false)
    (hversion : (b.insertCloser t).document.version ≠ b.document.version) :
    b.Resumes (b.insertCloser t) :=
  resumes_grouped hidle _
    (fun c _ hgroup => (undoable_dedentBefore c _).trans hgroup (undoable_insertText _ t))
    (fun _ => .inr (upright_insertText _ ht)) hversion

theorem resumes_insertOpener (hidle : b.grouping = none) {t : Text} (ht : t.isEmpty = false)
    (hversion : (b.insertOpener t).document.version ≠ b.document.version) :
    b.Resumes (b.insertOpener t) := by
  simp only [insertOpener, version_reconcile] at hversion ⊢
  refine (resumes_grouped hidle _ (fun c _ _ => ?_) (fun c => ?_) hversion).reconcile
  · split
    · exact undoable_insertText c t
    · exact (undoable_insertText c _).quiet (quiet_collapse _ _)
  · split
    · exact .inr (upright_insertText c ht)
    · exact .inr (upright_collapse _ _)

theorem resumes_insertTyped (hidle : b.grouping = none) {t : Text}
    (hversion : (b.insertTyped t).document.version ≠ b.document.version) :
    b.Resumes (b.insertTyped t) := by
  revert hversion
  unfold insertTyped
  split
  · exact fun hversion => absurd rfl hversion
  next ht =>
  have ht : t.isEmpty = false := by simpa using ht
  split
  · exact resumes_insertText hidle
  split
  · exact resumes_insertNewline hidle
  split
  · split
    · have hquiet := quiet_move b .right 1 false
      exact fun hversion => absurd (congrArg Document.version hquiet.document) hversion
    · exact resumes_insertCloser hidle ht
  · exact resumes_insertOpener hidle ht

theorem resumes_deleteWord (hidle : b.grouping = none) (motion : Motion) (label : String)
    (hversion : (b.deleteWord motion label).document.version ≠ b.document.version) :
    b.Resumes (b.deleteWord motion label) := by
  refine resumes_grouped hidle label (fun c _ hgroup => ?_) (fun c => ?_) hversion
  · exact (quiet_move c _ _ _).undoable.trans hgroup (undoable_deleteSelection _)
  · have hmove := (quiet_move c motion 1 true).document
    exact (lands_deleteSelection _).imp (fun h => h.trans hmove) id

theorem resumes_removeCopied (hidle : b.grouping = none)
    (hversion : b.removeCopied.document.version ≠ b.document.version) :
    b.Resumes b.removeCopied := by
  simp only [removeCopied, version_reconcile] at hversion ⊢
  refine Resumes.reconcile (Resumes.forgetColumn ?_)
  refine resumes_grouped hidle _ (fun c _ _ => ?_) (fun c => ?_) hversion
  · split
    · exact undoable_removeSelection c
    · exact (undoable_replaceRange c _ _ _ _).quiet (quiet_collapse _ _)
  · split
    · exact lands_removeSelection c
    · exact .inr (upright_collapse _ _)

theorem resumes_insertPasted (hidle : b.grouping = none) {t : Text}
    (hversion : (b.insertPasted t).document.version ≠ b.document.version) :
    b.Resumes (b.insertPasted t) :=
  resumes_grouped hidle _ (fun c _ _ => undoable_insertText c t) (fun c => lands_insertText c t)
    hversion

/-- Deletion to the right leaves the caret where it is. -/
theorem resumes_deleteRight (hidle : b.grouping = none) (hselection : b.caret.hasSelection = false)
    (hversion : b.deleteRight.document.version ≠ b.document.version) :
    b.Resumes b.deleteRight := by
  revert hversion
  simp only [deleteRight, hselection, Bool.false_eq_true, if_false, version_reconcile]
  split
  · intro hversion
    have hnotes :=
      (notes_replaceRange hidle _ _ _ _ hversion).quiet (quiet_collapse _ b.caret.absolute)
    exact Resumes.reconcile (Resumes.forgetColumn ⟨upright_collapse _ _, _, hnotes, rfl⟩)
  · exact fun hversion => absurd rfl hversion

/-! ## Deletions that move the caret too late -/

theorem notes_removeSelection (hidle : b.grouping = none)
    (hversion : b.removeSelection.document.version ≠ b.document.version) :
    b.Notes b.removeSelection b.caret.absolute := by
  revert hversion
  unfold removeSelection
  split
  · exact fun hversion => absurd rfl hversion
  · exact fun hversion => (notes_replaceRange hidle _ _ _ _ hversion).quiet (quiet_collapse _ _)

theorem notes_deleteSelection (hidle : b.grouping = none)
    (hversion : b.deleteSelection.document.version ≠ b.document.version) :
    b.Notes b.deleteSelection b.caret.absolute := by
  simp only [deleteSelection, version_reconcile] at hversion ⊢
  exact (notes_removeSelection hidle hversion).quiet
    ((quiet_forgetColumn _).trans (quiet_reconcile _))

theorem notes_deleteLeft (hidle : b.grouping = none)
    (hversion : b.deleteLeft.document.version ≠ b.document.version) :
    b.Notes b.deleteLeft b.caret.absolute := by
  revert hversion
  simp only [deleteLeft]
  split
  · exact notes_deleteSelection hidle
  rw [version_reconcile]
  split
  · intro hversion
    refine Notes.quiet ?_ ((quiet_forgetColumn _).trans (quiet_reconcile _))
    refine Notes.quiet ?_ (quiet_collapse _ _)
    exact notes_replaceRange hidle _ _ _ _ hversion
  · exact fun hversion => absurd rfl hversion

end Buffer

/-! ## Commands -/

namespace Desk

variable {d : Desk}

theorem resumes_paste (hidle : d.buffer.grouping = none)
    (hversion : d.paste.buffer.document.version ≠ d.buffer.document.version) :
    d.buffer.Resumes d.paste.buffer := by
  revert hversion
  unfold paste
  split
  · exact fun hversion => absurd rfl hversion
  · exact fun hversion => absurd rfl hversion
  · simp only [onBuffer]
    split
    · exact fun hversion => absurd rfl hversion
    · exact Buffer.resumes_insertPasted hidle

theorem resumes_cut (hidle : d.buffer.grouping = none) (t : Text)
    (hversion : (d.putOnClipboard t).buffer.removeCopied.document.version ≠
      d.buffer.document.version) :
    d.buffer.Resumes (d.putOnClipboard t).buffer.removeCopied := by
  have hquiet := quiet_putOnClipboard d t
  have hcut : (d.putOnClipboard t).buffer.Resumes (d.putOnClipboard t).buffer.removeCopied :=
    Buffer.resumes_removeCopied (hquiet.grouping.trans hidle) (by rwa [hquiet.document])
  obtain ⟨hupright, caretAfter, hnotes, hclamp⟩ := hcut
  exact ⟨hupright, caretAfter, hquiet.notes_trans (caret_putOnClipboard d t) hnotes, hclamp⟩

/-- Every command that edits is written down, with the caret as it left it unless it moves the
caret late; then with the caret before it. -/
theorem notes_perform (hidle : d.buffer.grouping = none) {command : Command}
    (hreplay : command.isReplay = false)
    (hversion : (d.perform command).2.buffer.document.version ≠ d.buffer.document.version) :
    if d.buffer.movesLate command then
      d.buffer.Notes (d.perform command).2.buffer d.buffer.caret.absolute
    else d.buffer.Resumes (d.perform command).2.buffer := by
  -- Whatever is quiet has not edited.
  have hquiet : ¬ d.buffer.Quiet (d.perform command).2.buffer := fun h =>
    hversion (congrArg Document.version h.document)
  cases command with
  | undo | redo => cases hreplay
  | insertText t => exact Buffer.resumes_insertText hidle hversion
  | insertTyped t => exact Buffer.resumes_insertTyped hidle hversion
  | insertNewline => exact Buffer.resumes_insertNewline hidle hversion
  | deleteLeft => exact Buffer.notes_deleteLeft hidle hversion
  | deleteSelection => exact Buffer.notes_deleteSelection hidle hversion
  | deleteRight =>
    cases hselection : d.buffer.caret.hasSelection with
    | true =>
      have heq : d.buffer.deleteRight = d.buffer.deleteSelection := by
        rw [Buffer.deleteRight, if_pos hselection]
      simp only [perform, onBuffer, heq, Buffer.movesLate, hselection, if_true] at hversion ⊢
      exact Buffer.notes_deleteSelection hidle hversion
    | false =>
      simp only [Buffer.movesLate, hselection, Bool.false_eq_true, if_false]
      exact Buffer.resumes_deleteRight hidle hselection hversion
  | deleteWordLeft | deleteWordRight => exact Buffer.resumes_deleteWord hidle _ _ hversion
  | cut => exact resumes_cut hidle _ hversion
  | paste => exact resumes_paste hidle hversion
  | copy => exact absurd (quiet_putOnClipboard d _) hquiet
  | move motion count extending =>
    exact absurd (Buffer.quiet_move d.buffer motion count extending) hquiet
  | page motion extending => exact absurd (Buffer.quiet_move d.buffer motion _ extending) hquiet
  | click x y extending =>
    refine absurd (quiet_withHit d x y fun hit => ?_) hquiet
    exact Buffer.quiet_click d.buffer hit extending
  | doubleClick x y =>
    refine absurd (quiet_withHit d x y fun hit => ?_) hquiet
    exact Buffer.quiet_selectRun d.buffer hit
  | drag x y =>
    simp only [perform] at hquiet
    split at hquiet
    · refine absurd (quiet_withHit d x y fun hit => ?_) hquiet
      exact Buffer.quiet_drag d.buffer hit
    · exact absurd (Buffer.Quiet.refl _) hquiet
  | release => exact absurd (Buffer.quiet_selecting d.buffer _) hquiet
  | scrollUp lines => exact absurd (Buffer.quiet_scrollUp d.buffer lines) hquiet
  | scrollDown lines => exact absurd (Buffer.quiet_scrollDown d.buffer lines) hquiet
  | scrollLeft columns => exact absurd (Buffer.quiet_scrollLeft d.buffer columns) hquiet
  | scrollRight columns => exact absurd (Buffer.quiet_scrollRight d.buffer columns) hquiet
  | resize rows columns => exact absurd (Buffer.quiet_resize d.buffer rows columns) hquiet
  | reconcile => exact absurd (Buffer.quiet_reconcile d.buffer) hquiet

end Desk

/-! ## Undo and redo after a command -/

namespace Buffer

variable {b c : Buffer}

/-- Redo puts caret and anchor where the entry says, as far as the text reaches. -/
theorem scene_redo {entry : UndoEntry} {timeline : Timeline}
    (htimeline : b.timeline.redo? = some (entry, timeline)) :
    let place := b.redo.1.document.clamp entry.caretAfter
    b.redo.1.scene = ⟨b.redo.1.text, place, place⟩ := by
  rw [redo_eq htimeline]
  generalize hc : ((b.repeated entry timeline).collapse entry.caretAfter).report
    [.ended (replayActivity "redo" entry)] = c
  have hupright : c.Upright := by
    rw [← hc]
    exact upright_collapse _ _
  have hposition : c.caret.position = entry.caretAfter := by
    rw [← hc]
    rfl
  rw [scene, hupright.reconcile.absolute, hupright.reconcile.2, position_reconcile, hposition,
    (quiet_reconcile c).document]

/-- What was written down is taken back and done again. -/
theorem redo_undo_of_notes (hinside : b.Inside) (hlimit : 0 < b.timeline.limit)
    {caretAfter : Int} (hnotes : b.Notes c caretAfter) :
    let place := c.document.clamp caretAfter
    c.undo.2 = true ∧ c.undo.1.scene = b.scene ∧ c.undo.1.redo.2 = true ∧
      c.undo.1.redo.1.scene = ⟨c.text, place, place⟩ := by
  obtain ⟨label, edits, hleads, hpushed⟩ := hnotes
  let entry : UndoEntry := ⟨label, edits, b.caret.absolute, b.caret.anchor, caretAfter⟩
  have hfits : entry.Fits ⟨b.scene, c.text⟩ :=
    ⟨hleads, rfl, rfl, hinside.absolute, hinside.anchor⟩
  obtain ⟨older, hdone⟩ : ∃ older, c.timeline.done = entry :: older := by
    rw [hpushed, Timeline.push]
    obtain ⟨limit, hlimit⟩ := Nat.exists_eq_add_of_lt hlimit
    rw [hlimit, Nat.zero_add]
    exact ⟨b.timeline.done.take limit, rfl⟩
  have hundo : c.timeline.undo? = some (entry,
      { c.timeline with done := older, undone := entry :: c.timeline.undone }) := by
    rw [Timeline.undo?, hdone]
  obtain ⟨hundone, hscene, htimeline, -⟩ := undo_of_fits hundo hfits rfl
  have hredo : c.undo.1.timeline.redo? = some (entry, c.timeline) := by
    rw [htimeline]
    exact Timeline.redo?_of_undo? hundo
  obtain ⟨hredone, htext, -, -⟩ := redo_of_fits hredo hfits (congrArg Scene.text hscene)
  refine ⟨hundone, hscene, hredone, ?_⟩
  rw [scene_redo hredo, Document.clamp_congr htext, htext]

theorem Undoable.limit (h : b.Undoable c) : c.timeline.limit = b.timeline.limit := by
  obtain ⟨edits, -, hwritten⟩ := h
  cases hgrouping : b.grouping with
  | some group =>
    rw [hgrouping] at hwritten
    rw [hwritten.1]
  | none =>
    rw [hgrouping] at hwritten
    obtain ⟨-, htimeline⟩ := hwritten
    split at htimeline
    · rw [htimeline]
    · obtain ⟨label, caretAfter, htimeline⟩ := htimeline
      rw [htimeline, Timeline.push]

/-- Undo neither begins nor ends a group. -/
theorem frame_undo (b : Buffer) :
    b.undo.1.grouping = b.grouping ∧ b.undo.1.timeline.limit = b.timeline.limit := by
  cases hdone : b.timeline.done with
  | nil => simp [undo, Timeline.undo?, hdone]
  | cons entry older =>
    have hundo : b.timeline.undo? = some (entry,
        { b.timeline with done := older, undone := entry :: b.timeline.undone }) := by
      rw [Timeline.undo?, hdone]
    rw [undo_eq hundo, (quiet_reconcile _).timeline, (quiet_reconcile _).grouping]
    exact ⟨field_foldl Buffer.grouping revertEdit (fun _ _ => rfl) _ _,
      field_foldl (fun b => b.timeline.limit) revertEdit (fun _ _ => rfl) _ _⟩

/-- Nor does redo. -/
theorem frame_redo (b : Buffer) :
    b.redo.1.grouping = b.grouping ∧ b.redo.1.timeline.limit = b.timeline.limit := by
  cases hundone : b.timeline.undone with
  | nil => simp [redo, Timeline.redo?, hundone]
  | cons entry later =>
    have hredo : b.timeline.redo? = some (entry,
        { b.timeline with done := entry :: b.timeline.done, undone := later }) := by
      rw [Timeline.redo?, hundone]
    rw [redo_eq hredo, (quiet_reconcile _).timeline, (quiet_reconcile _).grouping]
    exact ⟨field_foldl Buffer.grouping repeatEdit (fun _ _ => rfl) _ _,
      field_foldl (fun b => b.timeline.limit) repeatEdit (fun _ _ => rfl) _ _⟩

theorem limit_endGroup (b : Buffer) : b.endGroup.timeline.limit = b.timeline.limit := by
  unfold endGroup
  split
  · rfl
  · dsimp only
    split <;> rfl

end Buffer

namespace Desk

theorem limit_call (d : Desk) (call : Call) :
    (d.call call).buffer.timeline.limit = d.buffer.timeline.limit := by
  cases call with
  | perform command =>
    cases hreplay : command.isReplay with
    | false => exact (undoable_perform d hreplay).limit
    | true =>
      cases command <;> simp only [Command.isReplay, Bool.false_eq_true] at hreplay
      · exact (Buffer.frame_undo d.buffer).2
      · exact (Buffer.frame_redo d.buffer).2
  | enter label =>
    simp only [Desk.call, onBuffer]
    split <;> rfl
  | leave => exact Buffer.limit_endGroup d.buffer
  | abandon reason =>
    simp only [Desk.call, onBuffer, Buffer.abandonGroup]
    split <;> rfl
  | rehost | follow | unfollow | drain => rfl

theorem limit_foldl_call (d : Desk) (calls : List Call) :
    (calls.foldl call d).buffer.timeline.limit = d.buffer.timeline.limit := by
  induction calls generalizing d with
  | nil => rfl
  | cons c rest ih => exact (ih _).trans (limit_call d c)

/-- Whatever was called before, a command that edits outside any group is taken back by undo, to
the scene before it, and done again by redo: its text, and the caret as the command left it.  A
command that moves the caret late is done again with the caret where it was before it, as far as
the text reaches. -/
theorem resumes_of_calls (path : String) (t : Text) (rows columns : Int) (settings : Settings)
    (host : Host) (calls : List Call) (command : Command) :
    let d := calls.foldl call ⟨Buffer.create path t rows columns settings, host⟩
    let b := (d.perform command).2.buffer
    d.buffer.grouping = none → command.isReplay = false →
      b.document.version ≠ d.buffer.document.version →
        b.undo.2 = true ∧ b.undo.1.scene = d.buffer.scene ∧ b.undo.1.redo.2 = true ∧
          b.undo.1.redo.1.scene =
            if d.buffer.movesLate command then
              let place := b.document.clamp d.buffer.caret.absolute
              ⟨b.text, place, place⟩
            else b.scene := by
  intro d b hidle hreplay hversion
  have hkept : d.buffer.Kept := kept_foldl_call (d := ⟨_, host⟩)
    (Buffer.settled_create path t rows columns settings).toKept calls
  have hlimit : 0 < d.buffer.timeline.limit := by
    rw [limit_foldl_call]
    exact Nat.succ_pos _
  have hnotes := notes_perform hidle hreplay hversion
  split at hnotes
  · next hlate =>
    rw [if_pos hlate]
    exact Buffer.redo_undo_of_notes hkept.inside hlimit hnotes
  · next hlate =>
    rw [if_neg hlate]
    obtain ⟨hupright, caretAfter, hnotes, hclamp⟩ := hnotes
    obtain ⟨hundone, hbefore, hredone, hafter⟩ :=
      Buffer.redo_undo_of_notes hkept.inside hlimit hnotes
    refine ⟨hundone, hbefore, hredone, hafter.trans ?_⟩
    -- The caret that the command left is within the text, so nothing of it is cut off.
    have hinside : b.Inside := (kept_perform hkept command).inside
    rw [← hclamp, hinside.position.clamp, Buffer.scene, hupright.absolute, hupright.2]

/-- Two characters with the caret between them. -/
def between : Desk :=
  ⟨Buffer.create "" ['a', 'b'] 24 80 .usual, {}⟩

theorem resumes_of_between :
    let d := [Call.perform (.move .right 1 false)].foldl call between
    let b := (d.perform .deleteLeft).2.buffer
    (d.buffer.grouping = none ∧ Command.deleteLeft.isReplay = false ∧
      b.document.version ≠ d.buffer.document.version) ∧
        b.undo.2 = true ∧ b.undo.1.scene = d.buffer.scene ∧ b.undo.1.redo.2 = true ∧
          b.undo.1.redo.1.scene =
            if d.buffer.movesLate .deleteLeft then
              let place := b.document.clamp d.buffer.caret.absolute
              ⟨b.text, place, place⟩
            else b.scene := by
  intro d b
  have hidle : d.buffer.grouping = none := by decide +kernel
  have hversion : b.document.version ≠ d.buffer.document.version := by decide +kernel
  exact ⟨⟨hidle, rfl, hversion⟩,
    resumes_of_calls "" ['a', 'b'] 24 80 .usual {} [.perform (.move .right 1 false)] .deleteLeft
      hidle rfl hversion⟩

/-- The character before the caret is deleted, which leaves the caret at the start of the text.
Redo deletes it again and leaves the caret behind the next one. -/
theorem between_redo_elsewhere :
    let d := [Call.perform (.move .right 1 false)].foldl call between
    let b := (d.perform .deleteLeft).2.buffer
    d.buffer.grouping = none ∧ b.document.version ≠ d.buffer.document.version ∧
      b.scene = ⟨['b'], 0, 0⟩ ∧ b.undo.1.scene = ⟨['a', 'b'], 1, 1⟩ ∧
        b.undo.1.redo.1.scene = ⟨['b'], 1, 1⟩ := by
  decide +kernel

end Desk

end TextEditor
